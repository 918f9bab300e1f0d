import ImsProvisioning.Proofs.Traffic.Progress

/-! # Isolated failures

A call that fails, or in which the backend breaks off, concerns its own caller alone. The
host goes on with the state that the call left, and had the call ended otherwise, only its
own caller would know.
-/

namespace ImsProvisioning

/-- Two backends that do the same in every call, and may end it differently. -/
structure Backend.SameEffects {σ : Type} (b b' : Backend σ) : Prop where
  state : ∀ c st, (b' c st).state = (b c st).state
  deliveries : ∀ c st, (b' c st).deliveries = (b c st).deliveries

namespace Ledger

variable {σ : Type} {b b' : Backend σ}

theorem serve_sameEffects (h : b.SameEffects b') (c : Call) (l : Ledger σ) :
    l.serve b' c = l.serve b c := by
  simp only [serve, h.state, h.deliveries]

end Ledger

namespace Channel

variable {σ : Type} {ch : Channel σ}

def withRecords (ch : Channel σ) (receipts : List Receipt) (log : List HostLine) : Channel σ :=
  { ch with receipts := receipts, log := log }

theorem submit_withRecords (site : Site) (c : Call) (rs : List Receipt) (ls : List HostLine) :
    (ch.withRecords rs ls).submit site c =
      ((ch.submit site c).1, (ch.submit site c).2.withRecords rs ls) := by
  have hc : (ch.withRecords rs ls).isConnected = ch.isConnected := rfl
  unfold submit
  rw [hc]
  split
  · split <;> rfl
  · split
    · rfl
    · split <;> rfl

theorem shutdown_withRecords (rs : List Receipt) (ls : List HostLine) :
    (ch.withRecords rs ls).shutdown = (ch.shutdown.1, ch.shutdown.2.withRecords rs ls) := by
  have hc : (ch.withRecords rs ls).isConnected = ch.isConnected := rfl
  unfold shutdown
  rw [hc]
  split <;> rfl

theorem hostStep_withRecords {b b' : Backend σ} (h : b.SameEffects b') (ch : Channel σ)
    (rs : List Receipt) (ls : List HostLine) :
    ∃ rs' ls', (ch.withRecords rs ls).hostStep b' = (ch.hostStep b).withRecords rs' ls' := by
  obtain ⟨phase, queue, nextTicket, handles, ledger, receipts, log⟩ := ch
  cases phase with
  | unstarted | ended => exact ⟨rs, ls, rfl⟩
  | idle =>
    cases queue with
    | nil =>
      by_cases hn : handles = 0 <;> simp only [hostStep, withRecords, hn] <;> exact ⟨rs, ls, rfl⟩
    | cons q rest =>
      obtain ⟨ticket, c | _⟩ := q
      · exact ⟨rs, ls, rfl⟩
      · exact ⟨rs, ls ++ [.shuttingDown], rfl⟩
  | serving ticket c =>
    simp only [hostStep, withRecords, Ledger.serve_sameEffects h]
    exact ⟨_, _, rfl⟩
  | leaving => exact ⟨rs ++ queue.filterMap Queued.dropped, ls ++ [.stopped], rfl⟩

end Channel

namespace Traffic

variable {σ : Type} {b b' : Backend σ} {st : σ} {w w' : Traffic σ}

/-- Two courses of events that differ at most in receipts and log. -/
def Alike (w w' : Traffic σ) : Prop :=
  ∃ rs ls, w' = ⟨w.channel.withRecords rs ls, w.accepted⟩

theorem Alike.refl (w : Traffic σ) : Alike w w := ⟨w.channel.receipts, w.channel.log, rfl⟩

theorem Alike.step (h : Alike w w') (hb : b.SameEffects b') (a : Action) :
    Alike (w.step b a) (w'.step b' a) := by
  obtain ⟨rs, ls, rfl⟩ := h
  have he : enables ⟨w.channel.withRecords rs ls, w.accepted⟩ a = w.enables a := by
    cases a <;> rfl
  unfold step
  rw [he]
  split
  · cases a with
    | call site c => exact ⟨rs, ls, by simp only [perform, Channel.submit_withRecords]⟩
    | shutdown => exact ⟨rs, ls, by simp only [perform, Channel.shutdown_withRecords]⟩
    | clone | release => exact ⟨rs, ls, rfl⟩
    | start => exact ⟨rs, ls ++ [.started], rfl⟩
    | dropHost => exact ⟨rs ++ w.channel.queue.filterMap Queued.dropped, ls, rfl⟩
    | work =>
      obtain ⟨rs', ls', hstep⟩ := Channel.hostStep_withRecords hb w.channel rs ls
      exact ⟨rs', ls', by simp only [perform, hstep]⟩
  · exact ⟨rs, ls, rfl⟩

theorem Alike.runFrom (h : Alike w w') (hb : b.SameEffects b') (as : List Action) :
    Alike (w.runFrom b as) (w'.runFrom b' as) := by
  induction as generalizing w w' with
  | nil => exact h
  | cons a as ih => exact ih (h.step hb a)

theorem run_alike (hb : b.SameEffects b') (st : σ) (as : List Action) :
    Alike (run b st as) (run b' st as) :=
  (Alike.refl _).runFrom hb as

/-- A caller whose own call ends the same hears the same. -/
theorem Alike.receipt?_eq (h : Alike w w') (ho : Orderly b st w) (ho' : Orderly b' st w')
    (place : Nat) (c : Call)
    (accepted : w.accepted[place]? = some (.call c)) (blocking : c.isBlocking)
    (same : place < w.served.length →
      (Ledger.fresh st).outcomeAfter b' (w.served.take place) c =
        (Ledger.fresh st).outcomeAfter b (w.served.take place) c) :
    w'.channel.receipt? place c = w.channel.receipt? place c := by
  obtain ⟨rs, ls, rfl⟩ := h
  by_cases hlt : place < w.served.length
  · have hs : w.served[place]? = some c := by
      obtain ⟨rest, hrest⟩ := ho.served
      rw [← hrest, List.getElem?_append_left (by simpa using hlt)] at accepted
      simpa [List.getElem?_map] using accepted
    rw [ho.receipt?_of_served hs blocking, ho'.receipt?_of_served hs blocking, ← same hlt]
    rfl
  · have hle := Nat.le_of_not_lt hlt
    by_cases ended : w.channel.phase = .ended
    · rw [ho.receipt?_of_lost hle accepted blocking ended,
        ho'.receipt?_of_lost hle accepted blocking ended]
    · rw [ho.receipt?_of_waiting hle ended, ho'.receipt?_of_waiting hle ended]

/-- A receipt is for the result of its call, or for a call that will never be served. -/
theorem Orderly.of_mem_receipts (h : Orderly b st w) {r : Receipt}
    (hr : r ∈ w.channel.receipts) :
    r.call.isBlocking ∧
      (w.served[r.ticket]? = some r.call ∧
          r.result =
            ((Ledger.fresh st).outcomeAfter b (w.served.take r.ticket) r.call).result ∨
        w.channel.phase = .ended ∧ w.served.length ≤ r.ticket ∧
          w.accepted[r.ticket]? = some (.call r.call) ∧ r.result = .error .noReply) := by
  rw [h.receipts, List.mem_append] at hr
  rcases hr with hserved | hlost
  · obtain ⟨a, ha, hr⟩ := List.mem_flatMap.1 hserved
    obtain ⟨place, c, hc, rfl⟩ := Ledger.mem_accounts.1 ha
    rw [Nat.zero_add] at hr
    simp only [Account.receipts, Channel.receiptsOf] at hr
    split at hr
    · rename_i blocking
      obtain rfl := List.mem_singleton.1 hr
      exact ⟨blocking, .inl ⟨hc, rfl⟩⟩
    · exact absurd hr (List.not_mem_nil)
  · unfold lost at hlost
    split at hlost
    · rename_i ended
      obtain ⟨⟨place, command⟩, hq, hr⟩ := List.mem_filterMap.1 hlost
      obtain ⟨hle, hc⟩ := mem_unserved.1 hq
      cases command with
      | shutdown => cases hr
      | call c =>
        simp only [Queued.dropped] at hr
        split at hr
        · rename_i blocking
          obtain rfl := Option.some.inj hr
          exact ⟨blocking, .inr ⟨ended, hle, hc, rfl⟩⟩
        · cases hr
    · exact absurd hlost (List.not_mem_nil)

/--
Whatever calls fail, and wherever the backend breaks off, the calls behind are served on the
state it left; only the caller of such a call hears of it. The host works on until it takes
a shutdown, or until it has served everything and nobody is left to send.
-/
theorem failures_are_isolated (b : Backend σ) (st : σ) (as : List Action) :
    let w := run b st as
    let outcome (place : Nat) (c : Call) :=
      (Ledger.fresh st).outcomeAfter b (w.served.take place) c
    (w.served <+: callsBeforeShutdown w.accepted ∧
      w.channel.ledger = (Ledger.fresh st).serveAll b w.served) ∧
    (.started ∈ w.channel.log → ∀ more : List Action,
      2 * w.accepted.length ≤ more.count .work →
      callsBeforeShutdown w.accepted <+: (w.runFrom b more).served) ∧
    (∀ place c, w.served[place]? = some c → c.isBlocking →
      (∀ result, outcome place c = .returned result →
        w.channel.receipt? place c = some result) ∧
      (outcome place c = .crashed → w.channel.receipt? place c = some (.error .noReply))) ∧
    (w.channel.receipts.map Receipt.ticket).Nodup ∧
    (∀ r ∈ w.channel.receipts, r.call.isBlocking ∧
      (w.served[r.ticket]? = some r.call ∧ r.result = (outcome r.ticket r.call).result ∨
        w.channel.phase = .ended ∧ w.served.length ≤ r.ticket ∧
          w.accepted[r.ticket]? = some (.call r.call) ∧ r.result = .error .noReply)) ∧
    (∀ b', b.SameEffects b' →
      let w' := run b' st as
      w'.accepted = w.accepted ∧ w'.channel.ledger = w.channel.ledger ∧
      w'.channel.phase = w.channel.phase ∧ w'.channel.queue = w.channel.queue ∧
      (∀ site c, (w'.channel.submit site c).1 = (w.channel.submit site c).1) ∧
      ∀ place c, w.accepted[place]? = some (.call c) → c.isBlocking →
        (place < w.served.length →
          (Ledger.fresh st).outcomeAfter b' (w.served.take place) c = outcome place c) →
        w'.channel.receipt? place c = w.channel.receipt? place c) ∧
    (∀ a, w.channel.phase.isWorking → ¬ (w.step b a).channel.phase.isWorking →
      a = .work ∧ w.channel.phase = .idle ∧
      ((∃ ticket rest, w.channel.queue = ⟨ticket, .shutdown⟩ :: rest) ∨
        w.channel.queue = [] ∧ w.channel.handles = 0 ∧
          w.accepted = w.served.map Command.call)) ∧
    (.started ∈ w.channel.log →
      w.channel.phase.isWorking ∧ w.channel.isConnected ∨
        ¬ w.channel.phase.isWorking ∧ Quit w) := by
  intro w outcome
  have h : Orderly b st w := run_orderly b st as
  refine ⟨⟨prefix_callsBeforeShutdown h.served, h.ledger⟩, ?_, ?_, h.receipts_nodup,
    fun r hr => h.of_mem_receipts hr, ?_, fun a working => h.leaves working,
    h.working_or_quit (run_departed b st as)⟩
  · intro started more enough
    refine h.served_of_steps started List.prefix_rfl (Nat.le_trans (w.pending_le _) ?_)
    exact Nat.le_trans (Nat.mul_le_mul_left 2 (callsBeforeShutdown_length_le w.accepted)) enough
  · intro place c hc blocking
    have hr := h.receipt?_of_served hc blocking
    exact ⟨fun result ho => hr.trans (congrArg (some ·.result) ho),
      fun ho => hr.trans (congrArg (some ·.result) ho)⟩
  · intro b' hb w'
    have halike : Alike w w' := run_alike hb st as
    have h' : Orderly b' st w' := run_orderly b' st as
    have hreceipts := halike.receipt?_eq h h'
    obtain ⟨rs, ls, heq⟩ := halike
    rw [heq] at hreceipts ⊢
    refine ⟨rfl, rfl, rfl, rfl, fun site c => ?_, hreceipts⟩
    rw [Channel.submit_withRecords]

end Traffic
end ImsProvisioning
