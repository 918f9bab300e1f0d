import ImsProvisioning.Proofs.Traffic.Sequential
import Mathlib.Logic.ExistsUnique

/-! # The fate of a call

A blocking call that is made outside a current-thread runtime comes to exactly one of
four ends, or it still waits; an end is final. A listener call is refused exactly when
the host is gone. Of what is accepted behind a shutdown the backend, the listeners and
the host's log never know.
-/

namespace ImsProvisioning

/--
What may have become of a blocking call: its caller has the backend's result, the backend broke
off in it, it was accepted but will never be taken, the host was gone, or it still waits.
-/
inductive Fate (c : Call) where
  | answered (result : Except CallError c.Answer)
  | crashed
  | dropped
  | refused
  | waiting

namespace Traffic

variable {σ : Type} {b : Backend σ} {st : σ} {w₀ w w' : Traffic σ} {site : Site} {c : Call}

/-- What a fate of a call made at one point of the traffic means at a later one. -/
def Meets (b : Backend σ) (st : σ) (w₀ w : Traffic σ) (site : Site) {c : Call}
    (fate : Fate c) : Prop :=
  let place := w₀.accepted.length
  let outcome := (Ledger.fresh st).outcomeAfter b (w.served.take place) c
  let heard := (w₀.channel.submit site c).1.heard w.channel
  match fate with
  | .answered result =>
    w.served[place]? = some c ∧ outcome = .returned result ∧ heard = some result
  | .crashed => w.served[place]? = some c ∧ outcome = .crashed ∧ heard = some (.error .noReply)
  | .dropped =>
    w.accepted[place]? = some (.call c) ∧ w.served.length ≤ place ∧
      w.channel.phase = .ended ∧ (.shutdown ∈ w₀.accepted ∨ .started ∉ w.channel.log) ∧
      heard = some (.error .noReply)
  | .refused =>
    w₀.channel.phase = .ended ∧ w.accepted = w₀.accepted ∧ heard = some (.error .disconnected)
  | .waiting =>
    w.accepted[place]? = some (.call c) ∧ w.served.length ≤ place ∧
      (⟨place, .call c⟩ ∈ w.channel.queue ∨ w.channel.phase = .serving place c) ∧ heard = none

/-- The fate that a call made at one point of the traffic has come to at a later one. -/
def fateOf (b : Backend σ) (st : σ) (w₀ w : Traffic σ) (c : Call) : Fate c :=
  if w₀.channel.phase = .ended then .refused
  else if w₀.accepted.length < w.served.length then
    match (Ledger.fresh st).outcomeAfter b (w.served.take w₀.accepted.length) c with
    | .returned result => .answered result
    | .crashed => .crashed
  else if w.channel.phase = .ended then .dropped
  else .waiting

/-- A blocking call is refused or has its place among the accepted commands. -/
structure Placed (w₀ w : Traffic σ) (site : Site) (c : Call) : Prop where
  refused : w₀.channel.phase = .ended →
    (w₀.channel.submit site c).1 = .settled (.error .disconnected) ∧ w.accepted = w₀.accepted
  queued : w₀.channel.phase ≠ .ended →
    (w₀.channel.submit site c).1 = .queued w₀.accepted.length ∧
      w₀.accepted ++ [.call c] <+: w.accepted

theorem placed_run (b : Backend σ) (st : σ) (before after : List Action)
    (handle : (run b st before).channel.handles ≠ 0) (blocking : c.isBlocking)
    (outside : site ≠ .currentThread) :
    Placed (run b st before) (run b st (before ++ .call site c :: after)) site c where
  refused ended := by
    have hsub : (run b st before).channel.submit site c =
        (.settled (.error .disconnected), (run b st before).channel) := by
      rw [Channel.submit_blocking blocking]
      simp [outside, Channel.isConnected, ended]
    refine ⟨by rw [hsub], ?_⟩
    rw [run_append]
    exact ((runFrom_grows b _ _).ended ended).1
  queued connected := by
    have hsub : ((run b st before).channel.submit site c).1 =
        .queued (run b st before).channel.nextTicket := by
      rw [Channel.submit_blocking blocking]
      simp [outside, Channel.isConnected, connected]
    obtain ⟨hstep, -, -⟩ := step_of_queued b handle hsub
    refine ⟨by rw [hsub, (run_orderly b st before).ticket], ?_⟩
    rw [run_append, runFrom_cons, hstep]
    exact (runFrom_grows b ((run b st before).send (.call c)) after).accepted

theorem Placed.accepted (h : Placed w₀ w site c) (connected : w₀.channel.phase ≠ .ended) :
    w.accepted[w₀.accepted.length]? = some (.call c) := by
  obtain ⟨rest, hrest⟩ := (h.queued connected).2
  simp [← hrest]

theorem Placed.connected_of_lt (h : Placed w₀ w site c)
    (hlt : w₀.accepted.length < w.accepted.length) : w₀.channel.phase ≠ .ended := by
  intro ended
  rw [(h.refused ended).2] at hlt
  exact absurd hlt (Nat.lt_irrefl _)

theorem Placed.heard (h : Placed w₀ w site c) (connected : w₀.channel.phase ≠ .ended) :
    (w₀.channel.submit site c).1.heard w.channel =
      w.channel.receipt? w₀.accepted.length c := by
  rw [(h.queued connected).1]
  rfl

/-- A command that was accepted and will never be served stands behind a shutdown, or the
host was dropped before it ran. -/
theorem Orderly.cause_of_dropped (h : Orderly b st w) (hp : Placed w₀ w site c)
    (connected : w₀.channel.phase ≠ .ended) (hle : w.served.length ≤ w₀.accepted.length)
    (ended : w.channel.phase = .ended) :
    .shutdown ∈ w₀.accepted ∨ .started ∉ w.channel.log := by
  obtain ⟨more, hmore⟩ := (hp.queued connected).2
  have htake : w.accepted.take w₀.accepted.length = w₀.accepted := by
    rw [← hmore, List.append_assoc, List.take_left]
  have hreason := h.reason_of_dropped (hp.accepted connected) hle ended
  rwa [htake] at hreason

/-- What was accepted and not served on a channel that goes on is in the queue or in service. -/
theorem Orderly.mem_queue (h : Orderly b st w) {place : Nat}
    (hmem : ⟨place, .call c⟩ ∈ w.unserved) (connected : w.channel.phase ≠ .ended) :
    ⟨place, .call c⟩ ∈ w.channel.queue ∨ w.channel.phase = .serving place c := by
  cases h.stage with
  | unstarted _ _ queue _ => exact .inl (queue ▸ hmem)
  | idle _ queue _ => exact .inl (queue ▸ hmem)
  | serving ticket d phase queue _ =>
    rw [queue] at hmem
    rcases List.mem_cons.1 hmem with he | hq
    · right
      obtain ⟨rfl, rfl⟩ : place = ticket ∧ c = d := by simpa using he
      exact phase
    · exact .inl hq
  | leavingShutdown ticket _ queue _ =>
    rw [queue] at hmem
    exact .inl (by simpa using hmem)
  | leavingAlone _ _ _ unserved _ => simp [unserved] at hmem
  | _ => simp_all

theorem Orderly.meets_fateOf (h : Orderly b st w) (hp : Placed w₀ w site c)
    (blocking : c.isBlocking) : Meets b st w₀ w site (fateOf b st w₀ w c) := by
  unfold fateOf
  by_cases gone : w₀.channel.phase = .ended
  · rw [if_pos gone]
    obtain ⟨hsub, hacc⟩ := hp.refused gone
    exact ⟨gone, hacc, by rw [hsub]; rfl⟩
  rw [if_neg gone]
  by_cases hlt : w₀.accepted.length < w.served.length
  · rw [if_pos hlt]
    have hs := (h.served_before (hp.queued gone).2 hlt).1
    have hr := (hp.heard gone).trans (h.receipt?_of_served hs blocking)
    cases ho : (Ledger.fresh st).outcomeAfter b (w.served.take w₀.accepted.length) c with
    | returned result => exact ⟨hs, ho, by rw [hr, ho]; rfl⟩
    | crashed => exact ⟨hs, ho, by rw [hr, ho]; rfl⟩
  rw [if_neg hlt]
  have hle := Nat.le_of_not_lt hlt
  have hacc := hp.accepted gone
  by_cases ended : w.channel.phase = .ended
  · rw [if_pos ended]
    exact ⟨hacc, hle, ended, h.cause_of_dropped hp gone hle ended,
      (hp.heard gone).trans (h.receipt?_of_lost hle hacc blocking ended)⟩
  · rw [if_neg ended]
    exact ⟨hacc, hle, h.mem_queue (mem_unserved.2 ⟨hle, hacc⟩) ended,
      (hp.heard gone).trans (h.receipt?_of_waiting hle ended)⟩

theorem Orderly.eq_fateOf (h : Orderly b st w) (hp : Placed w₀ w site c)
    (blocking : c.isBlocking) {fate : Fate c} (hm : Meets b st w₀ w site fate) :
    fate = fateOf b st w₀ w c := by
  have hl := h.served_length
  have hlt_of_get {place : Nat} (hs : w.served[place]? = some c) : place < w.served.length :=
    (List.getElem?_eq_some_iff.1 hs).1
  have hlt_of_accepted {place : Nat} (ha : w.accepted[place]? = some (.call c)) :
      place < w.accepted.length := (List.getElem?_eq_some_iff.1 ha).1
  unfold fateOf
  cases fate with
  | answered result =>
    obtain ⟨hs, ho, -⟩ := hm
    have hlt := hlt_of_get hs
    rw [if_neg (hp.connected_of_lt (by omega)), if_pos hlt, ho]
  | crashed =>
    obtain ⟨hs, ho, -⟩ := hm
    have hlt := hlt_of_get hs
    rw [if_neg (hp.connected_of_lt (by omega)), if_pos hlt, ho]
  | dropped =>
    obtain ⟨ha, hle, ended, -⟩ := hm
    rw [if_neg (hp.connected_of_lt (hlt_of_accepted ha)), if_neg (by omega), if_pos ended]
  | refused =>
    obtain ⟨gone, -⟩ := hm
    rw [if_pos gone]
  | waiting =>
    obtain ⟨ha, hle, -, hn⟩ := hm
    have connected := hp.connected_of_lt (hlt_of_accepted ha)
    have ended : w.channel.phase ≠ .ended := by
      intro ended
      rw [hp.heard connected, h.receipt?_of_lost hle ha blocking ended] at hn
      simp at hn
    rw [if_neg connected, if_neg (by omega), if_neg ended]

/-- What a call has come to, waiting apart, does not change any more. -/
theorem fateOf_grows (hg : Grows w w') (hf : fateOf b st w₀ w c ≠ .waiting) :
    fateOf b st w₀ w' c = fateOf b st w₀ w c := by
  unfold fateOf at hf ⊢
  by_cases gone : w₀.channel.phase = .ended
  · rw [if_pos gone, if_pos gone]
  rw [if_neg gone, if_neg gone]
  rw [if_neg gone] at hf
  by_cases hlt : w₀.accepted.length < w.served.length
  · have htake : w'.served.take w₀.accepted.length = w.served.take w₀.accepted.length := by
      obtain ⟨more, hmore⟩ := hg.served
      rw [← hmore, List.take_append_of_le_length (Nat.le_of_lt hlt)]
    rw [if_pos hlt, if_pos (Nat.lt_of_lt_of_le hlt hg.served.length_le), htake]
  · rw [if_neg hlt] at hf ⊢
    by_cases ended : w.channel.phase = .ended
    · rw [if_pos ended, hg.served_eq ended, if_neg hlt, if_pos (hg.phase_eq ended)]
    · exact absurd (if_neg ended) hf

/-- Lines about a call come from the calls served; the others tell of the host alone. -/
theorem Orderly.mem_log (h : Orderly b st w) {line : HostLine} (hl : line ∈ w.channel.log) :
    line = .started ∨ line = .shuttingDown ∨ line = .stopped ∨ line ∈ w.lines b st := by
  rcases h.log_cases with ⟨hlog, -⟩ | ⟨ending, hending, hlog, -⟩
  · simp [hlog] at hl
  · rw [hlog, List.mem_cons, List.mem_append] at hl
    rcases hl with rfl | hlines | hend
    · exact .inl rfl
    · exact .inr (.inr (.inr hlines))
    · have hline := hending.subset hend
      rw [List.mem_cons, List.mem_singleton] at hline
      exact .inr (hline.imp_right .inl)

/-- A shutdown among the accepted commands fixes which calls can ever be served. -/
theorem callsBeforeShutdown_of_mem {commands more : List Command}
    (h : Command.shutdown ∈ commands) :
    callsBeforeShutdown (commands ++ more) = callsBeforeShutdown commands := by
  induction commands with
  | nil => simp at h
  | cons command commands ih =>
    cases command with
    | shutdown => rfl
    | call c => exact congrArg (c :: ·) (ih (by simpa using h))

/-- Every call over a channel comes to one fate, and none behind a shutdown is served. -/
theorem calls_have_one_fate (b : Backend σ) (st : σ) (before : List Action) :
    let w₀ := run b st before
    (∀ site c after, w₀.channel.handles ≠ 0 → c.isBlocking → site ≠ .currentThread →
      let w := run b st (before ++ .call site c :: after)
      (∃! fate : Fate c, Meets b st w₀ w site fate) ∧
      (w.channel.receipts.map Receipt.ticket).Nodup ∧
      ∀ (fate : Fate c) more, fate ≠ .waiting → Meets b st w₀ w site fate →
        Meets b st w₀ (w.runFrom b more) site fate) ∧
    (∀ site c answer, c.acknowledgement? = some answer →
      (w₀.channel.submit site c).1 =
        .settled (if w₀.channel.phase = .ended then .error .disconnected else .ok answer)) ∧
    (.shutdown ∈ w₀.accepted → ∀ after,
      let w := run b st (before ++ after)
      w.served <+: callsBeforeShutdown w₀.accepted ∧
      w.channel.ledger = (Ledger.fresh st).serveAll b w.served ∧
      ∀ line ∈ w.channel.log, line = .started ∨ line = .shuttingDown ∨ line = .stopped ∨
        line ∈ ((Ledger.fresh st).accounts b 0 w.served).flatMap Account.lines) := by
  intro w₀
  refine ⟨?_, ?_, ?_⟩
  · intro site c after handle blocking outside w
    have h : Orderly b st w := run_orderly b st _
    have hp : Placed w₀ w site c := placed_run b st before after handle blocking outside
    refine ⟨⟨fateOf b st w₀ w c, h.meets_fateOf hp blocking, fun fate hm =>
      h.eq_fateOf hp blocking hm⟩, h.receipts_nodup, ?_⟩
    intro fate more hf hm
    have hrun : w.runFrom b more = run b st (before ++ .call site c :: (after ++ more)) := by
      change (run b st _).runFrom b more = _
      rw [← run_append, List.append_assoc, List.cons_append]
    have h' : Orderly b st (w.runFrom b more) := runFrom_induction Orderly.change h more
    have hp' : Placed w₀ (w.runFrom b more) site c :=
      hrun ▸ placed_run b st before (after ++ more) handle blocking outside
    obtain rfl := h.eq_fateOf hp blocking hm
    rw [← fateOf_grows (runFrom_grows b w more) hf]
    exact h'.meets_fateOf hp' blocking
  · intro site c answer ha
    rw [Channel.submit_listener ha]
    by_cases ended : w₀.channel.phase = .ended <;> simp [Channel.isConnected, ended]
  · intro hs after w
    have h : Orderly b st w := run_orderly b st _
    obtain ⟨more, hmore⟩ : w₀.accepted <+: w.accepted := by
      have hrun : w = w₀.runFrom b after := run_append b st before after
      rw [hrun]
      exact (runFrom_grows b w₀ after).accepted
    refine ⟨?_, h.ledger, fun line hl => h.mem_log hl⟩
    rw [← callsBeforeShutdown_of_mem hs, hmore]
    exact prefix_callsBeforeShutdown h.served

end Traffic
end ImsProvisioning
