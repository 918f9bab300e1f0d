import ImsProvisioning.Proofs.Transport.Client

/-! # Programs over a channel

While one client sends and the host works, the accepted commands are the calls of the
client, and the host goes on. So every receipt bears the result that the backend gives
after the calls made before, and the program runs as it does over the backend.
-/

namespace ImsProvisioning
namespace Traffic

variable {σ : Type} {b : Backend σ} {st : σ} {w : Traffic σ} {cs : List Call} {c : Call}
  {site : Site}

/-- A running host has accepted these calls and nothing else. -/
structure Follows (b : Backend σ) (st : σ) (w : Traffic σ) (cs : List Call) : Prop where
  orderly : Orderly b st w
  accepted : w.accepted = cs.map Command.call
  handles : w.channel.handles ≠ 0
  running : w.channel.phase = .idle ∨ ∃ ticket c, w.channel.phase = .serving ticket c

namespace Follows

theorem connected (h : Follows b st w cs) : w.channel.phase ≠ .ended := by
  rcases h.running with phase | ⟨ticket, c, phase⟩ <;> simp [phase]

theorem started (b : Backend σ) (st : σ) : Follows b st (run b st [.start]) [] where
  orderly := run_orderly b st _
  accepted := rfl
  handles := Nat.one_ne_zero
  running := .inl rfl

theorem work (h : Follows b st w cs) : Follows b st (w.step b .work) cs where
  orderly := h.orderly.work
  accepted := h.accepted
  handles := by
    have hh : (w.channel.hostStep b).handles = w.channel.handles := by
      unfold Channel.hostStep
      split <;> (try split) <;> (try split) <;> rfl
    exact hh ▸ h.handles
  running := by
    change (w.channel.hostStep b).phase = .idle ∨
      ∃ ticket c, (w.channel.hostStep b).phase = .serving ticket c
    rcases h.running with phase | ⟨ticket, c, phase⟩
    · cases queue : w.channel.queue with
      | nil => simp [Channel.hostStep, phase, queue, h.handles]
      | cons q rest =>
        obtain ⟨ticket, c | _⟩ := q
        · right
          exact ⟨ticket, c, by simp [Channel.hostStep, phase, queue]⟩
        · have hq : w.channel.queue = w.unserved := by
            cases h.orderly.stage with
            | idle _ hq _ => exact hq
            | _ => simp_all
          have hc := (accepted_of_unserved (hq ▸ queue)).2
          rw [h.accepted, List.getElem?_map] at hc
          simp at hc
    · left
      simp [Channel.hostStep, phase]

theorem clone (h : Follows b st w cs) : Follows b st (w.step b .clone) cs := by
  have hstep : w.step b .clone = { w with channel := w.channel.clone } :=
    if_pos (by simpa [enables] using h.handles)
  rw [hstep]
  exact ⟨h.orderly.withHandles fun hn => absurd hn h.handles, h.accepted, Nat.succ_ne_zero _,
    h.running⟩

theorem works (h : Follows b st w cs) {acts : List Action} (ha : ∀ act ∈ acts, act = .work) :
    Follows b st (w.runFrom b acts) cs := by
  induction acts generalizing w with
  | nil => exact h
  | cons act acts ih =>
    obtain rfl := ha act (List.mem_cons_self ..)
    exact ih h.work fun act hm => ha act (List.mem_cons_of_mem _ hm)

/-- Outside a current-thread runtime a running host accepts every call. -/
theorem submit (h : Follows b st w cs) (outside : site ≠ .currentThread) (c : Call) :
    w.channel.submit site c =
      (match c.acknowledgement? with
        | some answer => .settled (.ok answer)
        | none => .queued cs.length, w.channel.enqueue (.call c)) := by
  have hc : w.channel.isConnected := by simpa [Channel.isConnected] using h.connected
  have ht : w.channel.nextTicket = cs.length := by simp [h.orderly.ticket, h.accepted]
  cases ha : c.acknowledgement? with
  | some answer => rw [Channel.submit_listener ha, if_pos hc]
  | none =>
    rw [Channel.submit_blocking (Call.isBlocking_iff.2 ha), if_neg outside, if_pos hc, ht]

theorem step_call (h : Follows b st w cs) (outside : site ≠ .currentThread) (c : Call) :
    w.step b (.call site c) = w.send (.call c) := by
  have hacc : (w.channel.submit site c).1.isAccepted := by
    rw [h.submit outside c]
    cases c.acknowledgement? <;> rfl
  rw [step, if_pos (by simpa [enables] using h.handles), perform_call, if_pos hacc]

theorem call (h : Follows b st w cs) (outside : site ≠ .currentThread) (c : Call) :
    Follows b st (w.step b (.call site c)) (cs ++ [c]) := by
  rw [h.step_call outside]
  refine ⟨h.orderly.send _ h.handles h.connected, ?_, h.handles, h.running⟩
  simp [send, h.accepted]

/-- The receipt of the last call bears what the backend does with it after the others. -/
theorem receipt (h : Follows b st w (cs ++ [c])) (blocking : c.isBlocking)
    {result : Except CallError c.Answer} (hr : w.channel.receipt? cs.length c = some result) :
    result = ((Ledger.fresh st).outcomeAfter b cs c).result := by
  have hlt : cs.length < w.served.length := by
    apply Nat.lt_of_not_le
    intro hle
    rw [h.orderly.receipt?_of_waiting hle h.connected] at hr
    simp at hr
  have hp : cs.map Command.call ++ [.call c] <+: w.accepted := by
    rw [h.accepted, List.map_append]
    exact List.prefix_rfl
  obtain ⟨hs, htake⟩ := h.orderly.served_before hp (by simpa using hlt)
  rw [List.length_map] at hs htake
  rw [h.orderly.receipt?_of_served hs blocking] at hr
  rw [← Option.some.inj hr, ← (List.map_inj_right fun _ _ => Command.call.inj).1 htake]

/-- A host at rest has answered every call. -/
theorem receipt_of_atRest (h : Follows b st w (cs ++ [c])) (blocking : c.isBlocking)
    (rest : w.channel.AtRest) :
    w.channel.receipt? cs.length c = some ((Ledger.fresh st).outcomeAfter b cs c).result := by
  have hlog : w.channel.log ≠ [] := by
    cases h.orderly.stage with
    | idle _ _ log | serving _ _ _ _ log => simp [log]
    | unstarted phase => rcases h.running with he | ⟨_, _, he⟩ <;> simp [phase] at he
    | leavingShutdown _ phase => rcases h.running with he | ⟨_, _, he⟩ <;> simp [phase] at he
    | leavingAlone phase => rcases h.running with he | ⟨_, _, he⟩ <;> simp [phase] at he
    | dropped phase | shutDown _ _ phase | abandoned phase => exact absurd phase h.connected
  have hserved : w.served = cs ++ [c] := by
    rw [h.orderly.served_of_atRest rest hlog, h.accepted, callsBeforeShutdown_map]
  have hget : w.served[cs.length]? = some c := by simp [hserved]
  rw [h.orderly.receipt?_of_served hget blocking, hserved, List.take_left']
  rfl

/-- Once the host has come to rest, the ledger and the log are those of all calls. -/
theorem settled (h : Follows b st w cs) :
    let ch := w.channel.settle b
    ch.queue = [] ∧ ch.isConnected ∧ ch.ledger = (Ledger.fresh st).serveAll b cs ∧
      ch.log = .started :: ((Ledger.fresh st).accounts b 0 cs).flatMap Account.lines := by
  intro ch
  have hw : Follows b st { w with channel := ch } cs := by
    have hr : Follows b st
        (w.runFrom b (List.replicate (2 * w.channel.queue.length + 3) .work)) cs :=
      h.works fun act hm => List.eq_of_mem_replicate hm
    rwa [runFrom_work] at hr
  have rest : ch.AtRest := Channel.settle_atRest b w.channel
  cases rest with
  | unstarted phase => rcases hw.running with he | ⟨_, _, he⟩ <;> simp [phase] at he
  | ended phase => exact absurd phase hw.connected
  | waiting phase queue handles =>
    cases hw.orderly.stage with
    | idle _ hq log =>
      have hserved : ch.ledger.calls = cs := by
        have hs := hw.orderly.served_eq (.inr (hq.symm.trans queue))
        rwa [hw.accepted, callsBeforeShutdown_map] at hs
      have hledger := hw.orderly.ledger
      refine ⟨queue, by simp [Channel.isConnected, phase], ?_, ?_⟩
      · change ch.ledger = (Ledger.fresh st).serveAll b ch.ledger.calls at hledger
        rwa [hserved] at hledger
      · change ch.log = .started ::
          ((Ledger.fresh st).accounts b 0 ch.ledger.calls).flatMap Account.lines at log
        rwa [hserved] at log
    | _ => simp_all

end Follows
end Traffic

namespace Program

open Traffic (Follows)

variable {α σ : Type} {s : Service σ} {st : σ} {site : Site}

theorem acknowledged_state (s : Service σ) (c : Call) (x : σ) :
    (s.acknowledged c x).state = (s c x).state := by
  unfold Service.acknowledged
  split <;> rfl

/-- What a run leads to: its result, its lines and the calls that a channel has accepted. -/
def LeadsTo (s : Service σ) (st : σ) (p : Program α) (cs : List Call) (a : α)
    (lines : List LogLine) (w : Traffic σ) : Prop :=
  let r := p.run s.acknowledged ((Ledger.fresh st).serveAll s.backend cs).state
  a = r.result ∧ lines = r.lines ∧ Follows s.backend st w (cs ++ r.calls)

theorem LeadsTo.call {c : Call} {next : Except CallError c.Answer → Program α} {cs : List Call}
    {a : α} {lines : List LogLine} {w : Traffic σ} {result : Except CallError c.Answer}
    (hres : (s.acknowledged c ((Ledger.fresh st).serveAll s.backend cs).state).result = result)
    (h : LeadsTo s st (next result) (cs ++ [c]) a lines w) :
    LeadsTo s st (.call c next) cs a lines w := by
  have hstate : ((Ledger.fresh st).serveAll s.backend (cs ++ [c])).state =
      (s.acknowledged c ((Ledger.fresh st).serveAll s.backend cs).state).state := by
    rw [Ledger.serveAll_concat, acknowledged_state]
    rfl
  obtain ⟨ha, hl, hw⟩ := h
  subst hres
  rw [hstate] at ha hl hw
  refine ⟨ha, ?_, ?_⟩
  · rw [run_call_lines, hl]
  · rw [run_call_calls]
    simpa using hw

/-- Over a channel a program does what it does over the service that acknowledges. -/
theorem Runs.leadsTo {p : Program α} {w w' : Traffic σ} {a : α} {lines : List LogLine}
    (hr : Runs s.backend site (· = .work) p w a lines w') (outside : site ≠ .currentThread)
    {cs : List Call} (h : Follows s.backend st w cs) : LeadsTo s st p cs a lines w' := by
  induction hr generalizing cs with
  | done a w => exact ⟨rfl, rfl, by simpa [Run.calls, run] using h⟩
  | log rest ih =>
    obtain ⟨ha, hl, hw⟩ := ih h
    exact ⟨ha, congrArg (_ :: ·) hl, hw⟩
  | other allowed rest ih =>
    subst allowed
    exact ih h.work
  | @settled c next w w' a lines result submission rest ih =>
    refine .call ?_ (ih (h.call outside c))
    rw [h.submit outside c] at submission
    cases ha : c.acknowledgement? with
    | some answer => simpa [Service.acknowledged, ha] using submission
    | none => simp [ha] at submission
  | @answered c next w w' a lines ticket result between submission allowed receipt rest ih =>
    have hbetween := (h.call outside c).works allowed
    refine .call ?_ (ih hbetween)
    rw [h.submit outside c] at submission
    cases ha : c.acknowledgement? with
    | some answer => simp [ha] at submission
    | none =>
      obtain rfl : cs.length = ticket := by simpa [ha] using submission
      have hreceipt := hbetween.receipt (Call.isBlocking_iff.2 ha) receipt
      rw [hreceipt]
      simp only [Service.acknowledged, ha]
      rfl

theorem Runs.others {others : Action → Prop} {b : Backend σ} {p : Program α} {w w' : Traffic σ}
    {a : α} {lines : List LogLine} {acts : List Action} (allowed : ∀ act ∈ acts, others act)
    (h : Runs b site others p (w.runFrom b acts) a lines w') :
    Runs b site others p w a lines w' := by
  induction acts generalizing w with
  | nil => exact h
  | cons act acts ih =>
    refine .other (allowed act (List.mem_cons_self ..)) ?_
    exact ih (fun act hm => allowed act (List.mem_cons_of_mem _ hm)) h

/-- With a host that works whenever it can, every program comes to its end. -/
theorem drive_runs (p : Program α) {w : Traffic σ} {cs : List Call}
    (h : Follows s.backend st w cs) (outside : site ≠ .currentThread) :
    ∃ a lines w', Runs s.backend site (· = .work) p w a lines w' ∧
      p.drive s.backend site w.channel = ⟨.finished a, lines, w'.channel⟩ := by
  induction p generalizing w cs with
  | done a => exact ⟨a, [], w, .done a w, rfl⟩
  | log line next ih =>
    obtain ⟨a, lines, w', hr, hd⟩ := ih h
    exact ⟨a, line :: lines, w', .log hr, by simp [drive, hd]⟩
  | call c next ih =>
    let works := List.replicate (2 * (w.send (.call c)).channel.queue.length + 3) Action.work
    have hworks : ∀ act ∈ works, act = .work := fun act hm => List.eq_of_mem_replicate hm
    have hchannel : ((w.step s.backend (.call site c)).runFrom s.backend works).channel =
        (w.channel.enqueue (.call c)).settle s.backend := by
      rw [h.step_call outside, Traffic.runFrom_work]
      rfl
    have hafter := (h.call outside c).works hworks
    have hsubmit := h.submit outside c
    cases ha : c.acknowledgement? with
    | some answer =>
      rw [ha] at hsubmit
      obtain ⟨a, lines, w', hr, hd⟩ := ih (.ok answer) hafter
      refine ⟨a, lines, w', .settled (by rw [hsubmit]) (.others hworks hr), ?_⟩
      rw [hchannel] at hd
      simp only [drive, hsubmit]
      exact hd
    | none =>
      rw [ha] at hsubmit
      have blocking : c.isBlocking := Call.isBlocking_iff.2 ha
      have hreceipt := hafter.receipt_of_atRest blocking
        (by rw [hchannel]; exact Channel.settle_atRest _ _)
      obtain ⟨a, lines, w', hr, hd⟩ := ih _ hafter
      refine ⟨a, lines, w', .answered (by rw [hsubmit]) hworks hreceipt hr, ?_⟩
      rw [hchannel] at hreceipt hd
      simp only [drive, hsubmit, hreceipt]
      exact hd

end Program
end ImsProvisioning
