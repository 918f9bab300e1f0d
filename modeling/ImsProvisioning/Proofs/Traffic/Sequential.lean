import ImsProvisioning.Proofs.Traffic.Receipt
import ImsProvisioning.Proofs.Traffic.Rest

/-! # Sequential service

However many handles send, and whatever the host and the backend do meanwhile, the
backend sees one call after the other in the order of acceptance. Every answer is the
one that the sequential run of the calls gives at the place of the call answered.
-/

namespace ImsProvisioning
namespace Traffic

variable {σ : Type} {b : Backend σ} {st : σ} {w : Traffic σ}

/-- A started host that has come to rest has served all that could be served. -/
theorem Orderly.served_of_atRest (h : Orderly b st w) (rest : w.channel.AtRest)
    (started : w.channel.log ≠ []) : w.served = callsBeforeShutdown w.accepted := by
  apply h.served_eq
  cases h.stage with
  | unstarted _ _ _ log => exact absurd log started
  | idle phase queue _ =>
    right
    cases rest with
    | waiting _ empty _ => rw [← queue, empty]
    | unstarted phase' => simp [phase] at phase'
    | ended phase' => simp [phase] at phase'
  | serving ticket c phase => cases rest <;> simp_all
  | leavingShutdown ticket phase => cases rest <;> simp_all
  | leavingAlone phase => cases rest <;> simp_all
  | dropped _ _ log => exact absurd log started
  | shutDown ticket rest _ queue => exact .inl ⟨ticket, rest, queue⟩
  | abandoned _ unserved => exact .inr unserved

/-- A started host that is left to work serves every call in front of the first shutdown. -/
theorem Orderly.served_of_work (h : Orderly b st w) (started : w.channel.log ≠ []) :
    (w.runFrom b (List.replicate w.channel.load .work)).served =
      callsBeforeShutdown w.accepted := by
  have hrun := runFrom_work b w w.channel.load
  have ho : Orderly b st (w.runFrom b (List.replicate w.channel.load .work)) :=
    runFrom_induction Orderly.change h _
  have hg := runFrom_grows b w (List.replicate w.channel.load .work)
  rw [hrun] at ho hg ⊢
  refine ho.served_of_atRest (Channel.hostSteps_atRest b (Nat.le_refl _)) fun he => started ?_
  exact List.prefix_nil.1 (he ▸ hg.log)

/-- A call that waits for a receipt has the next place in the order of acceptance. -/
theorem step_of_queued (b : Backend σ) {site : Site} {c : Call} {ticket : Nat}
    (handle : w.channel.handles ≠ 0) (hq : (w.channel.submit site c).1 = .queued ticket) :
    w.step b (.call site c) = w.send (.call c) ∧ ticket = w.channel.nextTicket ∧
      c.isBlocking := by
  have hacc : (w.channel.submit site c).1.isAccepted := by rw [hq]; rfl
  constructor
  · rw [step, if_pos (by simpa [enables] using handle), perform_call, if_pos hacc]
  · cases ha : c.acknowledgement? with
    | some answer =>
      rw [Channel.submit_listener ha] at hq
      split at hq <;> simp at hq
    | none =>
      have hb : c.isBlocking := Call.isBlocking_iff.2 ha
      rw [Channel.submit_blocking hb] at hq
      refine ⟨?_, hb⟩
      split at hq
      · simp at hq
      · split at hq
        · simpa using hq.symm
        · simp at hq

/-- What was accepted before a served command was served before it. -/
theorem Orderly.served_before (h : Orderly b st w) {commands : List Command} {c : Call}
    (hp : commands ++ [.call c] <+: w.accepted) (hlt : commands.length < w.served.length) :
    w.served[commands.length]? = some c ∧
      commands = (w.served.take commands.length).map Command.call := by
  have hpre : commands ++ [.call c] <+: w.served.map Command.call :=
    List.prefix_of_prefix_length_le hp h.served (by simpa using Nat.succ_le_of_lt hlt)
  obtain ⟨rest, hrest⟩ := hpre
  have hget : (w.served.map Command.call)[commands.length]? = some (.call c) := by
    simp [← hrest]
  constructor
  · simpa [List.getElem?_map] using hget
  · rw [List.map_take, ← hrest]
    simp

/-- The sends, receives and calls of any course of events are served in sequence. -/
theorem service_is_sequential (b : Backend σ) (st : σ) (as : List Action) :
    let w := run b st as
    let start := Ledger.fresh st
    w.served <+: callsBeforeShutdown w.accepted ∧
    w.channel.ledger = start.serveAll b w.served ∧
    (w.channel.log ≠ [] → ∃ n, (run b st (as ++ List.replicate n .work)).served =
      callsBeforeShutdown w.accepted) ∧
    ∀ before site c after ticket, as = before ++ .call site c :: after →
      (run b st before).channel.handles ≠ 0 →
      ((run b st before).channel.submit site c).1 = .queued ticket →
      ticket = (run b st before).accepted.length ∧
      w.accepted[ticket]? = some (.call c) ∧
      (ticket < w.served.length → ∃ result, w.channel.receipt? ticket c = some result) ∧
      ∀ result, w.channel.receipt? ticket c = some result →
        (w.served[ticket]? = some c ∧
          (run b st before).accepted = (w.served.take ticket).map Command.call ∧
          result = (start.outcomeAfter b (w.served.take ticket) c).result) ∨
        (w.served.length ≤ ticket ∧ result = .error .noReply) := by
  intro w start
  have h : Orderly b st w := run_orderly b st as
  refine ⟨prefix_callsBeforeShutdown h.served, h.ledger, ?_, ?_⟩
  · intro started
    refine ⟨w.channel.load, ?_⟩
    rw [run_append]
    exact h.served_of_work started
  · intro before site c after ticket has handle hq
    obtain ⟨hstep, ht, blocking⟩ := step_of_queued b handle hq
    have hbefore := run_orderly b st before
    have hticket : ticket = (run b st before).accepted.length := ht.trans hbefore.ticket
    have hw : w = ((run b st before).send (.call c)).runFrom b after := by
      change run b st as = _
      rw [has, run_append, runFrom_cons, hstep]
    have hprefix : (run b st before).accepted ++ [.call c] <+: w.accepted := by
      rw [hw]
      exact (runFrom_grows b ((run b st before).send (.call c)) after).accepted
    have haccepted : w.accepted[ticket]? = some (.call c) := by
      obtain ⟨rest, hrest⟩ := hprefix
      simp [← hrest, hticket]
    refine ⟨hticket, haccepted, ?_, ?_⟩
    · intro hlt
      rw [hticket] at hlt
      have hs := (h.served_before hprefix hlt).1
      exact ⟨_, hticket ▸ h.receipt?_of_served hs blocking⟩
    · intro result hr
      by_cases hlt : ticket < w.served.length
      · left
        rw [hticket] at hlt
        obtain ⟨hs, hc⟩ := h.served_before hprefix hlt
        rw [← hticket] at hs hc
        refine ⟨hs, hc, ?_⟩
        rw [h.receipt?_of_served hs blocking] at hr
        exact (Option.some.inj hr).symm
      · right
        refine ⟨Nat.le_of_not_lt hlt, ?_⟩
        by_cases ended : w.channel.phase = .ended
        · rw [h.receipt?_of_lost (Nat.le_of_not_lt hlt) haccepted blocking ended] at hr
          exact (Option.some.inj hr).symm
        · rw [h.receipt?_of_waiting (Nat.le_of_not_lt hlt) ended] at hr
          simp at hr

end Traffic
end ImsProvisioning
