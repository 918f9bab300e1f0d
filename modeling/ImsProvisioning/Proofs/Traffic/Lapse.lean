import ImsProvisioning.Proofs.Traffic.Isolation

/-! # Answers and lapses

A call that was accepted has its place in the order of acceptance. It was answered there once
the backend has answered it; if its caller hears of a failure, the call lapsed for one of a few
reasons. Both are for good.
-/

namespace ImsProvisioning
namespace Outcome

variable {c : Call}

theorem eq_of_result_ok {outcome : Outcome c} {answer : c.Answer}
    (h : outcome.result = .ok answer) : outcome = .returned (.ok answer) := by
  cases outcome with
  | returned result => exact congrArg returned h
  | crashed => cases h

/-- A caller that hears of a failure does not hear whether the backend broke off. -/
theorem eq_of_result_error {outcome : Outcome c} {cause : CallError}
    (h : outcome.result = .error cause) :
    outcome = .returned (.error cause) ∨ outcome = .crashed ∧ cause = .noReply := by
  cases outcome with
  | returned result => exact .inl (congrArg returned h)
  | crashed => exact .inr ⟨rfl, (Except.error.inj h).symm⟩

end Outcome

namespace Traffic

variable {σ : Type} {b : Backend σ} {st : σ} {w w' : Traffic σ} {site : Site} {c : Call}

/-- The state in which the call at a place was served. -/
def stateAt (b : Backend σ) (st : σ) (w : Traffic σ) (place : Nat) : σ :=
  ((Ledger.fresh st).serveAll b (w.served.take place)).state

structure Answered (b : Backend σ) (st : σ) (w : Traffic σ) (place : Nat) (c : Call)
    (answer : c.Answer) : Prop where
  served : w.served[place]? = some c
  outcome : (b c (w.stateAt b st place)).outcome = .returned (.ok answer)

/--
Why a call that got no place before `start` was not answered: its caller must not wait, the host
was gone, the backend failed, or the call was dropped behind a shutdown or with the host.
-/
inductive Lapse (b : Backend σ) (st : σ) (w : Traffic σ) (site : Site) (start : Nat) (c : Call) :
    CallError → Prop
  | inRuntime (inside : site = .currentThread) : Lapse b st w site start c .blockingInRuntime
  | refused (ended : w.channel.phase = .ended) : Lapse b st w site start c .disconnected
  | failed {place : Nat} {cause : CallError} (behind : start ≤ place)
      (served : w.served[place]? = some c)
      (outcome : (b c (w.stateAt b st place)).outcome = .returned (.error cause)) :
      Lapse b st w site start c cause
  | crashed {place : Nat} (behind : start ≤ place) (served : w.served[place]? = some c)
      (outcome : (b c (w.stateAt b st place)).outcome = .crashed) :
      Lapse b st w site start c .noReply
  | dropped {place : Nat} (behind : start ≤ place)
      (accepted : w.accepted[place]? = some (.call c)) (unserved : w.served.length ≤ place)
      (ended : w.channel.phase = .ended)
      (reason : .shutdown ∈ w.accepted.take place ∨ .started ∉ w.channel.log) :
      Lapse b st w site start c .noReply

theorem Grows.served_at (h : Grows w w') (b : Backend σ) (st : σ) {place : Nat}
    (hs : w.served[place]? = some c) :
    w'.served[place]? = some c ∧ w'.stateAt b st place = w.stateAt b st place := by
  have hlt : place < w.served.length := (List.getElem?_eq_some_iff.1 hs).1
  obtain ⟨more, hmore⟩ := h.served
  rw [stateAt, stateAt, ← hmore, List.getElem?_append_left hlt,
    List.take_append_of_le_length (Nat.le_of_lt hlt)]
  exact ⟨hs, rfl⟩

theorem Answered.grows {place : Nat} {answer : c.Answer} (h : Answered b st w place c answer)
    (hg : Grows w w') : Answered b st w' place c answer := by
  obtain ⟨hs, hstate⟩ := hg.served_at b st h.served
  exact ⟨hs, hstate ▸ h.outcome⟩

theorem Lapse.grows {start : Nat} {cause : CallError} (h : Lapse b st w site start c cause)
    (hg : Grows w w') : Lapse b st w' site start c cause := by
  cases h with
  | inRuntime inside => exact .inRuntime inside
  | refused ended => exact .refused (hg.phase_eq ended)
  | failed behind served outcome =>
    obtain ⟨hs, hstate⟩ := hg.served_at b st served
    exact .failed behind hs (hstate ▸ outcome)
  | crashed behind served outcome =>
    obtain ⟨hs, hstate⟩ := hg.served_at b st served
    exact .crashed behind hs (hstate ▸ outcome)
  | dropped behind accepted unserved ended reason =>
    obtain ⟨haccepted, hchannel⟩ := hg.ended ended
    have hlog : w'.channel.log = w.channel.log := (congrArg Channel.log hchannel :)
    refine .dropped behind (haccepted ▸ accepted) ?_ (hg.phase_eq ended) ?_
    · rw [hg.served_eq ended]
      exact unserved
    · rw [haccepted, hlog]
      exact reason

theorem Lapse.of_le {start start' : Nat} {cause : CallError}
    (h : Lapse b st w site start c cause) (hle : start' ≤ start) :
    Lapse b st w site start' c cause := by
  cases h with
  | inRuntime inside => exact .inRuntime inside
  | refused ended => exact .refused ended
  | failed behind served outcome => exact .failed (Nat.le_trans hle behind) served outcome
  | crashed behind served outcome => exact .crashed (Nat.le_trans hle behind) served outcome
  | dropped behind accepted unserved ended reason =>
    exact .dropped (Nat.le_trans hle behind) accepted unserved ended reason

/-- A caller that looks its ticket up finds what became of the call at that place. -/
theorem Orderly.of_receipt? (h : Orderly b st w) {place : Nat}
    {reply : Except CallError c.Answer} (hr : w.channel.receipt? place c = some reply) :
    w.served[place]? = some c ∧ reply = (b c (w.stateAt b st place)).outcome.result ∨
      w.channel.phase = .ended ∧ w.served.length ≤ place ∧
        w.accepted[place]? = some (.call c) ∧ reply = .error .noReply := by
  rw [Channel.receipt?, List.findSome?_eq_some_iff] at hr
  obtain ⟨before, r, after, hrs, hreply, -⟩ := hr
  have hmem : r ∈ w.channel.receipts := by simp [hrs]
  split at hreply
  · rename_i heq
    obtain ⟨rfl, rfl⟩ := heq
    obtain rfl := Option.some.inj hreply
    exact (h.of_mem_receipts hmem).2
  · cases hreply

/-- Nothing that is accepted behind a shutdown is served. -/
theorem Orderly.served_of_shutdown (h : Orderly b st w) {place : Nat}
    (hs : w.accepted[place]? = some .shutdown) : w.served.length ≤ place := by
  apply Nat.le_of_not_lt
  intro hlt
  obtain ⟨rest, hrest⟩ := h.served
  rw [← hrest, List.getElem?_append_left (by simpa using hlt), List.getElem?_map] at hs
  simp at hs

end Traffic
end ImsProvisioning
