import ImsProvisioning.Proofs.Transport.Client

/-! # Backends that agree

Two backends may differ on states that never come up. From a state on which they agree, and
which no call leads away from such states, nobody tells them apart: neither a program that calls
them nor a client on a channel, whatever the others do there.
-/

namespace ImsProvisioning

variable {σ : Type}

/-- The backends do the same on the states concerned, and stay there. -/
structure Backend.AgreesOn (P : σ → Prop) (b b' : Backend σ) : Prop where
  same : ∀ c st, P st → b' c st = b c st
  closed : ∀ c st, P st → P (b c st).state

namespace Backend.AgreesOn

variable {P : σ → Prop} {b b' : Backend σ}

theorem symm (h : b.AgreesOn P b') : b'.AgreesOn P b where
  same c st hst := (h.same c st hst).symm
  closed c st hst := h.same c st hst ▸ h.closed c st hst

theorem run {α : Type} (h : b.AgreesOn P b') (p : Program α) {st : σ} (hst : P st) :
    p.run b'.service st = p.run b.service st := by
  induction p generalizing st with
  | done a => rfl
  | log line next ih => simp only [Program.run, ih hst]
  | call c next ih =>
    have hservice : b'.service c st = b.service c st := by
      simp only [Backend.service, h.same c st hst]
    have hstate : P (b.service c st).state := h.closed c st hst
    simp only [Program.run, hservice, ih _ hstate]

/-- A host looks at its backend only to serve. -/
theorem hostStep (h : b.AgreesOn P b') {ch : Channel σ} (hch : P ch.ledger.state) :
    ch.hostStep b' = ch.hostStep b ∧ P (ch.hostStep b).ledger.state := by
  cases phase : ch.phase with
  | unstarted | ended => simpa [Channel.hostStep, phase] using hch
  | leaving => simpa [Channel.hostStep, Channel.close, phase] using hch
  | idle =>
    cases queue : ch.queue with
    | nil => by_cases handles : ch.handles = 0 <;>
        simpa [Channel.hostStep, phase, queue, handles] using hch
    | cons q rest =>
      obtain ⟨ticket, _ | _⟩ := q <;> simpa [Channel.hostStep, phase, queue] using hch
  | serving ticket c =>
    simp only [Channel.hostStep, phase, Ledger.outcome, Ledger.serve, h.same c _ hch]
    exact ⟨trivial, h.closed c _ hch⟩

theorem submit_ledger (site : Site) (c : Call) (ch : Channel σ) :
    (ch.submit site c).2.ledger = ch.ledger := by
  by_cases h : (ch.submit site c).1.isAccepted
  · rw [(Channel.submit_accepted h).2]
    rfl
  · rw [Channel.submit_refused h]

theorem step (h : b.AgreesOn P b') {w : Traffic σ} (hw : P w.channel.ledger.state)
    (a : Action) : w.step b' a = w.step b a ∧ P (w.step b a).channel.ledger.state := by
  unfold Traffic.step
  split
  · cases a with
    | work =>
      obtain ⟨hstep, hstate⟩ := h.hostStep hw
      exact ⟨by simp only [Traffic.perform, hstep], hstate⟩
    | call site c =>
      refine ⟨rfl, ?_⟩
      simpa only [Traffic.perform, submit_ledger] using hw
    | shutdown =>
      refine ⟨rfl, ?_⟩
      rw [Traffic.perform_shutdown]
      split <;> exact hw
    | clone | release | start | dropHost => exact ⟨rfl, hw⟩
  · exact ⟨rfl, hw⟩

theorem runFrom (h : b.AgreesOn P b') {w : Traffic σ} (hw : P w.channel.ledger.state)
    (as : List Action) :
    w.runFrom b' as = w.runFrom b as ∧ P (w.runFrom b as).channel.ledger.state := by
  induction as generalizing w with
  | nil => exact ⟨rfl, hw⟩
  | cons a as ih =>
    obtain ⟨hstep, hstate⟩ := h.step hw a
    rw [Traffic.runFrom_cons, Traffic.runFrom_cons, hstep]
    exact ih hstate

/-- What a client may live through with one backend it may live through with the other. -/
theorem runs {α : Type} {site : Site} {others : Action → Prop} {p : Program α}
    {w w' : Traffic σ} {a : α} {lines : List LogLine} (h : b.AgreesOn P b')
    (hw : P w.channel.ledger.state) (hr : Program.Runs b site others p w a lines w') :
    Program.Runs b' site others p w a lines w' := by
  induction hr with
  | done a w => exact .done a w
  | log rest ih => exact .log (ih hw)
  | other allowed rest ih =>
    obtain ⟨hstep, hstate⟩ := h.step hw _
    exact .other allowed (hstep ▸ ih hstate)
  | settled submission rest ih =>
    obtain ⟨hstep, hstate⟩ := h.step hw _
    exact .settled submission (hstep ▸ ih hstate)
  | @answered c next w w' a lines ticket result between submission allowed receipt rest ih =>
    obtain ⟨hstep, hstate⟩ := h.step hw (.call site c)
    obtain ⟨hrun, hstate'⟩ := h.runFrom hstate between
    rw [← hrun, ← hstep] at receipt ih
    refine .answered submission allowed receipt (ih ?_)
    rw [hstep, hrun]
    exact hstate'

end Backend.AgreesOn
end ImsProvisioning
