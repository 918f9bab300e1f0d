import ImsProvisioning.Proofs.Traffic.Basic

/-! # Growth and rest

What was accepted, served or logged stays so, and nothing at all happens on a channel
that has ended. A host that is left to work comes to rest: it waits for a command,
or it has ended.
-/

namespace ImsProvisioning
namespace Channel

variable {σ : Type} {ch : Channel σ}

/-- A bound on what the host can do without another send. -/
def load (ch : Channel σ) : Nat :=
  match ch.phase with
  | .unstarted | .ended => 0
  | .idle => 2 * ch.queue.length + 2
  | .serving _ _ => 2 * ch.queue.length + 3
  | .leaving => 1

/-- The host has nothing to do unless a command, or the loss of the last handle, comes. -/
inductive AtRest (ch : Channel σ) : Prop
  | unstarted (phase : ch.phase = .unstarted)
  | waiting (phase : ch.phase = .idle) (queue : ch.queue = []) (handles : ch.handles ≠ 0)
  | ended (phase : ch.phase = .ended)

theorem AtRest.hostStep (h : AtRest ch) (b : Backend σ) : ch.hostStep b = ch := by
  cases h with
  | unstarted phase => simp [Channel.hostStep, phase]
  | waiting phase queue handles => simp [Channel.hostStep, phase, queue, handles]
  | ended phase => simp [Channel.hostStep, phase]

theorem AtRest.hostSteps (h : AtRest ch) (b : Backend σ) (n : Nat) : ch.hostSteps b n = ch := by
  induction n with
  | zero => rfl
  | succ n ih => rw [Channel.hostSteps, h.hostStep, ih]

/-- A step at work leaves less to do. -/
theorem atRest_or_load_lt (b : Backend σ) (ch : Channel σ) :
    AtRest ch ∨ (ch.hostStep b).load < ch.load := by
  cases phase : ch.phase with
  | unstarted => exact .inl (.unstarted phase)
  | ended => exact .inl (.ended phase)
  | leaving =>
    right
    simp [Channel.hostStep, load, phase, close]
  | serving ticket c =>
    right
    simp [Channel.hostStep, load, phase]
  | idle =>
    cases queue : ch.queue with
    | nil =>
      by_cases handles : ch.handles = 0
      · right
        simp [Channel.hostStep, load, phase, queue, handles]
      · exact .inl (.waiting phase queue handles)
    | cons q rest =>
      right
      obtain ⟨ticket, _ | _⟩ := q
      · simp only [Channel.hostStep, load, phase, queue, List.length_cons]
        omega
      · simp [Channel.hostStep, load, phase, queue]

theorem hostSteps_atRest (b : Backend σ) {n : Nat} (h : ch.load ≤ n) :
    AtRest (ch.hostSteps b n) := by
  induction n generalizing ch with
  | zero =>
    rcases atRest_or_load_lt b ch with hr | hl
    · exact hr
    · omega
  | succ n ih =>
    rcases atRest_or_load_lt b ch with hr | hl
    · rw [hr.hostSteps]
      exact hr
    · exact ih (by omega)

theorem hostStep_calls (b : Backend σ) (ch : Channel σ) :
    ch.ledger.calls <+: (ch.hostStep b).ledger.calls := by
  unfold hostStep
  split
  case h_3 =>
    split
    · split <;> exact List.prefix_rfl
    all_goals exact List.prefix_rfl
  case h_4 => exact List.prefix_append _ _
  all_goals exact List.prefix_rfl

def nextLines (b : Backend σ) (ch : Channel σ) : List HostLine :=
  match ch.phase with
  | .unstarted | .ended => []
  | .idle =>
    match ch.queue with
    | ⟨_, .shutdown⟩ :: _ => [.shuttingDown]
    | _ => []
  | .serving _ c => linesOf c (ch.ledger.outcome b c)
  | .leaving => [.stopped]

theorem hostStep_log_eq (b : Backend σ) (ch : Channel σ) :
    (ch.hostStep b).log = ch.log ++ ch.nextLines b := by
  unfold hostStep nextLines
  cases ch.phase with
  | unstarted | ended => simp
  | serving ticket c | leaving => rfl
  | idle =>
    cases ch.queue with
    | nil =>
      simp only [List.append_nil]
      split <;> rfl
    | cons q rest =>
      obtain ⟨ticket, _ | _⟩ := q
      · simp
      · rfl

theorem hostStep_log (b : Backend σ) (ch : Channel σ) : ch.log <+: (ch.hostStep b).log := by
  rw [hostStep_log_eq]
  exact List.prefix_append _ _

theorem load_le (ch : Channel σ) : ch.load ≤ 2 * ch.queue.length + 3 := by
  unfold load
  split <;> omega

theorem settle_atRest (b : Backend σ) (ch : Channel σ) : AtRest (ch.settle b) :=
  hostSteps_atRest b ch.load_le

end Channel

namespace Traffic

variable {σ : Type} {b : Backend σ} {w w' w'' : Traffic σ}

/-- What lies between two points of the traffic, the later one second. -/
structure Grows (w w' : Traffic σ) : Prop where
  accepted : w.accepted <+: w'.accepted
  served : w.served <+: w'.served
  log : w.channel.log <+: w'.channel.log
  ended : w.channel.phase = .ended →
    w'.accepted = w.accepted ∧
      { w'.channel with handles := w.channel.handles } = w.channel

theorem Grows.refl (w : Traffic σ) : Grows w w :=
  ⟨List.prefix_rfl, List.prefix_rfl, List.prefix_rfl, fun _ => ⟨rfl, rfl⟩⟩

theorem Grows.phase_eq (h : Grows w w') (ended : w.channel.phase = .ended) :
    w'.channel.phase = .ended :=
  (congrArg Channel.phase (h.ended ended).2).trans ended

theorem Grows.served_eq (h : Grows w w') (ended : w.channel.phase = .ended) :
    w'.served = w.served := by
  have hc := congrArg (fun ch => ch.ledger.calls) (h.ended ended).2
  exact hc

theorem Grows.trans (h : Grows w w') (h' : Grows w' w'') : Grows w w'' where
  accepted := h.accepted.trans h'.accepted
  served := h.served.trans h'.served
  log := h.log.trans h'.log
  ended := by
    intro ended
    obtain ⟨ha, hc⟩ := h.ended ended
    obtain ⟨ha', hc'⟩ := h'.ended (h.phase_eq ended)
    refine ⟨ha'.trans ha, ?_⟩
    rw [← hc, ← hc']

theorem Change.grows (h : Change b w w') : Grows w w' := by
  cases h with
  | none => exact .refl w
  | send command _ connected =>
    exact ⟨List.prefix_append _ _, List.prefix_rfl, List.prefix_rfl,
      fun ended => absurd ended connected⟩
  | clone => exact ⟨List.prefix_rfl, List.prefix_rfl, List.prefix_rfl, fun _ => ⟨rfl, rfl⟩⟩
  | release => exact ⟨List.prefix_rfl, List.prefix_rfl, List.prefix_rfl, fun _ => ⟨rfl, rfl⟩⟩
  | start unstarted =>
    exact ⟨List.prefix_rfl, List.prefix_rfl, List.prefix_append _ _,
      fun ended => by simp [unstarted] at ended⟩
  | dropHost unstarted =>
    exact ⟨List.prefix_rfl, List.prefix_rfl, List.prefix_rfl,
      fun ended => by simp [unstarted] at ended⟩
  | work =>
    refine ⟨List.prefix_rfl, Channel.hostStep_calls b _, Channel.hostStep_log b _, ?_⟩
    intro ended
    rw [(Channel.AtRest.ended ended).hostStep]
    exact ⟨rfl, rfl⟩

theorem runFrom_grows (b : Backend σ) (w : Traffic σ) (as : List Action) :
    Grows w (w.runFrom b as) :=
  runFrom_induction (fun h hc => h.trans hc.grows) (.refl w) as

theorem runFrom_work (b : Backend σ) (w : Traffic σ) (n : Nat) :
    w.runFrom b (List.replicate n .work) = { w with channel := w.channel.hostSteps b n } := by
  induction n generalizing w with
  | zero => rfl
  | succ n ih =>
    rw [List.replicate_succ, runFrom_cons, ih]
    rfl

end Traffic
end ImsProvisioning
