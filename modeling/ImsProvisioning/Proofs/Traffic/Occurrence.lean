import ImsProvisioning.Proofs.Traffic.Rest

/-! # What has happened

The turning points in the life of a host: it starts, it takes a shutdown, it stops, or it is
dropped before it starts. Whether one of them has happened shows in the phase of the channel
and in the host's log.
-/

namespace ImsProvisioning

namespace Channel

variable {σ : Type}

theorem hostStep_ended {b : Backend σ} {ch : Channel σ} :
    (ch.hostStep b).phase = .ended ↔ ch.phase = .ended ∨ ch.phase = .leaving := by
  unfold hostStep
  cases phase : ch.phase with
  | unstarted | ended => simp [phase]
  | serving ticket c | leaving => simp [close]
  | idle =>
    cases ch.queue with
    | nil =>
      simp only [reduceCtorEq, or_self, iff_false]
      split <;> simp [phase]
    | cons q rest =>
      obtain ⟨ticket, _ | _⟩ := q <;> simp

theorem level_of_mem_linesOf {c : Call} {outcome : Outcome c} {line : HostLine}
    (h : line ∈ linesOf c outcome) : line.level ≠ .debug := by
  cases outcome with
  | crashed =>
    obtain rfl := List.mem_singleton.1 h
    simp [HostLine.level]
  | returned result =>
    cases result with
    | ok answer => cases h
    | error cause =>
      simp only [linesOf] at h
      split at h
      · cases h
      · obtain rfl := List.mem_singleton.1 h
        simp [HostLine.level]

theorem started_notMem_nextLines (b : Backend σ) (ch : Channel σ) :
    .started ∉ ch.nextLines b := by
  intro h
  unfold nextLines at h
  split at h
  · cases h
  · cases h
  · split at h
    · cases List.mem_singleton.1 h
    · cases h
  · exact level_of_mem_linesOf h rfl
  · cases List.mem_singleton.1 h

theorem shuttingDown_mem_nextLines {b : Backend σ} {ch : Channel σ} :
    .shuttingDown ∈ ch.nextLines b ↔
      ch.phase = .idle ∧ ∃ ticket rest, ch.queue = ⟨ticket, .shutdown⟩ :: rest := by
  unfold nextLines
  cases ch.phase with
  | unstarted | ended | leaving => simp
  | serving ticket c =>
    simp only [reduceCtorEq, false_and, iff_false]
    exact fun h => level_of_mem_linesOf h rfl
  | idle =>
    cases ch.queue with
    | nil => simp
    | cons q rest =>
      obtain ⟨ticket, _ | _⟩ := q <;> simp

theorem stopped_mem_nextLines {b : Backend σ} {ch : Channel σ} :
    .stopped ∈ ch.nextLines b ↔ ch.phase = .leaving := by
  unfold nextLines
  cases ch.phase with
  | unstarted | ended | leaving => simp
  | serving ticket c =>
    simp only [reduceCtorEq, iff_false]
    exact fun h => level_of_mem_linesOf h rfl
  | idle =>
    cases ch.queue with
    | nil => simp
    | cons q rest =>
      obtain ⟨ticket, _ | _⟩ := q <;> simp

end Channel

namespace Traffic

variable {σ : Type} {b : Backend σ} {w : Traffic σ} {a : Action} {as : List Action}

/-- At some point of these actions from `w` on, one of them is such an event. -/
def Occurs (b : Backend σ) (w : Traffic σ) (event : Traffic σ → Action → Prop)
    (as : List Action) : Prop :=
  ∃ before a after, as = before ++ a :: after ∧ event (w.runFrom b before) a

def Starts (w : Traffic σ) (a : Action) : Prop := a = .start ∧ w.channel.phase = .unstarted

/-- The host takes a shutdown off the queue. -/
def TakesShutdown (w : Traffic σ) (a : Action) : Prop :=
  a = .work ∧ w.channel.phase = .idle ∧
    ∃ ticket rest, w.channel.queue = ⟨ticket, .shutdown⟩ :: rest

/-- The host, which has taken its last command, stops. -/
def Stops (w : Traffic σ) (a : Action) : Prop := a = .work ∧ w.channel.phase = .leaving

def DropsHost (w : Traffic σ) (a : Action) : Prop := a = .dropHost ∧ w.channel.phase = .unstarted

variable {event : Traffic σ → Action → Prop}

theorem occurs_nil : ¬ Occurs b w event [] := by
  rintro ⟨before, a, after, h, -⟩
  exact List.append_ne_nil_of_right_ne_nil _ (List.cons_ne_nil _ _) h.symm

theorem occurs_cons :
    Occurs b w event (a :: as) ↔ event w a ∨ Occurs b (w.step b a) event as := by
  constructor
  · rintro ⟨_ | ⟨a', before⟩, x, after, h, hx⟩
    · obtain ⟨rfl, rfl⟩ := List.cons.inj h
      exact .inl hx
    · obtain ⟨rfl, rfl⟩ := List.cons.inj h
      exact .inr ⟨before, x, after, rfl, hx⟩
  · rintro (h | ⟨before, x, after, rfl, hx⟩)
    · exact ⟨[], a, as, rfl, h⟩
    · exact ⟨a :: before, x, after, rfl, hx⟩

/-- What becomes true with certain events, and stays true, says whether one has happened. -/
theorem holds_iff_occurs {P : Traffic σ → Prop} (step : ∀ w a, P (w.step b a) ↔ P w ∨ event w a)
    (w : Traffic σ) (as : List Action) :
    P (w.runFrom b as) ↔ P w ∨ Occurs b w event as := by
  induction as generalizing w with
  | nil => simp [occurs_nil]
  | cons a as ih => rw [runFrom_cons, ih, step, occurs_cons, or_assoc]

def logged (b : Backend σ) (w : Traffic σ) : Action → List HostLine
  | .start => if w.channel.phase = .unstarted then [.started] else []
  | .work => w.channel.nextLines b
  | _ => []

theorem step_log (b : Backend σ) (w : Traffic σ) (a : Action) :
    (w.step b a).channel.log = w.channel.log ++ w.logged b a := by
  cases a with
  | call | shutdown | clone | release =>
    rw [(step_of_isByHandle b w rfl).2]
    exact (List.append_nil _).symm
  | start =>
    simp only [step, enables, decide_eq_true_eq, logged]
    split
    · rfl
    · exact (List.append_nil _).symm
  | dropHost =>
    have hlogged : w.logged b .dropHost = [] := rfl
    rw [hlogged, List.append_nil]
    unfold step
    split <;> rfl
  | work => exact Channel.hostStep_log_eq b w.channel

/-- A line that only certain events log says whether one of them has happened. -/
theorem mem_log_iff_occurs {line : HostLine}
    (h : ∀ (w : Traffic σ) a, line ∈ w.logged b a ↔ event w a) (st : σ) (as : List Action) :
    line ∈ (run b st as).channel.log ↔ Occurs b (fresh st) event as := by
  have hrun := holds_iff_occurs (P := fun w => line ∈ w.channel.log)
    (fun w a => by rw [step_log, List.mem_append, h]) (fresh st) as
  have hfresh : line ∉ (fresh st).channel.log := List.not_mem_nil
  exact hrun.trans (or_iff_right hfresh)

theorem started_mem_log (b : Backend σ) (st : σ) (as : List Action) :
    .started ∈ (run b st as).channel.log ↔ Occurs b (fresh st) Starts as := by
  refine mem_log_iff_occurs (fun w a => ?_) st as
  cases a with
  | start => simp [logged, Starts]
  | work => simp [logged, Starts, Channel.started_notMem_nextLines]
  | _ => simp [logged, Starts]

theorem shuttingDown_mem_log (b : Backend σ) (st : σ) (as : List Action) :
    .shuttingDown ∈ (run b st as).channel.log ↔ Occurs b (fresh st) TakesShutdown as := by
  refine mem_log_iff_occurs (fun w a => ?_) st as
  cases a with
  | start => simp [logged, TakesShutdown]
  | work => simp [logged, TakesShutdown, Channel.shuttingDown_mem_nextLines]
  | _ => simp [logged, TakesShutdown]

theorem stopped_mem_log (b : Backend σ) (st : σ) (as : List Action) :
    .stopped ∈ (run b st as).channel.log ↔ Occurs b (fresh st) Stops as := by
  refine mem_log_iff_occurs (fun w a => ?_) st as
  cases a with
  | start => simp [logged, Stops]
  | work => simp [logged, Stops, Channel.stopped_mem_nextLines]
  | _ => simp [logged, Stops]

theorem step_ended (b : Backend σ) (w : Traffic σ) (a : Action) :
    (w.step b a).channel.phase = .ended ↔
      w.channel.phase = .ended ∨ Stops w a ∨ DropsHost w a := by
  cases a with
  | call | shutdown | clone | release =>
    rw [(step_of_isByHandle b w rfl).1]
    simp [Stops, DropsHost]
  | start =>
    simp only [step, enables, decide_eq_true_eq]
    split
    · rename_i unstarted
      simp [perform, Channel.start, unstarted, Stops, DropsHost]
    · simp [Stops, DropsHost]
  | dropHost =>
    simp only [step, enables, decide_eq_true_eq]
    split
    · rename_i unstarted
      simp [perform, Channel.close, unstarted, DropsHost]
    · rename_i started
      simp [started, Stops, DropsHost]
  | work =>
    have hstep : (w.step b .work).channel = w.channel.hostStep b := rfl
    rw [hstep, Channel.hostStep_ended]
    simp [Stops, DropsHost]

/-- A channel has ended once its host has stopped or was dropped, and not before. -/
theorem ended_iff_occurs (b : Backend σ) (st : σ) (as : List Action) :
    (run b st as).channel.phase = .ended ↔
      Occurs b (fresh st) (fun w a => Stops w a ∨ DropsHost w a) as := by
  have hrun := holds_iff_occurs (P := fun w => w.channel.phase = .ended) (step_ended b)
    (fresh st) as
  have hfresh : (fresh st).channel.phase ≠ .ended := by simp [fresh, Channel.fresh]
  exact hrun.trans (or_iff_right hfresh)

end Traffic
end ImsProvisioning
