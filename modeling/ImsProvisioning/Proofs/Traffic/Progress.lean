import ImsProvisioning.Proofs.Traffic.Sequential

/-! # Progress

A started host that does enough steps serves whatever was accepted in front of a shutdown,
whatever happens between the steps. It leaves for a shutdown only, or when there is neither
a command nor a handle left, and until then the channel is connected.
-/

namespace ImsProvisioning

namespace Phase

def isServing : Phase → Bool
  | .serving _ _ => true
  | _ => false

def isWorking : Phase → Bool
  | .idle | .serving _ _ => true
  | _ => false

end Phase

theorem callsBeforeShutdown_mono {commands more : List Command} (h : commands <+: more) :
    callsBeforeShutdown commands <+: callsBeforeShutdown more := by
  obtain ⟨rest, rfl⟩ := h
  induction commands with
  | nil => exact List.nil_prefix
  | cons command commands ih =>
    cases command with
    | shutdown => exact List.prefix_rfl
    | call c => exact (List.prefix_cons_inj c).2 ih

theorem callsBeforeShutdown_length_le (commands : List Command) :
    (callsBeforeShutdown commands).length ≤ commands.length := by
  induction commands with
  | nil => exact Nat.le_refl _
  | cons command commands ih =>
    cases command with
    | shutdown => exact Nat.zero_le _
    | call c => exact Nat.succ_le_succ ih

namespace Traffic

variable {σ : Type} {b : Backend σ} {st : σ} {w w' : Traffic σ} {target : List Call}

/-- The number of steps that a host at work needs until it has served this many calls. -/
def pending (w : Traffic σ) (target : List Call) : Nat :=
  2 * (target.length - w.served.length) - if w.channel.phase.isServing then 1 else 0

theorem pending_eq_zero : w.pending target = 0 ↔ target.length ≤ w.served.length := by
  unfold pending
  split <;> omega

/-- Nothing that happens puts the host back. -/
theorem Change.pending_le (h : Change b w w') : w'.pending target ≤ w.pending target := by
  cases h with
  | none | send | clone | release => exact Nat.le_refl _
  | start unstarted | dropHost unstarted =>
    simp [pending, served, Channel.start, Channel.close, unstarted, Phase.isServing]
  | work =>
    cases phase : w.channel.phase with
    | unstarted | ended => simp [Channel.hostStep, phase]
    | leaving => simp [pending, served, Channel.hostStep, Channel.close, phase, Phase.isServing]
    | serving ticket c =>
      simp only [pending, served, Channel.hostStep, Ledger.serve, phase, Phase.isServing,
        List.length_append, List.length_singleton, Bool.false_eq_true, if_false, if_true]
      omega
    | idle =>
      cases queue : w.channel.queue with
      | nil => by_cases handles : w.channel.handles = 0 <;>
          simp [pending, served, Channel.hostStep, phase, queue, handles, Phase.isServing]
      | cons q rest =>
        obtain ⟨ticket, _ | _⟩ := q <;>
          simp [pending, served, Channel.hostStep, phase, queue, Phase.isServing]

/-- While calls in front of a shutdown are not served, the next accepted command is a call. -/
theorem Orderly.exists_next (h : Orderly b st w) (ht : target <+: callsBeforeShutdown w.accepted)
    (hp : w.pending target ≠ 0) : ∃ ticket c rest, w.unserved = ⟨ticket, .call c⟩ :: rest := by
  have hlt : w.served.length < target.length := Nat.lt_of_not_le (mt pending_eq_zero.2 hp)
  have hne : w.served ≠ callsBeforeShutdown w.accepted := by
    intro he
    rw [he] at hlt
    exact absurd ht.length_le (Nat.not_le_of_lt hlt)
  cases hu : w.unserved with
  | nil => exact absurd (h.served_eq (.inr hu)) hne
  | cons q rest =>
    obtain ⟨ticket, _ | _⟩ := q
    · exact ⟨ticket, _, rest, rfl⟩
    · exact absurd (h.served_eq (.inl ⟨ticket, rest, hu⟩)) hne

/-- As long as such calls are not served, each step of a started host is a step towards it. -/
theorem Orderly.work_pending_lt (h : Orderly b st w) (started : .started ∈ w.channel.log)
    (ht : target <+: callsBeforeShutdown w.accepted) (hp : w.pending target ≠ 0) :
    (w.step b .work).pending target < w.pending target := by
  obtain ⟨ticket, c, rest, hu⟩ := h.exists_next ht hp
  have hlt : w.channel.ledger.calls.length < target.length :=
    Nat.lt_of_not_le (mt pending_eq_zero.2 hp)
  change pending { w with channel := w.channel.hostStep b } target < _
  cases h.stage with
  | unstarted _ _ _ log | dropped _ _ log => simp [log] at started
  | idle phase queue =>
    rw [hu] at queue
    simp only [pending, Traffic.served, Channel.hostStep, phase, queue, Phase.isServing,
      Bool.false_eq_true, if_false, if_true]
    omega
  | serving ticket' c' phase =>
    simp only [pending, Traffic.served, Channel.hostStep, Ledger.serve, phase, Phase.isServing,
      List.length_append, List.length_singleton, Bool.false_eq_true, if_false, if_true]
    omega
  | leavingShutdown _ _ queue | shutDown _ _ _ queue => simp [hu] at queue
  | leavingAlone _ _ _ unserved | abandoned _ unserved => simp [hu] at unserved

/-- With enough steps among whatever happens, the host has served them. -/
theorem Orderly.served_of_steps (h : Orderly b st w) (started : .started ∈ w.channel.log)
    (ht : target <+: callsBeforeShutdown w.accepted) {more : List Action}
    (enough : w.pending target ≤ more.count .work) : target <+: (w.runFrom b more).served := by
  induction more generalizing w with
  | nil =>
    have hp : w.pending target = 0 := Nat.le_zero.1 enough
    exact List.prefix_of_prefix_length_le ht (prefix_callsBeforeShutdown h.served)
      (pending_eq_zero.1 hp)
  | cons a more ih =>
    have hc := step_change b w a
    have hg := hc.grows
    apply ih (h.change hc) (hg.log.subset started)
      (ht.trans (callsBeforeShutdown_mono hg.accepted))
    by_cases ha : a = .work
    · subst ha
      rw [List.count_cons_self] at enough
      by_cases hp : w.pending target = 0
      · exact Nat.le_trans hc.pending_le (hp ▸ Nat.zero_le _)
      · have := h.work_pending_lt started ht hp
        omega
    · rw [List.count_cons_of_ne ha] at enough
      exact Nat.le_trans hc.pending_le enough

theorem pending_le (w : Traffic σ) (target : List Call) :
    w.pending target ≤ 2 * target.length := by
  unfold pending
  omega

theorem Orderly.accepted_eq (h : Orderly b st w) (unserved : w.unserved = []) :
    w.accepted = w.served.map Command.call :=
  (h.served.eq_of_length_le (by simpa using accepted_of_unserved_nil unserved)).symm

/-- What remains of a channel that has ended. -/
structure Departed (w : Traffic σ) : Prop where
  queue : w.channel.queue = []
  handles : .started ∈ w.channel.log → w.unserved = [] → w.channel.handles = 0

theorem Change.departed (h : Change b w w') (ho : Orderly b st w)
    (hd : w.channel.phase = .ended → Departed w) (ended : w'.channel.phase = .ended) :
    Departed w' := by
  cases h with
  | none => exact hd ended
  | send _ _ connected => exact absurd ended connected
  | clone handle =>
    obtain ⟨queue, handles⟩ := hd ended
    exact ⟨queue, fun hs hn => absurd (handles hs hn) handle⟩
  | release =>
    obtain ⟨queue, handles⟩ := hd ended
    exact ⟨queue, fun hs hn => by simp [Channel.release, handles hs hn]⟩
  | start => simp [Channel.start] at ended
  | dropHost unstarted =>
    refine ⟨rfl, fun hs => ?_⟩
    have hlog : w.channel.close.log = [] := (ho.stage.of_unstarted unstarted).2.2
    simp [hlog] at hs
  | work =>
    cases phase : w.channel.phase with
    | ended => simpa [Channel.hostStep, phase] using hd phase
    | unstarted => simp [Channel.hostStep, phase] at ended
    | serving ticket c => simp [Channel.hostStep, phase] at ended
    | idle =>
      simp only [Channel.hostStep, phase] at ended
      split at ended
      · split at ended <;> simp_all
      all_goals simp at ended
    | leaving =>
      simp only [Channel.hostStep, phase]
      refine ⟨rfl, fun _ hn => ?_⟩
      cases ho.stage with
      | leavingShutdown _ _ queue => exact absurd (queue.symm.trans hn) (List.cons_ne_nil _ _)
      | leavingAlone _ handles => exact handles
      | _ => simp_all

theorem run_departed (b : Backend σ) (st : σ) (as : List Action)
    (ended : (run b st as).channel.phase = .ended) : Departed (run b st as) :=
  (runFrom_induction (P := fun w => Orderly b st w ∧ (w.channel.phase = .ended → Departed w))
    (fun h hc => ⟨h.1.change hc, hc.departed h.1 h.2⟩)
    ⟨fresh_orderly b st, fun ended => by simp [fresh, Channel.fresh] at ended⟩ as).2 ended

/-- Why a host is not at work any more: a shutdown, or nothing to serve and nobody to send. -/
inductive Quit (w : Traffic σ) : Prop
  | shutdown (line : .shuttingDown ∈ w.channel.log)
      (next : w.accepted[w.served.length]? = some .shutdown)
  | abandoned (handles : w.channel.handles = 0) (queue : w.channel.queue = [])
      (served : w.accepted = w.served.map Command.call)

/-- A started host is at work on a connected channel, or it has left for a reason. -/
theorem Orderly.working_or_quit (h : Orderly b st w)
    (hd : w.channel.phase = .ended → Departed w) (started : .started ∈ w.channel.log) :
    w.channel.phase.isWorking ∧ w.channel.isConnected ∨
      ¬ w.channel.phase.isWorking ∧ Quit w := by
  cases h.stage with
  | unstarted _ _ _ log | dropped _ _ log => simp [log] at started
  | idle phase | serving _ _ phase =>
    left
    simp [phase, Phase.isWorking, Channel.isConnected]
  | leavingShutdown _ phase queue log | shutDown _ _ phase queue log =>
    right
    refine ⟨by simp [phase, Phase.isWorking], .shutdown (by simp [log]) ?_⟩
    exact (accepted_of_unserved queue).2
  | leavingAlone phase handles queue unserved =>
    right
    exact ⟨by simp [phase, Phase.isWorking], .abandoned handles queue (h.accepted_eq unserved)⟩
  | abandoned phase unserved log =>
    right
    obtain ⟨queue, handles⟩ := hd phase
    exact ⟨by simp [phase, Phase.isWorking],
      .abandoned (handles started unserved) queue (h.accepted_eq unserved)⟩

/-- Only a step of the host ends its work. -/
theorem step_isWorking (b : Backend σ) {a : Action} (ha : a ≠ .work)
    (working : w.channel.phase.isWorking) : (w.step b a).channel.phase.isWorking := by
  cases a with
  | call | shutdown | clone | release =>
    rw [(step_of_isByHandle b w rfl).1]
    exact working
  | start | dropHost =>
    have started : w.channel.phase ≠ .unstarted := by
      intro unstarted
      simp [unstarted, Phase.isWorking] at working
    simpa [step, enables, started] using working
  | work => exact absurd rfl ha

/-- The host leaves with a shutdown at hand, or with nothing to serve and nobody to send. -/
theorem Orderly.leaves (h : Orderly b st w) (working : w.channel.phase.isWorking) {a : Action}
    (left : ¬ (w.step b a).channel.phase.isWorking) :
    a = .work ∧ w.channel.phase = .idle ∧
      ((∃ ticket rest, w.channel.queue = ⟨ticket, .shutdown⟩ :: rest) ∨
        w.channel.queue = [] ∧ w.channel.handles = 0 ∧
          w.accepted = w.served.map Command.call) := by
  obtain rfl : a = .work :=
    Decidable.byContradiction fun ha => left (step_isWorking b ha working)
  refine ⟨rfl, ?_⟩
  change ¬ (w.channel.hostStep b).phase.isWorking at left
  cases h.stage with
  | idle phase hqueue =>
    refine ⟨phase, ?_⟩
    cases queue : w.channel.queue with
    | nil =>
      by_cases handles : w.channel.handles = 0
      · exact .inr ⟨rfl, handles, h.accepted_eq (hqueue.symm.trans queue)⟩
      · simp [Channel.hostStep, phase, queue, handles, Phase.isWorking] at left
    | cons q rest =>
      obtain ⟨ticket, _ | _⟩ := q
      · simp [Channel.hostStep, phase, queue, Phase.isWorking] at left
      · exact .inl ⟨ticket, rest, rfl⟩
  | serving _ _ phase => simp [Channel.hostStep, phase, Phase.isWorking] at left
  | unstarted phase | leavingShutdown _ phase | leavingAlone phase | dropped phase
  | shutDown _ _ phase | abandoned phase => simp [phase, Phase.isWorking] at working

end Traffic
end ImsProvisioning
