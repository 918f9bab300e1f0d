import ImsProvisioning.Proofs.Transport.Muted
import ImsProvisioning.Session.Run

/-! # Sessions without logging

Whether an accessor logs its calls shows in its log alone. Muted, a session with logging is one
without: the backend, the channel and the waiting callers are the same after every step, and so
is what is seen of the step.
-/

namespace ImsProvisioning

open Session (runOver request operating calling channelTurn release resolve resolveAll entry steps
  Turn transcript)
open Operation (sequence)
open Program (Runs)

variable {σ ρ : Type}

def Pending.muted (p : Pending σ) : Pending σ :=
  { p with lines := [], next := fun result => (p.next result).muted }

def Resolved.muted (r : Resolved σ) : Resolved σ := { r with lines := [] }

def Entry.muted (e : Entry σ ρ) : Entry σ ρ :=
  { e with resolved := e.resolved.map Resolved.muted, lines := [] }

/-- Nothing was logged, by the step's own caller or by others that it let go on. -/
structure Entry.IsQuiet (e : Entry σ ρ) : Prop where
  lines : e.lines = []
  resolved : ∀ r ∈ e.resolved, r.lines = []

def Session.muted (s : Session σ) : Session σ :=
  { s with options := .quiet, pending := s.pending.map Pending.muted }

def Step.showsOptions : Step σ → Bool
  | .options | .describe _ => true
  | _ => false

/-- What the entry of a step shows that is not about logging. -/
def Entry.apartFromLogging (step : Step σ) (e : Entry σ (StepResult σ)) :
    Entry σ (StepResult σ) :=
  if step.showsOptions then { e.muted with result := .ok .nothing } else e.muted

theorem Entry.apartFromLogging_muted {step : Step σ} {e : Entry σ (StepResult σ)}
    {result : StepResult σ} (h : ¬ step.showsOptions → result = e.result) :
    Entry.apartFromLogging step { e.muted with result := result } =
      e.apartFromLogging step := by
  simp only [Entry.apartFromLogging, Entry.muted, List.map_map]
  split
  · rfl
  · rename_i shown
    rw [h shown]
    rfl

theorem Entry.isQuiet_muted (e : Entry σ ρ) : e.muted.IsQuiet := by
  refine ⟨rfl, fun r hr => ?_⟩
  obtain ⟨r', -, rfl⟩ := List.mem_map.1 hr
  rfl

namespace Session

def Turn.muted (t : Turn σ) : Turn σ := ⟨t.result, [], t.session.muted⟩

theorem muted_operating (o : Options) (op : Operation) :
    (operating o op : Program (StepResult σ)).muted = operating .quiet op := by
  rw [operating, operating, Program.muted_map, Operation.muted_program]

theorem muted_calling (c : Call) : (calling c : Program (StepResult σ)).muted = calling c := by
  refine congrArg (Program.call c) (funext fun result => ?_)
  cases result <;> rfl

theorem runOver_eq (service : Service σ) (p : Program (StepResult σ)) (l : Ledger σ) :
    runOver service p l =
      let r := p.run service l.state
      (r.result, r.lines, ⟨r.state, l.calls ++ r.calls, l.deliveries ++ r.deliveries⟩) := rfl

theorem runOver_muted (service : Service σ) (p : Program (StepResult σ)) (l : Ledger σ) :
    runOver service p.muted l =
      ((runOver service p l).1, [], (runOver service p l).2.2) := by
  obtain ⟨hresult, hstate, hlines, hcalls, hdeliveries⟩ := Program.run_muted service p l.state
  simp only [runOver_eq, hresult, hstate, hlines, hcalls, hdeliveries]

theorem request_muted (b : Backend σ) (index : Nat) (site : Site) (p : Program (StepResult σ))
    (s : Session σ) :
    s.muted.request b index site p.muted = (s.request b index site p).muted := by
  obtain ⟨options, context, link, released, pending⟩ := s
  cases link with
  | direct l =>
    simp only [request, Session.muted, runOver_muted]
    rfl
  | shared l =>
    simp only [request, Session.muted, runOver_muted]
    rfl
  | channel ch =>
    simp only [request, Session.muted, Program.drive_muted]
    cases (p.drive b site ch).progress with
    | finished result => rfl
    | waiting c ticket next => simp [Progress.muted, Turn.muted, Session.muted, Pending.muted]

theorem channelTurn_muted (b : Backend σ) (step : Step σ) (ch : Channel σ) (s : Session σ) :
    channelTurn b step ch s.muted = (channelTurn b step ch s).muted := by
  cases step with
  | start =>
    simp only [channelTurn]
    split <;> rfl
  | dropHost =>
    simp only [channelTurn]
    split <;> rfl
  | shutdown =>
    simp only [channelTurn]
    obtain ⟨result, sent⟩ := ch.shutdown
    cases result <;> rfl
  | _ => rfl

theorem release_muted (b : Backend σ) (s : Session σ) :
    s.muted.release b = (s.release b).muted := by
  obtain ⟨options, context, link, released, pending⟩ := s
  cases link <;> rfl

theorem turn_muted (b : Backend σ) (index : Nat) (step : Step σ) (s : Session σ)
    (h : ¬ step.showsOptions) : s.muted.turn b index step = (s.turn b index step).muted := by
  have hlink : s.muted.link = s.link := rfl
  have hreleased : s.muted.released = s.released := rfl
  cases step with
  | options | describe multiline => exact absurd rfl h
  | start | shutdown | dropHost | isConnected | describeHandle =>
    simp only [turn, Step.isAboutChannel, hlink, hreleased]
    cases s.link with
    | direct l | shared l => rfl
    | channel ch =>
      simp only [apply_ite Turn.muted, ← channelTurn_muted]
      rfl
  | operate site op =>
    cases op with
    | error e =>
      simp only [turn, Step.isAboutChannel, hreleased, apply_ite Turn.muted]
      rfl
    | ok op =>
      simp only [turn, Step.isAboutChannel, hreleased, apply_ite Turn.muted, ← request_muted,
        muted_operating]
      rfl
  | call site c =>
    cases c with
    | error e =>
      simp only [turn, Step.isAboutChannel, hreleased, apply_ite Turn.muted]
      rfl
    | ok c =>
      simp only [turn, Step.isAboutChannel, hreleased, apply_ite Turn.muted, ← request_muted,
        muted_calling]
      rfl
  | release =>
    simp only [turn, Step.isAboutChannel, hreleased, apply_ite Turn.muted, release_muted]
    rfl
  | context | edit change | state =>
    simp only [turn, Step.isAboutChannel, hreleased, apply_ite Turn.muted]
    rfl

theorem resolve_muted (b : Backend σ) (ps : List (Pending σ)) (ch : Channel σ) :
    resolve b (ps.map Pending.muted) ch =
      ((resolve b ps ch).1.map Resolved.muted, (resolve b ps ch).2.1.map Pending.muted,
        (resolve b ps ch).2.2) := by
  induction ps generalizing ch with
  | nil => rfl
  | cons p ps ih =>
    rw [List.map_cons, resolve, resolve]
    dsimp only [Pending.muted]
    cases ch.receipt? p.ticket p.call with
    | none => simp only [ih, List.map_cons, Pending.muted]
    | some result =>
      simp only [Program.drive_muted, ih]
      cases ((p.next result).drive b p.site ch).progress with
      | finished result => simp [Progress.muted, Resolved.muted]
      | waiting c ticket next => simp [Progress.muted, Pending.muted]

theorem resolveAll_muted (b : Backend σ) (s : Session σ) :
    s.muted.resolveAll b =
      ((s.resolveAll b).1.map Resolved.muted, (s.resolveAll b).2.muted) := by
  obtain ⟨options, context, link, released, pending⟩ := s
  cases link with
  | direct l | shared l => rfl
  | channel ch =>
    simp only [resolveAll, Session.muted, resolve_muted]

theorem turn_of_showsOptions (b : Backend σ) (index : Nat) {step : Step σ} (s : Session σ)
    (h : step.showsOptions) : ∃ result, s.turn b index step = .silent result s := by
  cases step with
  | options | describe multiline =>
    simp only [turn, Step.isAboutChannel]
    split <;> exact ⟨_, rfl⟩
  | _ => cases h

/-- Muted, a step does the same, except that logging is off to one that asks. -/
theorem exists_step_muted (b : Backend σ) (index : Nat) (step : Step σ) (s : Session σ) :
    ∃ result, (¬ step.showsOptions → result = (s.step b index step).1.result) ∧
      s.muted.step b index step =
        ({ (s.step b index step).1.muted with result := result },
          (s.step b index step).2.muted) := by
  by_cases h : step.showsOptions
  · obtain ⟨result, hturn⟩ := turn_of_showsOptions b index s h
    obtain ⟨result', hturn'⟩ := turn_of_showsOptions b index s.muted h
    refine ⟨result', fun h' => absurd h h', ?_⟩
    simp only [Session.step, hturn, hturn', Turn.silent, resolveAll_muted]
    rfl
  · refine ⟨_, fun _ => rfl, ?_⟩
    simp only [Session.step, turn_muted b index step s h, Turn.muted, resolveAll_muted]
    rfl

theorem steps_length (b : Backend σ) (index : Nat) (sts : List (Step σ)) (s : Session σ) :
    (steps b index sts s).1.length = sts.length := by
  induction sts generalizing index s with
  | nil => rfl
  | cons step sts ih => exact congrArg (· + 1) (ih _ _)

theorem steps_muted (b : Backend σ) (index : Nat) (sts : List (Step σ)) (s : Session σ) :
    (steps b index sts s.muted).2 = (steps b index sts s).2.muted ∧
      List.zipWith Entry.apartFromLogging sts (steps b index sts s.muted).1 =
        List.zipWith Entry.apartFromLogging sts (steps b index sts s).1 ∧
      ∀ e ∈ (steps b index sts s.muted).1, e.IsQuiet := by
  induction sts generalizing index s with
  | nil => exact ⟨rfl, rfl, by simp [steps]⟩
  | cons step sts ih =>
    obtain ⟨result, hresult, hstep⟩ := exists_step_muted b index step s
    obtain ⟨hlast, hentries, hquiet⟩ := ih (index + 1) (s.step b index step).2
    simp only [steps, hstep]
    refine ⟨hlast, ?_, ?_⟩
    · rw [List.zipWith_cons_cons, List.zipWith_cons_cons, Entry.apartFromLogging_muted hresult,
        hentries]
    · have hresolved := (s.step b index step).1.isQuiet_muted.resolved
      exact List.forall_mem_cons.2 ⟨⟨rfl, hresolved⟩, hquiet⟩

theorem finish_muted (b : Backend σ) (s : Session σ) :
    s.muted.finish b = ((s.finish b).1.muted, (s.finish b).2.muted) := by
  have hreleased : (if s.muted.released then s.muted else s.muted.release b) =
      (if s.released then s else s.release b).muted := by
    rw [release_muted, apply_ite Session.muted]
    rfl
  unfold finish
  rw [hreleased]
  generalize (if s.released then s else s.release b) = given
  obtain ⟨options, context, link, released, pending⟩ := given
  cases link with
  | direct l | shared l =>
    rfl
  | channel ch =>
    have hresolved (ch : Channel σ) :=
      resolveAll_muted b ⟨options, context, .channel ch, released, pending⟩
    simp only [Session.muted] at hresolved ⊢
    by_cases unstarted : ch.phase = .unstarted
    · simp only [if_pos unstarted, hresolved]
      rfl
    · simp only [if_neg unstarted, hresolved]
      rfl

/-- What operations on a channel can come to with logging, they can come to without. -/
theorem exists_runs_iff_quiet {b : Backend σ} {site : Site} {others : Action → Prop}
    {ops : List Operation} {w w' : Traffic σ} {results : List Completed} (o : Options) :
    (∃ lines, Runs b site others (sequence o ops) w results lines w') ↔
      Runs b site others (sequence .quiet ops) w results [] w' := by
  rw [← Operation.muted_sequence o ops, Program.runs_muted]
  exact (and_iff_right rfl).symm

/--
Two sessions that differ in debug logging alone go the same way, step by step, and come to the
same end; only the lines that callers log differ, and what is said of the options to whoever
asks for them. With logging off no line is logged, from the making of the accessor to the end,
not even by callers that still wait. So it is with operations on a channel where others act in
between.
-/
theorem debug_logging_changes_nothing (b : Backend σ) (o o' : Options) (context : String)
    (link : Link σ) (sts : List (Step σ)) :
    let last (o : Options) := (steps b 0 sts ⟨o, context, link, false, []⟩).2
    let t := transcript b o context link sts
    let t' := transcript b o' context link sts
    ((last o').link = (last o).link ∧ (last o').muted = (last o).muted) ∧
    (t'.created.muted = t.created.muted ∧ t'.ending.muted = t.ending.muted ∧
      t.steps.length = sts.length ∧ t'.steps.length = sts.length ∧
      List.zipWith Entry.apartFromLogging sts t'.steps =
        List.zipWith Entry.apartFromLogging sts t.steps) ∧
    (o.debugLogging = false →
      t.created.IsQuiet ∧ (∀ e ∈ t.steps, e.IsQuiet) ∧ t.ending.IsQuiet ∧
      ∀ p ∈ (last o).pending, p.lines = []) ∧
    ∀ site others ops w results w',
      ((∃ lines, Runs b site others (sequence o' ops) w results lines w') ↔
        ∃ lines, Runs b site others (sequence o ops) w results lines w') ∧
      ∀ lines, o.debugLogging = false → Runs b site others (sequence o ops) w results lines w' →
        lines = [] := by
  intro last t t'
  have hsteps (o : Options) := steps_muted b 0 sts ⟨o, context, link, false, []⟩
  have hlast (o : Options) : last .quiet = (last o).muted := (hsteps o).1
  have hsame : (last o').muted = (last o).muted := (hlast o').symm.trans (hlast o)
  have hfinish (o : Options) : ((last .quiet).finish b).1 = ((last o).finish b).1.muted := by
    rw [hlast o, finish_muted]
  have hlink : (last o').muted.link = (last o).muted.link := by rw [hsame]
  refine ⟨⟨hlink, hsame⟩,
    ⟨rfl, (hfinish o').symm.trans (hfinish o), steps_length b 0 sts _, steps_length b 0 sts _,
      (hsteps o').2.1.symm.trans (hsteps o).2.1⟩, ?_, ?_⟩
  · intro off
    obtain rfl : o = .quiet := congrArg Options.mk off
    refine ⟨⟨rfl, by simp [t, transcript, entry]⟩, (hsteps .quiet).2.2, ?_, ?_⟩
    · change ((last .quiet).finish b).1.IsQuiet
      rw [hfinish .quiet]
      exact Entry.isQuiet_muted _
    · rw [hlast .quiet]
      intro p hp
      obtain ⟨p', -, rfl⟩ := List.mem_map.1 hp
      rfl
  · intro site others ops w results w'
    constructor
    · rw [exists_runs_iff_quiet o', exists_runs_iff_quiet o]
    · intro lines off h
      obtain rfl : o = .quiet := congrArg Options.mk off
      rw [← Operation.muted_sequence .quiet] at h
      exact h.lines_eq_nil (Program.isMuted_muted _)

end Session
end ImsProvisioning
