import ImsProvisioning.Proofs.Transport.Transparency

/-! # Muted programs

Without its log lines a program makes the same calls and comes to the same results, over a
service as over a channel and whoever acts in between. What an operation does with logging off
is what it does with logging on, muted.
-/

namespace ImsProvisioning

namespace Program

variable {α β σ : Type}

def muted : Program α → Program α
  | .done a => .done a
  | .log _ next => next.muted
  | .call c next => .call c fun result => (next result).muted

def IsMuted : Program α → Prop
  | .done _ => True
  | .log _ _ => False
  | .call _ next => ∀ result, (next result).IsMuted

theorem isMuted_muted (p : Program α) : p.muted.IsMuted := by
  induction p with
  | done a => trivial
  | log line next ih => exact ih
  | call c next ih => exact ih

theorem muted_logWhen (on : Bool) (line : LogLine) (p : Program α) :
    (logWhen on line p).muted = p.muted := by
  cases on <;> rfl

theorem muted_bind (p : Program α) (f : α → Program β) :
    (p.bind f).muted = p.muted.bind fun a => (f a).muted := by
  induction p with
  | done a => rfl
  | log line next ih => exact ih
  | call c next ih => simp only [bind, muted, ih]

theorem muted_map (f : α → β) (p : Program α) : (p.map f).muted = p.muted.map f :=
  muted_bind p fun a => .done (f a)

theorem run_muted (s : Service σ) (p : Program α) (st : σ) :
    let r := p.run s st
    let m := p.muted.run s st
    m.result = r.result ∧ m.state = r.state ∧ m.lines = [] ∧ m.calls = r.calls ∧
      m.deliveries = r.deliveries := by
  induction p generalizing st with
  | done a => exact ⟨rfl, rfl, rfl, rfl, rfl⟩
  | log line next ih => exact ih st
  | call c next ih =>
    obtain ⟨hresult, hstate, hlines, hcalls, hdeliveries⟩ := ih (s c st).result (s c st).state
    simp only [muted, run_call_lines, run_call_calls, run_call_deliveries]
    exact ⟨hresult, hstate, hlines, congrArg (c :: ·) hcalls, congrArg (_ ++ ·) hdeliveries⟩

end Program

def Progress.muted {α : Type} : Progress α → Progress α
  | .finished a => .finished a
  | .waiting c ticket next => .waiting c ticket fun result => (next result).muted

namespace Program

variable {α β σ : Type} {b : Backend σ} {site : Site} {others : Action → Prop} {p : Program α}
  {w w' : Traffic σ} {a : α} {lines : List LogLine}

theorem drive_muted (b : Backend σ) (site : Site) (p : Program α) (ch : Channel σ) :
    p.muted.drive b site ch =
      ⟨(p.drive b site ch).progress.muted, [], (p.drive b site ch).channel⟩ := by
  induction p generalizing ch with
  | done a => rfl
  | log line next ih => exact ih ch
  | call c next ih =>
    simp only [muted, drive]
    obtain ⟨submission, sent⟩ := ch.submit site c
    cases submission with
    | settled result => exact ih result _
    | queued ticket =>
      dsimp only
      cases (sent.settle b).receipt? ticket c with
      | none => rfl
      | some result => exact ih result _

theorem Runs.muted (h : Runs b site others p w a lines w') :
    Runs b site others p.muted w a [] w' := by
  induction h with
  | done a w => exact .done a w
  | log rest ih => exact ih
  | other allowed rest ih => exact .other allowed ih
  | settled submission rest ih => exact .settled submission ih
  | answered submission allowed receipt rest ih => exact .answered submission allowed receipt ih

theorem Runs.lines_eq_nil (h : Runs b site others p w a lines w') (hp : p.IsMuted) :
    lines = [] := by
  induction h with
  | done a w => rfl
  | log => exact hp.elim
  | other allowed rest ih => exact ih hp
  | settled submission rest ih => exact ih (hp _)
  | answered submission allowed receipt rest ih => exact ih (hp _)

/-- With its lines back, a program can go through the same. -/
theorem Runs.of_muted (h : Runs b site others p.muted w a lines w') :
    ∃ lines', Runs b site others p w a lines' w' := by
  induction p generalizing w w' a lines with
  | done a => exact ⟨lines, h⟩
  | log line next ih =>
    obtain ⟨lines', h'⟩ := ih h
    exact ⟨line :: lines', .log h'⟩
  | call c next ih =>
    -- The others may act before the call, so its place in the run is found by induction.
    generalize hq : (Program.call c next).muted = q at h
    induction h with
    | other allowed rest ih' =>
      obtain ⟨lines', h'⟩ := ih' hq
      exact ⟨lines', .other allowed h'⟩
    | settled submission rest =>
      cases hq
      obtain ⟨lines', h'⟩ := ih _ rest
      exact ⟨lines', .settled submission h'⟩
    | answered submission allowed receipt rest =>
      cases hq
      obtain ⟨lines', h'⟩ := ih _ rest
      exact ⟨lines', .answered submission allowed receipt h'⟩
    | done | log => cases hq

theorem runs_muted :
    Runs b site others p.muted w a lines w' ↔
      lines = [] ∧ ∃ lines', Runs b site others p w a lines' w' := by
  constructor
  · exact fun h => ⟨h.lines_eq_nil p.isMuted_muted, h.of_muted⟩
  · rintro ⟨rfl, lines', h⟩
    exact h.muted

end Program

namespace Operation

theorem muted_forwarding (o : Options) (c : Call) :
    (forwarding o c).muted = forwarding .quiet c := by
  rw [forwarding, Program.muted_logWhen]
  refine congrArg (Program.call c) (funext fun result => ?_)
  cases result with
  | error cause => rfl
  | ok answer => exact Program.muted_logWhen _ _ _

theorem muted_reading (o : Options) (item : Item) :
    (reading o item).muted = reading .quiet item := by
  unfold reading
  cases item.settingKind with
  | integer => rw [Program.muted_map, muted_forwarding]
  | text => rw [Program.muted_map, muted_forwarding]

theorem muted_readingAll (o : Options) (items : List Item) (s : Snapshot) :
    (readingAll o items s).muted = readingAll .quiet items s := by
  induction items generalizing s with
  | nil => exact Program.muted_logWhen _ _ _
  | cons item items ih =>
    rw [readingAll, readingAll, Program.muted_bind, muted_reading]
    refine congrArg (Program.bind _) (funext fun result => ?_)
    cases result with
    | error failure => rfl
    | ok value => exact ih _

/-- With logging off, an operation is what it is with logging on, muted. -/
theorem muted_program (o : Options) (op : Operation) :
    (op.program o).muted = op.program .quiet := by
  cases op with
  | forward c => exact muted_forwarding o c
  | getProvisioned item => exact muted_reading o item
  | getWfcMode => rw [program, program, Program.muted_map, muted_forwarding]
  | setWfcMode mode => exact muted_forwarding o _
  | snapshot => exact muted_readingAll o _ _

theorem muted_sequence (o : Options) (ops : List Operation) :
    (sequence o ops).muted = sequence .quiet ops := by
  induction ops with
  | nil => rfl
  | cons op ops ih => simp only [sequence, Program.muted_bind, Program.muted_map, muted_program, ih]

end Operation
end ImsProvisioning
