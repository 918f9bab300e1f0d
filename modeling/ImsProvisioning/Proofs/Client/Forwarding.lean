import ImsProvisioning.Client.Operation

/-! # What an operation does to the service

A forwarded call is one call, with its log lines around it; every other operation of
the accessor is built from forwarded calls that wait for their answer.
-/

namespace ImsProvisioning

@[simp] theorem mapError_ok {α ε ε' : Type} (f : ε → ε') (a : α) :
    (Except.ok a : Except ε α).mapError f = .ok a := rfl

@[simp] theorem mapError_error {α ε ε' : Type} (f : ε → ε') (e : ε) :
    (Except.error e : Except ε α).mapError f = .error (f e) := rfl

namespace Program

variable {α β σ : Type}

theorem run_logWhen (s : Service σ) (on : Bool) (line : LogLine) (p : Program α) (st : σ) :
    (logWhen on line p).run s st =
      ⟨(p.run s st).result, (p.run s st).state,
        (if on then [.logged line] else []) ++ (p.run s st).trace⟩ := by
  cases on <;> rfl

theorem run_map (s : Service σ) (f : α → β) (p : Program α) (st : σ) :
    (p.map f).run s st =
      ⟨f (p.run s st).result, (p.run s st).state, (p.run s st).trace⟩ := by
  simp [map, run_bind, run]

/-- Every call of the program waits for its answer. -/
def IsBlocking : Program α → Prop
  | .done _ => True
  | .log _ next => next.IsBlocking
  | .call c next => c.isBlocking ∧ ∀ result, (next result).IsBlocking

namespace IsBlocking

theorem logWhen {p : Program α} (h : p.IsBlocking) (on : Bool) (line : LogLine) :
    (logWhen on line p).IsBlocking := by
  cases on <;> exact h

theorem bind {p : Program α} {f : α → Program β} (h : p.IsBlocking)
    (hf : ∀ a, (f a).IsBlocking) : (p.bind f).IsBlocking := by
  induction p with
  | done a => exact hf a
  | log line next ih => exact ih h
  | call c next ih => exact ⟨h.1, fun result => ih result (h.2 result)⟩

theorem map {p : Program α} (h : p.IsBlocking) (f : α → β) : (p.map f).IsBlocking :=
  h.bind fun _ => trivial

end IsBlocking
end Program

namespace Operation

variable {σ : Type}

def answerTrace (o : Options) (c : Call) : Except CallError c.Answer → List Program.Event
  | .ok answer => if o.debugLogging && c.isBlocking then [.logged (.answered c answer)] else []
  | .error _ => []

theorem run_forwarding (o : Options) (s : Service σ) (c : Call) (st : σ) :
    (forwarding o c).run s st =
      ⟨(s c st).result.mapError (Failure.ofCall c), (s c st).state,
        (if o.debugLogging && c.isAnnounced then [.logged (.requested c)] else []) ++
          .called c :: (s c st).deliveries.map .delivered ++
            answerTrace o c (s c st).result⟩ := by
  rw [forwarding, Program.run_logWhen, Program.run]
  cases (s c st).result with
  | error cause => simp [Program.run, answerTrace]
  | ok answer => simp [Program.run_logWhen, Program.run, answerTrace]

theorem forwarding_isBlocking (o : Options) {c : Call} (h : c.isBlocking) :
    (forwarding o c).IsBlocking := by
  apply Program.IsBlocking.logWhen
  refine ⟨h, fun result => ?_⟩
  cases result with
  | error cause => trivial
  | ok answer =>
    apply Program.IsBlocking.logWhen
    trivial

theorem reading_isBlocking (o : Options) (item : Item) : (reading o item).IsBlocking := by
  unfold reading
  cases item.settingKind with
  | integer => exact (forwarding_isBlocking o rfl).map _
  | text => exact (forwarding_isBlocking o rfl).map _

theorem readingAll_isBlocking (o : Options) (items : List Item) (s : Snapshot) :
    (readingAll o items s).IsBlocking := by
  induction items generalizing s with
  | nil =>
    apply Program.IsBlocking.logWhen
    trivial
  | cons item items ih =>
    apply (reading_isBlocking o item).bind
    intro result
    cases result with
    | error failure => trivial
    | ok value => exact ih _

/-- Only a call that reports to a listener does not wait. -/
theorem program_isBlocking (o : Options) (op : Operation)
    (h : ∀ c, op = .forward c → c.isBlocking) : (op.program o).IsBlocking := by
  cases op with
  | forward c => exact forwarding_isBlocking o (h c rfl)
  | getProvisioned item => exact reading_isBlocking o item
  | getWfcMode => exact (forwarding_isBlocking o rfl).map _
  | setWfcMode mode => exact forwarding_isBlocking o rfl
  | snapshot => exact readingAll_isBlocking o _ _

end Operation
end ImsProvisioning
