import ImsProvisioning.Proofs.Traffic.Sequential

/-! # A client on a channel

A client does its program through one handle, one call after the other; while it is
between two steps of its own, and while it waits for a receipt, others act. Over a
channel a program does what it does over the backend itself, except that a call that
reports to a listener is acknowledged and not answered.
-/

namespace ImsProvisioning

/-- A service that acknowledges the calls which report to a listener, whatever becomes of them. -/
def Service.acknowledged {σ : Type} (s : Service σ) : Service σ := fun c st =>
  match c.acknowledgement? with
  | some answer => ⟨.ok answer, (s c st).state, (s c st).deliveries⟩
  | none => s c st

namespace Program

variable {α β σ : Type}

namespace Run

def lines (r : Run α σ) : List LogLine := r.trace.filterMap Event.line?

def calls (r : Run α σ) : List Call := r.trace.filterMap Event.call?

def deliveries (r : Run α σ) : List Delivery := r.trace.filterMap Event.delivery?

def ledger (r : Run α σ) : Ledger σ := ⟨r.state, r.calls, r.deliveries⟩

end Run

/-- A whole run of a program over a channel, with its result, its log lines and the traffic
that it leaves. The others may do what `others` allows. -/
inductive Runs (b : Backend σ) (site : Site) (others : Action → Prop) :
    Program α → Traffic σ → α → List LogLine → Traffic σ → Prop
  | done (a : α) (w : Traffic σ) : Runs b site others (.done a) w a [] w
  | log {line : LogLine} {next : Program α} {w w' : Traffic σ} {a : α} {lines : List LogLine}
      (rest : Runs b site others next w a lines w') :
      Runs b site others (.log line next) w a (line :: lines) w'
  | other {p : Program α} {w w' : Traffic σ} {a : α} {lines : List LogLine} {act : Action}
      (allowed : others act) (rest : Runs b site others p (w.step b act) a lines w') :
      Runs b site others p w a lines w'
  | settled {c : Call} {next : Except CallError c.Answer → Program α} {w w' : Traffic σ}
      {a : α} {lines : List LogLine} {result : Except CallError c.Answer}
      (submission : (w.channel.submit site c).1 = .settled result)
      (rest : Runs b site others (next result) (w.step b (.call site c)) a lines w') :
      Runs b site others (.call c next) w a lines w'
  | answered {c : Call} {next : Except CallError c.Answer → Program α} {w w' : Traffic σ}
      {a : α} {lines : List LogLine} {ticket : Nat} {result : Except CallError c.Answer}
      {between : List Action}
      (submission : (w.channel.submit site c).1 = .queued ticket)
      (allowed : ∀ act ∈ between, others act)
      (receipt : ((w.step b (.call site c)).runFrom b between).channel.receipt? ticket c =
        some result)
      (rest : Runs b site others (next result)
        ((w.step b (.call site c)).runFrom b between) a lines w') :
      Runs b site others (.call c next) w a lines w'

theorem delivered_lines (ds : List Delivery) :
    (ds.map Event.delivered).filterMap Event.line? = [] := by
  induction ds with
  | nil => rfl
  | cons d ds ih => exact ih

theorem delivered_calls (ds : List Delivery) :
    (ds.map Event.delivered).filterMap Event.call? = [] := by
  induction ds with
  | nil => rfl
  | cons d ds ih => exact ih

theorem delivered_deliveries (ds : List Delivery) :
    (ds.map Event.delivered).filterMap Event.delivery? = ds := by
  induction ds with
  | nil => rfl
  | cons d ds ih => exact congrArg (d :: ·) ih

section

variable (s : Service σ) (c : Call) (next : Except CallError c.Answer → Program α) (st : σ)

theorem run_call_lines :
    ((Program.call c next).run s st).lines =
      ((next (s c st).result).run s (s c st).state).lines := by
  rw [Run.lines, run, List.cons_append, List.filterMap_cons_none rfl, List.filterMap_append,
    delivered_lines]
  rfl

theorem run_call_calls :
    ((Program.call c next).run s st).calls =
      c :: ((next (s c st).result).run s (s c st).state).calls := by
  rw [Run.calls, run, List.cons_append, List.filterMap_cons_some (f := Event.call?) rfl,
    List.filterMap_append,
    delivered_calls]
  rfl

theorem run_call_deliveries :
    ((Program.call c next).run s st).deliveries =
      (s c st).deliveries ++ ((next (s c st).result).run s (s c st).state).deliveries := by
  rw [Run.deliveries, run, List.cons_append, List.filterMap_cons_none rfl,
    List.filterMap_append, delivered_deliveries]
  rfl

end

@[simp] theorem run_logWhen_calls (s : Service σ) (on : Bool) (line : LogLine) (p : Program α)
    (st : σ) : ((logWhen on line p).run s st).calls = (p.run s st).calls := by
  cases on <;> rfl

@[simp] theorem run_logWhen_deliveries (s : Service σ) (on : Bool) (line : LogLine)
    (p : Program α) (st : σ) :
    ((logWhen on line p).run s st).deliveries = (p.run s st).deliveries := by
  cases on <;> rfl

/-- A run leaves the ledger of its calls, made one at a time. -/
theorem run_serveAll (s : Service σ) (p : Program α) (l : Ledger σ) :
    l.serveAll s.backend (p.run s l.state).calls =
      ⟨(p.run s l.state).state, l.calls ++ (p.run s l.state).calls,
        l.deliveries ++ (p.run s l.state).deliveries⟩ := by
  induction p generalizing l with
  | done a => simp [run, Run.calls, Run.deliveries]
  | log line next ih => exact ih l
  | call c next ih =>
    have h := ih (s c l.state).result (l.serve s.backend c)
    rw [run_call_calls, run_call_deliveries]
    change (l.serve s.backend c).serveAll s.backend _ = _
    rw [show (l.serve s.backend c).state = (s c l.state).state from rfl] at h
    rw [h]
    simp [Ledger.serve, Service.backend, run]

theorem fresh_serveAll (s : Service σ) (p : Program α) (st : σ) :
    (Ledger.fresh st).serveAll s.backend (p.run s st).calls = (p.run s st).ledger :=
  run_serveAll s p (.fresh st)

end Program
end ImsProvisioning
