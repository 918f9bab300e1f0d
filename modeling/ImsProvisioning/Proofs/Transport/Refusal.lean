import ImsProvisioning.Proofs.Transport.Exchange

/-! # Refused clients

A client whose calls are all refused, wherever they are made, does what it would do over a
service that fails every call, and does nothing to the channel: whatever happens there meanwhile
is the others' doing. An operation then fails with its first call.
-/

namespace ImsProvisioning

def Service.refusing (cause : CallError) : Service Unit := fun _ _ => ⟨.error cause, (), []⟩

namespace Program

variable {α β : Type} {P : Call → Prop}

def OnlyCalls (P : Call → Prop) : Program α → Prop
  | .done _ => True
  | .log _ next => next.OnlyCalls P
  | .call c next => P c ∧ ∀ result, (next result).OnlyCalls P

theorem IsBlocking.onlyCalls {p : Program α} (h : p.IsBlocking) :
    p.OnlyCalls (fun c => c.isBlocking) := by
  induction p with
  | done a => trivial
  | log line next ih => exact ih h
  | call c next ih => exact ⟨h.1, fun result => ih result (h.2 result)⟩

theorem OnlyCalls.logWhen {p : Program α} (h : p.OnlyCalls P) (on : Bool) (line : LogLine) :
    (logWhen on line p).OnlyCalls P := by
  cases on <;> exact h

theorem onlyCalls_true (p : Program α) : p.OnlyCalls fun _ => True := by
  induction p with
  | done a => trivial
  | log line next ih => exact ih
  | call c next ih => exact ⟨trivial, ih⟩

end Program

namespace Traffic

variable {σ : Type} {b : Backend σ} {site : Site} {P : Call → Prop} {cause : CallError}
  {others : Action → Prop} {w w' w'' : Traffic σ} {c : Call}

/-- From here on these calls are refused with this error, whatever happens. -/
def Refuses (b : Backend σ) (site : Site) (P : Call → Prop) (cause : CallError)
    (w : Traffic σ) : Prop :=
  ∀ acts c, P c → (w.runFrom b acts).channel.submit site c =
    (.settled (.error cause), (w.runFrom b acts).channel)

theorem Refuses.submit (h : w.Refuses b site P cause) (hc : P c) :
    w.channel.submit site c = (.settled (.error cause), w.channel) := h [] c hc

theorem Refuses.runFrom (h : w.Refuses b site P cause) (acts : List Action) :
    (w.runFrom b acts).Refuses b site P cause := by
  intro more c hc
  rw [← runFrom_append]
  exact h (acts ++ more) c hc

theorem step_of_submit (b : Backend σ)
    (h : w.channel.submit site c = (.settled (.error cause), w.channel)) :
    w.step b (.call site c) = w := by
  unfold step
  split
  · rw [perform_call, h]
    rfl
  · rfl

/-- What happened in between is the doing of these others. -/
def LeftTo (b : Backend σ) (others : Action → Prop) (w w' : Traffic σ) : Prop :=
  ∃ acts, (∀ act ∈ acts, others act) ∧ w' = w.runFrom b acts

theorem LeftTo.refl (w : Traffic σ) : LeftTo b others w w := ⟨[], by simp, rfl⟩

theorem LeftTo.other {act : Action} (allowed : others act)
    (h : LeftTo b others (w.step b act) w') : LeftTo b others w w' := by
  obtain ⟨acts, hacts, rfl⟩ := h
  exact ⟨act :: acts, List.forall_mem_cons.2 ⟨allowed, hacts⟩, rfl⟩

theorem LeftTo.trans (h : LeftTo b others w w') (h' : LeftTo b others w' w'') :
    LeftTo b others w w'' := by
  obtain ⟨acts, hacts, rfl⟩ := h
  obtain ⟨more, hmore, rfl⟩ := h'
  refine ⟨acts ++ more, ?_, (runFrom_append b w acts more).symm⟩
  exact List.forall_mem_append.2 ⟨hacts, hmore⟩

theorem leftTo_settle (b : Backend σ) (w : Traffic σ) :
    LeftTo b (· = .work) w { w with channel := w.channel.settle b } :=
  ⟨_, fun _ h => List.eq_of_mem_replicate h, (runFrom_work b w _).symm⟩

end Traffic

namespace Program

open Traffic (LeftTo Refuses)

variable {α σ : Type} {b : Backend σ} {site : Site} {P : Call → Prop} {cause : CallError}
  {others : Action → Prop} {w w' : Traffic σ} {p : Program α} {a : α} {lines : List LogLine}

/-- A client that is refused everything ends as over the service that fails every call. -/
theorem Runs.of_refused (h : Runs b site others p w a lines w') (hp : p.OnlyCalls P)
    (refused : w.Refuses b site P cause) :
    a = (p.run (.refusing cause) ()).result ∧ lines = (p.run (.refusing cause) ()).lines ∧
      LeftTo b others w w' := by
  induction h with
  | done a w => exact ⟨rfl, rfl, .refl w⟩
  | log rest ih =>
    obtain ⟨ha, hlines, hleft⟩ := ih hp refused
    exact ⟨ha, congrArg (_ :: ·) hlines, hleft⟩
  | @other p w w' a lines act allowed rest ih =>
    obtain ⟨ha, hlines, hleft⟩ := ih hp (refused.runFrom [act])
    exact ⟨ha, hlines, hleft.other allowed⟩
  | @settled c next w w' a lines result submission rest ih =>
    have hsubmit := refused.submit hp.1
    rw [hsubmit] at submission
    obtain rfl : Except.error cause = result := Submission.settled.inj submission
    rw [Traffic.step_of_submit b hsubmit] at ih
    rw [run_call_lines]
    exact ih (hp.2 _) refused
  | @answered c next w w' a lines ticket result between submission =>
    rw [refused.submit hp.1] at submission
    cases submission

/-- It comes to its end without anybody else's doing. -/
theorem runs_refused (b : Backend σ) (others : Action → Prop) (p : Program α)
    (hp : p.OnlyCalls P) (refused : w.Refuses b site P cause) :
    Runs b site others p w (p.run (.refusing cause) ()).result
      (p.run (.refusing cause) ()).lines w := by
  induction p with
  | done a => exact .done a w
  | log line next ih => exact .log (ih hp)
  | call c next ih =>
    have hsubmit := refused.submit hp.1
    rw [run_call_lines]
    refine .settled (by rw [hsubmit]) ?_
    rw [Traffic.step_of_submit b hsubmit]
    exact ih _ (hp.2 _)

/-- With a host that works whenever it can it ends in the same way. -/
theorem drive_refused (p : Program α) (hp : p.OnlyCalls P)
    (refused : w.Refuses b site P cause) :
    ∃ w', LeftTo b (· = .work) w w' ∧ p.drive b site w.channel =
      ⟨.finished (p.run (.refusing cause) ()).result, (p.run (.refusing cause) ()).lines,
        w'.channel⟩ := by
  induction p generalizing w with
  | done a => exact ⟨w, .refl w, rfl⟩
  | log line next ih =>
    obtain ⟨w', hleft, hdrive⟩ := ih hp refused
    exact ⟨w', hleft, by rw [drive, hdrive]; rfl⟩
  | call c next ih =>
    have hsettle := Traffic.leftTo_settle b w
    obtain ⟨acts, -, hacts⟩ := hsettle
    obtain ⟨w', hleft, hdrive⟩ := ih (.error cause) (hp.2 _) (hacts ▸ refused.runFrom acts)
    refine ⟨w', (Traffic.leftTo_settle b w).trans hleft, ?_⟩
    rw [run_call_lines]
    simp only [drive, refused.submit hp.1]
    exact hdrive

end Program

namespace Item

/-- The first item of the operator range is the first to be read. -/
theorem provisioned_eq_cons : ∃ items, provisioned = firstProvisioned :: items := ⟨_, rfl⟩

end Item

namespace Operation

open Program (Runs)
open Traffic (LeftTo)

/-- The call that an operation makes first. -/
def opening (op : Operation) : Call := op.request?.getD Item.firstProvisioned.getter

theorem forwarding_onlyCalls {P : Call → Prop} (o : Options) {c : Call} (h : P c) :
    (forwarding o c).OnlyCalls P := by
  apply Program.OnlyCalls.logWhen
  refine ⟨h, fun result => ?_⟩
  cases result with
  | error cause => trivial
  | ok answer =>
    apply Program.OnlyCalls.logWhen
    trivial

theorem opening_of_request {op : Operation} {c : Call} (h : op.request? = some c) :
    op.opening = c := by
  rw [opening, h]
  rfl

theorem head?_calls {σ : Type} (o : Options) (op : Operation) (s : Service σ) (st : σ) :
    ((op.program o).run s st).calls.head? = some op.opening := by
  cases hc : op.request? with
  | some c =>
    rw [program_calls o s hc, opening_of_request hc]
    rfl
  | none =>
    cases op with
    | snapshot =>
      obtain ⟨items, hitems⟩ := Item.provisioned_eq_cons
      rw [program, hitems]
      cases hresult : (s Item.firstProvisioned.getter st).result with
      | ok answer =>
        obtain ⟨value, -, -, -, hcalls, -⟩ := run_readingAll_of_ok o items .empty hresult
        rw [hcalls]
        rfl
      | error cause =>
        obtain ⟨-, hcalls, -⟩ := run_readingAll_of_error o items .empty hresult
        rw [hcalls]
        rfl
    | _ => cases hc

/-- An operation that is refused fails with its first call. -/
theorem run_refusing (o : Options) (op : Operation) (cause : CallError) :
    ((op.program o).run (.refusing cause) ()).result =
      .error (.serviceCall op.opening.method 131 cause) := by
  cases hc : op.request? with
  | some c =>
    obtain ⟨-, -, hconcludes⟩ := run_program o (.refusing cause) hc ()
    rw [opening_of_request hc]
    exact hconcludes
  | none =>
    cases op with
    | snapshot =>
      obtain ⟨items, hitems⟩ := Item.provisioned_eq_cons
      have failed : (Service.refusing cause Item.firstProvisioned.getter ()).result =
          .error cause := rfl
      rw [program, hitems]
      exact (run_readingAll_of_error o items .empty failed).1
    | _ => cases hc

/--
The operation fails with the error of its first call and leaves the channel to the others. No
other end is possible, and it comes to this one by itself, also over a host that always works.
-/
structure Refused {σ : Type} (b : Backend σ) (site : Site) (w : Traffic σ) (o : Options)
    (op : Operation) (cause : CallError) : Prop where
  fails : ∀ others r lines w', Runs b site others (op.program o) w r lines w' →
    r = .error (.serviceCall op.opening.method 131 cause) ∧ LeftTo b others w w'
  ends : ∃ lines, ∀ others, Runs b site others (op.program o) w
    (.error (.serviceCall op.opening.method 131 cause)) lines w
  drives : ((op.program o).drive b site w.channel).progress =
    .finished (.error (.serviceCall op.opening.method 131 cause))

theorem refused_of_refuses {σ : Type} {b : Backend σ} {site : Site} {P : Call → Prop}
    {cause : CallError} {w : Traffic σ} (h : w.Refuses b site P cause) {o : Options}
    {op : Operation} (calls : (op.program o).OnlyCalls P) : op.Refused b site w o cause := by
  have hresult := run_refusing o op cause
  refine ⟨?_, ⟨((op.program o).run (.refusing cause) ()).lines, ?_⟩, ?_⟩
  · intro others r lines w' hr
    obtain ⟨hfailed, -, hleft⟩ := hr.of_refused calls h
    exact ⟨hfailed.trans hresult, hleft⟩
  · intro others
    rw [← hresult]
    exact Program.runs_refused b others _ calls h
  · obtain ⟨w', -, hdrive⟩ := Program.drive_refused _ calls h
    rw [hdrive, hresult]

end Operation
end ImsProvisioning
