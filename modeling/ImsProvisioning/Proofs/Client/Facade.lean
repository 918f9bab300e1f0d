import ImsProvisioning.Proofs.Client.Reading

/-! # One call for each operation

Every operation but a snapshot is one call and what is made of its result. An answer goes to
the caller as it is, a call that failed is reported with its method, and the only failure
without a failed call is an integer that stands for no mode.
-/

namespace ImsProvisioning

namespace Operation

open ConstantTable (code)
open Program (Run)

/-- The call of an operation that makes just one. -/
def request? : Operation → Option Call
  | .forward c => some c
  | .getProvisioned item => some item.getter
  | .getWfcMode => some (.getInteger .voiceOverWifiMode)
  | .setWfcMode mode => some (.setInteger .voiceOverWifiMode (code mode))
  | .snapshot => none

/-- What the caller of an operation gets if its call is answered. -/
inductive Yields : (op : Operation) → (c : Call) → c.Answer → Except Failure op.Answer → Prop
  | forwarded (c : Call) (answer : c.Answer) : Yields (.forward c) c answer (.ok answer)
  | setting (item : Item) (answer : item.getter.Answer) (value : Setting)
      (h : item.getter.setting? answer = some value) :
      Yields (.getProvisioned item) item.getter answer (.ok value)
  | mode (mode : WfcMode) :
      Yields .getWfcMode (.getInteger .voiceOverWifiMode) (code mode) (.ok mode)
  | noMode (n : Int32) (h : ∀ mode : WfcMode, code mode ≠ n) :
      Yields .getWfcMode (.getInteger .voiceOverWifiMode) n
        (.error (.invalidValue .voiceOverWifiMode n))
  | modeSet (mode : WfcMode) (status : Status) :
      Yields (.setWfcMode mode) (.setInteger .voiceOverWifiMode (code mode)) status (.ok status)

/-- What the caller of an operation gets for the result of its call. -/
def Concludes (op : Operation) (c : Call) (result : Except Failure op.Answer) :
    Except CallError c.Answer → Prop
  | .error cause => result = .error (.serviceCall c.method 131 cause)
  | .ok answer => Yields op c answer result

theorem yields_wfcModeOf (n : Int32) :
    Yields .getWfcMode (.getInteger .voiceOverWifiMode) n (wfcModeOf n) := by
  unfold wfcModeOf
  cases h : ConstantTable.ofCode? WfcMode n with
  | some mode =>
    obtain rfl := ConstantTable.ofCode?_eq_some_iff.1 h
    exact .mode mode
  | none =>
    refine .noMode n fun mode hmode => ?_
    rw [ConstantTable.ofCode?_eq_some_iff.2 hmode] at h
    cases h

theorem concludes_forwarded (c : Call) (result : Except CallError c.Answer) :
    Concludes (.forward c) c (result.mapError (.ofCall c)) result := by
  cases result with
  | error cause => rfl
  | ok answer => exact .forwarded c answer

/-- An operation with one call does what forwarding the call does, and ends accordingly. -/
theorem run_program {σ : Type} (o : Options) (s : Service σ) {op : Operation} {c : Call}
    (h : op.request? = some c) (st : σ) :
    let r := (op.program o).run s st
    r.state = (s c st).state ∧ r.trace = ((forwarding o c).run s st).trace ∧
      Concludes op c r.result (s c st).result := by
  cases op with
  | forward c' =>
    obtain rfl : c' = c := Option.some.inj h
    rw [program, run_forwarding]
    exact ⟨rfl, rfl, concludes_forwarded c' _⟩
  | getProvisioned item =>
    obtain rfl : item.getter = c := Option.some.inj h
    obtain ⟨hstate, htrace, herror, hok⟩ := run_reading o s item st
    refine ⟨hstate, htrace, ?_⟩
    cases hresult : (s item.getter st).result with
    | error cause => exact herror cause hresult
    | ok answer =>
      obtain ⟨value, hvalue, -, hr⟩ := hok answer hresult
      rw [program, hr]
      exact .setting item answer value hvalue
  | getWfcMode =>
    obtain rfl : Call.getInteger .voiceOverWifiMode = c := Option.some.inj h
    rw [program, Program.run_map, run_forwarding]
    refine ⟨rfl, rfl, ?_⟩
    cases (s (.getInteger .voiceOverWifiMode) st).result with
    | error cause => rfl
    | ok n => exact yields_wfcModeOf n
  | setWfcMode mode =>
    obtain rfl : Call.setInteger .voiceOverWifiMode (code mode) = c := Option.some.inj h
    rw [program, run_forwarding]
    refine ⟨rfl, rfl, ?_⟩
    cases (s (.setInteger .voiceOverWifiMode (code mode)) st).result with
    | error cause => rfl
    | ok status => exact .modeSet mode status
  | snapshot => cases h

theorem forwarding_deliveries {σ : Type} (o : Options) (s : Service σ) (c : Call) (st : σ) :
    ((forwarding o c).run s st).deliveries = (s c st).deliveries := by
  rw [forwarding, Program.run_logWhen_deliveries, Program.run_call_deliveries]
  cases (s c st).result with
  | error cause => exact List.append_nil _
  | ok answer =>
    rw [Program.run_logWhen_deliveries]
    exact List.append_nil _

/-- The one call of an operation is all that the service and its listeners see of it. -/
theorem program_calls {σ : Type} (o : Options) (s : Service σ) {op : Operation} {c : Call}
    (h : op.request? = some c) (st : σ) : ((op.program o).run s st).calls = [c] := by
  rw [Run.calls, (run_program o s h st).2.1]
  exact forwarding_calls o s c st

theorem program_deliveries {σ : Type} (o : Options) (s : Service σ) {op : Operation} {c : Call}
    (h : op.request? = some c) (st : σ) :
    ((op.program o).run s st).deliveries = (s c st).deliveries := by
  rw [Run.deliveries, (run_program o s h st).2.1]
  exact forwarding_deliveries o s c st

theorem run_sequence_append {σ : Type} (o : Options) (s : Service σ)
    (before after : List Operation) (st : σ) :
    (sequence o (before ++ after)).run s st =
      let r := (sequence o before).run s st
      let rest := (sequence o after).run s r.state
      ⟨r.result ++ rest.result, rest.state, r.trace ++ rest.trace⟩ := by
  induction before generalizing st with
  | nil => rfl
  | cons op before ih =>
    simp only [List.cons_append, run_sequence_cons, ih, List.append_assoc]

theorem sequence_ops {σ : Type} (o : Options) (s : Service σ) (ops : List Operation) (st : σ) :
    ((sequence o ops).run s st).result.map Completed.op = ops := by
  induction ops generalizing st with
  | nil => rfl
  | cons op ops ih =>
    rw [run_sequence_cons]
    exact congrArg (op :: ·) (ih _)

/-- What an operation gets depends on what was done before it. -/
theorem run_sequence_getElem? {σ : Type} (o : Options) (s : Service σ)
    (before : List Operation) (op : Operation) (after : List Operation) (st : σ) :
    ((sequence o (before ++ op :: after)).run s st).result[before.length]? =
      some ⟨op, ((op.program o).run s ((sequence o before).run s st).state).result⟩ := by
  have hlength : ((sequence o before).run s st).result.length = before.length := by
    have hops := congrArg List.length (sequence_ops o s before st)
    rwa [List.length_map] at hops
  simp only [run_sequence_append, run_sequence_cons]
  rw [← hlength, List.getElem?_append_right (Nat.le_refl _), Nat.sub_self]
  rfl

theorem request?_isSome {op : Operation} (h : op ≠ .snapshot) : ∃ c, op.request? = some c := by
  cases op with
  | snapshot => exact absurd rfl h
  | _ => exact ⟨_, rfl⟩

/-- Without snapshots the calls are those of the operations, one for each. -/
theorem sequence_calls {σ : Type} (o : Options) (s : Service σ) {ops : List Operation}
    (single : .snapshot ∉ ops) (st : σ) :
    ((sequence o ops).run s st).calls = ops.filterMap request? := by
  induction ops generalizing st with
  | nil => rfl
  | cons op ops ih =>
    rw [List.mem_cons, not_or] at single
    obtain ⟨c, hc⟩ := request?_isSome (Ne.symm single.1)
    have hrest := ih single.2 ((op.program o).run s st).state
    have hfirst := program_calls o s hc st
    rw [Run.calls] at hfirst hrest
    rw [run_sequence_cons, Run.calls, List.filterMap_append, hfirst, hrest,
      List.filterMap_cons_some hc]
    rfl

/-- A failure comes from a failed call, whose method and error it bears; only an integer that
stands for no mode is a failure without one. -/
theorem Concludes.failure {op : Operation} {c : Call} {reply : Except CallError c.Answer}
    {failure : Failure} (h : Concludes op c (.error failure) reply) :
    (∃ cause, reply = .error cause ∧ failure.cause? = some cause ∧
      failure.code? = some 131 ∧ failure.method? = some c.method) ∨
    ∃ answer n, reply = .ok answer ∧ op = .getWfcMode ∧
      failure = .invalidValue .voiceOverWifiMode n ∧ failure.code? = none ∧
      failure.method? = none := by
  cases reply with
  | error cause =>
    obtain rfl := Except.error.inj h
    exact .inl ⟨cause, rfl, rfl, rfl, rfl⟩
  | ok answer =>
    cases h with
    | noMode n => exact .inr ⟨_, n, rfl, rfl, rfl, rfl, rfl⟩

/--
Every operation but a snapshot makes the one call that belongs to it, tells no listener
anything, and passes on what it is answered. If the call fails, its caller gets the error with
the code of an unavailable service and the method called.
-/
theorem operations_make_one_call {σ : Type} (o : Options) (s : Service σ) (st : σ)
    (ops : List Operation) :
    let r := (sequence o ops).run s st
    r.ledger = (Ledger.fresh st).serveAll s.backend r.calls ∧
    r.result.map Completed.op = ops ∧
    (.snapshot ∉ ops → r.calls = ops.filterMap request?) ∧
    ∀ before op after c, ops = before ++ op :: after → op.request? = some c →
      let earlier := (sequence o before).run s st
      let reply := s c earlier.state
      let later := (sequence o after).run s reply.state
      ∃ result, Concludes op c result reply.result ∧
        r.result = earlier.result ++ ⟨op, result⟩ :: later.result ∧
        r.state = later.state ∧
        r.calls = earlier.calls ++ c :: later.calls ∧
        r.deliveries = earlier.deliveries ++ (reply.deliveries ++ later.deliveries) ∧
        ∀ failure, result = .error failure →
          (∃ cause, reply.result = .error cause ∧ failure.cause? = some cause ∧
            failure.code? = some 131 ∧ failure.method? = some c.method) ∨
          ∃ answer n, reply.result = .ok answer ∧ op = .getWfcMode ∧
            failure = .invalidValue .voiceOverWifiMode n ∧ failure.code? = none ∧
            failure.method? = none := by
  intro r
  refine ⟨(Program.fresh_serveAll s _ st).symm, sequence_ops o s ops st,
    fun single => sequence_calls o s single st, ?_⟩
  rintro before op after c rfl hc earlier reply later
  obtain ⟨hstate, -, hconcludes⟩ := run_program o s hc earlier.state
  have hcalls := program_calls o s hc earlier.state
  have hdeliveries := program_deliveries o s hc earlier.state
  have hr : r =
      let own := (op.program o).run s earlier.state
      ⟨earlier.result ++ ⟨op, own.result⟩ :: later.result, later.state,
        earlier.trace ++ (own.trace ++ later.trace)⟩ := by
    simp only [r, run_sequence_append, run_sequence_cons, hstate, earlier, later, reply]
  refine ⟨_, hconcludes, by rw [hr], by rw [hr], ?_, ?_, ?_⟩
  · rw [Run.calls] at hcalls
    rw [hr, Run.calls, List.filterMap_append, List.filterMap_append, hcalls]
    rfl
  · rw [Run.deliveries] at hdeliveries
    rw [hr, Run.deliveries, List.filterMap_append, List.filterMap_append, hdeliveries]
    rfl
  · rintro failure hfailure
    rw [hfailure] at hconcludes
    exact hconcludes.failure

/-- What the caller of each method reads if the host is gone. -/
example :
    [Call.getInteger .minSe, .getText .domainName, .setInteger .minSe 90,
      .setText .domainName "ims.example", .getFeature .voiceOverLte .lte 0,
      .setFeature .voiceOverLte .lte .on none, .getVolte, .getVideoQuality 0,
      .setVideoQuality .high none].map (fun c => (Failure.ofCall c .disconnected).message) =
    ["getProvisionedValue() failed (code 131): remote service is disconnected",
      "getProvisionedStringValue() failed (code 131): remote service is disconnected",
      "setProvisionedValue() failed (code 131): remote service is disconnected",
      "setProvisionedStringValue() failed (code 131): remote service is disconnected",
      "getFeatureValue() failed (code 131): remote service is disconnected",
      "setFeatureValue() failed (code 131): remote service is disconnected",
      "getVolteProvisioned() failed (code 131): remote service is disconnected",
      "getVideoQuality() failed (code 131): remote service is disconnected",
      "setVideoQuality() failed (code 131): remote service is disconnected"] := by
  decide

end Operation
end ImsProvisioning
