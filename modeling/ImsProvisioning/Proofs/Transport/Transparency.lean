import ImsProvisioning.Proofs.Client.Forwarding
import ImsProvisioning.Proofs.Transport.Simulation
import ImsProvisioning.Store

/-! # Transparent transports

A client cannot tell how it reaches the backend, with one exception: over a channel a
request that reports to a listener is acknowledged at once, and if the backend fails
it, the host logs what the caller would have heard.
-/

namespace ImsProvisioning

structure Completed where
  op : Operation
  result : Except Failure op.Answer

namespace Completed

/-- How an operation ends over a channel if it ends like this over the backend itself. -/
def overChannel : Completed → Completed
  | ⟨.forward c, result⟩ =>
    ⟨.forward c, match c.acknowledgement? with | some answer => .ok answer | none => result⟩
  | done => done

/-- What the host logs of an operation that ends like this over the backend itself. -/
def warning? : Completed → Option HostLine
  | ⟨.forward c, .error (.serviceCall method _ cause)⟩ =>
    if c.isBlocking then none else some (.requestFailed method cause)
  | _ => none

end Completed

namespace Operation

/-- Does operations one after the other. -/
def sequence (o : Options) : List Operation → Program (List Completed)
  | [] => .done []
  | op :: ops => (op.program o).bind fun result => (sequence o ops).map (⟨op, result⟩ :: ·)

theorem run_sequence_cons {σ : Type} (o : Options) (s : Service σ) (op : Operation)
    (ops : List Operation) (st : σ) :
    (sequence o (op :: ops)).run s st =
      let r := (op.program o).run s st
      let rest := (sequence o ops).run s r.state
      ⟨⟨op, r.result⟩ :: rest.result, rest.state, r.trace ++ rest.trace⟩ := by
  simp [sequence, Program.run_bind, Program.run_map]

end Operation

namespace Program

variable {α σ : Type} {s : Service σ}

theorem IsBlocking.calls {p : Program α} (h : p.IsBlocking) (st : σ) :
    ∀ c ∈ (p.run s st).calls, c.isBlocking := by
  induction p generalizing st with
  | done a => simp [run, Run.calls]
  | log line next ih => exact ih h st
  | call c next ih =>
    rw [run_call_calls]
    intro d hd
    rcases List.mem_cons.1 hd with rfl | hm
    · exact h.1
    · exact ih _ (h.2 _) _ d hm

theorem acknowledged_blocking {c : Call} (h : c.isBlocking) (st : σ) :
    s.acknowledged c st = s c st := by
  simp only [Service.acknowledged, Call.isBlocking_iff.1 h]

theorem IsBlocking.run_acknowledged {p : Program α} (h : p.IsBlocking) (st : σ) :
    p.run s.acknowledged st = p.run s st := by
  induction p generalizing st with
  | done a => rfl
  | log line next ih => simp only [run, ih h]
  | call c next ih => simp only [run, acknowledged_blocking h.1, ih _ (h.2 _)]

end Program

namespace Ledger

variable {σ : Type} {s : Service σ}

/-- Of calls that wait for their answer the host logs nothing. -/
theorem lines_of_blocking {cs : List Call} (h : ∀ c ∈ cs, c.isBlocking) (place : Nat)
    (l : Ledger σ) : (l.accounts s.backend place cs).flatMap Account.lines = [] := by
  rw [List.flatMap_eq_nil_iff]
  intro a ha
  obtain ⟨i, c, hc, rfl⟩ := mem_accounts.1 ha
  have blocking := h c (List.mem_of_getElem? hc)
  simp only [Account.lines, outcomeAfter, outcome, Service.backend, Channel.linesOf]
  cases (s c (l.serveAll s.backend (cs.take i)).state).result with
  | ok answer => rfl
  | error cause => simp [blocking]

end Ledger

namespace Operation

open Program (Runs)
open Traffic (Follows)

variable {σ : Type}

/-- An operation waits for every answer, or it is one request that reports to a listener. -/
theorem blocking_or_listener (op : Operation) :
    (∀ c, op = .forward c → c.isBlocking) ∨
      ∃ c answer, op = .forward c ∧ c.acknowledgement? = some answer := by
  cases op with
  | forward c =>
    cases hc : c.acknowledgement? with
    | none =>
      left
      rintro c' ⟨⟩
      exact Call.isBlocking_iff.2 hc
    | some answer => exact .inr ⟨c, answer, rfl, hc⟩
  | _ =>
    left
    simp

theorem forwarding_calls (o : Options) (s : Service σ) (c : Call) (st : σ) :
    ((forwarding o c).run s st).calls = [c] := by
  rw [forwarding, Program.run_logWhen_calls, Program.run_call_calls]
  cases (s c st).result with
  | error cause => rfl
  | ok answer =>
    rw [Program.run_logWhen_calls]
    rfl

/-- Over the service that acknowledges an operation does the same and ends as over a channel. -/
theorem run_program_acknowledged (o : Options) (s : Service σ) (op : Operation) (st : σ) :
    let r := (op.program o).run s st
    let a := (op.program o).run s.acknowledged st
    (⟨op, a.result⟩ : Completed) = Completed.overChannel ⟨op, r.result⟩ ∧ a.state = r.state ∧
      a.trace = r.trace := by
  intro r a
  rcases blocking_or_listener op with blocking | ⟨c, answer, rfl, hc⟩
  · have ha : a = r := (program_isBlocking o op blocking).run_acknowledged st
    rw [ha]
    refine ⟨?_, rfl, rfl⟩
    cases op with
    | forward c =>
      simp only [Completed.overChannel, Call.isBlocking_iff.1 (blocking c rfl)]
    | _ => rfl
  · have listener : ¬ c.isBlocking := by simp [Call.isBlocking_iff, hc]
    have hk : s.acknowledged c st = ⟨.ok answer, (s c st).state, (s c st).deliveries⟩ := by
      simp only [Service.acknowledged, hc]
    have hr : r = _ := run_forwarding o s c st
    have ha : a = _ := run_forwarding o s.acknowledged c st
    rw [hk] at ha
    rw [hr, ha]
    refine ⟨?_, rfl, ?_⟩
    · simp only [Completed.overChannel, hc, mapError_ok]
    · cases (s c st).result <;> simp [answerTrace, listener]

theorem run_sequence_acknowledged (o : Options) (s : Service σ) (ops : List Operation)
    (st : σ) :
    (sequence o ops).run s.acknowledged st =
      let r := (sequence o ops).run s st
      ⟨r.result.map Completed.overChannel, r.state, r.trace⟩ := by
  induction ops generalizing st with
  | nil => rfl
  | cons op ops ih =>
    obtain ⟨hresult, hstate, htrace⟩ := run_program_acknowledged o s op st
    rw [run_sequence_cons, run_sequence_cons]
    simp only [hresult, hstate, htrace, ih, List.map_cons]

/-- What the host logs of an operation shows in how it ends over the backend itself. -/
theorem lines_of_program (o : Options) (s : Service σ) (op : Operation) (place : Nat)
    (l : Ledger σ) :
    let r := (op.program o).run s l.state
    (l.accounts s.backend place r.calls).flatMap Account.lines =
      (Completed.warning? ⟨op, r.result⟩).toList := by
  intro r
  rcases blocking_or_listener op with blocking | ⟨c, answer, rfl, hc⟩
  · rw [Ledger.lines_of_blocking ((program_isBlocking o op blocking).calls _)]
    cases op with
    | forward c =>
      cases hr : r.result with
      | ok answer => rfl
      | error failure => cases failure <;> simp [Completed.warning?, blocking c rfl]
    | _ => rfl
  · have listener : ¬ c.isBlocking := by simp [Call.isBlocking_iff, hc]
    have hr : r = _ := run_forwarding o s c l.state
    rw [show r.calls = [c] from forwarding_calls o s c l.state, hr]
    simp only [Ledger.accounts, Account.lines, Ledger.outcome, Service.backend,
      List.flatMap_cons, List.flatMap_nil, List.append_nil]
    cases (s c l.state).result <;>
      simp [Channel.linesOf, Completed.warning?, Failure.ofCall, listener]

theorem lines_of_sequence (o : Options) (s : Service σ) (ops : List Operation) (place : Nat)
    (l : Ledger σ) :
    let r := (sequence o ops).run s l.state
    (l.accounts s.backend place r.calls).flatMap Account.lines =
      r.result.filterMap Completed.warning? := by
  induction ops generalizing place l with
  | nil => rfl
  | cons op ops ih =>
    intro r
    have hr : r = _ := run_sequence_cons o s op ops l.state
    have hfirst := lines_of_program o s op place l
    have hstate := congrArg Ledger.state (Program.run_serveAll s (op.program o) l)
    have hrest := ih (place + ((op.program o).run s l.state).calls.length)
      (l.serveAll s.backend ((op.program o).run s l.state).calls)
    rw [hstate] at hrest
    have hcalls : r.calls = ((op.program o).run s l.state).calls ++
        ((sequence o ops).run s ((op.program o).run s l.state).state).calls := by
      rw [hr]
      exact List.filterMap_append
    rw [hcalls, Ledger.accounts_append, List.flatMap_append, hfirst, hrest, hr]
    cases hw : Completed.warning? ⟨op, ((op.program o).run s l.state).result⟩ with
    | none => simp [hw]
    | some line => simp [hw]

variable {s : Service σ} {st : σ} {site : Site}

/-- A finished run over a channel shows nothing but what the run over the backend shows. -/
theorem overChannel_of_runs {o : Options} {ops : List Operation} {results : List Completed}
    {lines : List LogLine} {w : Traffic σ} (outside : site ≠ .currentThread)
    (h : Runs s.backend site (· = .work) (sequence o ops)
      (Traffic.run s.backend st [.start]) results lines w) :
    let direct := (sequence o ops).run s st
    results = direct.result.map Completed.overChannel ∧ lines = direct.lines ∧
      Follows s.backend st w direct.calls := by
  have hl := h.leadsTo outside (.started s.backend st)
  rw [Program.LeadsTo, Ledger.serveAll_nil, Ledger.fresh, run_sequence_acknowledged] at hl
  exact hl

/--
The same operations do the same directly, behind a shared reference and over a channel. Only
a request that reports to a listener ends otherwise over the channel, where it is acknowledged:
what the backend failed of it stands in the log of the host.
-/
theorem transports_agree (s : Service σ) (st : σ) (o : Options) (ops : List Operation)
    (site : Site) (outside : site ≠ .currentThread) :
    let direct := (sequence o ops).run s st
    let acknowledged := direct.result.map Completed.overChannel
    let started := Traffic.run s.backend st [.start]
    (sequence o ops).run s.shared st = direct ∧
    (∀ results lines w,
      Runs s.backend site (· = .work) (sequence o ops) started results lines w →
      let ch := w.channel.settle s.backend
      results = acknowledged ∧ lines = direct.lines ∧ ch.isConnected ∧ ch.queue = [] ∧
      ch.ledger = direct.ledger ∧
      ch.log = .started :: direct.result.filterMap Completed.warning?) ∧
    ∃ w, Runs s.backend site (· = .work) (sequence o ops) started acknowledged direct.lines w ∧
      (sequence o ops).drive s.backend site started.channel =
        ⟨.finished acknowledged, direct.lines, w.channel⟩ := by
  intro direct acknowledged started
  have hstarted : Follows s.backend st started [] := .started s.backend st
  refine ⟨by rw [Service.shared_eq], ?_, ?_⟩
  · intro results lines w h ch
    obtain ⟨hresults, hlines, hw⟩ := overChannel_of_runs outside h
    obtain ⟨hqueue, hconnected, hledger, hlog⟩ := hw.settled
    refine ⟨hresults, hlines, hconnected, hqueue, ?_, ?_⟩
    · exact hledger.trans (Program.fresh_serveAll s (sequence o ops) st)
    · exact hlog.trans (congrArg (_ :: ·) (lines_of_sequence o s ops 0 (.fresh st)))
  · obtain ⟨results, lines, w, h, hdrive⟩ := Program.drive_runs (sequence o ops) hstarted outside
    obtain ⟨rfl, rfl, -⟩ := overChannel_of_runs outside h
    exact ⟨w, h, hdrive⟩

/-- A store that fails a request for the video quality. -/
theorem transports_agree_store :
    let st := Store.empty.edit (.fault (some ⟨.error .disconnected, 0, [.getVideoQuality]⟩))
    let ops := [Operation.setWfcMode .wifiOnly, .forward (.getVideoQuality 7)]
    Site.outside ≠ .currentThread ∧
    ∀ results lines w,
      Runs Store.backend.service.backend .outside (· = .work) (sequence ⟨false⟩ ops)
        (Traffic.run Store.backend.service.backend st [.start]) results lines w →
      results = [⟨.setWfcMode .wifiOnly, .ok .success⟩, ⟨.forward (.getVideoQuality 7), .ok ()⟩] ∧
      (w.channel.settle Store.backend.service.backend).log =
        [.started, .requestFailed .getVideoQuality .disconnected] := by
  intro st ops
  refine ⟨by decide, ?_⟩
  intro results lines w h
  obtain ⟨-, hruns, -⟩ :=
    transports_agree Store.backend.service st ⟨false⟩ ops .outside (by decide)
  obtain ⟨hresults, -, -, -, -, hlog⟩ := hruns results lines w h
  exact ⟨hresults, hlog⟩

end Operation
end ImsProvisioning
