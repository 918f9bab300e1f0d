import ImsProvisioning.Proofs.Traffic.Occurrence
import ImsProvisioning.Proofs.Transport.Rejection

/-! # Disconnection

A handle is connected until the host has stopped or was dropped, whichever handle is asked and
whatever still waits. From then on every call and every shutdown is refused, and nothing that
anybody does reaches the backend, a listener or the host's log.
-/

namespace ImsProvisioning

namespace Channel

variable {σ : Type} {ch : Channel σ}

theorem isConnected_eq_false : ch.isConnected = false ↔ ch.phase = .ended := by
  simp [isConnected]

theorem shutdown_disconnected (h : ch.isConnected = false) :
    ch.shutdown = (.error .disconnected, ch) := by
  rw [shutdown, h]
  rfl

theorem submit_disconnected (h : ch.isConnected = false) {site : Site} {c : Call}
    (taken : ¬ site.rejects c) :
    ch.submit site c = (.settled (.error .disconnected), ch) := by
  rw [Site.rejects_iff] at taken
  cases ha : c.acknowledgement? with
  | some answer =>
    rw [submit_listener ha, h]
    rfl
  | none =>
    have blocking : c.isBlocking := Call.isBlocking_iff.2 ha
    have outside : site ≠ .currentThread := fun inside => taken ⟨inside, blocking⟩
    rw [submit_blocking blocking, if_neg outside, h]
    rfl

end Channel

namespace Traffic

variable {σ : Type} {b : Backend σ} {w : Traffic σ}

/-- Nothing that handles do connects or disconnects them. -/
theorem runFrom_isConnected (b : Backend σ) (w : Traffic σ) {acts : List Action}
    (h : ∀ a ∈ acts, a.isByHandle) :
    (w.runFrom b acts).channel.isConnected = w.channel.isConnected := by
  induction acts generalizing w with
  | nil => rfl
  | cons a acts ih =>
    obtain ⟨ha, hacts⟩ := List.forall_mem_cons.1 h
    have hstep : (w.step b a).channel.isConnected = w.channel.isConnected := by
      rw [Channel.isConnected, Channel.isConnected, (step_of_isByHandle b w ha).1]
    exact (ih _ hacts).trans hstep

theorem isConnected_runFrom (b : Backend σ) (h : w.channel.isConnected = false)
    (acts : List Action) : (w.runFrom b acts).channel.isConnected = false := by
  rw [Channel.isConnected_eq_false] at h ⊢
  exact (runFrom_grows b w acts).phase_eq h

theorem refuses_disconnected (b : Backend σ) (site : Site) (h : w.channel.isConnected = false) :
    w.Refuses b site (fun c => ¬ site.rejects c) .disconnected :=
  fun acts _ taken => Channel.submit_disconnected (isConnected_runFrom b h acts) taken

/--
A handle is disconnected once the host has stopped or was dropped, and not before; what handles do,
whichever they are, has no part in it. Once they are, everything stays as it is for good: calls and
shutdowns are refused, and an operation fails with the tag of the call that it makes first.
-/
theorem disconnection_is_permanent (b : Backend σ) :
    (∀ st as, (run b st as).channel.isConnected = false ↔
      Occurs b (fresh st) (fun w a => Stops w a ∨ DropsHost w a) as) ∧
    (∀ (w : Traffic σ) (acts : List Action), (∀ a ∈ acts, a.isByHandle) →
      (w.runFrom b acts).channel.isConnected = w.channel.isConnected) ∧
    ∀ (w : Traffic σ) (acts : List Action), w.channel.isConnected = false →
      let later := w.runFrom b acts
      later.channel.isConnected = false ∧
      { later.channel with handles := w.channel.handles } = w.channel ∧
      later.accepted = w.accepted ∧
      later.channel.shutdown = (.error .disconnected, later.channel) ∧
      (∀ site c, ¬ site.rejects c →
        later.channel.submit site c = (.settled (.error .disconnected), later.channel)) ∧
      ∀ site, site ≠ .currentThread → ∀ (o : Options) (op : Operation),
        op.Refused b site later o .disconnected ∧
        ∀ (τ : Type) (s : Service τ) (x : τ),
          ((op.program o).run s x).calls.head? = some op.opening := by
  refine ⟨fun st as => ?_, fun w acts => runFrom_isConnected b w, ?_⟩
  · rw [Channel.isConnected_eq_false]
    exact ended_iff_occurs b st as
  intro w acts h later
  have hlater : later.channel.isConnected = false := isConnected_runFrom b h acts
  obtain ⟨haccepted, hchannel⟩ :=
    (runFrom_grows b w acts).ended (Channel.isConnected_eq_false.1 h)
  refine ⟨hlater, hchannel, haccepted, Channel.shutdown_disconnected hlater,
    fun site c taken => Channel.submit_disconnected hlater taken, ?_⟩
  intro site outside o op
  have taken (c : Call) : ¬ site.rejects c :=
    fun rejected => outside (Site.rejects_iff.1 rejected).1
  have refuses : later.Refuses b site (fun _ => True) .disconnected :=
    fun more c _ => refuses_disconnected b site hlater more c (taken c)
  exact ⟨Operation.refused_of_refuses refuses (Program.onlyCalls_true _),
    fun τ s x => Operation.head?_calls o op s x⟩

end Traffic
end ImsProvisioning
