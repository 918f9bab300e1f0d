import ImsProvisioning.Proofs.Transport.Refusal

/-! # Rejected calls

A thread that drives a runtime of its own must not wait, so a blocking call made there is rejected
before it touches the channel, whatever state the host is in. A course of events with such calls
is the one without them: nobody else hears anything different. A request that reports to
a listener does not wait, and is taken there as it is anywhere.
-/

namespace ImsProvisioning

/-- Whether a caller here would wait for the call and must not. -/
def Site.rejects (site : Site) (c : Call) : Bool := site = .currentThread && c.isBlocking

def Action.isRejected : Action → Bool
  | .call site c => site.rejects c
  | _ => false

/-- What a handle did and what has come of it. -/
inductive Hearing where
  | call (site : Site) (c : Call) (result : Option (Except CallError c.Answer))
  | shutdown (result : Except CallError Unit)

def Hearing.isRejected : Hearing → Bool
  | .call site c _ => site.rejects c
  | .shutdown _ => false

theorem Site.rejects_iff {site : Site} {c : Call} :
    site.rejects c ↔ site = .currentThread ∧ c.isBlocking := by
  simp [rejects]

theorem Action.isRejected_iff {a : Action} :
    a.isRejected ↔ ∃ c, c.isBlocking ∧ a = .call .currentThread c := by
  cases a with
  | call site c =>
    rw [isRejected, Site.rejects_iff]
    constructor
    · rintro ⟨rfl, blocking⟩
      exact ⟨c, blocking, rfl⟩
    · rintro ⟨c', blocking, h⟩
      obtain ⟨rfl, rfl⟩ := Action.call.inj h
      exact ⟨rfl, blocking⟩
  | _ => simp [isRejected]

namespace Channel

variable {σ : Type} {c : Call}

theorem submit_rejected (blocking : c.isBlocking) (ch : Channel σ) :
    ch.submit .currentThread c = (.settled (.error .blockingInRuntime), ch) := by
  rw [submit_blocking blocking, if_pos rfl]

/-- Where a request that reports to a listener is made makes no difference. -/
theorem submit_site (listener : ¬ c.isBlocking) (site site' : Site) (ch : Channel σ) :
    ch.submit site c = ch.submit site' c := by
  cases h : c.acknowledgement? with
  | some answer => rw [submit_listener h, submit_listener h]
  | none => exact absurd (Call.isBlocking_iff.2 h) listener

end Channel

namespace Traffic

variable {σ : Type} {b : Backend σ} {w last : Traffic σ} {a : Action} {c : Call}

theorem refuses_inRuntime (b : Backend σ) (w : Traffic σ) :
    w.Refuses b .currentThread (fun c => c.isBlocking) .blockingInRuntime :=
  fun _ _ blocking => Channel.submit_rejected blocking _

theorem step_of_rejected (b : Backend σ) (w : Traffic σ) (h : a.isRejected) : w.step b a = w := by
  obtain ⟨c, blocking, rfl⟩ := Action.isRejected_iff.1 h
  exact step_of_submit b (Channel.submit_rejected blocking w.channel)

theorem step_site (listener : ¬ c.isBlocking) (b : Backend σ) (w : Traffic σ)
    (site site' : Site) : w.step b (.call site c) = w.step b (.call site' c) := by
  unfold step
  rw [perform_call, perform_call, Channel.submit_site listener site site']
  rfl

theorem runFrom_filter (b : Backend σ) (w : Traffic σ) (as : List Action) :
    w.runFrom b (as.filter (! ·.isRejected)) = w.runFrom b as := by
  induction as generalizing w with
  | nil => rfl
  | cons a as ih =>
    by_cases h : a.isRejected
    · rw [List.filter_cons_of_neg (by simp [h]), runFrom_cons, step_of_rejected b w h]
      exact ih w
    · rw [List.filter_cons_of_pos (by simp [h]), runFrom_cons, runFrom_cons]
      exact ih _

/-- What has come of an action at this point by the time of `last`, for the handle that took it. -/
def hearing? (w last : Traffic σ) : Action → Option Hearing
  | .call site c => some (.call site c ((w.channel.submit site c).1.heard last.channel))
  | .shutdown => some (.shutdown w.channel.shutdown.1)
  | _ => none

/-- What the handles have heard by the time of `last` of all that they did, in order. What could
not happen is heard by nobody. -/
def hearings (b : Backend σ) (last : Traffic σ) : Traffic σ → List Action → List Hearing
  | _, [] => []
  | w, a :: as =>
    (if w.enables a then w.hearing? last a else none).toList ++ hearings b last (w.step b a) as

theorem isRejected_of_hearing? {h : Hearing} (hh : w.hearing? last a = some h) :
    h.isRejected = a.isRejected := by
  cases a with
  | call site c =>
    obtain rfl := Option.some.inj hh
    rfl
  | shutdown =>
    obtain rfl := Option.some.inj hh
    rfl
  | _ => cases hh

theorem filter_hearing? (p : Prop) [Decidable p] :
    ((if p then w.hearing? last a else none).toList).filter (! ·.isRejected) =
      if a.isRejected then [] else (if p then w.hearing? last a else none).toList := by
  split
  · cases hh : w.hearing? last a with
    | none => simp
    | some h => cases hr : a.isRejected <;> simp [isRejected_of_hearing? hh, hr]
  · simp

/-- Without the rejected calls everybody else hears the same. -/
theorem hearings_filter (b : Backend σ) (last w : Traffic σ) (as : List Action) :
    hearings b last w (as.filter (! ·.isRejected)) =
      (hearings b last w as).filter (! ·.isRejected) := by
  induction as generalizing w with
  | nil => rfl
  | cons a as ih =>
    rw [hearings, List.filter_append, filter_hearing?]
    by_cases h : a.isRejected
    · rw [List.filter_cons_of_neg (by simp [h]), if_pos h, step_of_rejected b w h]
      exact ih w
    · rw [List.filter_cons_of_pos (by simp [h]), if_neg h, hearings, ih]

/-- Whoever makes a rejected call hears of it at once. -/
theorem hearing_of_rejected {as : List Action} {h : Hearing} (hh : h ∈ hearings b last w as)
    (rejected : h.isRejected) :
    ∃ c, c.isBlocking ∧ h = .call .currentThread c (some (.error .blockingInRuntime)) := by
  induction as generalizing w with
  | nil => cases hh
  | cons a as ih =>
    rcases List.mem_append.1 hh with hm | hm
    · split at hm
      · rw [Option.mem_toList] at hm
        have ha : a.isRejected := isRejected_of_hearing? hm ▸ rejected
        obtain ⟨c, blocking, rfl⟩ := Action.isRejected_iff.1 ha
        refine ⟨c, blocking, ?_⟩
        rw [hearing?, Channel.submit_rejected blocking] at hm
        exact (Option.some.inj hm).symm
      · cases hm
    · exact ih hm

end Traffic

namespace Program

variable {α σ : Type} {b : Backend σ} {site : Site} {others : Action → Prop} {p : Program α}
  {w w' : Traffic σ} {a : α} {lines : List LogLine}

/-- A client lives through the same things if the others make no rejected calls. -/
theorem Runs.without_rejected
    (h : Runs b site (fun act => others act ∨ act.isRejected) p w a lines w') :
    Runs b site others p w a lines w' := by
  induction h with
  | done a w => exact .done a w
  | log rest ih => exact .log ih
  | @other p w w' a lines act allowed rest ih =>
    rcases allowed with allowed | rejected
    · exact .other allowed ih
    · rwa [Traffic.step_of_rejected b w rejected] at ih
  | settled submission rest ih => exact .settled submission ih
  | @answered c next w w' a lines ticket result between submission allowed receipt rest ih =>
    rw [← Traffic.runFrom_filter b _ between] at receipt ih
    refine .answered submission ?_ receipt ih
    intro act hact
    obtain ⟨hmem, hkept⟩ := List.mem_filter.1 hact
    exact (allowed act hmem).resolve_right (by simpa using hkept)

/-- A client that only makes requests which report to listeners may make them anywhere. -/
theorem Runs.elsewhere (h : Runs b site others p w a lines w') (site' : Site)
    (hp : p.OnlyCalls fun c => ¬ c.isBlocking) : Runs b site' others p w a lines w' := by
  induction h with
  | done a w => exact .done a w
  | log rest ih => exact .log (ih hp)
  | other allowed rest ih => exact .other allowed (ih hp)
  | @settled c next w w' a lines result submission rest ih =>
    rw [Channel.submit_site hp.1 site site'] at submission
    rw [Traffic.step_site hp.1 b w site site'] at ih
    exact .settled submission (ih (hp.2 result))
  | @answered c next w w' a lines ticket result between submission allowed receipt rest ih =>
    rw [Channel.submit_site hp.1 site site'] at submission
    rw [Traffic.step_site hp.1 b w site site'] at receipt ih
    exact .answered submission allowed receipt (ih (hp.2 result))

end Program

namespace Traffic

open Program (Runs)

/--
A blocking call from a runtime that must not wait fails at every point of every course of events,
also when the host is gone, and leaves everything as it was; so does an operation of such calls,
whose failure names the first of them. A request that reports to a listener is treated there as
anywhere. With or without rejected calls, everybody else hears the same and everything ends up
the same.
-/
theorem rejected_calls_change_nothing (b : Backend σ) (st : σ) (as : List Action) :
    let w := run b st as
    (∀ c : Call, c.isBlocking →
      w.channel.submit .currentThread c = (.settled (.error .blockingInRuntime), w.channel) ∧
      w.step b (.call .currentThread c) = w) ∧
    (∀ (o : Options) (op : Operation), (∀ c, op = .forward c → c.isBlocking) →
      op.Refused b .currentThread w o .blockingInRuntime ∧
      ∀ (τ : Type) (s : Service τ) (x : τ),
        ((op.program o).run s x).calls.head? = some op.opening) ∧
    (∀ (c : Call) (site : Site), ¬ c.isBlocking →
      w.channel.submit .currentThread c = w.channel.submit site c ∧
      w.step b (.call .currentThread c) = w.step b (.call site c) ∧
      ∀ o others r lines w',
        Runs b .currentThread others (Operation.forwarding o c) w r lines w' ↔
          Runs b site others (Operation.forwarding o c) w r lines w') ∧
    (∀ as' : List Action,
      as'.filter (! ·.isRejected) = as.filter (! ·.isRejected) →
      run b st as' = w ∧
      (hearings b w (.fresh st) as').filter (! ·.isRejected) =
        (hearings b w (.fresh st) as).filter (! ·.isRejected)) ∧
    (∀ h ∈ hearings b w (.fresh st) as, h.isRejected →
      ∃ c, c.isBlocking ∧ h = .call .currentThread c (some (.error .blockingInRuntime))) ∧
    ∀ (α : Type) (p : Program α) site others a lines w',
      Runs b site (fun act => others act ∨ act.isRejected) p w a lines w' ↔
        Runs b site others p w a lines w' := by
  intro w
  refine ⟨?_, ?_, ?_, ?_, fun h hh => hearing_of_rejected hh, ?_⟩
  · intro c blocking
    have hsubmit := Channel.submit_rejected blocking w.channel
    exact ⟨hsubmit, step_of_submit b hsubmit⟩
  · intro o op blocking
    have hcalls := (Operation.program_isBlocking o op blocking).onlyCalls
    exact ⟨Operation.refused_of_refuses (refuses_inRuntime b w) hcalls,
      fun τ s x => Operation.head?_calls o op s x⟩
  · intro c site listener
    refine ⟨Channel.submit_site listener _ _ _, step_site listener b w _ _, ?_⟩
    intro o others r lines w'
    have hcalls : (Operation.forwarding o c).OnlyCalls fun c => ¬ c.isBlocking :=
      Operation.forwarding_onlyCalls o listener
    exact ⟨fun h => h.elsewhere site hcalls, fun h => h.elsewhere .currentThread hcalls⟩
  · intro as' same
    constructor
    · change (fresh st).runFrom b as' = (fresh st).runFrom b as
      rw [← runFrom_filter b _ as', same, runFrom_filter]
    · rw [← hearings_filter, same, hearings_filter]
  · intro α p site others a lines w'
    exact ⟨Runs.without_rejected, Runs.mono fun act hact => .inl hact⟩

end Traffic
end ImsProvisioning
