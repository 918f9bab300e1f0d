import ImsProvisioning.Channel.Client

/-! # Traffic on a channel

Handles are cloned and dropped, they send calls and shutdowns, and the host starts,
works or is dropped, in any order. A list of actions is one such course of events;
what cannot happen changes nothing. The accepted commands are kept beside the
channel, which does not look at them.
-/

namespace ImsProvisioning

/-- What may happen on a channel next. -/
inductive Action where
  | call (site : Site) (c : Call)
  | shutdown
  | clone
  | release
  | start
  | dropHost
  | work
deriving DecidableEq, Repr

def Action.isByHandle : Action → Bool
  | .call _ _ | .shutdown | .clone | .release => true
  | .start | .dropHost | .work => false

/-- A channel and the commands whose sends it has accepted, in that order. -/
structure Traffic (σ : Type) where
  channel : Channel σ
  accepted : List Command

theorem Call.isBlocking_iff {c : Call} : c.isBlocking ↔ c.acknowledgement? = none :=
  Option.isNone_iff_eq_none

namespace Submission

variable {σ : Type} {c : Call}

/-- What the caller has heard of its call by now. -/
def heard (ch : Channel σ) : Submission c → Option (Except CallError c.Answer)
  | .settled result => some result
  | .queued ticket => ch.receipt? ticket c

def isAccepted : Submission c → Bool
  | .settled (.error _) => false
  | _ => true

end Submission

namespace Channel

variable {σ : Type} {site : Site} {c : Call} {ch : Channel σ}

theorem submit_listener {answer : c.Answer} (h : c.acknowledgement? = some answer) :
    ch.submit site c =
      if ch.isConnected then (.settled (.ok answer), ch.enqueue (.call c))
      else (.settled (.error .disconnected), ch) := by
  simp only [submit, h]

theorem submit_blocking (h : c.isBlocking) :
    ch.submit site c =
      if site = .currentThread then (.settled (.error .blockingInRuntime), ch)
      else if ch.isConnected then (.queued ch.nextTicket, ch.enqueue (.call c))
      else (.settled (.error .disconnected), ch) := by
  simp only [submit, Call.isBlocking_iff.1 h]

theorem submit_accepted (h : (ch.submit site c).1.isAccepted) :
    ch.isConnected ∧ (ch.submit site c).2 = ch.enqueue (.call c) := by
  cases ha : c.acknowledgement? with
  | some answer =>
    rw [submit_listener ha] at h ⊢
    by_cases hc : ch.isConnected
    · simp [hc]
    · simp [hc, Submission.isAccepted] at h
  | none =>
    have hb : c.isBlocking := Call.isBlocking_iff.2 ha
    rw [submit_blocking hb] at h ⊢
    by_cases hs : site = .currentThread
    · simp [hs, Submission.isAccepted] at h
    · by_cases hc : ch.isConnected
      · simp [hs, hc]
      · simp [hs, hc, Submission.isAccepted] at h

theorem submit_refused (h : ¬ (ch.submit site c).1.isAccepted) : (ch.submit site c).2 = ch := by
  cases ha : c.acknowledgement? with
  | some answer =>
    rw [submit_listener ha] at h ⊢
    by_cases hc : ch.isConnected
    · simp [hc, Submission.isAccepted] at h
    · simp [hc]
  | none =>
    have hb : c.isBlocking := Call.isBlocking_iff.2 ha
    rw [submit_blocking hb] at h ⊢
    by_cases hs : site = .currentThread
    · simp [hs]
    · by_cases hc : ch.isConnected
      · simp [hs, hc, Submission.isAccepted] at h
      · simp [hs, hc]

end Channel

namespace Traffic

variable {σ : Type}

def fresh (st : σ) : Traffic σ := ⟨.fresh st, []⟩

abbrev served (w : Traffic σ) : List Call := w.channel.ledger.calls

/-- Only a handle sends, and only a host that was never started is started or dropped. -/
def enables (w : Traffic σ) : Action → Bool
  | .call _ _ | .shutdown | .clone | .release => w.channel.handles ≠ 0
  | .start | .dropHost => w.channel.phase = .unstarted
  | .work => true

def perform (b : Backend σ) (w : Traffic σ) : Action → Traffic σ
  | .call site c =>
    let r := w.channel.submit site c
    ⟨r.2, if r.1.isAccepted then w.accepted ++ [.call c] else w.accepted⟩
  | .shutdown =>
    let r := w.channel.shutdown
    ⟨r.2, if r.1.isOk then w.accepted ++ [.shutdown] else w.accepted⟩
  | .clone => { w with channel := w.channel.clone }
  | .release => { w with channel := w.channel.release }
  | .start => { w with channel := w.channel.start }
  | .dropHost => { w with channel := w.channel.close }
  | .work => { w with channel := w.channel.hostStep b }

def step (b : Backend σ) (w : Traffic σ) (a : Action) : Traffic σ :=
  if w.enables a then w.perform b a else w

def runFrom (b : Backend σ) (w : Traffic σ) (as : List Action) : Traffic σ := as.foldl (step b) w

/-- The traffic after some actions on a fresh channel. -/
def run (b : Backend σ) (st : σ) (as : List Action) : Traffic σ := (fresh st).runFrom b as

def send (w : Traffic σ) (command : Command) : Traffic σ :=
  ⟨w.channel.enqueue command, w.accepted ++ [command]⟩

/-- Everything that one action can do. -/
inductive Change (b : Backend σ) (w : Traffic σ) : Traffic σ → Prop
  | none : Change b w w
  | send (command : Command) (handle : w.channel.handles ≠ 0)
      (connected : w.channel.phase ≠ .ended) : Change b w (w.send command)
  | clone (handle : w.channel.handles ≠ 0) :
      Change b w { w with channel := w.channel.clone }
  | release : Change b w { w with channel := w.channel.release }
  | start (unstarted : w.channel.phase = .unstarted) :
      Change b w { w with channel := w.channel.start }
  | dropHost (unstarted : w.channel.phase = .unstarted) :
      Change b w { w with channel := w.channel.close }
  | work : Change b w { w with channel := w.channel.hostStep b }

/-- A call is either sent, or refused with the channel as it was. -/
theorem perform_call (b : Backend σ) (w : Traffic σ) (site : Site) (c : Call) :
    w.perform b (.call site c) =
      if (w.channel.submit site c).1.isAccepted then w.send (.call c) else w := by
  simp only [perform]
  by_cases h : (w.channel.submit site c).1.isAccepted
  · rw [if_pos h, if_pos h, (Channel.submit_accepted h).2, send]
  · rw [if_neg h, if_neg h, Channel.submit_refused h]

theorem perform_shutdown (b : Backend σ) (w : Traffic σ) :
    w.perform b .shutdown = if w.channel.isConnected then w.send .shutdown else w := by
  unfold perform Channel.shutdown
  by_cases h : w.channel.isConnected <;> simp [h, send, Except.isOk, Except.toBool]

theorem step_change (b : Backend σ) (w : Traffic σ) (a : Action) : Change b w (w.step b a) := by
  unfold step
  by_cases he : w.enables a
  · rw [if_pos he]
    cases a with
    | call site c =>
      rw [perform_call]
      split
      · rename_i h
        exact .send _ (by simpa [enables] using he)
          (by simpa [Channel.isConnected] using (Channel.submit_accepted h).1)
      · exact .none
    | shutdown =>
      rw [perform_shutdown]
      split
      · rename_i h
        exact .send _ (by simpa [enables] using he) (by simpa [Channel.isConnected] using h)
      · exact .none
    | clone => exact .clone (by simpa [enables] using he)
    | release => exact .release
    | start => exact .start (by simpa [enables] using he)
    | dropHost => exact .dropHost (by simpa [enables] using he)
    | work => exact .work
  · rw [if_neg he]
    exact .none

/-- What a handle does leaves the host as it is. -/
theorem step_of_isByHandle (b : Backend σ) (w : Traffic σ) {a : Action} (h : a.isByHandle) :
    (w.step b a).channel.phase = w.channel.phase ∧ (w.step b a).channel.log = w.channel.log := by
  unfold step
  split
  · cases a with
    | call site c =>
      rw [perform_call]
      split <;> exact ⟨rfl, rfl⟩
    | shutdown =>
      rw [perform_shutdown]
      split <;> exact ⟨rfl, rfl⟩
    | clone | release => exact ⟨rfl, rfl⟩
    | start | dropHost | work => cases h
  · exact ⟨rfl, rfl⟩

@[simp] theorem runFrom_nil (b : Backend σ) (w : Traffic σ) : w.runFrom b [] = w := rfl

@[simp] theorem runFrom_cons (b : Backend σ) (w : Traffic σ) (a : Action) (as : List Action) :
    w.runFrom b (a :: as) = (w.step b a).runFrom b as := rfl

theorem runFrom_append (b : Backend σ) (w : Traffic σ) (as more : List Action) :
    w.runFrom b (as ++ more) = (w.runFrom b as).runFrom b more := List.foldl_append

theorem run_append (b : Backend σ) (st : σ) (as more : List Action) :
    run b st (as ++ more) = (run b st as).runFrom b more := runFrom_append b _ as more

/-- What every change preserves holds after any actions. -/
theorem runFrom_induction {b : Backend σ} {P : Traffic σ → Prop}
    (change : ∀ {w w'}, P w → Change b w w' → P w') {w : Traffic σ} (h : P w)
    (as : List Action) : P (w.runFrom b as) := by
  induction as generalizing w with
  | nil => exact h
  | cons a as ih => exact ih (change h (step_change b w a))

end Traffic
end ImsProvisioning
