import ImsProvisioning.Call.Failure

/-! # Services

A service answers calls, carries a state from one call to the next and reports to
listeners. A backend is a service that may also break off in the middle of a
call; then its caller gets no answer, but the state it had reached remains.
-/

namespace ImsProvisioning

inductive Report where
  | featureRead (feature : Feature) (network : Network) (value : Toggle) (status : Status)
  | featureSet (feature : Feature) (network : Network) (value : Toggle) (status : Status)
  | qualityRead (status : Status) (quality : VideoQuality)
  | qualitySet (status : Status)
deriving DecidableEq, Repr

structure Delivery where
  listener : Listener
  report : Report
deriving DecidableEq, Repr

/-- The result of a call, the state after it and what listeners were told meanwhile. -/
structure Reply (c : Call) (σ : Type) where
  result : Except CallError c.Answer
  state : σ
  deliveries : List Delivery

def Service (σ : Type) : Type := (c : Call) → σ → Reply c σ

/-- How a backend leaves a call. -/
inductive Outcome (c : Call) where
  | returned (result : Except CallError c.Answer)
  | crashed

/-- The outcome of a call, the state after it and what listeners were told meanwhile. -/
structure Reaction (c : Call) (σ : Type) where
  outcome : Outcome c
  state : σ
  deliveries : List Delivery

def Backend (σ : Type) : Type := (c : Call) → σ → Reaction c σ

/-- What the caller hears of an outcome. -/
def Outcome.result {c : Call} : Outcome c → Except CallError c.Answer
  | .returned result => result
  | .crashed => .error .noReply

variable {σ : Type}

/-- A service serves as a backend that never breaks off. -/
def Service.backend (s : Service σ) : Backend σ := fun c st =>
  let reply := s c st
  ⟨.returned reply.result, reply.state, reply.deliveries⟩

def Backend.service (b : Backend σ) : Service σ := fun c st =>
  let reaction := b c st
  ⟨reaction.outcome.result, reaction.state, reaction.deliveries⟩

@[simp] theorem Service.service_backend (s : Service σ) : s.backend.service = s := rfl

/-- A service behind a shared reference: each method passes its arguments on. -/
def Service.shared (s : Service σ) : Service σ
  | .getInteger item => s (.getInteger item)
  | .getText item => s (.getText item)
  | .setInteger item value => s (.setInteger item value)
  | .setText item value => s (.setText item value)
  | .getFeature feature network listener => s (.getFeature feature network listener)
  | .setFeature feature network value listener => s (.setFeature feature network value listener)
  | .getVolte => s .getVolte
  | .getVideoQuality listener => s (.getVideoQuality listener)
  | .setVideoQuality quality listener => s (.setVideoQuality quality listener)

@[simp] theorem Service.shared_eq (s : Service σ) : s.shared = s := by
  funext c
  cases c <;> rfl

end ImsProvisioning
