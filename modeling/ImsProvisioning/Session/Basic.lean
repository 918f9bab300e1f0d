import ImsProvisioning.Channel.Client
import ImsProvisioning.Client.Operation

/-! # Sessions

A session is one accessor over one backend, which it reaches directly, through a
shared reference or over a channel. It goes on step by step; what can be seen of
a step is an entry.
-/

namespace ImsProvisioning

inductive Step (σ : Type) where
  | operate (site : Site) (op : Except ConstantError Operation)
  | call (site : Site) (c : Except ConstantError Call)
  | start
  | shutdown
  | dropHost
  | isConnected
  | describeHandle
  | release
  | context
  | options
  | describe (multiline : Bool)
  | edit (change : σ → Option ConstantError × σ)
  | state

def Step.isAboutChannel {σ : Type} : Step σ → Bool
  | .start | .shutdown | .dropHost | .isConnected | .describeHandle => true
  | _ => false

/-- Whether the step is left to a session whose accessor is given up. -/
def Step.outlivesAccessor {σ : Type} : Step σ → Bool
  | .edit _ | .state | .start | .dropHost => true
  | _ => false

inductive StepValue (σ : Type) where
  | nothing
  | integer (n : Int32)
  | text (s : String)
  | flag (b : Bool)
  | status (s : Status)
  | mode (m : WfcMode)
  | snapshot (s : Snapshot)
  | state (st : σ)

/--
How a step ends. A pending call is queued while its caller waits; an operation that would block
has called nothing, and a call that is refused has gone past the accessor.
-/
inductive StepResult (σ : Type) where
  | ok (value : StepValue σ)
  | failed (failure : Failure)
  | refused (cause : CallError)
  | badConstant (e : ConstantError)
  | pending
  | wouldBlock
  | badState
  | noTransport
  | released

/-- A waiting caller's step, done at last. -/
structure Resolved (σ : Type) where
  step : Nat
  result : StepResult σ
  lines : List LogLine

structure Entry (σ ρ : Type) where
  result : ρ
  calls : List Call
  deliveries : List Delivery
  resolved : List (Resolved σ)
  lines : List LogLine
  hostLines : List HostLine

/-- A caller that waits for the receipt of its call. -/
structure Pending (σ : Type) where
  step : Nat
  site : Site
  call : Call
  ticket : Nat
  lines : List LogLine
  next : Except CallError call.Answer → Program (StepResult σ)

/-- What lies between the accessor and the backend. -/
inductive Link (σ : Type) where
  | direct (ledger : Ledger σ)
  | shared (ledger : Ledger σ)
  | channel (ch : Channel σ)

namespace Link

variable {σ : Type}

def ledger : Link σ → Ledger σ
  | .direct l | .shared l => l
  | .channel ch => ch.ledger

def hostLog : Link σ → List HostLine
  | .direct _ | .shared _ => []
  | .channel ch => ch.log

def withLedger (l : Ledger σ) : Link σ → Link σ
  | .direct _ => .direct l
  | .shared _ => .shared l
  | .channel ch => .channel { ch with ledger := l }

end Link

structure Session (σ : Type) where
  options : Options
  context : String
  link : Link σ
  released : Bool
  pending : List (Pending σ)

def Session.outline {σ : Type} (s : Session σ) : Text.Outline :=
  .record "ImsConfig"
    [("context", .word (Text.quoted s.context)), ("options", s.options.outline)] true

end ImsProvisioning
