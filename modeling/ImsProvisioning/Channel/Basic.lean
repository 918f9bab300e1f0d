import ImsProvisioning.Call.Ledger

/-! # Channels

A channel carries the calls of any number of handles to one host, which serves
them with a backend in the order in which they were sent. A sent command gets a
ticket; the answer to a blocking call is a receipt for its ticket.
-/

namespace ImsProvisioning

open Text (Outline quoted)

inductive Command where
  | call (c : Call)
  | shutdown
deriving DecidableEq, Repr

namespace Command

def name : Command → String
  | .call c => c.method.name
  | .shutdown => "shutdown"

def outline (c : Command) : Outline := .tuple "ServiceCommand" [.word (quoted c.name)]

end Command

structure Queued where
  ticket : Nat
  command : Command
deriving DecidableEq, Repr

/-- What the caller of a blocking call hears in the end. -/
structure Receipt where
  ticket : Nat
  call : Call
  result : Except CallError call.Answer

inductive HostLine where
  | started
  | shuttingDown
  | stopped
  | requestFailed (method : Method) (cause : CallError)
  | callCrashed (method : Method)
deriving DecidableEq, Repr

inductive Level where
  | debug | warn | error
deriving DecidableEq, Repr

namespace HostLine

def level : HostLine → Level
  | .started | .shuttingDown | .stopped => .debug
  | .requestFailed _ _ => .warn
  | .callCrashed _ => .error

def text : HostLine → String
  | .started => "IMS config host started"
  | .shuttingDown => "IMS config host shutting down"
  | .stopped => "IMS config host stopped"
  | .requestFailed method cause => method.name ++ " request failed in backend: " ++ cause.message
  | .callCrashed method => method.name ++ " backend call did not complete: *"

end HostLine

/--
What the host is doing. Commands queue up for it before it is started; once it is leaving it has
taken its last command, and a host that is dropped instead of started has ended, too.
-/
inductive Phase where
  | unstarted
  | idle
  | serving (ticket : Nat) (c : Call)
  | leaving
  | ended
deriving DecidableEq, Repr

/-- A channel and the host at its end. -/
structure Channel (σ : Type) where
  phase : Phase
  queue : List Queued
  nextTicket : Nat
  handles : Nat
  ledger : Ledger σ
  receipts : List Receipt
  log : List HostLine

/-- What the caller of a command hears if it is never served. -/
def Queued.dropped : Queued → Option Receipt
  | ⟨ticket, .call c⟩ => if c.isBlocking then some ⟨ticket, c, .error .noReply⟩ else none
  | ⟨_, .shutdown⟩ => none

namespace Channel

variable {σ : Type}

def fresh (state : σ) : Channel σ := ⟨.unstarted, [], 0, 1, .fresh state, [], []⟩

/-- Ends the channel; no command that still waits is served. -/
def close (ch : Channel σ) : Channel σ :=
  { ch with
    phase := .ended
    queue := []
    receipts := ch.receipts ++ ch.queue.filterMap Queued.dropped }

/-- A blocking call is answered with its outcome; a listener call never is. -/
def receiptsOf (ticket : Nat) (c : Call) (outcome : Outcome c) : List Receipt :=
  if c.isBlocking then [⟨ticket, c, outcome.result⟩] else []

/-- The host logs what no caller hears, and every crash. -/
def linesOf (c : Call) : Outcome c → List HostLine
  | .crashed => [.callCrashed c.method]
  | .returned (.error cause) => if c.isBlocking then [] else [.requestFailed c.method cause]
  | .returned (.ok _) => []

/--
The next thing the host does. Out of commands it waits while there is a handle, and
leaves otherwise; a shutdown makes it leave with commands still waiting.
-/
def hostStep (b : Backend σ) (ch : Channel σ) : Channel σ :=
  match ch.phase with
  | .unstarted | .ended => ch
  | .idle =>
    match ch.queue with
    | [] => if ch.handles = 0 then { ch with phase := .leaving } else ch
    | ⟨ticket, .call c⟩ :: rest => { ch with phase := .serving ticket c, queue := rest }
    | ⟨_, .shutdown⟩ :: rest =>
      { ch with phase := .leaving, queue := rest, log := ch.log ++ [.shuttingDown] }
  | .serving ticket c =>
    let outcome := ch.ledger.outcome b c
    { ch with
      phase := .idle
      ledger := ch.ledger.serve b c
      receipts := ch.receipts ++ receiptsOf ticket c outcome
      log := ch.log ++ linesOf c outcome }
  | .leaving => { ch.close with log := ch.log ++ [.stopped] }

def hostSteps (b : Backend σ) : Nat → Channel σ → Channel σ
  | 0, ch => ch
  | n + 1, ch => hostSteps b n (ch.hostStep b)

/-- Lets the host work until it waits or has stopped: two steps for each command and three more. -/
def settle (b : Backend σ) (ch : Channel σ) : Channel σ :=
  ch.hostSteps b (2 * ch.queue.length + 3)

def start (ch : Channel σ) : Channel σ :=
  { ch with phase := .idle, log := ch.log ++ [.started] }

def isConnected (ch : Channel σ) : Bool := ch.phase ≠ .ended

def outline (ch : Channel σ) : Outline :=
  .record "ServiceHandle" [("connected", .word (toString ch.isConnected))] false

def clone (ch : Channel σ) : Channel σ := { ch with handles := ch.handles + 1 }

def release (ch : Channel σ) : Channel σ := { ch with handles := ch.handles - 1 }

end Channel
end ImsProvisioning
