import ImsProvisioning.Channel.Basic
import ImsProvisioning.Client.Program

/-! # Calls over a channel

A handle sends the call and, if it is a blocking one, waits for its receipt. A
thread that drives a runtime of its own must not wait, so there a blocking call
fails before anything is sent.
-/

namespace ImsProvisioning

/-- Where a call is made. -/
inductive Site where
  | outside
  | multiThread
  | currentThread
deriving DecidableEq, Repr

/-- What a caller has once its call is made: the result, or a ticket to wait with. -/
inductive Submission (c : Call) where
  | settled (result : Except CallError c.Answer)
  | queued (ticket : Nat)

namespace Channel

variable {σ : Type}

def enqueue (command : Command) (ch : Channel σ) : Channel σ :=
  { ch with
    queue := ch.queue ++ [⟨ch.nextTicket, command⟩]
    nextTicket := ch.nextTicket + 1 }

def submit (site : Site) (c : Call) (ch : Channel σ) : Submission c × Channel σ :=
  match c.acknowledgement? with
  | some answer =>
    if ch.isConnected then (.settled (.ok answer), ch.enqueue (.call c))
    else (.settled (.error .disconnected), ch)
  | none =>
    if site = .currentThread then (.settled (.error .blockingInRuntime), ch)
    else if ch.isConnected then (.queued ch.nextTicket, ch.enqueue (.call c))
    else (.settled (.error .disconnected), ch)

def shutdown (ch : Channel σ) : Except CallError Unit × Channel σ :=
  if ch.isConnected then (.ok (), ch.enqueue .shutdown) else (.error .disconnected, ch)

def receipt? (ticket : Nat) (c : Call) (ch : Channel σ) : Option (Except CallError c.Answer) :=
  ch.receipts.findSome? fun r =>
    if h : r.ticket = ticket ∧ r.call = c then some (h.2 ▸ r.result) else none

end Channel

/-- How far a program has come: to its end, or to a call whose receipt is not there yet. -/
inductive Progress (α : Type) where
  | finished (a : α)
  | waiting (c : Call) (ticket : Nat) (next : Except CallError c.Answer → Program α)

structure Drive (α σ : Type) where
  progress : Progress α
  lines : List LogLine
  channel : Channel σ

/--
Takes a program as far as it gets over a channel whose host works whenever it can. With
a host that serves, that is to the end.
-/
def Program.drive {α σ : Type} (b : Backend σ) (site : Site) :
    Program α → Channel σ → Drive α σ
  | .done a, ch => ⟨.finished a, [], ch⟩
  | .log line next, ch =>
    let d := next.drive b site ch
    ⟨d.progress, line :: d.lines, d.channel⟩
  | .call c next, ch =>
    match ch.submit site c with
    | (.settled result, ch) => (next result).drive b site (ch.settle b)
    | (.queued ticket, ch) =>
      let ch := ch.settle b
      match ch.receipt? ticket c with
      | some result => (next result).drive b site ch
      | none => ⟨.waiting c ticket next, [], ch⟩

end ImsProvisioning
