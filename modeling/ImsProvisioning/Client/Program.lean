import ImsProvisioning.Call.Service
import ImsProvisioning.Client.Log

/-! # Client programs

What a client does is a tree of log lines and calls; after a call it goes on with
the call's result. A program runs over a service to its end, or it is taken one
call at a time by whoever carries the calls.
-/

namespace ImsProvisioning

inductive Program (α : Type) where
  | done (a : α)
  | log (line : LogLine) (next : Program α)
  | call (c : Call) (next : Except CallError c.Answer → Program α)

namespace Program

variable {α β σ : Type}

def bind : Program α → (α → Program β) → Program β
  | .done a, f => f a
  | .log line next, f => .log line (next.bind f)
  | .call c next, f => .call c fun r => (next r).bind f

def map (f : α → β) (p : Program α) : Program β := p.bind fun a => .done (f a)

def logWhen (on : Bool) (line : LogLine) (p : Program α) : Program α :=
  if on then .log line p else p

inductive Event where
  | logged (line : LogLine)
  | called (c : Call)
  | delivered (d : Delivery)

def Event.line? : Event → Option LogLine
  | .logged line => some line
  | _ => none

def Event.call? : Event → Option Call
  | .called c => some c
  | _ => none

def Event.delivery? : Event → Option Delivery
  | .delivered d => some d
  | _ => none

structure Run (α σ : Type) where
  result : α
  state : σ
  trace : List Event

def run (s : Service σ) : Program α → σ → Run α σ
  | .done a, st => ⟨a, st, []⟩
  | .log line next, st =>
    let r := next.run s st
    ⟨r.result, r.state, .logged line :: r.trace⟩
  | .call c next, st =>
    let reply := s c st
    let r := (next reply.result).run s reply.state
    ⟨r.result, r.state, .called c :: reply.deliveries.map .delivered ++ r.trace⟩

theorem run_bind (s : Service σ) (p : Program α) (f : α → Program β) (st : σ) :
    (p.bind f).run s st =
      let r := p.run s st
      let r' := (f r.result).run s r.state
      ⟨r'.result, r'.state, r.trace ++ r'.trace⟩ := by
  induction p generalizing st with
  | done a => rfl
  | log line next ih => simp [bind, run, ih]
  | call c next ih => simp [bind, run, ih]

end Program
end ImsProvisioning
