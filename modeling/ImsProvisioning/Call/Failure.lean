import ImsProvisioning.Call.Basic
import ImsProvisioning.Text.Outline
import ImsProvisioning.Text.Quoted

/-! # Failures

A call may fail to complete, whatever was asked. The accessor reports that with
the method concerned; the only failure of its own is an answered integer that
stands for no constant.
-/

namespace ImsProvisioning

open ConstantTable (name label)
open Text (Outline quoted)

/-- Why a call did not complete. -/
inductive CallError where
  | disconnected
  | noReply
  | remote (message : String)
  | blockingInRuntime
deriving DecidableEq, Repr

def CallError.message : CallError → String
  | .disconnected => "remote service is disconnected"
  | .noReply => "remote service dropped the call without replying"
  | .remote message => "remote call failed: " ++ message
  | .blockingInRuntime => "blocking call issued from inside a current-thread runtime"

def CallError.outline : CallError → Outline
  | .disconnected => .word "Disconnected"
  | .noReply => .word "NoReply"
  | .remote message => .tuple "Remote" [.word (quoted message)]
  | .blockingInRuntime => .word "BlockingInRuntime"

/-- The reason code of a failed call: the local service could not be reached. -/
def serviceUnavailable : Int32 := 131

/-- Why an operation of the accessor failed. -/
inductive Failure where
  | serviceCall (method : Method) (code : Int32) (cause : CallError)
  | invalidValue (item : Item) (value : Int32)
deriving DecidableEq, Repr

namespace Failure

def ofCall (c : Call) (cause : CallError) : Failure :=
  .serviceCall c.method serviceUnavailable cause

def message : Failure → String
  | .serviceCall method code cause =>
    method.display ++ " failed (code " ++ toString code.toInt ++ "): " ++ cause.message
  | .invalidValue item value =>
    name item ++ " returned out-of-range value " ++ toString value.toInt

def code? : Failure → Option Int32
  | .serviceCall _ code _ => some code
  | .invalidValue _ _ => none

def method? : Failure → Option Method
  | .serviceCall method _ _ => some method
  | .invalidValue _ _ => none

def cause? : Failure → Option CallError
  | .serviceCall _ _ cause => some cause
  | .invalidValue _ _ => none

def outline : Failure → Outline
  | .serviceCall method code cause =>
    .record "ServiceCall"
      [("operation", .word method.label), ("code", .word (toString code.toInt)),
       ("source", cause.outline)] false
  | .invalidValue item value =>
    .record "InvalidValue"
      [("item", .word (label item)), ("value", .word (toString value.toInt))] false

end Failure
end ImsProvisioning
