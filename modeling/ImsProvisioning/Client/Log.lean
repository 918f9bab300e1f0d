import ImsProvisioning.Call.Basic

/-! # The accessor's log

With debug logging on, the accessor logs its calls: some when it makes them,
those that wait for an answer when they are answered.
-/

namespace ImsProvisioning

/-- Whether the call is logged before it is made. -/
def Call.isAnnounced : Call → Bool
  | .setInteger _ _ => true
  | c => !c.isBlocking

inductive LogLine where
  | created
  | requested (c : Call)
  | answered (c : Call) (answer : c.Answer)
  | snapshotRead (count : Nat)

namespace LogLine

def describe (m : Method) (fields : List (String × String)) : String :=
  if fields.isEmpty then m.display
  else m.display ++ ": " ++ ", ".intercalate (fields.map fun f => f.1 ++ " = " ++ f.2)

def requestFields : Call → List (String × String)
  | c@(.setFeature _ _ _ listener) => c.arguments ++ [("listener", toString listener.isSome)]
  | c => c.arguments

def text : LogLine → String
  | .created => "ImsConfig creates"
  | .requested c => describe c.method (requestFields c)
  | .answered c answer => describe c.method (c.arguments ++ [("ret", c.showAnswer answer)])
  | .snapshotRead count => "snapshot(): read " ++ toString count ++ " provisioned items"

end LogLine
end ImsProvisioning
