import ImsProvisioning.Json.Number
import ImsProvisioning.Decimal.Shortest
import ImsProvisioning.Text.Quoted

/-! # JSON values

The values of a JSON text. An object keeps its members as they are written; its
canonical form has one member to a key, the last one written, in the order of
the keys.
-/

namespace ImsProvisioning.Json

inductive Value where
  | null
  | bool (b : Bool)
  | number (n : Number)
  | string (s : String)
  | array (items : List Value)
  | object (members : List (String × Value))

/-- Sets a member of an object; keys are in ascending order, and the last value set stays. -/
def setMember (key : String) (v : Value) : List (String × Value) → List (String × Value)
  | [] => [(key, v)]
  | (k, w) :: ms =>
    if key = k then (key, v) :: ms
    else if key < k then (key, v) :: (k, w) :: ms
    else (k, w) :: setMember key v ms

mutual

/-- The value with every object in canonical form. -/
def Value.canonical : Value → Value
  | .array items => .array (canonicalItems items)
  | .object members => .object (canonicalMembers [] members)
  | v => v

def canonicalItems : List Value → List Value
  | [] => []
  | v :: vs => v.canonical :: canonicalItems vs

def canonicalMembers (done : List (String × Value)) :
    List (String × Value) → List (String × Value)
  | [] => done
  | (key, v) :: ms => canonicalMembers (setMember key v.canonical done) ms

end

/-- Floating-point numbers are written out up to sixteen places. -/
def numberLayout : Decimal.Layout := ⟨16, 4⟩

def Number.text : Number → String
  | .integer n => toString n
  | .real x => numberLayout.writeFloat x

def Value.description : Value → String
  | .null => "null"
  | .bool b => "boolean `" ++ toString b ++ "`"
  | .number (.integer n) => "integer `" ++ toString n ++ "`"
  | .number (.real x) => "floating point `" ++ (Number.real x).text ++ "`"
  | .string s => "string " ++ Text.quoted s
  | .array _ => "sequence"
  | .object _ => "map"

end ImsProvisioning.Json
