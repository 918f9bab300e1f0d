import ImsProvisioning.Encoding.Mismatch
import ImsProvisioning.Constant.Item
import ImsProvisioning.Json.Writer

/-! # Constants in JSON

A constant is written as its name. The kind of a setting is written as its name
too, and may also be read from an object with that name as its only key.
-/

namespace ImsProvisioning

open Json (Token Value)

namespace ConstantTable

variable {α : Type} [ConstantTable α]

def toJson (a : α) : Value := .string (name a)

def ofJson (α : Type) [ConstantTable α] : Value → Except Mismatch α
  | .string s => (ofName α s).mapError .constant
  | v => .error (wrongType v "a string")

/-- A name is judged before the tokens behind it are looked at. -/
def read (α : Type) [ConstantTable α] : List Token → Reading α
  | .string ps :: ts =>
    match Json.text? ps with
    | none => .error .malformed
    | some s =>
      match ofName α s with
      | .ok a => .ok (a, ts)
      | .error e => .error (.mismatch (.constant e))
  | ts => .error (wrongStart "a string" ts)

instance : JsonReadable α := ⟨ofJson α, read α⟩

end ConstantTable

namespace SettingKind

def ofName (s : String) : Except Mismatch SettingKind :=
  if s = SettingKind.integer.name then .ok .integer
  else if s = SettingKind.text.name then .ok .text
  else .error (.unknownKind s)

def toJson (k : SettingKind) : Value := .string k.name

def ofJson : Value → Except Mismatch SettingKind
  | .string s => ofName s
  | .object [(key, content)] =>
    match ofName key, content with
    | .error e, _ => .error e
    | .ok k, .null => .ok k
    | .ok _, v => .error (wrongType v "unit")
  | .object _ => .error .notOneKey
  | v => .error (wrongType v "string or map")

def readContent (k : SettingKind) : List Token → Reading SettingKind
  | .null :: .closeObject :: ts => .ok (k, ts)
  | .null :: _ => .error .malformed
  | ts => .error (wrongStart "unit" ts)

def readName (ps : List Json.Piece) (ts : List Token) : Reading SettingKind :=
  match Json.text? ps with
  | none => .error .malformed
  | some s =>
    match ofName s with
    | .ok k => .ok (k, ts)
    | .error e => .error (.mismatch e)

def read : List Token → Reading SettingKind
  | .string ps :: ts => readName ps ts
  | .openObject :: .string ps :: ts =>
    match readName ps ts with
    | .ok (k, .colon :: ts) => readContent k ts
    | .ok _ => .error .malformed
    | .error e => .error e
  | _ => .error .malformed

instance : JsonReadable SettingKind := ⟨ofJson, read⟩

end SettingKind
end ImsProvisioning
