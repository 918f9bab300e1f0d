import ImsProvisioning.Constant.Basic
import ImsProvisioning.Json.Reader

/-! # What a JSON text may have wrong

A text that is read as a domain value may be malformed, or be JSON that does not
fit. A value is read either from a document that has been parsed as a whole or
straight from the tokens; in the second case whatever is wrong first decides.
-/

namespace ImsProvisioning

open Json (Token Value)

/-- Why a JSON value is not the domain value that is asked for. -/
inductive Mismatch where
  | wrongType (found expected : String)
  | constant (e : ConstantError)
  | noSetting
  | unknownKind (name : String)
  | notOneKey
  | noValues
  | repeatedValues
  | emptyArray
  | longArray (length : Nat)
deriving DecidableEq, Repr

def Mismatch.message : Mismatch → String
  | .wrongType found expected => "invalid type: " ++ found ++ ", expected " ++ expected
  | .constant e => e.message
  | .noSetting => "data did not match any variant of untagged enum ProvisionedValue"
  | .unknownKind name => "unknown variant `" ++ name ++ "`, expected `Integer` or `String`"
  | .notOneKey => "invalid value: map, expected map with a single key"
  | .noValues => "missing field `values`"
  | .repeatedValues => "duplicate field `values`"
  | .emptyArray => "invalid length 0, expected struct ProvisioningSnapshot with 1 element"
  | .longArray length =>
    "invalid length " ++ toString length ++ ", expected fewer elements in array"

inductive DecodeError where
  | malformed
  | mismatch (m : Mismatch)
deriving DecidableEq, Repr

/-- What is read off the front of some tokens, with the tokens that follow it. -/
abbrev Reading (α : Type) := Except DecodeError (α × List Token)

def wrongType (v : Value) (expected : String) : Mismatch := .wrongType v.description expected

/--
The error of tokens that begin with a value of another type: a scalar is read first, a
container is not looked into.
-/
def wrongStart (expected : String) : List Token → DecodeError
  | .null :: _ => .mismatch (wrongType .null expected)
  | .bool b :: _ => .mismatch (wrongType (.bool b) expected)
  | .number l :: _ =>
    match l.value? with
    | some n => .mismatch (wrongType (.number n) expected)
    | none => .malformed
  | .string ps :: _ =>
    match Json.text? ps with
    | some s => .mismatch (wrongType (.string s) expected)
    | none => .malformed
  | .openArray :: _ => .mismatch (wrongType (.array []) expected)
  | .openObject :: _ => .mismatch (wrongType (.object []) expected)
  | _ => .malformed

/-- Nothing may follow what is read from a whole text. -/
def Reading.whole {α : Type} : Reading α → Except DecodeError α
  | .ok (a, []) => .ok a
  | .ok (_, _ :: _) => .error .malformed
  | .error e => .error e

/--
The two ways to read a domain value: from the value of the whole text, or straight from its
tokens.
-/
inductive Strategy where
  | parsed
  | streamed
deriving DecidableEq, Repr

class JsonReadable (α : Type) where
  ofJson : Value → Except Mismatch α
  read : List Token → Reading α

variable {α : Type} [JsonReadable α]

def decodeParsed (text : String) : Except DecodeError α :=
  match Json.parse text.toList with
  | none => .error .malformed
  | some v => (JsonReadable.ofJson v).mapError .mismatch

def decodeStreamed (text : String) : Except DecodeError α :=
  (JsonReadable.read (Json.tokens text.toList)).whole

def decode : Strategy → String → Except DecodeError α
  | .parsed, text => decodeParsed text
  | .streamed, text => decodeStreamed text

end ImsProvisioning
