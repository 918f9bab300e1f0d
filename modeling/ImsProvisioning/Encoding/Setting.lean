import ImsProvisioning.Encoding.Mismatch
import ImsProvisioning.Setting
import ImsProvisioning.Json.Writer

/-! # Settings in JSON

An integer setting is a number, a text setting a string. Which of them it is shows
in the JSON alone; the item it is meant for has no say in it.
-/

namespace ImsProvisioning

open Json (Token Value)

namespace Setting

def toJson : Setting → Value
  | .integer n => .number (.integer n.toInt)
  | .text s => .string s

def ofJson : Value → Except Mismatch Setting
  | .string s => .ok (.text s)
  | .number (.integer n) =>
    if Int32.minValue.toInt ≤ n ∧ n ≤ Int32.maxValue.toInt then .ok (.integer (Int32.ofInt n))
    else .error .noSetting
  | _ => .error .noSetting

/-- The value is read to its end before it is judged. -/
def readIn (room : Nat) (ts : List Token) : Reading Setting :=
  match Json.readValue (.strict room) ts with
  | none => .error .malformed
  | some (v, ts) =>
    match ofJson v with
    | .ok s => .ok (s, ts)
    | .error e => .error (.mismatch e)

def read (ts : List Token) : Reading Setting := readIn Json.maxDepth ts

instance : JsonReadable Setting := ⟨ofJson, read⟩

theorem readIn_length {room : Nat} {ts rest : List Token} {s : Setting}
    (h : readIn room ts = .ok (s, rest)) : rest.length < ts.length := by
  unfold readIn at h
  split at h
  · simp at h
  · rename_i v ts' hv
    split at h
    · obtain ⟨rfl, rfl⟩ : _ = s ∧ _ = rest := by simpa using h
      exact Json.readValue_length hv
    · simp at h

end Setting
end ImsProvisioning
