import ImsProvisioning.Encoding.Constant
import ImsProvisioning.Encoding.Setting
import ImsProvisioning.Snapshot.Basic

/-! # Snapshots in JSON

A snapshot is an object whose member `values` maps item names to settings; an
array with that map as its only item is read as well. Written as a whole, a
snapshot lists its items in code order; the map on its own is an object like any
other, with its keys in order.
-/

namespace ImsProvisioning

open Json (Token Value)

namespace Snapshot

def members (s : Snapshot) : List (String × Value) :=
  s.entries.map fun e => (ConstantTable.name e.1, e.2.toJson)

def toJson (s : Snapshot) : Value := .object [("values", .object s.members)]

/-- The map of the items alone. -/
def valuesJson (s : Snapshot) : Value := (Value.object s.members).canonical

/-- Adds members in their order; of each the key is judged first. -/
def ofMembers : Snapshot → List (String × Value) → Except Mismatch Snapshot
  | s, [] => .ok s
  | s, (key, v) :: ms =>
    match ConstantTable.ofName Item key with
    | .error e => .error (.constant e)
    | .ok item =>
      match Setting.ofJson v with
      | .error e => .error e
      | .ok value => ofMembers (s.insert item value) ms

def ofValues : Value → Except Mismatch Snapshot
  | .object ms => ofMembers empty ms
  | v => .error (wrongType v "a map")

def ofJson : Value → Except Mismatch Snapshot
  | .object ms =>
    match ms.lookup "values" with
    | some v => ofValues v
    | none => .error .noValues
  | .array [] => .error .emptyArray
  | .array (v :: vs) =>
    match ofValues v, vs with
    | .error e, _ => .error e
    | .ok s, [] => .ok s
    | .ok _, _ :: _ => .error (.longArray (vs.length + 1))
  | v => .error (wrongType v "struct ProvisioningSnapshot")

def valueRoom : Nat := Json.maxDepth - 2

/-- Adds the entries from the next key on, up to the end of the map. -/
def readEntries (s : Snapshot) (ts : List Token) : Reading Snapshot :=
  match ts with
  | .string ps :: ts =>
    match Json.text? ps with
    | none => .error .malformed
    | some key =>
      match ConstantTable.ofName Item key, ts with
      | .error e, _ => .error (.mismatch (.constant e))
      | .ok item, .colon :: ts =>
        match _hr : Setting.readIn valueRoom ts with
        | .error e => .error e
        | .ok (value, .comma :: ts) => readEntries (s.insert item value) ts
        | .ok (value, .closeObject :: ts) => .ok (s.insert item value, ts)
        | .ok _ => .error .malformed
      | .ok _, _ => .error .malformed
  | _ => .error .malformed
termination_by ts.length
decreasing_by
  have := Setting.readIn_length _hr
  simp only [List.length_cons] at this ⊢
  omega

def readValues : List Token → Reading Snapshot
  | .openObject :: .closeObject :: ts => .ok (empty, ts)
  | .openObject :: ts => readEntries empty ts
  | ts => .error (wrongStart "a map" ts)

theorem readEntries_length {s t : Snapshot} {ts rest : List Token}
    (h : readEntries s ts = .ok (t, rest)) : rest.length < ts.length := by
  fun_induction readEntries s ts with
  | case4 _ _ _ _ _ _ _ _ _ hr ih =>
    have h₁ := Setting.readIn_length hr
    have h₂ := ih h
    simp only [List.length_cons] at h₁ ⊢
    omega
  | case5 _ _ _ _ _ _ _ _ ts'' hr =>
    have h₁ := Setting.readIn_length hr
    obtain ⟨-, rfl⟩ : _ ∧ ts'' = rest := by simpa using h
    simp only [List.length_cons] at h₁ ⊢
    omega
  | _ => simp at h

theorem readValues_length {s : Snapshot} {ts rest : List Token}
    (h : readValues ts = .ok (s, rest)) : rest.length < ts.length := by
  unfold readValues at h
  split at h
  · obtain ⟨-, rfl⟩ : _ ∧ _ = rest := by simpa using h
    simp only [List.length_cons]
    omega
  · exact Nat.lt_succ_of_lt (readEntries_length h)
  · simp at h

/-- Ends an object in which the map has been found, or has not. -/
def ofFound (found : Option Snapshot) (ts : List Token) : Reading Snapshot :=
  match found with
  | some s => .ok (s, ts)
  | none => .error (.mismatch .noValues)

def readFields (found : Option Snapshot) (ts : List Token) : Reading Snapshot :=
  match ts with
  | .string ps :: ts =>
    match Json.text? ps with
    | none => .error .malformed
    | some key =>
      if key = "values" then
        match found, ts with
        | some _, _ => .error (.mismatch .repeatedValues)
        | none, .colon :: ts =>
          match _hr : readValues ts with
          | .error e => .error e
          | .ok (s, .comma :: ts) => readFields (some s) ts
          | .ok (s, .closeObject :: ts) => .ok (s, ts)
          | .ok _ => .error .malformed
        | none, _ => .error .malformed
      else
        match ts with
        | .colon :: ts =>
          match _hr : Json.readValue .skipping ts with
          | some (_, .comma :: ts) => readFields found ts
          | some (_, .closeObject :: ts) => ofFound found ts
          | _ => .error .malformed
        | _ => .error .malformed
  | _ => .error .malformed
termination_by ts.length
decreasing_by
  · have := readValues_length _hr
    simp only [List.length_cons] at this ⊢
    omega
  · have := Json.readValue_length _hr
    simp only [List.length_cons] at this ⊢
    omega

def read : List Token → Reading Snapshot
  | .openObject :: .closeObject :: ts => ofFound none ts
  | .openObject :: ts => readFields none ts
  | .openArray :: .closeArray :: _ => .error (.mismatch .emptyArray)
  | .openArray :: ts =>
    match readValues ts with
    | .error e => .error e
    | .ok (s, .closeArray :: ts) => .ok (s, ts)
    | .ok _ => .error .malformed
  | ts => .error (wrongStart "struct ProvisioningSnapshot" ts)

instance : JsonReadable Snapshot := ⟨ofJson, read⟩

end Snapshot
end ImsProvisioning
