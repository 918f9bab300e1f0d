import ImsProvisioning.Encoding.Snapshot
import ImsProvisioning.Proofs.Json.Canonical
import ImsProvisioning.Proofs.Json.Nesting

/-! # Reading straight from the tokens

On tokens that a strict reader takes, reading straight from them judges the values as they
are written, in the order of the text, and leaves the tokens that follow.
-/

namespace ImsProvisioning

open Json (Token Value Items Members readValue valuesOf)

def Reading.of {α : Type} (result : Except Mismatch α) (rest : List Token) : Reading α :=
  match result with
  | .ok a => .ok (a, rest)
  | .error e => .error (.mismatch e)

theorem Reading.of_eq_ok_iff {α : Type} {result : Except Mismatch α} {rest rest' : List Token}
    {a : α} : Reading.of result rest = .ok (a, rest') ↔ result = .ok a ∧ rest = rest' := by
  cases result <;> simp [Reading.of]

theorem Reading.whole_eq_ok_iff {α : Type} {r : Reading α} {a : α} :
    r.whole = .ok a ↔ r = .ok (a, []) := by
  rcases r with e | ⟨b, _ | ⟨t, ts⟩⟩ <;> simp [Reading.whole]

def Reading.behind {α : Type} (t : Token) (more last : Reading α) : Reading α :=
  match t with
  | .comma => more
  | .closeObject => last
  | _ => .error .malformed

variable {ts rest : List Token} {v : Value}

/-- Tokens of another type are named after their value. -/
theorem wrongStart_eq {room : Nat} (expected : String)
    (h : readValue (.strict (room + 1)) ts = some (v, rest)) :
    wrongStart expected ts = .mismatch (wrongType v expected) := by
  cases ts with
  | nil => cases h
  | cons t ts =>
    cases t with
    | openArray =>
      obtain ⟨-, rfl⟩ | ⟨vs, -, rfl⟩ := Json.readValue_openArray (.strict room) h <;> rfl
    | openObject =>
      obtain ⟨-, rfl⟩ | ⟨ms, -, rfl⟩ := Json.readValue_openObject (.strict room) h <;> rfl
    | number l =>
      obtain ⟨henter, -⟩ := Json.readValue_scalar (by simp) (by simp) h
      obtain ⟨n, hn, hv⟩ := Option.map_eq_some_iff.1 henter
      obtain rfl : .number n = v := by simpa [Json.ReadState.put] using hv
      simp only [Json.Mode.number?] at hn
      simp only [wrongStart, hn]
    | string ps =>
      obtain ⟨henter, -⟩ := Json.readValue_scalar (by simp) (by simp) h
      obtain ⟨s, hs, hv⟩ := Option.map_eq_some_iff.1 henter
      obtain rfl : .string s = v := by simpa [Json.ReadState.put] using hv
      simp only [Json.Mode.text?] at hs
      simp only [wrongStart, hs]
    | null | bool =>
      obtain ⟨henter, -⟩ := Json.readValue_scalar (by simp) (by simp) h
      obtain rfl := Json.ReadState.done.inj (Option.some.inj henter)
      rfl
    | _ => cases h

namespace Setting

theorem readValue_of_readIn {room : Nat} {value : Setting}
    (h : readIn room ts = .ok (value, rest)) :
    ∃ v, readValue (.strict room) ts = some (v, rest) := by
  unfold readIn at h
  split at h
  · cases h
  · rename_i v ts' hv
    split at h
    · obtain ⟨-, rfl⟩ : _ ∧ ts' = rest := by simpa using h
      exact ⟨v, hv⟩
    · cases h

theorem readIn_eq {room : Nat} (h : readValue (.strict room) ts = some (v, rest)) :
    readIn room ts = .of (ofJson v) rest := by
  simp only [readIn, h]
  cases ofJson v <;> rfl

end Setting

namespace Snapshot

variable {ms : List (String × Value)} {ps : List Json.Piece} {key : String} {t : Token}

/-- Of an entry whose value is complete the key, the value and the next token are judged. -/
theorem readEntries_cons (s : Snapshot) (name : Json.text? ps = some key)
    (value : readValue (.strict valueRoom) ts = some (v, t :: rest)) :
    readEntries s (.string ps :: .colon :: ts) =
      match ConstantTable.ofName Item key, Setting.ofJson v with
      | .error e, _ => .error (.mismatch (.constant e))
      | .ok _, .error e => .error (.mismatch e)
      | .ok item, .ok value =>
        .behind t (readEntries (s.insert item value) rest) (.ok (s.insert item value, rest)) := by
  have hread := Setting.readIn_eq value
  rw [readEntries]
  simp only [name]
  cases ConstantTable.ofName Item key with
  | error e => rfl
  | ok item =>
    dsimp only
    cases hv : Setting.ofJson v with
    | error e =>
      rw [hv, Reading.of] at hread
      split <;> simp_all
    | ok value =>
      rw [hv, Reading.of] at hread
      cases t <;> (split <;> simp_all [Reading.behind])

/-- Entries that are well-formed are judged one after the other. -/
theorem readEntries_eq (h : Members (.strict valueRoom) ts ms rest) (s : Snapshot) :
    readEntries s ts = .of (ofMembers s ms) rest := by
  induction h generalizing s with
  | @last _ _ _ key v name value =>
    rw [readEntries_cons s name value, ofMembers]
    cases ConstantTable.ofName Item key with
    | error e => rfl
    | ok item => cases Setting.ofJson v <;> rfl
  | @more _ _ _ _ key v _ name value _ ih =>
    rw [readEntries_cons s name value, ofMembers]
    cases ConstantTable.ofName Item key with
    | error e => rfl
    | ok item =>
      cases Setting.ofJson v with
      | error e => rfl
      | ok value => exact ih _

/-- The map of the items, if it is well-formed, is judged as a value. -/
theorem readValues_eq (h : readValue (.strict (valueRoom + 1)) ts = some (v, rest)) :
    readValues ts = .of (ofValues v) rest := by
  cases ts with
  | nil => cases h
  | cons t ts =>
    by_cases ht : t = .openObject
    · subst ht
      rcases Json.readValue_openObject (.strict valueRoom) h with ⟨rfl, rfl⟩ | ⟨ms, hms, rfl⟩
      · rfl
      · have hread := readEntries_eq hms empty
        rw [readValues, hread]
        · rfl
        · rintro ts' rfl
          cases hms
    · have hread : readValues (t :: ts) = .error (wrongStart "a map" (t :: ts)) := by
        cases t <;> first | exact absurd rfl ht | rfl
      have hv : ofValues v = .error (wrongType v "a map") := by
        cases v with
        | object ms => exact absurd (Json.first_of_object (.strict valueRoom) h) ht
        | _ => rfl
      rw [hread, wrongStart_eq "a map" h, hv]
      rfl

/-- The map that the members hold, each judged in its turn. -/
def ofFields : Option Snapshot → List (String × Value) → Except Mismatch Snapshot
  | found, [] =>
    match found with
    | some s => .ok s
    | none => .error .noValues
  | found, (key, v) :: ms =>
    if key = "values" then
      match found, ofValues v with
      | some _, _ => .error .repeatedValues
      | none, .error e => .error e
      | none, .ok s => ofFields (some s) ms
    else ofFields found ms

theorem ofFields_cons (found : Option Snapshot) (key : String) (v : Value)
    (ms : List (String × Value)) :
    ofFields found ((key, v) :: ms) =
      if key = "values" then
        match found, ofValues v with
        | some _, _ => .error .repeatedValues
        | none, .error e => .error e
        | none, .ok s => ofFields (some s) ms
      else ofFields found ms := rfl

theorem readFields_cons (found : Option Snapshot) (name : Json.text? ps = some key)
    (value : readValue (.strict (valueRoom + 1)) ts = some (v, t :: rest)) :
    readFields found (.string ps :: .colon :: ts) =
      if key = "values" then
        match found, ofValues v with
        | some _, _ => .error (.mismatch .repeatedValues)
        | none, .error e => .error (.mismatch e)
        | none, .ok s => .behind t (readFields (some s) rest) (.ok (s, rest))
      else .behind t (readFields found rest) (ofFound found rest) := by
  conv =>
    lhs
    unfold readFields
  simp only [name]
  by_cases hkey : key = "values"
  · rw [if_pos hkey, if_pos hkey]
    have hread := readValues_eq value
    cases found with
    | some s => rfl
    | none =>
      dsimp only
      cases hv : ofValues v with
      | error e =>
        rw [hv, Reading.of] at hread
        split <;> simp_all
      | ok s =>
        rw [hv, Reading.of] at hread
        cases t <;> (split <;> simp_all [Reading.behind])
  · rw [if_neg hkey, if_neg hkey]
    have hread := Json.readValue_skipping value
    cases t <;> (split <;> simp_all [Reading.behind])

theorem readFields_eq (h : Members (.strict (valueRoom + 1)) ts ms rest)
    (found : Option Snapshot) : readFields found ts = .of (ofFields found ms) rest := by
  induction h generalizing found with
  | @last _ _ _ key v name value =>
    rw [readFields_cons found name value, ofFields_cons]
    by_cases hkey : key = "values"
    · rw [if_pos hkey, if_pos hkey]
      cases found with
      | some s => rfl
      | none => cases ofValues v <;> rfl
    · rw [if_neg hkey, if_neg hkey]
      cases found <;> rfl
  | @more _ _ _ _ key v _ name value _ ih =>
    rw [readFields_cons found name value, ofFields_cons]
    by_cases hkey : key = "values"
    · rw [if_pos hkey, if_pos hkey]
      cases found with
      | some s => rfl
      | none =>
        cases ofValues v with
        | error e => rfl
        | ok s => exact ih _
    · rw [if_neg hkey, if_neg hkey]
      exact ih _

theorem ofFields_some (s t : Snapshot) (ms : List (String × Value)) :
    ofFields (some s) ms = .ok t ↔ valuesOf "values" ms = [] ∧ s = t := by
  induction ms with
  | nil => simp [ofFields, valuesOf]
  | cons m ms ih =>
    obtain ⟨key, v⟩ := m
    rw [ofFields_cons, Json.valuesOf_cons]
    split
    · simp
    · exact ih

/-- The map is found if just one member has its key. -/
theorem ofFields_none (t : Snapshot) (ms : List (String × Value)) :
    ofFields none ms = .ok t ↔ ∃ v, valuesOf "values" ms = [v] ∧ ofValues v = .ok t := by
  induction ms with
  | nil => simp [ofFields, valuesOf]
  | cons m ms ih =>
    obtain ⟨key, v⟩ := m
    rw [ofFields_cons, Json.valuesOf_cons]
    split
    · have hone : (∃ w, v :: valuesOf "values" ms = [w] ∧ ofValues w = .ok t) ↔
          valuesOf "values" ms = [] ∧ ofValues v = .ok t := by
        simp [and_assoc]
      rw [hone]
      cases hv : ofValues v with
      | error e => simp
      | ok s => simp [ofFields_some]
    · exact ih

/-- What a snapshot is read as straight from the tokens of a document. -/
def ofWritten : Value → Except Mismatch Snapshot
  | .object ms => ofFields none ms
  | v => ofJson v

theorem read_openArray {vs : List Value} (h : Items (.strict (valueRoom + 1)) ts vs rest) :
    read (.openArray :: ts) =
      match readValues ts with
      | .error e => .error e
      | .ok (s, .closeArray :: ts) => .ok (s, ts)
      | .ok _ => .error .malformed := by
  cases ts with
  | nil => rfl
  | cons t ts =>
    cases t with
    | closeArray => exact absurd rfl h.ne_closeArray
    | _ => rfl

/-- A document is judged as it is written, unless it is an array with too many items. -/
theorem read_eq (h : readValue (.strict Json.maxDepth) ts = some (v, rest))
    (short : ∀ u w vs, v ≠ .array (u :: w :: vs)) : read ts = .of (ofWritten v) rest := by
  -- Of a longer array the comma is refused, whereas `ofJson` counts the items.
  cases ts with
  | nil => cases h
  | cons t ts =>
    by_cases hobject : t = .openObject
    · subst hobject
      rcases Json.readValue_openObject (.strict (valueRoom + 1)) h with ⟨rfl, rfl⟩ | ⟨ms, hms, rfl⟩
      · rfl
      · have hread := readFields_eq hms none
        rw [read, hread]
        · rfl
        · rintro ts' rfl
          cases hms
    by_cases harray : t = .openArray
    · subst harray
      rcases Json.readValue_openArray (.strict (valueRoom + 1)) h with ⟨rfl, rfl⟩ | ⟨vs, hvs, rfl⟩
      · rfl
      · rw [read_openArray hvs]
        cases hvs with
        | @last _ _ w value =>
          rw [readValues_eq value]
          cases hw : ofValues w <;> simp only [Reading.of, ofWritten, ofJson, hw]
        | more _ items => cases items <;> exact absurd rfl (short _ _ _)
    · have hread : read (t :: ts) =
          .error (wrongStart "struct ProvisioningSnapshot" (t :: ts)) := by
        cases t <;> first | exact absurd rfl hobject | exact absurd rfl harray | rfl
      have hv : ofWritten v = .error (wrongType v "struct ProvisioningSnapshot") := by
        cases v with
        | object ms => exact absurd (Json.first_of_object (.strict (valueRoom + 1)) h) hobject
        | array vs => exact absurd (Json.first_of_array (.strict (valueRoom + 1)) h) harray
        | _ => rfl
      rw [hread, wrongStart_eq _ h, hv]
      rfl

theorem ofWritten_long (u w : Value) (vs : List Value) (s : Snapshot) :
    ofWritten (.array (u :: w :: vs)) ≠ .ok s := by
  simp only [ofWritten, ofJson]
  cases ofValues u <;> simp

theorem read_long {u w : Value} {vs : List Value} (s : Snapshot) (rest' : List Token)
    (h : readValue (.strict Json.maxDepth) ts = some (.array (u :: w :: vs), rest)) :
    read ts ≠ .ok (s, rest') := by
  cases ts with
  | nil => cases h
  | cons t ts =>
    obtain rfl := Json.first_of_array (.strict (valueRoom + 1)) h
    rcases Json.readValue_openArray (.strict (valueRoom + 1)) h with ⟨-, hv⟩ | ⟨_, hvs, hv⟩
    · cases hv
    · rw [read_openArray hvs]
      cases hvs with
      | last => cases hv
      | @more _ _ _ u' _ value items =>
        rw [readValues_eq value]
        cases ofValues u' <;> simp [Reading.of]

/-- Of tokens that a strict reader takes, the document decides what is read. -/
theorem read_ok_iff {s : Snapshot} {rest' : List Token}
    (h : readValue (.strict Json.maxDepth) ts = some (v, rest)) :
    read ts = .ok (s, rest') ↔ ofWritten v = .ok s ∧ rest = rest' := by
  by_cases short : ∀ u w vs, v ≠ .array (u :: w :: vs)
  · rw [read_eq h short, Reading.of_eq_ok_iff]
  · obtain ⟨u, w, vs, rfl⟩ : ∃ u w vs, v = .array (u :: w :: vs) := by
      simpa using short
    exact iff_of_false (read_long s rest' h) fun hw => ofWritten_long u w vs s hw.1

theorem members_of_readEntries {s t : Snapshot} (h : readEntries s ts = .ok (t, rest)) :
    ∃ ms, Members (.strict valueRoom) ts ms rest := by
  fun_induction readEntries s ts with
  | case4 _ ps key name item _ ts value ts' hr ih =>
    obtain ⟨v, hv⟩ := Setting.readValue_of_readIn hr
    obtain ⟨ms, hms⟩ := ih h
    exact ⟨_, .more name hv hms⟩
  | case5 _ ps key name item _ ts value ts' hr =>
    obtain ⟨-, rfl⟩ : _ ∧ ts' = rest := by simpa using h
    obtain ⟨v, hv⟩ := Setting.readValue_of_readIn hr
    exact ⟨_, .last name hv⟩
  | _ => simp at h

theorem readValue_of_readValues {s : Snapshot} (h : readValues ts = .ok (s, rest)) :
    ∃ v, readValue (.strict (valueRoom + 1)) ts = some (v, rest) := by
  unfold readValues at h
  split at h
  · obtain ⟨-, rfl⟩ : _ ∧ _ = rest := by simpa using h
    exact ⟨.object [], Json.readValue_emptyObject (.strict valueRoom) _⟩
  · obtain ⟨ms, hms⟩ := members_of_readEntries h
    exact ⟨.object ms, Json.readValue_of_members hms⟩
  · cases h

/-- Some member is skipped although a strict reader refuses its value. -/
inductive SkipsLoosely : List Token → Prop
  | here {ps : List Json.Piece} {ts : List Token} {key : String} {r : Value × List Token}
      (name : Json.text? ps = some key) (other : key ≠ "values")
      (skipped : readValue .skipping ts = some r)
      (refused : readValue (.strict (valueRoom + 1)) ts = none) :
      SkipsLoosely (.string ps :: .colon :: ts)
  | later {ps : List Json.Piece} {ts ts' : List Token} {v : Value}
      (value : readValue .skipping ts = some (v, .comma :: ts')) (members : SkipsLoosely ts') :
      SkipsLoosely (.string ps :: .colon :: ts)

theorem members_or_skips_more {ts' : List Token} (name : Json.text? ps = some key)
    (value : readValue (.strict (valueRoom + 1)) ts = some (v, .comma :: ts'))
    (h : (∃ ms, Members (.strict (valueRoom + 1)) ts' ms rest) ∨ SkipsLoosely ts') :
    (∃ ms, Members (.strict (valueRoom + 1)) (.string ps :: .colon :: ts) ms rest) ∨
      SkipsLoosely (.string ps :: .colon :: ts) := by
  rcases h with ⟨ms, hms⟩ | hloose
  · exact .inl ⟨_, .more name value hms⟩
  · exact .inr (.later (Json.readValue_skipping value) hloose)

/-- Fields that are read are members of an object, unless one of them is skipped too easily. -/
theorem members_of_readFields {found : Option Snapshot} {s : Snapshot}
    (h : readFields found ts = .ok (s, rest)) :
    (∃ ms, Members (.strict (valueRoom + 1)) ts ms rest) ∨ SkipsLoosely ts := by
  fun_induction readFields found ts with
  | case4 ps ts s' ts' hr name ih =>
    obtain ⟨v, hv⟩ := readValue_of_readValues hr
    exact members_or_skips_more name hv (ih h)
  | case5 ps ts s' ts' hr name =>
    obtain ⟨-, rfl⟩ : _ ∧ ts' = rest := by simpa using h
    obtain ⟨v, hv⟩ := readValue_of_readValues hr
    exact .inl ⟨_, .last name hv⟩
  | case8 found ps key name other ts v ts' hr ih =>
    cases hv : readValue (.strict (valueRoom + 1)) ts with
    | none => exact .inr (.here name other hr hv)
    | some r =>
      obtain rfl := Option.some.inj ((Json.readValue_skipping hv).symm.trans hr)
      exact members_or_skips_more name hv (ih h)
  | case9 found ps key name other ts v ts' hr =>
    cases hv : readValue (.strict (valueRoom + 1)) ts with
    | none => exact .inr (.here name other hr hv)
    | some r =>
      obtain rfl := Option.some.inj ((Json.readValue_skipping hv).symm.trans hr)
      cases found with
      | none => cases h
      | some s' =>
        obtain ⟨-, rfl⟩ : s' = s ∧ ts' = rest := by simpa [ofFound] using h
        exact .inl ⟨_, .last name hv⟩
  | _ => simp at h

/-- What is read straight from some tokens, a strict reader takes as well, unless a member of the
outer object is skipped too easily. -/
theorem readValue_of_read {s : Snapshot} (h : read ts = .ok (s, rest)) :
    (∃ v, readValue (.strict Json.maxDepth) ts = some (v, rest)) ∨
      ∃ ts', ts = .openObject :: ts' ∧ SkipsLoosely ts' := by
  unfold read at h
  split at h
  · cases h
  · rename_i ts _
    rcases members_of_readFields h with ⟨ms, hms⟩ | hloose
    · exact .inl ⟨_, Json.readValue_of_members hms⟩
    · exact .inr ⟨ts, rfl, hloose⟩
  · cases h
  · split at h
    · cases h
    · rename_i hr
      obtain ⟨v, hv⟩ := readValue_of_readValues hr
      obtain ⟨-, rfl⟩ : _ ∧ _ = rest := by simpa using h
      exact .inl ⟨_, Json.readValue_of_items (.last hv)⟩
    · cases h
  · cases h

theorem decodeStreamed_ok_iff {text : String} {doc : Value} {s : Snapshot}
    (h : Json.parseAsWritten text.toList = some doc) :
    decodeStreamed text = .ok s ↔ ofWritten doc = .ok s := by
  have hread := Json.parseAsWritten_eq_some_iff.1 h
  rw [decodeStreamed, Reading.whole_eq_ok_iff]
  exact (read_ok_iff hread).trans (and_iff_left rfl)

end Snapshot
end ImsProvisioning
