import ImsProvisioning.Proofs.Snapshot.RoundTrip
import ImsProvisioning.Proofs.Snapshot.Streaming

/-! # Two ways to read a text

A text can be parsed as a whole and converted then, or read straight from its tokens. For
constants and settings both ways come to the same. For snapshots they do if no key that
matters is repeated: the parser keeps the last of repeated members, while the other reader
takes them as they come.
-/

namespace ImsProvisioning

open Json (Token Value valuesOf setMember canonicalMembers KeysAscend tokens parseAsWritten)
open ConstantTable (name)

theorem mapError_eq_ok_iff {α ε ε' : Type} {f : ε → ε'} {r : Except ε α} {a : α} :
    r.mapError f = .ok a ↔ r = .ok a := by
  cases r with
  | ok b => constructor <;> rintro ⟨⟩ <;> rfl
  | error e => exact iff_of_false nofun nofun

theorem decodeParsed_eq_ok_iff {α : Type} [JsonReadable α] {text : String} {a : α} :
    decodeParsed text = .ok a ↔
      ∃ doc, parseAsWritten text.toList = some doc ∧
        JsonReadable.ofJson doc.canonical = .ok a := by
  unfold decodeParsed Json.parse
  cases parseAsWritten text.toList with
  | none => simp
  | some doc => simp [mapError_eq_ok_iff]

theorem decodeStreamed_eq_ok_iff {α : Type} [JsonReadable α] {text : String} {a : α} :
    decodeStreamed text = .ok a ↔ JsonReadable.read (tokens text.toList) = .ok (a, []) :=
  Reading.whole_eq_ok_iff

/-- Only a string has a string for its canonical form. -/
theorem Json.Value.canonical_eq_string_iff {v : Value} {s : String} :
    v.canonical = .string s ↔ v = .string s := by
  cases v <;> simp [Value.canonical]

namespace ConstantTable

variable {α : Type} [ConstantTable α] {a : α}

theorem ofName_eq_ok_iff {s : String} : ofName α s = .ok a ↔ name a = s := by
  rw [← ofName?_eq_some_iff, ofName]
  cases ofName? α s <;> simp

theorem ofName_eq_error_iff {s : String} {e : ConstantError} :
    ofName α s = .error e ↔ (∀ a : α, name a ≠ s) ∧ e = .invalidName (kind α) s := by
  rw [ofName]
  cases h : ofName? α s with
  | none =>
    have unknown (a : α) : name a ≠ s := by
      intro ha
      rw [ofName?_eq_some_iff.2 ha] at h
      cases h
    simp [unknown, eq_comm]
  | some a => exact iff_of_false (by simp) fun he => he.1 a (ofName?_eq_some_iff.1 h)

theorem ofJson_eq_ok_iff {v : Value} : ofJson α v = .ok a ↔ v = .string (name a) := by
  cases v with
  | string s =>
    rw [ofJson, mapError_eq_ok_iff, ofName_eq_ok_iff, Value.string.injEq]
    exact eq_comm
  | _ => simp [ofJson]

theorem read_eq_ok_iff {ts rest : List Token} :
    read α ts = .ok (a, rest) ↔
      ∃ ps, ts = .string ps :: rest ∧ Json.text? ps = some (name a) := by
  constructor
  · intro h
    unfold read at h
    split at h
    · rename_i ps ts
      cases hs : Json.text? ps with
      | none => simp [hs] at h
      | some s =>
        cases ha : ofName α s with
        | error e => simp [hs, ha] at h
        | ok b =>
          obtain ⟨rfl, rfl⟩ : b = a ∧ ts = rest := by simpa [hs, ha] using h
          exact ⟨ps, rfl, by rw [hs, ofName_eq_ok_iff.1 ha]⟩
    · cases h
  · rintro ⟨ps, rfl, hs⟩
    simp only [read, hs, ofName_name]

/-- A constant is read from its name alone, however it is escaped. -/
theorem decode_eq_ok_iff (strategy : Strategy) {text : String} :
    decode strategy text = .ok a ↔
      ∃ ps, tokens text.toList = [.string ps] ∧ Json.text? ps = some (name a) := by
  cases strategy with
  | parsed =>
    have hdoc (doc : Value) : JsonReadable.ofJson doc.canonical = .ok a ↔
        doc = .string (name a) :=
      ofJson_eq_ok_iff.trans Value.canonical_eq_string_iff
    rw [decode, decodeParsed_eq_ok_iff]
    simp only [hdoc, exists_eq_right, Json.parseAsWritten_eq_some_iff]
    exact Json.readValue_string (.strict (Json.maxDepth - 1))
  | streamed =>
    rw [decode, decodeStreamed_eq_ok_iff]
    exact read_eq_ok_iff

end ConstantTable

namespace Setting

variable {v : Value} {value : Setting}

theorem ofJson_eq_ok_iff : ofJson v = .ok value ↔ v = value.toJson := by
  constructor
  · intro h
    cases v with
    | string s =>
      obtain rfl := Except.ok.inj h
      rfl
    | number n =>
      cases n with
      | integer n =>
        rw [ofJson] at h
        split at h
        · rename_i range
          obtain rfl := Except.ok.inj h
          rw [Int32.toInt_minValue, Int32.toInt_maxValue] at range
          rw [toJson, Int32.toInt_ofInt_of_le (by omega) (by omega)]
        · cases h
      | real x => cases h
    | _ => cases h
  · rintro rfl
    exact ofJson_toJson value

theorem ofJson_canonical (v : Value) : ofJson v.canonical = ofJson v := by
  cases v <;> simp [Value.canonical, ofJson]

/-- A setting is read from just what it is written as, up to spelling. -/
theorem decode_eq_ok_iff (strategy : Strategy) {text : String} :
    decode strategy text = .ok value ↔ parseAsWritten text.toList = some value.toJson := by
  cases strategy with
  | parsed =>
    have hdoc (doc : Value) : JsonReadable.ofJson doc.canonical = .ok value ↔
        doc = value.toJson := by
      rw [← ofJson_eq_ok_iff, ← ofJson_canonical]
      rfl
    rw [decode, decodeParsed_eq_ok_iff]
    simp only [hdoc, exists_eq_right]
  | streamed =>
    rw [decode, decodeStreamed_eq_ok_iff, Json.parseAsWritten_eq_some_iff]
    change readIn Json.maxDepth (tokens text.toList) = .ok (value, []) ↔ _
    cases hr : Json.readValue (.strict Json.maxDepth) (tokens text.toList) with
    | none => simp [readIn, hr]
    | some r =>
      obtain ⟨v, rest⟩ := r
      rw [readIn_eq hr, Reading.of_eq_ok_iff, ofJson_eq_ok_iff]
      simp

theorem toJson_inj {value' : Setting} : value.toJson = value'.toJson ↔ value = value' := by
  refine ⟨fun h => ?_, congrArg toJson⟩
  rw [← ofJson_eq_ok_iff, ofJson_toJson] at h
  exact Except.ok.inj h

theorem canonical_eq_toJson_iff : v.canonical = value.toJson ↔ v = value.toJson := by
  rw [← ofJson_eq_ok_iff, ofJson_canonical, ofJson_eq_ok_iff]

end Setting

namespace Snapshot

variable {s t : Snapshot} {ms done : List (String × Value)} {v doc : Value}

theorem ofMembers_cons_ok {key : String} :
    ofMembers s ((key, v) :: ms) = .ok t ↔
      ∃ e, (key, v) = member e ∧ ofMembers (s.insert e.1 e.2) ms = .ok t := by
  constructor
  · intro h
    rw [ofMembers] at h
    split at h
    · cases h
    · rename_i item known
      split at h
      · cases h
      · rename_i value hv
        refine ⟨(item, value), ?_, h⟩
        rw [member, ConstantTable.ofName_eq_ok_iff.1 known, Setting.ofJson_eq_ok_iff.1 hv]
  · rintro ⟨e, hm, h⟩
    obtain ⟨rfl, rfl⟩ := Prod.mk.inj hm
    simp only [ofMembers, ConstantTable.ofName_name, Setting.ofJson_toJson, h]

/-- The members are entries, and nothing else. -/
theorem ofMembers_ok_iff : (∃ t, ofMembers s ms = .ok t) ↔ ∀ m ∈ ms, ∃ e, m = member e := by
  induction ms generalizing s with
  | nil => simp [ofMembers]
  | cons m ms ih =>
    obtain ⟨key, v⟩ := m
    simp only [ofMembers_cons_ok, List.forall_mem_cons]
    constructor
    · rintro ⟨t, e, hm, h⟩
      exact ⟨⟨e, hm⟩, ih.1 ⟨t, h⟩⟩
    · rintro ⟨⟨e, hm⟩, hrest⟩
      obtain ⟨t, h⟩ := ih.2 hrest
      exact ⟨t, e, hm, h⟩

/-- Canonical members that list just the entries of a snapshot. -/
structure Lists (done : List (String × Value)) (s : Snapshot) : Prop where
  entries : ∀ m ∈ done, ∃ e, m = member e
  ascend : KeysAscend done
  lookup : ∀ item, done.lookup (name item) = (s.get? item).map Setting.toJson

theorem Lists.insert (h : Lists done s) (e : Item × Setting) :
    Lists (setMember (name e.1) e.2.toJson done) (s.insert e.1 e.2) where
  entries m hm := by
    rcases Json.mem_setMember hm with rfl | hm
    · exact ⟨e, rfl⟩
    · exact h.entries m hm
  ascend := h.ascend.setMember ..
  lookup item := by
    rw [Json.lookup_setMember, h.lookup]
    by_cases he : item = e.1
    · subst he
      rw [if_pos rfl, get?_insert_self]
      rfl
    · rw [if_neg (mt ConstantTable.name_inj.1 he), get?_insert_of_ne he]

theorem Lists.canonicalMembers (h : Lists done s) (hms : ofMembers s ms = .ok t) :
    Lists (canonicalMembers done ms) t := by
  induction ms generalizing done s with
  | nil =>
    obtain rfl := Except.ok.inj hms
    rw [Json.canonicalMembers]
    exact h
  | cons m ms ih =>
    obtain ⟨key, v⟩ := m
    obtain ⟨e, hm, hrest⟩ := ofMembers_cons_ok.1 hms
    obtain ⟨rfl, rfl⟩ := Prod.mk.inj hm
    rw [Json.canonicalMembers, Setting.toJson_canonical]
    exact ih (h.insert e) hrest

theorem exists_map_member (h : ∀ m ∈ ms, ∃ e, m = member e) :
    ∃ es : List (Item × Setting), ms = es.map member := by
  induction ms with
  | nil => exact ⟨[], rfl⟩
  | cons m ms ih =>
    obtain ⟨⟨e, rfl⟩, hrest⟩ := List.forall_mem_cons.1 h
    obtain ⟨es, rfl⟩ := ih hrest
    exact ⟨e :: es, rfl⟩

theorem member_inj {e e' : Item × Setting} : member e = member e' ↔ e = e' := by
  refine ⟨fun h => ?_, congrArg member⟩
  obtain ⟨hname, hvalue⟩ := Prod.mk.inj h
  exact Prod.ext (ConstantTable.name_inj.1 hname) (Setting.toJson_inj.1 hvalue)

theorem items_nodup {es : List (Item × Setting)} (keys : ((es.map member).map Prod.fst).Nodup) :
    (es.map Prod.fst).Nodup := by
  rw [List.map_map, List.Nodup, List.pairwise_map] at keys
  exact List.pairwise_map.2 (keys.imp fun hne he => hne (congrArg name he))

theorem Lists.ofMembers (h : Lists done s) : ofMembers empty done = .ok s := by
  obtain ⟨es, rfl⟩ := exists_map_member h.entries
  have keys := h.ascend.keys_nodup
  rw [ofMembers_map]
  congr 1
  ext item value
  calc (empty.insertAll es).get? item = some value
      ↔ (item, value) ∈ es := get?_insertAll_empty (items_nodup keys)
    _ ↔ member (item, value) ∈ es.map member := by simp [member_inj]
    _ ↔ (es.map member).lookup (name item) = some value.toJson :=
      (Json.lookup_eq_some_iff_mem keys).symm
    _ ↔ s.get? item = some value := by
      rw [h.lookup, Option.map_eq_some_iff]
      simp [Setting.toJson_inj]

theorem Lists.nil : Lists [] empty where
  entries := by simp
  ascend := .nil
  lookup _ := rfl

/-- A map of the items means the same in canonical form. -/
theorem ofValues_canonical (h : ofValues v = .ok s) : ofValues v.canonical = .ok s := by
  cases v with
  | object ms =>
    rw [Value.canonical]
    exact (Lists.nil.canonicalMembers h).ofMembers
  | _ => cases h

/-- No item is named twice in the map. -/
def NamesItemsOnce : Value → Prop
  | .object ms => ∀ item, (valuesOf (name (item : Item)) ms).length ≤ 1
  | _ => True

/-- The map of the items stands in the document once, and names each item once. -/
def IsUnambiguous : Value → Prop
  | .object ms =>
    (valuesOf "values" ms).length ≤ 1 ∧ ∀ v ∈ valuesOf "values" ms, NamesItemsOnce v
  | .array vs => ∀ v ∈ vs, NamesItemsOnce v
  | _ => True

theorem eq_of_length_le_one {α : Type} {a : α} {as : List α} (h : as.length ≤ 1) (ha : a ∈ as) :
    as = [a] := by
  match as with
  | [] => cases ha
  | [b] => rw [List.mem_singleton.1 ha]
  | _ :: _ :: _ => simp at h

/-- A map whose canonical form is one of entries is one of entries, if it names items once. -/
theorem entries_of_canonical (once : NamesItemsOnce (.object ms))
    (h : ofMembers empty (canonicalMembers [] ms) = .ok s) : ∀ m ∈ ms, ∃ e, m = member e := by
  rintro ⟨key, v⟩ hm
  have hmem : v ∈ valuesOf key ms := Json.mem_valuesOf.2 hm
  have hascend : KeysAscend (canonicalMembers [] ms) := KeysAscend.canonicalMembers .nil ms
  have hlookup := Json.lookup_canonicalMembers key [] ms
  rw [List.getLast?_eq_some_getLast (List.ne_nil_of_mem hmem), Option.map_some,
    Option.some_or, Json.lookup_eq_some_iff_mem hascend.keys_nodup] at hlookup
  obtain ⟨e, he⟩ := ofMembers_ok_iff.1 ⟨s, h⟩ _ hlookup
  obtain ⟨rfl, hvalue⟩ := Prod.mk.inj he
  -- The key names an item, so the value that counts is the only one.
  have hone := eq_of_length_le_one (once e.1) hmem
  simp only [hone, List.getLast_singleton, Setting.canonical_eq_toJson_iff] at hvalue
  exact ⟨e, by rw [hvalue]; rfl⟩

theorem ofValues_of_canonical (once : NamesItemsOnce v) (h : ofValues v.canonical = .ok s) :
    ofValues v = .ok s := by
  cases v with
  | object ms =>
    rw [Value.canonical] at h
    obtain ⟨t, ht⟩ := ofMembers_ok_iff.2 (entries_of_canonical once h)
    have hcanonical := (Lists.nil.canonicalMembers ht).ofMembers
    obtain rfl := Except.ok.inj (hcanonical.symm.trans h)
    exact ht
  | _ =>
    simp only [Value.canonical] at h
    cases h

theorem ofJson_object_ok : ofJson (.object ms) = .ok s ↔
    ∃ v, ms.lookup "values" = some v ∧ ofValues v = .ok s := by
  rw [ofJson]
  cases ms.lookup "values" <;> simp

theorem ofJson_array_ok {vs : List Value} :
    ofJson (.array vs) = .ok s ↔ ∃ v, vs = [v] ∧ ofValues v = .ok s := by
  match vs with
  | [] => simp [ofJson]
  | [v] => cases h : ofValues v <;> simp [ofJson, h]
  | v :: _ :: _ => cases h : ofValues v <;> simp [ofJson, h]

theorem canonicalItems_eq_singleton {vs : List Value} {w : Value}
    (h : Json.canonicalItems vs = [w]) : ∃ v, vs = [v] ∧ v.canonical = w := by
  match vs with
  | [] => simp [Json.canonicalItems] at h
  | [v] => exact ⟨v, rfl, by simpa [Json.canonicalItems] using h⟩
  | _ :: _ :: _ => simp [Json.canonicalItems] at h

/-- What is read from a document as it is written, its canonical form gives as well. -/
theorem ofJson_of_written (h : ofWritten doc = .ok s) : ofJson doc.canonical = .ok s := by
  cases doc with
  | object ms =>
    obtain ⟨v, hv, hs⟩ := (ofFields_none s ms).1 h
    rw [Value.canonical, ofJson_object_ok, Json.lookup_canonicalMembers, hv]
    exact ⟨v.canonical, rfl, ofValues_canonical hs⟩
  | array vs =>
    obtain ⟨v, rfl, hs⟩ := ofJson_array_ok.1 h
    rw [Value.canonical, ofJson_array_ok]
    exact ⟨v.canonical, rfl, ofValues_canonical hs⟩
  | _ => cases h

/-- What the canonical form of an unambiguous document gives is read from it as it is written. -/
theorem ofWritten_of_canonical (unambiguous : IsUnambiguous doc)
    (h : ofJson doc.canonical = .ok s) : ofWritten doc = .ok s := by
  cases doc with
  | object ms =>
    rw [Value.canonical, ofJson_object_ok, Json.lookup_canonicalMembers] at h
    obtain ⟨w, hw, hs⟩ := h
    obtain ⟨single, once⟩ := unambiguous
    obtain ⟨v, hv⟩ : ∃ v, valuesOf "values" ms = [v] := by
      cases hvs : valuesOf "values" ms with
      | nil => simp [hvs] at hw
      | cons v vs => exact ⟨v, eq_of_length_le_one (hvs ▸ single) (List.mem_cons_self ..)⟩
    obtain rfl : v.canonical = w := by simpa [hv] using hw
    have hs := ofValues_of_canonical (once v (hv ▸ List.mem_singleton_self v)) hs
    exact (ofFields_none s ms).2 ⟨v, hv, hs⟩
  | array vs =>
    rw [Value.canonical, ofJson_array_ok] at h
    obtain ⟨w, hw, hs⟩ := h
    obtain ⟨v, rfl, rfl⟩ := canonicalItems_eq_singleton hw
    have once := unambiguous v (List.mem_singleton_self v)
    exact ofJson_array_ok.2 ⟨v, rfl, ofValues_of_canonical once hs⟩
  | _ =>
    simp only [Value.canonical] at h
    cases h

end Snapshot

/--
Both ways to read a text give the same constant or setting, if any. A snapshot that is read
straight from the tokens of a JSON text is also what the parsed text is converted to, and the
other way round if neither the map nor an item in it is named twice. Read from a text that does
not parse, it owes that to a member that is skipped.
-/
theorem strategies_agree (text : String) :
    (∀ (α : Type) [ConstantTable α] (a : α),
      decode .streamed text = .ok a ↔ decode .parsed text = .ok a) ∧
    (∀ value : Setting, decode .streamed text = .ok value ↔ decode .parsed text = .ok value) ∧
    (∀ s : Snapshot, decode .streamed text = .ok s → (Json.parse text.toList).isSome →
      decode .parsed text = .ok s) ∧
    (∀ s : Snapshot, decode .parsed text = .ok s →
      (∀ doc, parseAsWritten text.toList = some doc → Snapshot.IsUnambiguous doc) →
      decode .streamed text = .ok s) ∧
    ∀ s : Snapshot, decode .streamed text = .ok s → ¬ (Json.parse text.toList).isSome →
      ∃ ts, tokens text.toList = .openObject :: ts ∧ Snapshot.SkipsLoosely ts := by
  refine ⟨fun α _ a => ?_, fun value => ?_, fun s hs hparse => ?_,
    fun s hs unambiguous => ?_, fun s hs hparse => ?_⟩
  · rw [ConstantTable.decode_eq_ok_iff, ConstantTable.decode_eq_ok_iff]
  · rw [Setting.decode_eq_ok_iff, Setting.decode_eq_ok_iff]
  · rw [Json.parse, Option.isSome_map] at hparse
    obtain ⟨doc, hdoc⟩ := Option.isSome_iff_exists.1 hparse
    have hwritten := (Snapshot.decodeStreamed_ok_iff hdoc).1 hs
    exact decodeParsed_eq_ok_iff.2 ⟨doc, hdoc, Snapshot.ofJson_of_written hwritten⟩
  · obtain ⟨doc, hdoc, hcanonical⟩ := decodeParsed_eq_ok_iff.1 hs
    exact (Snapshot.decodeStreamed_ok_iff hdoc).2
      (Snapshot.ofWritten_of_canonical (unambiguous doc hdoc) hcanonical)
  · rcases Snapshot.readValue_of_read (decodeStreamed_eq_ok_iff.1 hs) with ⟨doc, hdoc⟩ | hloose
    · rw [← Json.parseAsWritten_eq_some_iff] at hdoc
      exact absurd (by rw [Json.parse, hdoc]; rfl) hparse
    · exact hloose

end ImsProvisioning
