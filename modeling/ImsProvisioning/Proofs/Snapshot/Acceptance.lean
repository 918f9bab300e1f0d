import ImsProvisioning.Proofs.Snapshot.Strategies

/-! # What is accepted as a snapshot

A parsed document is accepted as a snapshot if and only if it holds a map of settings under
names of items. The snapshot has just the entries of that map; whatever else stands in the
document makes no difference.
-/

namespace ImsProvisioning

open Json (Value valuesOf canonicalMembers KeysAscend)
open ConstantTable (name)

/-- A JSON value that stands for a setting: a string, or an integer of 32 bits. -/
inductive Setting.Denoted : Value → Setting → Prop
  | text (s : String) : Denoted (.string s) (.text s)
  | integer (n : Int) (low : -2147483648 ≤ n) (high : n ≤ 2147483647) :
      Denoted (.number (.integer n)) (.integer (.ofInt n))

theorem Setting.denoted_iff {v : Value} {value : Setting} :
    Denoted v value ↔ v = value.toJson := by
  constructor
  · rintro (s | ⟨n, low, high⟩)
    · rfl
    · rw [toJson, Int32.toInt_ofInt_of_le low (by omega)]
  · rintro rfl
    cases value with
    | text s => exact .text s
    | integer n =>
      have low := n.minValue_le_toInt
      have high := n.toInt_le
      rw [Int32.toInt_minValue] at low
      rw [Int32.toInt_maxValue] at high
      have h := Denoted.integer n.toInt (by omega) (by omega)
      rwa [Int32.ofInt_toInt] at h

/-- The objects in a value in canonical form have their keys in order. -/
theorem Json.Value.keysAscend_of_canonical {v : Value} {ms : List (String × Value)}
    (h : v.canonical = .object ms) : KeysAscend ms := by
  cases v with
  | object members =>
    rw [Value.canonical, Value.object.injEq] at h
    exact h ▸ KeysAscend.canonicalMembers .nil members
  | _ => simp [Value.canonical] at h

namespace Snapshot

variable {s : Snapshot} {j v doc : Value} {ms : List (String × Value)}
  {es : List (Item × Setting)}

/-- The document holds this map: as the member `values`, or as the only item of an array. -/
inductive HoldsMap : Value → List (String × Value) → Prop
  | member {members ms : List (String × Value)} (h : ("values", .object ms) ∈ members) :
      HoldsMap (.object members) ms
  | item (ms : List (String × Value)) : HoldsMap (.array [.object ms]) ms

/-- A document that holds a map is converted as the map is. -/
theorem HoldsMap.ofJson_eq (h : HoldsMap doc.canonical ms) :
    ofJson doc.canonical = ofMembers empty ms := by
  generalize hj : doc.canonical = j at h
  cases h with
  | member hm =>
    have keys := (Value.keysAscend_of_canonical hj).keys_nodup
    rw [ofJson, (Json.lookup_eq_some_iff_mem keys).2 hm]
    rfl
  | item => cases h : ofMembers empty ms <;> simp [ofJson, ofValues, h]

theorem holdsMap_of_ok (h : ofJson doc.canonical = .ok s) : ∃ ms, HoldsMap doc.canonical ms := by
  have ofValues_ok {v : Value} (hv : ofValues v = .ok s) : ∃ ms, v = .object ms := by
    cases v with
    | object ms => exact ⟨ms, rfl⟩
    | _ => cases hv
  generalize hj : doc.canonical = j at h
  cases j with
  | object members =>
    have keys := (Value.keysAscend_of_canonical hj).keys_nodup
    obtain ⟨v, hv, hs⟩ := ofJson_object_ok.1 h
    obtain ⟨ms, rfl⟩ := ofValues_ok hs
    exact ⟨ms, .member ((Json.lookup_eq_some_iff_mem keys).1 hv)⟩
  | array vs =>
    obtain ⟨v, rfl, hs⟩ := ofJson_array_ok.1 h
    obtain ⟨ms, rfl⟩ := ofValues_ok hs
    exact ⟨ms, .item ms⟩
  | _ => cases h

/-- The map in a parsed document has distinct keys. -/
theorem HoldsMap.keys_nodup (h : HoldsMap doc.canonical ms) : (ms.map Prod.fst).Nodup := by
  suffices hw : ∃ w : Value, w.canonical = .object ms by
    obtain ⟨w, hw⟩ := hw
    exact (Value.keysAscend_of_canonical hw).keys_nodup
  generalize hj : doc.canonical = j at h
  cases h with
  | @member members _ hm =>
    cases doc with
    | object written =>
      rw [Value.canonical, Value.object.injEq] at hj
      have keys := (KeysAscend.canonicalMembers .nil written).keys_nodup
      rw [← hj, ← Json.lookup_eq_some_iff_mem keys, Json.lookup_canonicalMembers] at hm
      obtain ⟨w, -, hw⟩ : ∃ w, (valuesOf "values" written).getLast? = some w ∧
          w.canonical = .object ms := by simpa using hm
      exact ⟨w, hw⟩
    | _ => simp [Value.canonical] at hj
  | item =>
    cases doc with
    | array written =>
      rw [Value.canonical, Value.array.injEq] at hj
      obtain ⟨w, -, hw⟩ := canonicalItems_eq_singleton hj
      exact ⟨w, hw⟩
    | _ => simp [Value.canonical] at hj

theorem mem_map_member {e : Item × Setting} : member e ∈ es.map member ↔ e ∈ es := by
  simp [member_inj]

theorem settings_iff :
    (∀ key v, (key, v) ∈ ms → ∃ item value, key = name (item : Item) ∧ Setting.Denoted v value) ↔
      ∀ m ∈ ms, ∃ e, m = member e := by
  simp only [Setting.denoted_iff]
  constructor
  · rintro h ⟨key, v⟩ hm
    obtain ⟨item, value, rfl, rfl⟩ := h key v hm
    exact ⟨(item, value), rfl⟩
  · intro h key v hm
    obtain ⟨⟨item, value⟩, he⟩ := h _ hm
    obtain ⟨rfl, rfl⟩ := Prod.mk.inj he
    exact ⟨item, value, rfl, rfl⟩

/-- What members are converted to is filled with the entries that they are. -/
theorem entries_of_ofMembers (h : ofMembers empty ms = .ok s) :
    ∃ es : List (Item × Setting), ms = es.map member ∧ s = empty.insertAll es := by
  obtain ⟨es, rfl⟩ := exists_map_member (ofMembers_ok_iff.1 ⟨s, h⟩)
  rw [ofMembers_map] at h
  exact ⟨es, rfl, (Except.ok.inj h).symm⟩

theorem nodup_of_items (items : (es.map Prod.fst).Nodup) : es.Nodup :=
  (List.pairwise_map.1 items).imp fun hne he => hne (congrArg Prod.fst he)

/-- The entries of a snapshot filled from nothing are those it was filled with. -/
theorem entries_insertAll_perm (items : (es.map Prod.fst).Nodup) :
    (empty.insertAll es).entries.Perm es := by
  rw [List.perm_ext_iff_of_nodup (nodup_of_items (entries_nodup _)) (nodup_of_items items)]
  rintro ⟨item, value⟩
  rw [mem_entries, get?_insertAll_empty items]

/--
A parsed document is converted to a snapshot just when it holds a map whose keys name items and
whose values are texts or integers in range, whatever kind an item declares. The snapshot has the
entries of that map and no others. Every other document is a mismatch.
-/
theorem conversion_accepts_format (doc : Value) :
    let j := doc.canonical
    ((∃ s, ofJson j = .ok s) ↔
      ∃ ms, HoldsMap j ms ∧ ∀ key v, (key, v) ∈ ms →
        ∃ item value, key = name (item : Item) ∧ Setting.Denoted v value) ∧
    (∀ s ms, ofJson j = .ok s → HoldsMap j ms →
      s.size = ms.length ∧
      (∀ item value, s.get? item = some value ↔
        ∃ v, (name item, v) ∈ ms ∧ Setting.Denoted v value) ∧
      ∀ item, name item ∉ ms.map Prod.fst → s.get? item = none) ∧
    (∀ members others, j = .object members →
      others.lookup "values" = members.lookup "values" →
      ofJson (.object others) = ofJson j) ∧
    ∀ text, Json.parse text.toList = some j →
      (∃ s, ofJson j = .ok s ∧ decode .parsed text = .ok s) ∨
      ∃ e, ofJson j = .error e ∧
        decode .parsed text = (.error (.mismatch e) : Except DecodeError Snapshot) := by
  intro j
  refine ⟨⟨?_, ?_⟩, ?_, ?_, ?_⟩
  · rintro ⟨s, hs⟩
    obtain ⟨ms, hms⟩ := holdsMap_of_ok hs
    rw [hms.ofJson_eq] at hs
    exact ⟨ms, hms, settings_iff.2 (ofMembers_ok_iff.1 ⟨s, hs⟩)⟩
  · rintro ⟨ms, hms, settings⟩
    rw [hms.ofJson_eq]
    exact ofMembers_ok_iff.2 (settings_iff.1 settings)
  · intro s ms hs hms
    rw [hms.ofJson_eq] at hs
    obtain ⟨es, rfl, rfl⟩ := entries_of_ofMembers hs
    have items := items_nodup hms.keys_nodup
    have hget (item : Item) (value : Setting) :
        (empty.insertAll es).get? item = some value ↔
          (name item, value.toJson) ∈ es.map member := by
      rw [get?_insertAll_empty items, ← mem_map_member]
      rfl
    refine ⟨?_, fun item value => ?_, fun item absent => ?_⟩
    · rw [size, (entries_insertAll_perm items).length_eq, List.length_map]
    · simp only [hget, Setting.denoted_iff, exists_eq_right]
    · rw [Option.eq_none_iff_forall_ne_some]
      intro value h
      exact absent (List.mem_map_of_mem ((hget item value).1 h))
  · intro members others hj same
    rw [hj, ofJson, ofJson, same]
  · intro text hparse
    rw [decode, decodeParsed, hparse]
    cases hs : ofJson j with
    | ok s => exact .inl ⟨s, rfl, congrArg (Except.mapError DecodeError.mismatch) hs⟩
    | error e => exact .inr ⟨e, rfl, congrArg (Except.mapError DecodeError.mismatch) hs⟩

end Snapshot
end ImsProvisioning
