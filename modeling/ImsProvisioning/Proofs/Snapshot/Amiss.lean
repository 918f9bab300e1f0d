import ImsProvisioning.Proofs.Snapshot.SettingText
import ImsProvisioning.Proofs.Text.ByteOrder

/-! # The least entry that is amiss

A parsed map has its keys in order, each with the last of its values. So the conversion stops
at the least key that is amiss, wherever that stands in the text.
-/

namespace ImsProvisioning.Snapshot

open Json (Value IsText KeysAscend valuesOf canonicalMembers)
open ConstantTable (name)

/-- Why a member is no entry: its key is judged first. -/
inductive Refused : String → Value → Mismatch → Prop
  | key {key : String} {v : Value} (unknown : ∀ item : Item, name item ≠ key) :
      Refused key v (.constant (.invalidName "config item" key))
  | value {key : String} {v : Value} (known : ∃ item : Item, name item = key)
      (other : ∀ value, ¬ Setting.Denoted v value) : Refused key v .noSetting

/-- The last value of the key in the map makes no entry with it. -/
def Amiss (ms : List (String × Value)) (key : String) (e : Mismatch) : Prop :=
  ∃ v, (valuesOf key ms).getLast? = some v ∧ Refused key v e

variable {s : Snapshot} {key : String} {v : Value} {ms fields : List (String × Value)}
  {e e' : Mismatch} {text : String}

theorem Refused.unique (h : Refused key v e) (h' : Refused key v e') : e = e' := by
  cases h with
  | key unknown =>
    cases h' with
    | key => rfl
    | value known => exact absurd known.choose_spec (unknown _)
  | value known =>
    cases h' with
    | key unknown => exact absurd known.choose_spec (unknown _)
    | value => rfl

theorem denoted_canonical {value : Setting} :
    Setting.Denoted v.canonical value ↔ Setting.Denoted v value := by
  rw [Setting.denoted_iff, Setting.denoted_iff, Setting.canonical_eq_toJson_iff]

theorem refused_canonical : Refused key v.canonical e ↔ Refused key v e := by
  constructor
  · intro h
    cases h with
    | key unknown => exact .key unknown
    | value known other => exact .value known fun value h => other value (denoted_canonical.2 h)
  · intro h
    cases h with
    | key unknown => exact .key unknown
    | value known other => exact .value known fun value h => other value (denoted_canonical.1 h)

/-- A member is an entry, or it is refused and nothing behind it is looked at. -/
theorem ofMembers_cons_cases (s : Snapshot) (key : String) (v : Value)
    (ms : List (String × Value)) :
    (∃ e, Refused key v e ∧ ofMembers s ((key, v) :: ms) = .error e) ∨
      ((∀ e, ¬ Refused key v e) ∧
        ∃ t, ofMembers s ((key, v) :: ms) = ofMembers t ms) := by
  cases hkey : ConstantTable.ofName Item key with
  | error e =>
    obtain ⟨unknown, rfl⟩ := ConstantTable.ofName_eq_error_iff.1 hkey
    have hfirst : ofMembers s ((key, v) :: ms) =
        .error (.constant (.invalidName (ConstantTable.kind Item) key)) := by
      simp only [ofMembers, hkey]
    exact .inl ⟨_, .key unknown, hfirst⟩
  | ok item =>
    have known := ConstantTable.ofName_eq_ok_iff.1 hkey
    cases hv : Setting.ofJson v with
    | error e =>
      obtain rfl := Setting.ofJson_error hv
      exact .inl ⟨_, .value ⟨item, known⟩ (Setting.ofJson_eq_error_iff.1 hv),
        by simp only [ofMembers, hkey, hv]⟩
    | ok value =>
      refine .inr ⟨fun e refused => ?_, s.insert item value, by simp only [ofMembers, hkey, hv]⟩
      cases refused with
      | key unknown => exact unknown item known
      | value _ other =>
        exact other value (Setting.denoted_iff.2 (Setting.ofJson_eq_ok_iff.1 hv))

/-- Of members in order the least that is refused decides. -/
theorem least_of_ofMembers (keys : KeysAscend ms) (h : ofMembers s ms = .error e) :
    ∃ key v, (key, v) ∈ ms ∧ Refused key v e ∧
      ∀ key' v' e', (key', v') ∈ ms → Refused key' v' e' → key' = key ∨ key < key' := by
  induction ms generalizing s with
  | nil => cases h
  | cons m ms ih =>
    obtain ⟨key, v⟩ := m
    obtain ⟨least, keys⟩ := List.pairwise_cons.1 keys
    rcases ofMembers_cons_cases s key v ms with ⟨e', refused, hfirst⟩ | ⟨entry, t, hrest⟩
    · obtain rfl := Except.error.inj (hfirst.symm.trans h)
      refine ⟨key, v, List.mem_cons_self .., refused, fun key' v' e'' hm _ => ?_⟩
      rcases List.mem_cons.1 hm with hm | hm
      · exact .inl (Prod.mk.inj hm).1
      · exact .inr (least _ hm)
    · obtain ⟨key', v', hm, refused, hleast⟩ := ih keys (hrest.symm.trans h)
      refine ⟨key', v', List.mem_cons_of_mem _ hm, refused, fun key'' v'' e'' hm' refused' => ?_⟩
      rcases List.mem_cons.1 hm' with hm' | hm'
      · obtain ⟨rfl, rfl⟩ := Prod.mk.inj hm'
        exact absurd refused' (entry e'')
      · exact hleast key'' v'' e'' hm' refused'

theorem not_refused_of_ofMembers {t : Snapshot} (h : ofMembers s ms = .ok t)
    (hm : (key, v) ∈ ms) : ¬ Refused key v e := by
  obtain ⟨entry, hentry⟩ := ofMembers_ok_iff.1 ⟨t, h⟩ (key, v) hm
  obtain ⟨rfl, rfl⟩ := Prod.mk.inj hentry
  intro refused
  cases refused with
  | key unknown => exact unknown entry.1 rfl
  | value _ other => exact other entry.2 (Setting.denoted_iff.2 rfl)

theorem mem_canonicalMembers_iff :
    (key, v) ∈ canonicalMembers [] ms ↔
      ∃ w, (valuesOf key ms).getLast? = some w ∧ w.canonical = v := by
  have keys := (KeysAscend.canonicalMembers .nil ms).keys_nodup
  rw [← Json.lookup_eq_some_iff_mem keys, Json.lookup_canonicalMembers]
  simp

/-- The members of the parsed map that are refused are those that are amiss in the text. -/
theorem amiss_iff : Amiss ms key e ↔ ∃ v, (key, v) ∈ canonicalMembers [] ms ∧ Refused key v e := by
  simp only [Amiss, mem_canonicalMembers_iff]
  constructor
  · rintro ⟨v, last, refused⟩
    exact ⟨v.canonical, ⟨v, last, rfl⟩, refused_canonical.2 refused⟩
  · rintro ⟨_, ⟨v, last, rfl⟩, refused⟩
    exact ⟨v, last, refused_canonical.1 refused⟩

theorem decodeParsed_object (htext : IsText text.toList (.object fields))
    (hmap : (valuesOf "values" fields).getLast? = some (.object ms)) :
    decodeParsed text = (ofMembers empty (canonicalMembers [] ms)).mapError .mismatch := by
  have hlookup : (canonicalMembers [] fields).lookup "values" =
      some (.object (canonicalMembers [] ms)) := by
    rw [Json.lookup_canonicalMembers, hmap]
    simp [Value.canonical]
  have hofJson : ofJson (Value.object fields).canonical =
      ofMembers empty (canonicalMembers [] ms) := by
    rw [Value.canonical, ofJson, hlookup]
    rfl
  rw [Json.isText_iff] at htext
  rw [decodeParsed, Json.parse, htext]
  exact congrArg (Except.mapError DecodeError.mismatch) hofJson

theorem amiss_least_unique {k k' : String} (h : Amiss ms k e) (h' : Amiss ms k' e')
    (least : ∀ key e, Amiss ms key e → key = k ∨ Text.bytes k < Text.bytes key)
    (least' : ∀ key e, Amiss ms key e → key = k' ∨ Text.bytes k' < Text.bytes key) : e = e' := by
  have hk : k = k' := by
    rcases least' k e h with hk | hlt
    · exact hk
    · rcases least k' e' h' with hk | hlt'
      · exact hk.symm
      · exact absurd hlt' (List.lt_asymm hlt)
  subst hk
  obtain ⟨v, last, refused⟩ := h
  obtain ⟨v', last', refused'⟩ := h'
  obtain rfl := Option.some.inj (last.symm.trans last')
  exact refused.unique refused'

/-- The conversion of a parsed map fails for the least key amiss, in the order of the bytes. -/
theorem decodeParsed_object_error_iff (htext : IsText text.toList (.object fields))
    (hmap : (valuesOf "values" fields).getLast? = some (.object ms)) :
    (decodeParsed text : Except DecodeError Snapshot) = .error (.mismatch e) ↔
      ∃ key, Amiss ms key e ∧
        ∀ key' e', Amiss ms key' e' → key' = key ∨ Text.bytes key < Text.bytes key' := by
  have keys : KeysAscend (canonicalMembers [] ms) := KeysAscend.canonicalMembers .nil ms
  have hleast {e : Mismatch} (h : ofMembers empty (canonicalMembers [] ms) = .error e) :
      ∃ key, Amiss ms key e ∧
        ∀ key' e', Amiss ms key' e' → key' = key ∨ Text.bytes key < Text.bytes key' := by
    obtain ⟨key, v, hm, refused, least⟩ := least_of_ofMembers keys h
    refine ⟨key, amiss_iff.2 ⟨v, hm, refused⟩, fun key' e' amiss => ?_⟩
    obtain ⟨v', hm', refused'⟩ := amiss_iff.1 amiss
    exact (least key' v' e' hm' refused').imp_right Text.bytes_lt
  rw [decodeParsed_object htext hmap]
  cases h : ofMembers empty (canonicalMembers [] ms) with
  | ok s =>
    refine iff_of_false nofun ?_
    rintro ⟨key, amiss, -⟩
    obtain ⟨v, hm, refused⟩ := amiss_iff.1 amiss
    exact not_refused_of_ofMembers h hm refused
  | error e' =>
    obtain ⟨key', amiss', least'⟩ := hleast h
    constructor
    · intro he
      obtain rfl := DecodeError.mismatch.inj (Except.error.inj he)
      exact ⟨key', amiss', least'⟩
    · rintro ⟨key, amiss, least⟩
      rw [amiss_least_unique amiss amiss' least least']
      rfl

theorem decodeParsed_object_ok_iff (htext : IsText text.toList (.object fields))
    (hmap : (valuesOf "values" fields).getLast? = some (.object ms)) :
    (∃ s : Snapshot, decodeParsed text = .ok s) ↔ ∀ key e, ¬ Amiss ms key e := by
  have heq := decodeParsed_object htext hmap
  cases h : ofMembers empty (canonicalMembers [] ms) with
  | ok s =>
    rw [h] at heq
    refine iff_of_true ⟨s, heq⟩ fun key e amiss => ?_
    obtain ⟨v, hm, refused⟩ := amiss_iff.1 amiss
    exact not_refused_of_ofMembers h hm refused
  | error e =>
    rw [h] at heq
    obtain ⟨key, amiss, -⟩ := (decodeParsed_object_error_iff htext hmap).1 heq
    refine iff_of_false ?_ fun none => none key e amiss
    rintro ⟨s, hs⟩
    cases heq.symm.trans hs

end ImsProvisioning.Snapshot
