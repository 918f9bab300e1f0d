import ImsProvisioning.Proofs.Snapshot.SettingText

/-! # Offences in the text of a snapshot

The reader that takes a snapshot straight from a text stops at the first thing wrong. If that
is a key or a value that does not belong there, what follows is not looked at.
-/

namespace ImsProvisioning.Snapshot

open Json (Value Token MemberPart Part IsSpaces Spells Names Denotes EndsBefore separated
  separated_cons spells_toList_iff tokens readValue)
open ConstantTable (name)

structure IsEntry (m : MemberPart) : Prop where
  spells : Spells m.key m.name.toList
  known : ∃ item : Item, name item = m.name
  text : Denotes (.strict valueRoom) m.part.text m.part.value
  setting : ∃ value, Setting.Denoted m.part.value value

/-- The text of a member up to the end of its value. -/
def upToValue (m : MemberPart) : List Char :=
  m.before ++ '"' :: (m.key ++ '"' :: (m.after ++ ':' :: (m.part.before ++ m.part.text)))

/-- The text ends with the first offence among the entries, with that text behind it. -/
inductive EntryOffends : List Char → List Char → Mismatch → Prop
  | key {sp w rest : List Char} {s : String} (front : IsSpaces sp) (spells : Spells w s.toList)
      (unknown : ∀ item : Item, name item ≠ s) :
      EntryOffends (sp ++ '"' :: (w ++ ['"'])) rest (.constant (.invalidName "config item" s))
  | value {m : MemberPart} {rest : List Char} (spells : Spells m.key m.name.toList)
      (known : ∃ item : Item, name item = m.name)
      (text : Denotes (.strict valueRoom) m.part.text m.part.value)
      (other : ∀ value, ¬ Setting.Denoted m.part.value value) (ends : EndsBefore m.part.text rest) :
      EntryOffends (upToValue m) rest .noSetting
  | later {m : MemberPart} {o rest : List Char} {e : Mismatch} (entry : IsEntry m)
      (offends : EntryOffends o rest e) : EntryOffends (m.padded ++ ',' :: o) rest e

section Reading

variable {s : Snapshot} {m : MemberPart} {ts rest : List Token} {v : Value} {ps : List Json.Piece}
  {key : String}

theorem readEntries_key (name : Json.text? ps = some key) {e : ConstantError}
    (unknown : ConstantTable.ofName Item key = .error e) :
    readEntries s (.string ps :: ts) = .error (.mismatch (.constant e)) := by
  rw [readEntries]
  simp only [name, unknown]

/-- An entry whose value is no setting is refused at the end of the value. -/
theorem readEntries_value {item : Item} (hname : Json.text? ps = some (name item))
    (value : readValue (.strict valueRoom) ts = some (v, rest))
    (other : Setting.ofJson v = .error .noSetting) :
    readEntries s (.string ps :: .colon :: ts) = .error (.mismatch .noSetting) := by
  have hread := Setting.readIn_eq value
  rw [other, Reading.of] at hread
  rw [readEntries]
  simp only [hname, ConstantTable.ofName_name]
  split <;> simp_all

variable {cs w : List Char} {o r : List Char} {e : Mismatch}

/-- Behind an entry the next one is read, or the map is complete. -/
theorem readEntries_entry (entry : IsEntry m) (s : Snapshot) :
    ∃ s', ∀ cs, readEntries s (tokens (m.padded ++ ',' :: cs)) = readEntries s' (tokens cs) ∧
      readEntries s (tokens (m.padded ++ '\x7d' :: cs)) = .ok (s', tokens cs) := by
  obtain ⟨spells, ⟨item, known⟩, text, ⟨value, denoted⟩⟩ := entry
  obtain ⟨ps, body, hname⟩ := spells_toList_iff.1 spells
  rw [← known] at hname
  rw [Setting.denoted_iff] at denoted
  refine ⟨s.insert item value, fun cs => ⟨?_, ?_⟩⟩
  · rw [MemberPart.tokens_padded body,
      readEntries_cons s hname (Part.readValue_comma text.reads cs), ConstantTable.ofName_name,
      denoted, Setting.ofJson_toJson]
    rfl
  · rw [MemberPart.tokens_padded body,
      readEntries_cons s hname (Part.readValue_closeObject text.reads cs),
      ConstantTable.ofName_name, denoted, Setting.ofJson_toJson]
    rfl

theorem readEntries_offends (h : EntryOffends o r e) (s : Snapshot) :
    readEntries s (tokens (o ++ r)) = .error (.mismatch e) := by
  induction h generalizing s with
  | @key sp w rest key front spells unknown =>
    obtain ⟨ps, body, hname⟩ := spells_toList_iff.1 spells
    simp only [List.append_assoc, List.cons_append, List.nil_append, Json.tokens_spaces front,
      Json.tokens_string body]
    exact readEntries_key hname (ConstantTable.ofName_eq_error_iff.2 ⟨unknown, rfl⟩)
  | @value m rest spells known text other ends =>
    obtain ⟨ps, body, hname⟩ := spells_toList_iff.1 spells
    obtain ⟨item, known⟩ := known
    rw [← known] at hname
    simp only [upToValue, List.append_assoc, List.cons_append, Json.tokens_spaces m.front,
      Json.tokens_string body, Json.tokens_spaces m.back, Json.tokens_colon]
    have hvalue := text.reads rest ends
    rw [← Json.tokens_spaces m.part.front] at hvalue
    exact readEntries_value hname hvalue (Setting.ofJson_eq_error_iff.2 other)
  | @later m o rest e entry _ ih =>
    obtain ⟨s', hs'⟩ := readEntries_entry entry s
    rw [List.append_assoc, List.cons_append, (hs' _).1]
    exact ih s'

/-- A key and a value that are read stand in the text as the beginning of a member. -/
theorem exists_upToValue {mode : Json.Mode} (hcs : tokens cs = .string ps :: .colon :: ts)
    (hname : Json.text? ps = some key) (value : readValue mode ts = some (v, rest)) :
    ∃ (m : MemberPart) (r : List Char), cs = upToValue m ++ r ∧ m.name = key ∧
      Spells m.key m.name.toList ∧ m.part.value = v ∧ Denotes mode m.part.text m.part.value ∧
      EndsBefore m.part.text r := by
  obtain ⟨sp, w, sp', r, rfl, front, back, body, rfl⟩ := Json.exists_key hcs
  obtain ⟨sp₁, w₁, r, rfl, front₁, denotes, ends, -⟩ := Json.stands_of_readValue value
  exact ⟨⟨sp, w, key, sp', ⟨sp₁, w₁, [], v, front₁, Json.isSpaces_nil⟩, front, back⟩, r,
    by simp [upToValue], rfl, spells_toList_iff.2 ⟨_, body, hname⟩, rfl, denotes, ends⟩

/-- A key and a value that are read stand in the text as a member in front of the next token. -/
theorem exists_member {mode : Json.Mode} {t : Token}
    (hcs : tokens cs = .string ps :: .colon :: ts) (hname : Json.text? ps = some key)
    (value : readValue mode ts = some (v, t :: rest)) (good : t ≠ .bad) :
    ∃ (m : MemberPart) (w r : List Char), cs = m.padded ++ (w ++ r) ∧ m.name = key ∧
      Spells m.key m.name.toList ∧ m.part.value = v ∧ Denotes mode m.part.text m.part.value ∧
      Json.TokenText t w ∧ rest = tokens r := by
  obtain ⟨m, w, r, rfl, rfl, body, rfl, denotes, text, rfl⟩ := Json.exists_member hcs
    (fun r _ he => Json.stands_of_readValue (he ▸ value)) good key
  exact ⟨m, w, r, rfl, rfl, spells_toList_iff.2 ⟨_, body, hname⟩, rfl, denotes, text, rfl⟩

theorem exists_of_readIn {room : Nat} {result : Reading Setting}
    (h : Setting.readIn room ts = result) (hne : result ≠ .error .malformed) :
    ∃ v rest, readValue (.strict room) ts = some (v, rest) ∧
      result = Reading.of (Setting.ofJson v) rest := by
  cases hv : readValue (.strict room) ts with
  | none =>
    rw [Setting.readIn, hv] at h
    exact absurd h.symm hne
  | some r => exact ⟨r.1, r.2, rfl, h.symm.trans (Setting.readIn_eq hv)⟩

/-- An entry that is read stands in the text in front of the next token. -/
theorem exists_entry {t : Token} {item : Item} {value : Setting}
    (hcs : tokens cs = .string ps :: .colon :: ts) (hname : Json.text? ps = some key)
    (known : ConstantTable.ofName Item key = .ok item)
    (hr : Setting.readIn valueRoom ts = .ok (value, t :: rest)) (good : t ≠ .bad) :
    ∃ (m : MemberPart) (w r : List Char), cs = m.padded ++ (w ++ r) ∧ IsEntry m ∧
      Json.TokenText t w ∧ rest = tokens r := by
  obtain ⟨v, rest', hv, hresult⟩ := exists_of_readIn hr (by simp)
  obtain ⟨hsetting, rfl⟩ := Reading.of_eq_ok_iff.1 hresult.symm
  obtain ⟨m, w, r, rfl, rfl, spells, rfl, denotes, text, rfl⟩ := exists_member hcs hname hv good
  have known := ConstantTable.ofName_eq_ok_iff.1 known
  have denoted := Setting.denoted_iff.2 (Setting.ofJson_eq_ok_iff.1 hsetting)
  exact ⟨m, w, r, rfl, ⟨spells, ⟨item, known⟩, denotes, ⟨value, denoted⟩⟩, text, rfl⟩

/-- Entries that are read stand in the text, up to the end of the map. -/
theorem entries_of_readEntries {t : Snapshot} (h : readEntries s (tokens cs) = .ok (t, rest)) :
    ∃ parts r, parts ≠ [] ∧ cs = separated (parts.map MemberPart.padded) ++ '\x7d' :: r ∧
      (∀ m ∈ parts, IsEntry m) ∧ rest = tokens r := by
  generalize hts : tokens cs = ts at h
  fun_induction readEntries s ts generalizing cs with
  | case4 s ps key name item ts known value ts' hr ih =>
    obtain ⟨m, _, r, rfl, entry, ⟨⟩, rfl⟩ := exists_entry hts name known hr (by simp)
    obtain ⟨parts, r, nonempty, rfl, entries, rfl⟩ := ih rfl h
    exact ⟨m :: parts, r, by simp, (separated_cons nonempty _).symm,
      by simpa using ⟨entry, entries⟩, rfl⟩
  | case5 s ps key name item ts known value ts' hr =>
    obtain ⟨-, rfl⟩ : _ ∧ ts' = rest := by simpa using h
    obtain ⟨m, _, r, rfl, entry, ⟨⟩, rfl⟩ := exists_entry hts name known hr (by simp)
    exact ⟨[m], r, by simp, rfl, by simpa using entry, rfl⟩
  | _ => cases h

/-- A mismatch among the entries is the first offence in the text. -/
theorem offends_of_readEntries (h : readEntries s (tokens cs) = .error (.mismatch e)) :
    ∃ o r, cs = o ++ r ∧ EntryOffends o r e := by
  generalize hts : tokens cs = ts at h
  fun_induction readEntries s ts generalizing cs with
  | case2 s ps ts key name e' refused =>
    obtain ⟨sp, _, r, rfl, spaces, text, -, rfl⟩ := (Json.tokens_eq_cons_iff (by simp)).1 hts
    obtain rfl := DecodeError.mismatch.inj (Except.error.inj h)
    obtain ⟨unknown, rfl⟩ := ConstantTable.ofName_eq_error_iff.1 refused
    cases text with
    | string body =>
      exact ⟨_, r, by simp, .key spaces (spells_toList_iff.2 ⟨_, body, name⟩) unknown⟩
  | case3 s ps key name item ts known e' hr =>
    obtain rfl := Except.error.inj h
    obtain ⟨v, rest, hv, hresult⟩ := exists_of_readIn hr (by simp)
    obtain ⟨m, r, rfl, rfl, spells, rfl, denotes, ends⟩ := exists_upToValue hts name hv
    cases hs : Setting.ofJson m.part.value with
    | ok value => simp [hs, Reading.of] at hresult
    | error e' =>
      rw [hs, Reading.of] at hresult
      obtain rfl := DecodeError.mismatch.inj (Except.error.inj hresult)
      obtain rfl := Setting.ofJson_error hs
      exact ⟨_, r, rfl, .value spells ⟨item, ConstantTable.ofName_eq_ok_iff.1 known⟩ denotes
        (Setting.ofJson_eq_error_iff.1 hs) ends⟩
  | case4 s ps key name item ts known value ts' hr ih =>
    obtain ⟨m, _, r, rfl, entry, ⟨⟩, rfl⟩ := exists_entry hts name known hr (by simp)
    obtain ⟨o, r, rfl, offends⟩ := ih rfl h
    exact ⟨_, r, by simp, .later entry offends⟩
  | _ => cases h

end Reading

/-- A field of the document besides the map, whose value is only skipped. -/
structure IsField (m : MemberPart) : Prop where
  spells : Spells m.key m.name.toList
  other : m.name ≠ "values"
  text : Denotes .skipping m.part.text m.part.value

/-- The text of fields behind the map ends with a second key of the map. -/
inductive FieldOffends : List Char → Prop
  | again {sp w : List Char} (front : IsSpaces sp) (spells : Spells w "values".toList) :
      FieldOffends (sp ++ '"' :: (w ++ ['"']))
  | later {m : MemberPart} {o : List Char} (field : IsField m) (offends : FieldOffends o) :
      FieldOffends (m.padded ++ ',' :: o)

section Fields

variable {s t : Snapshot} {m : MemberPart} {ts rest : List Token} {cs o : List Char} {e : Mismatch}

/-- Behind a field the next one is read, or the object is complete. -/
theorem readFields_field (field : IsField m) (found : Option Snapshot) (cs : List Char) :
    readFields found (tokens (m.padded ++ ',' :: cs)) = readFields found (tokens cs) ∧
      readFields found (tokens (m.padded ++ '\x7d' :: cs)) = ofFound found (tokens cs) := by
  obtain ⟨spells, other, text⟩ := field
  obtain ⟨ps, body, hname⟩ := spells_toList_iff.1 spells
  have hmore := Part.readValue_comma text.reads cs
  have hlast := Part.readValue_closeObject text.reads cs
  constructor
  · rw [MemberPart.tokens_padded body]
    conv =>
      lhs
      unfold readFields
    simp only [hname, if_neg other]
    split <;> simp_all
  · rw [MemberPart.tokens_padded body]
    unfold readFields
    simp only [hname, if_neg other]
    split <;> simp_all

theorem readFields_again {ps : List Json.Piece} (hname : Json.text? ps = some "values")
    (s : Snapshot) (ts : List Token) :
    readFields (some s) (.string ps :: ts) = .error (.mismatch .repeatedValues) := by
  unfold readFields
  simp only [hname, if_true]

theorem readFields_offends (h : FieldOffends o) (s : Snapshot) (r : List Char) :
    readFields (some s) (tokens (o ++ r)) = .error (.mismatch .repeatedValues) := by
  induction h with
  | again front spells =>
    obtain ⟨ps, body, hname⟩ := spells_toList_iff.1 spells
    simp only [List.append_assoc, List.cons_append, List.nil_append, Json.tokens_spaces front,
      Json.tokens_string body]
    exact readFields_again hname s _
  | later field _ ih =>
    rw [List.append_assoc, List.cons_append, (readFields_field field _ _).1]
    exact ih

theorem fields_of_readFields (h : readFields (some s) (tokens cs) = .ok (t, rest)) :
    ∃ parts r, parts ≠ [] ∧ cs = separated (parts.map MemberPart.padded) ++ '\x7d' :: r ∧
      (∀ m ∈ parts, IsField m) ∧ rest = tokens r := by
  generalize hts : tokens cs = ts at h
  generalize hfound : some s = found at h
  fun_induction readFields found ts generalizing cs with
  | case8 found ps key name other ts v ts' hr ih =>
    obtain ⟨m, _, r, rfl, rfl, spells, rfl, text, ⟨⟩, rfl⟩ := exists_member hts name hr (by simp)
    obtain ⟨parts, r, nonempty, rfl, fields, rfl⟩ := ih rfl hfound h
    exact ⟨m :: parts, r, by simp, (separated_cons nonempty _).symm,
      by simpa using ⟨⟨spells, other, text⟩, fields⟩, rfl⟩
  | case9 found ps key name other ts v ts' hr =>
    subst hfound
    obtain ⟨-, rfl⟩ : s = t ∧ ts' = rest := by simpa [ofFound] using h
    obtain ⟨m, _, r, rfl, rfl, spells, rfl, text, ⟨⟩, rfl⟩ := exists_member hts name hr (by simp)
    exact ⟨[m], r, by simp, rfl, by simpa using ⟨spells, other, text⟩, rfl⟩
  | case3 | case4 | case5 | case6 => cases hfound
  | _ => cases h

theorem offends_of_readFields (h : readFields (some s) (tokens cs) = .error (.mismatch e)) :
    e = .repeatedValues ∧ ∃ o r, cs = o ++ r ∧ FieldOffends o := by
  generalize hts : tokens cs = ts at h
  generalize hfound : some s = found at h
  fun_induction readFields found ts generalizing cs with
  | case2 ps ts s' name =>
    obtain ⟨sp, _, r, rfl, spaces, text, -, rfl⟩ := (Json.tokens_eq_cons_iff (by simp)).1 hts
    obtain rfl := DecodeError.mismatch.inj (Except.error.inj h)
    cases text with
    | string body => exact ⟨rfl, _, r, by simp, .again spaces (spells_toList_iff.2 ⟨_, body, name⟩)⟩
  | case8 found ps key name other ts v ts' hr ih =>
    obtain ⟨m, _, r, rfl, rfl, spells, rfl, text, ⟨⟩, rfl⟩ := exists_member hts name hr (by simp)
    obtain ⟨rfl, o, r, rfl, offends⟩ := ih rfl hfound h
    exact ⟨rfl, _, r, by simp, .later ⟨spells, other, text⟩ offends⟩
  | case9 found ps key name other ts v ts' hr =>
    subst hfound
    cases h
  | case3 | case4 | case5 | case6 => cases hfound
  | _ => cases h

end Fields

/-- The text of a map of settings behind its brace. -/
inductive IsMap : List Char → Prop
  | empty {sp : List Char} (spaces : IsSpaces sp) : IsMap (sp ++ ['\x7d'])
  | entries {parts : List MemberPart} (nonempty : parts ≠ []) (entries : ∀ m ∈ parts, IsEntry m) :
      IsMap (separated (parts.map MemberPart.padded) ++ ['\x7d'])

/-- A text from the brace of the map on ends with its first offence, with that text behind it. -/
inductive Offends : List Char → List Char → Mismatch → Prop
  | entry {o rest : List Char} {e : Mismatch} (offends : EntryOffends o rest e) : Offends o rest e
  | field {w sp o rest : List Char} (map : IsMap w) (spaces : IsSpaces sp)
      (offends : FieldOffends o) : Offends (w ++ (sp ++ ',' :: o)) rest .repeatedValues

/-- The beginning of a document up to the brace of its map. -/
structure Opening where
  before : List Char
  first : List Char
  key : List Char
  after : List Char
  inner : List Char
  spaces : ∀ sp ∈ [before, first, after, inner], IsSpaces sp
  spells : Spells key "values".toList

def Opening.text (o : Opening) : List Char :=
  o.before ++ '\x7b' :: (o.first ++ '"' :: (o.key ++ '"' ::
    (o.after ++ ':' :: (o.inner ++ ['\x7b']))))

section Documents

variable {s : Snapshot} {ts rest : List Token} {cs o w r : List Char} {e : Mismatch}

theorem readValues_entries {result : Reading Snapshot} (h : readEntries empty ts = result)
    (hne : result ≠ .error .malformed) : readValues (.openObject :: ts) = result := by
  rw [readValues, h]
  rintro ts' rfl
  rw [readEntries] at h
  · exact hne h.symm
  · simp

theorem readEntries_parts {parts : List MemberPart} (nonempty : parts ≠ [])
    (entries : ∀ m ∈ parts, IsEntry m) (s : Snapshot) :
    ∃ s', ∀ cs, readEntries s (tokens (separated (parts.map MemberPart.padded) ++ '\x7d' :: cs)) =
      .ok (s', tokens cs) := by
  induction parts generalizing s with
  | nil => contradiction
  | cons m parts ih =>
    obtain ⟨s', hs'⟩ := readEntries_entry (entries m (List.mem_cons_self ..)) s
    cases parts with
    | nil => exact ⟨s', fun cs => (hs' cs).2⟩
    | cons n parts =>
      obtain ⟨t, ht⟩ := ih (by simp) (fun u hu => entries u (List.mem_cons_of_mem _ hu)) s'
      refine ⟨t, fun cs => ?_⟩
      rw [separated_cons (by simp), (hs' _).1]
      exact ht cs

theorem IsMap.readValues (map : IsMap w) :
    ∃ s, ∀ cs, readValues (.openObject :: tokens (w ++ cs)) = .ok (s, tokens cs) := by
  cases map with
  | empty spaces =>
    refine ⟨Snapshot.empty, fun cs => ?_⟩
    rw [List.append_assoc, Json.tokens_spaces spaces, List.singleton_append,
      Json.tokens_closeObject, Snapshot.readValues]
  | entries nonempty entries =>
    obtain ⟨s, hs⟩ := readEntries_parts nonempty entries Snapshot.empty
    refine ⟨s, fun cs => ?_⟩
    rw [List.append_assoc, List.singleton_append]
    exact readValues_entries (hs cs) (by simp)

/-- Behind its brace a map is empty, or it has entries. -/
theorem readValues_openObject (ts : List Token) :
    (∃ ts', ts = .closeObject :: ts' ∧ readValues (.openObject :: ts) = .ok (empty, ts')) ∨
      readValues (.openObject :: ts) = readEntries empty ts := by
  by_cases h : ∃ ts', ts = .closeObject :: ts'
  · obtain ⟨ts', rfl⟩ := h
    exact .inl ⟨ts', rfl, by rw [readValues]⟩
  · refine .inr ?_
    rw [readValues]
    rintro ts' rfl
    exact h ⟨ts', rfl⟩

theorem isMap_of_readValues (h : readValues (.openObject :: tokens cs) = .ok (s, rest)) :
    ∃ w r, IsMap w ∧ cs = w ++ r ∧ rest = tokens r := by
  rcases readValues_openObject (tokens cs) with ⟨ts', hcs, hempty⟩ | hentries
  · obtain ⟨-, rfl⟩ : empty = s ∧ ts' = rest := by simpa using hempty.symm.trans h
    obtain ⟨sp, _, r, rfl, spaces, ⟨⟩, -, rfl⟩ := (Json.tokens_eq_cons_iff (by simp)).1 hcs
    exact ⟨_, r, .empty spaces, by simp, rfl⟩
  · obtain ⟨parts, r, nonempty, rfl, entries, rfl⟩ :=
      entries_of_readEntries (hentries.symm.trans h)
    exact ⟨_, r, .entries nonempty entries, by simp, rfl⟩

theorem offends_of_readValues (h : readValues (.openObject :: tokens cs) = .error (.mismatch e)) :
    ∃ o r, cs = o ++ r ∧ EntryOffends o r e := by
  rcases readValues_openObject (tokens cs) with ⟨ts', -, hempty⟩ | hentries
  · cases hempty.symm.trans h
  · exact offends_of_readEntries (hentries.symm.trans h)

def behindMap : Reading Snapshot → Reading Snapshot
  | .error e => .error e
  | .ok (s, .comma :: ts) => readFields (some s) ts
  | .ok (s, .closeObject :: ts) => .ok (s, ts)
  | .ok _ => .error .malformed

theorem comma_of_behindMap (h : behindMap (.ok (s, ts)) = .error (.mismatch e)) :
    ∃ ts', ts = .comma :: ts' ∧ readFields (some s) ts' = .error (.mismatch e) := by
  cases ts with
  | nil => cases h
  | cons t ts =>
    cases t with
    | comma => exact ⟨ts, rfl, h⟩
    | _ => cases h

theorem of_behindMap_ok {t : Snapshot} (h : behindMap (.ok (s, ts)) = .ok (t, rest)) :
    ts = .closeObject :: rest ∨
      ∃ ts', ts = .comma :: ts' ∧ readFields (some s) ts' = .ok (t, rest) := by
  cases ts with
  | nil => cases h
  | cons t' ts =>
    cases t' with
    | comma => exact .inr ⟨ts, rfl, h⟩
    | closeObject =>
      obtain ⟨-, rfl⟩ : s = t ∧ ts = rest := by simpa [behindMap] using h
      exact .inl rfl
    | _ => cases h

theorem Opening.tokens_text (opening : Opening) :
    ∃ ps, Json.text? ps = some "values" ∧ ∀ cs, tokens (opening.text ++ cs) =
      .openObject :: .string ps :: .colon :: .openObject :: tokens cs := by
  obtain ⟨ps, body, hname⟩ := spells_toList_iff.1 opening.spells
  have spaces := opening.spaces
  simp only [List.forall_mem_cons] at spaces
  obtain ⟨before, first, after, inner, -⟩ := spaces
  refine ⟨ps, hname, fun cs => ?_⟩
  simp only [Opening.text, List.append_assoc, List.cons_append, List.nil_append,
    Json.tokens_spaces before, Json.tokens_openObject, Json.tokens_spaces first,
    Json.tokens_string body, Json.tokens_spaces after, Json.tokens_colon, Json.tokens_spaces inner]

theorem readFields_map {ps : List Json.Piece} (hname : Json.text? ps = some "values")
    (ts : List Token) :
    readFields none (.string ps :: .colon :: ts) = behindMap (readValues ts) := by
  rw [readFields]
  simp only [hname, if_true]
  rcases hr : readValues ts with e | ⟨s, ts'⟩
  · simp only [behindMap]
  · cases ts' with
    | nil => simp only [behindMap]
    | cons t ts' => cases t <;> simp only [behindMap]

theorem decodeStreamed_opening (opening : Opening) (cs : List Char) :
    decodeStreamed (String.ofList (opening.text ++ cs)) =
      (behindMap (readValues (.openObject :: tokens cs))).whole := by
  obtain ⟨ps, hname, htokens⟩ := opening.tokens_text
  have hread : read (tokens (opening.text ++ cs)) =
      behindMap (readValues (.openObject :: tokens cs)) := by
    rw [htokens, read, readFields_map hname]
    simp
  rw [decodeStreamed, String.toList_ofList]
  exact congrArg Reading.whole hread

theorem Reading.whole_eq_mismatch_iff {α : Type} {r : Reading α} :
    r.whole = .error (.mismatch e) ↔ r = .error (.mismatch e) := by
  rcases r with e' | ⟨a, _ | ⟨t, ts⟩⟩ <;> simp [Reading.whole]

/-- The reader refuses a document for the first offence behind its opening, and for no other. -/
theorem decodeStreamed_eq_mismatch_iff (opening : Opening) :
    (decodeStreamed (String.ofList (opening.text ++ cs)) : Except DecodeError Snapshot) =
        .error (.mismatch e) ↔
      ∃ o r, cs = o ++ r ∧ Offends o r e := by
  rw [decodeStreamed_opening, Reading.whole_eq_mismatch_iff]
  constructor
  · intro h
    rcases hmap : readValues (.openObject :: tokens cs) with e' | ⟨s, ts⟩
    · rw [hmap, behindMap] at h
      obtain rfl := Except.error.inj h
      obtain ⟨o, r, rfl, offends⟩ := offends_of_readValues hmap
      exact ⟨o, r, rfl, .entry offends⟩
    · rw [hmap] at h
      obtain ⟨w, r, map, rfl, rfl⟩ := isMap_of_readValues hmap
      obtain ⟨r', hr, hfields⟩ := comma_of_behindMap h
      obtain ⟨sp, _, r, rfl, spaces, ⟨⟩, -, rfl⟩ := (Json.tokens_eq_cons_iff (by simp)).1 hr
      obtain ⟨rfl, o, r, rfl, offends⟩ := offends_of_readFields hfields
      exact ⟨_, r, by simp, .field map spaces offends⟩
  · rintro ⟨o, r, rfl, offends⟩
    cases offends with
    | entry offends =>
      rw [readValues_entries (readEntries_offends offends empty) (by simp), behindMap]
    | @field w sp o _ map spaces offends =>
      obtain ⟨s, hs⟩ := map.readValues
      rw [List.append_assoc, hs, List.append_assoc, Json.tokens_spaces spaces, List.cons_append,
        Json.tokens_comma, behindMap]
      exact readFields_offends offends s r

end Documents

end ImsProvisioning.Snapshot
