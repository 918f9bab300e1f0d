import ImsProvisioning.Proofs.Snapshot.Amiss
import ImsProvisioning.Proofs.Snapshot.Offence

/-! # The first offence decides

Whether the text of a snapshot is malformed or a mismatch is decided by its first offence. The
reader that takes it straight from the text meets the offences in the order of the text, and
what follows the first one makes no difference. A text that is parsed first is malformed if
anything in it is, and otherwise the least key amiss decides.
-/

namespace ImsProvisioning.Snapshot

open Json (Value Token MemberPart Part IsSpaces IsText Spells Names Denotes EndsBefore separated
  separated_cons spells_toList_iff tokens names_strict_iff valuesOf)
open ConstantTable (name)

def fieldMode (key : String) : Json.Mode :=
  if key = "values" then .strict (valueRoom + 1) else .skipping

/-- The member is a field that the reader can read to its end. -/
structure IsReadable (m : MemberPart) : Prop where
  spells : Spells m.key m.name.toList
  text : Denotes (fieldMode m.name) m.part.text m.part.value

/-- The text is an object, up to what the reader lets pass in values that it skips. -/
inductive Readable : List Char → Prop
  | mk {before after : List Char} {parts : List MemberPart} (front : IsSpaces before)
      (back : IsSpaces after) (nonempty : parts ≠ []) (fields : ∀ m ∈ parts, IsReadable m) :
      Readable (before ++ '\x7b' :: (separated (parts.map MemberPart.padded) ++ '\x7d' :: after))

section Completion

variable {s : Snapshot} {ts rest : List Token} {cs o w r sp : List Char} {e : Mismatch}

theorem IsField.isReadable {m : MemberPart} (h : IsField m) : IsReadable m :=
  ⟨h.spells, by rw [fieldMode, if_neg h.other]; exact h.text⟩

def Opening.member (opening : Opening) (w sp : List Char) (v : Value) (spaces : IsSpaces sp) :
    MemberPart where
  before := opening.first
  key := opening.key
  name := "values"
  after := opening.after
  part :=
    { before := opening.inner
      text := '\x7b' :: w
      after := sp
      value := v
      front := opening.spaces _ (by simp)
      back := spaces }
  front := opening.spaces _ (by simp)
  back := opening.spaces _ (by simp)

theorem Opening.isReadable_member (opening : Opening) {v : Value}
    (text : Denotes (.strict (valueRoom + 1)) ('\x7b' :: w) v) (spaces : IsSpaces sp) :
    IsReadable (opening.member w sp v spaces) :=
  ⟨opening.spells, text⟩

theorem Opening.text_append (opening : Opening) (w sp cs : List Char) (v : Value)
    (spaces : IsSpaces sp) : opening.text ++ (w ++ (sp ++ cs)) =
      opening.before ++ '\x7b' :: ((opening.member w sp v spaces).padded ++ cs) := by
  simp [Opening.text, Opening.member, MemberPart.padded, Part.padded]

theorem Opening.readable_closed (opening : Opening) {v : Value}
    (text : Denotes (.strict (valueRoom + 1)) ('\x7b' :: w) v) (spaces : IsSpaces sp)
    (back : IsSpaces r) : Readable (opening.text ++ (w ++ (sp ++ '\x7d' :: r))) := by
  have fields : ∀ m ∈ [opening.member w sp v spaces], IsReadable m := by
    simpa using opening.isReadable_member text spaces
  rw [opening.text_append w sp _ v spaces]
  exact .mk (opening.spaces _ (by simp)) back (by simp) fields

theorem Opening.readable_fields (opening : Opening) {v : Value} {parts : List MemberPart}
    (text : Denotes (.strict (valueRoom + 1)) ('\x7b' :: w) v) (spaces : IsSpaces sp)
    (nonempty : parts ≠ []) (readable : ∀ m ∈ parts, IsReadable m) (back : IsSpaces r) :
    Readable (opening.text ++ (w ++ (sp ++ ',' ::
      (separated (parts.map MemberPart.padded) ++ '\x7d' :: r)))) := by
  have fields : ∀ m ∈ opening.member w sp v spaces :: parts, IsReadable m := by
    simpa using ⟨opening.isReadable_member text spaces, readable⟩
  have front : IsSpaces opening.before := opening.spaces _ (by simp)
  have h := Readable.mk front back (by simp) fields
  rwa [separated_cons nonempty, ← opening.text_append w sp _ v spaces] at h

theorem denotes_entries {parts : List MemberPart} (nonempty : parts ≠ [])
    (keys : ∀ m ∈ parts, Spells m.key m.name.toList)
    (values : ∀ m ∈ parts, Denotes (.strict valueRoom) m.part.text m.part.value) :
    ∃ v, Denotes (.strict (valueRoom + 1))
      ('\x7b' :: (separated (parts.map MemberPart.padded) ++ ['\x7d'])) v := by
  have names : ∀ m ∈ parts, Names (.strict valueRoom) m.key m.name :=
    fun m hm => names_strict_iff.2 (keys m hm)
  exact ⟨_, .object nonempty names values⟩

theorem denotes_empty (spaces : IsSpaces sp) :
    Denotes (.strict (valueRoom + 1)) ('\x7b' :: (sp ++ ['\x7d'])) (.object []) := by
  have h : Denotes ((Json.Mode.strict valueRoom).deeper 1) _ _ := .emptyObject spaces
  exact h

theorem IsMap.denotes (map : IsMap w) : ∃ v, Denotes (.strict (valueRoom + 1)) ('\x7b' :: w) v := by
  cases map with
  | empty spaces => exact ⟨_, denotes_empty spaces⟩
  | entries nonempty entries =>
    exact denotes_entries nonempty (fun m hm => (entries m hm).spells)
      fun m hm => (entries m hm).text

/-- What is read to the end is an object that can be read. -/
theorem readable_of_ok {opening : Opening}
    (h : decodeStreamed (String.ofList (opening.text ++ cs)) = .ok s) :
    Readable (opening.text ++ cs) := by
  rw [decodeStreamed_opening, Reading.whole_eq_ok_iff] at h
  rcases hmap : readValues (.openObject :: tokens cs) with e' | ⟨t, ts⟩
  · rw [hmap] at h
    cases h
  · rw [hmap] at h
    obtain ⟨w, r, map, rfl, rfl⟩ := isMap_of_readValues hmap
    obtain ⟨v, text⟩ := map.denotes
    rcases of_behindMap_ok h with hr | ⟨ts', hr, hfields⟩
    · obtain ⟨sp, _, r, rfl, spaces, ⟨⟩, -, hback⟩ := (Json.tokens_eq_cons_iff (by simp)).1 hr
      exact opening.readable_closed text spaces (Json.tokens_eq_nil_iff.1 hback.symm)
    · obtain ⟨sp, _, r, rfl, spaces, ⟨⟩, -, rfl⟩ := (Json.tokens_eq_cons_iff (by simp)).1 hr
      obtain ⟨parts, r, nonempty, rfl, fields, hback⟩ := fields_of_readFields hfields
      exact opening.readable_fields text spaces nonempty (fun m hm => (fields m hm).isReadable)
        (Json.tokens_eq_nil_iff.1 hback.symm)

/-- The entries up to an offence can be completed to a map. -/
theorem EntryOffends.completion (h : EntryOffends o r e) :
    ∃ c parts, parts ≠ [] ∧ o ++ c = separated (parts.map MemberPart.padded) ++ ['\x7d'] ∧
      (∀ m ∈ parts, Spells m.key m.name.toList) ∧
      ∀ m ∈ parts, Denotes (.strict valueRoom) m.part.text m.part.value := by
  induction h with
  | @key sp w rest s front spells unknown =>
    refine ⟨':' :: ("null".toList ++ ['\x7d']),
      [⟨sp, w, s, [], ⟨[], "null".toList, [], .null, nofun, nofun⟩, front, nofun⟩],
      by simp, ?_, by simpa using spells, by simpa using .null⟩
    simp [separated, MemberPart.padded, Part.padded]
  | @value m rest spells known text other ends =>
    refine ⟨['\x7d'], [{ m with part := { m.part with after := [], back := nofun } }],
      by simp, ?_, by simpa using spells, by simpa using text⟩
    simp [separated, upToValue, MemberPart.padded, Part.padded]
  | @later m o rest e entry _ ih =>
    obtain ⟨c, parts, nonempty, hc, keys, values⟩ := ih
    refine ⟨c, m :: parts, by simp, ?_, by simpa using ⟨entry.spells, keys⟩,
      by simpa using ⟨entry.text, values⟩⟩
    rw [separated_cons nonempty, List.append_assoc, List.cons_append, hc]

/-- The fields up to a second key of the map can be completed to an object. -/
theorem FieldOffends.completion (h : FieldOffends o) :
    ∃ c parts, parts ≠ [] ∧ o ++ c = separated (parts.map MemberPart.padded) ++ ['\x7d'] ∧
      ∀ m ∈ parts, IsReadable m := by
  induction h with
  | @again sp w front spells =>
    have none : IsSpaces [] := nofun
    have text : Denotes (fieldMode "values") ['\x7b', '\x7d'] (.object []) := denotes_empty none
    refine ⟨[':', '\x7b', '\x7d', '\x7d'],
      [⟨sp, w, "values", [], ⟨[], ['\x7b', '\x7d'], [], .object [], none, none⟩, front, none⟩],
      by simp, ?_, by simpa using ⟨spells, text⟩⟩
    simp [separated, MemberPart.padded, Part.padded]
  | @later m o field _ ih =>
    obtain ⟨c, parts, nonempty, hc, readable⟩ := ih
    refine ⟨c, m :: parts, by simp, ?_, by simpa using ⟨field.isReadable, readable⟩⟩
    rw [separated_cons nonempty, List.append_assoc, List.cons_append, hc]

theorem Offends.completion (h : Offends o r e) (opening : Opening) :
    ∃ c, Readable (opening.text ++ (o ++ c)) := by
  have none : IsSpaces [] := nofun
  cases h with
  | entry offends =>
    obtain ⟨c, parts, nonempty, hc, keys, values⟩ := offends.completion
    obtain ⟨v, text⟩ := denotes_entries nonempty keys values
    refine ⟨c ++ ['\x7d'], ?_⟩
    have h := opening.readable_closed text none none
    rw [← hc] at h
    simpa using h
  | @field w sp o _ map spaces offends =>
    obtain ⟨c, parts, nonempty, hc, readable⟩ := offends.completion
    obtain ⟨v, text⟩ := map.denotes
    refine ⟨c, ?_⟩
    have h := opening.readable_fields text spaces nonempty readable none
    rw [← hc] at h
    simpa using h

end Completion

section Tight

variable {found : Option Snapshot} {parts : List MemberPart} {m : MemberPart} {r cs : List Char}

/-- A field that can be read is a mismatch, or the reading goes on behind it. -/
theorem readFields_part (readable : IsReadable m) (found : Option Snapshot) (cs : List Char) :
    (∃ e, readFields found (tokens (m.padded ++ ',' :: cs)) = .error (.mismatch e) ∧
        readFields found (tokens (m.padded ++ '\x7d' :: cs)) = .error (.mismatch e)) ∨
      ∃ found', readFields found (tokens (m.padded ++ ',' :: cs)) = readFields found' (tokens cs) ∧
        readFields found (tokens (m.padded ++ '\x7d' :: cs)) = ofFound found' (tokens cs) := by
  obtain ⟨spells, text⟩ := readable
  by_cases hname : m.name = "values"
  · rw [fieldMode, if_pos hname] at text
    obtain ⟨ps, body, hps⟩ := spells_toList_iff.1 spells
    rw [MemberPart.tokens_padded body, MemberPart.tokens_padded body,
      readFields_cons found hps (Part.readValue_comma text.reads cs),
      readFields_cons found hps (Part.readValue_closeObject text.reads cs), if_pos hname,
      if_pos hname]
    cases found with
    | some s => exact .inl ⟨_, rfl, rfl⟩
    | none =>
      cases ofValues m.part.value with
      | error e => exact .inl ⟨e, rfl, rfl⟩
      | ok s => exact .inr ⟨some s, rfl, rfl⟩
  · rw [fieldMode, if_neg hname] at text
    exact .inr ⟨found, readFields_field ⟨spells, hname, text⟩ found cs⟩

theorem readFields_parts (nonempty : parts ≠ []) (fields : ∀ m ∈ parts, IsReadable m)
    (found : Option Snapshot) (cs : List Char) :
    (∃ e, readFields found (tokens (separated (parts.map MemberPart.padded) ++ '\x7d' :: cs)) =
        .error (.mismatch e)) ∨
      ∃ s, readFields found (tokens (separated (parts.map MemberPart.padded) ++ '\x7d' :: cs)) =
        .ok (s, tokens cs) := by
  induction parts generalizing found with
  | nil => contradiction
  | cons m parts ih =>
    have hm := fields m (List.mem_cons_self ..)
    cases parts with
    | nil =>
      rcases readFields_part hm found cs with ⟨e, -, he⟩ | ⟨found', -, hlast⟩
      · exact .inl ⟨e, he⟩
      · cases found' with
        | none => exact .inl ⟨_, hlast⟩
        | some s => exact .inr ⟨s, hlast⟩
    | cons n parts =>
      rw [separated_cons (by simp)]
      rcases readFields_part hm found
        (separated ((n :: parts).map MemberPart.padded) ++ '\x7d' :: cs) with
        ⟨e, he, -⟩ | ⟨found', hmore, -⟩
      · exact .inl ⟨e, he⟩
      · rw [hmore]
        exact ih (by simp) (fun u hu => fields u (List.mem_cons_of_mem _ hu)) found'

theorem read_fields {ts : List Token} {result : Reading Snapshot}
    (h : readFields none ts = result) (hne : result ≠ .error .malformed) :
    read (.openObject :: ts) = result := by
  rw [read, h]
  rintro ts' rfl
  rw [readFields] at h
  · exact hne h.symm
  · simp

/-- An object that can be read is not malformed. -/
theorem Readable.decodeStreamed_ne_malformed {text : List Char} (h : Readable text) :
    (decodeStreamed (String.ofList text) : Except DecodeError Snapshot) ≠ .error .malformed := by
  obtain @⟨before, after, parts, front, back, nonempty, fields⟩ := h
  have hwhole {result : Reading Snapshot} (hresult : read (tokens (before ++ '\x7b' ::
      (separated (parts.map MemberPart.padded) ++ '\x7d' :: after))) = result) :
      decodeStreamed (String.ofList (before ++ '\x7b' ::
        (separated (parts.map MemberPart.padded) ++ '\x7d' :: after))) = result.whole := by
    rw [decodeStreamed, String.toList_ofList]
    exact congrArg Reading.whole hresult
  rw [Json.tokens_spaces front, Json.tokens_openObject] at hwhole
  rcases readFields_parts nonempty fields none after with ⟨e, he⟩ | ⟨s, hs⟩
  · rw [hwhole (read_fields he (by simp))]
    simp [Reading.whole]
  · rw [hwhole (read_fields hs (by simp)), Json.tokens_eq_nil_iff.2 back]
    simp [Reading.whole]

end Tight

section Dead

variable {q o x r r' : List Char} {e : Mismatch}

theorem notFirst_append {p : Char → Prop} (h : Json.NotFirst p (x ++ r)) (nonempty : x ≠ []) :
    Json.NotFirst p (x ++ r') := by
  obtain ⟨c, x', rfl⟩ := List.exists_cons_of_ne_nil nonempty
  exact Json.notFirst_cons.2 (Json.notFirst_cons.1 h)

theorem endsBefore_append {w : List Char} (h : EndsBefore w (x ++ r)) (nonempty : x ≠ []) :
    EndsBefore w (x ++ r') := by
  intro l text
  obtain ⟨digit, point, mark⟩ := h l text
  exact ⟨notFirst_append digit nonempty,
    fun hfraction hexponent => notFirst_append (point hfraction hexponent) nonempty,
    fun hexponent => notFirst_append (mark hexponent) nonempty⟩

theorem EntryOffends.append (h : EntryOffends o (x ++ r) e) (nonempty : x ≠ []) :
    EntryOffends o (x ++ r') e := by
  generalize hrest : x ++ r = rest at h
  induction h with
  | key front spells unknown => exact .key front spells unknown
  | value spells known text other ends =>
    subst hrest
    exact .value spells known text other (endsBefore_append ends nonempty)
  | later entry _ ih => exact .later entry (ih hrest)

/-- An offence with more text behind it is one whatever follows that. -/
theorem Offends.append (h : Offends o (x ++ r) e) (nonempty : x ≠ []) : Offends o (x ++ r') e := by
  generalize hrest : x ++ r = rest at h
  cases h with
  | entry offends =>
    subst hrest
    exact .entry (offends.append nonempty)
  | field map spaces offends => exact .field map spaces offends

/-- A text is malformed whatever follows if it cannot go on as an object and contains no offence,
and only then. -/
theorem decodeStreamed_malformed_iff {opening : Opening} :
    (∀ r, decode .streamed (String.ofList (opening.text ++ (q ++ r))) =
        (.error .malformed : Except DecodeError Snapshot)) ↔
      (∀ r, ¬ Readable (opening.text ++ (q ++ r))) ∧
        ∀ o x e, q = o ++ x → ¬ ∀ r, Offends o (x ++ r) e := by
  constructor
  · intro h
    refine ⟨fun r readable => readable.decodeStreamed_ne_malformed (h r), ?_⟩
    rintro o x e rfl offends
    have hmismatch := (decodeStreamed_eq_mismatch_iff opening).2
      ⟨o, x ++ [], List.append_assoc .., offends []⟩
    cases (h []).symm.trans hmismatch
  · rintro ⟨dead, innocent⟩ r
    cases h : (decode .streamed (String.ofList (opening.text ++ (q ++ r))) :
        Except DecodeError Snapshot) with
    | ok s => exact absurd (readable_of_ok h) (dead r)
    | error e =>
      cases e with
      | malformed => rfl
      | mismatch e =>
        exfalso
        obtain ⟨o, r', heq, offends⟩ := (decodeStreamed_eq_mismatch_iff opening).1 h
        obtain ⟨c, readable⟩ := offends.completion opening
        -- The offence ends behind `q`, which could then go on as an object, or within it.
        rcases List.append_eq_append_iff.1 heq with ⟨a, rfl, rfl⟩ | ⟨x, rfl, rfl⟩
        · rw [List.append_assoc] at readable
          exact dead _ readable
        · cases x with
          | nil =>
            rw [List.append_nil] at dead
            exact dead _ readable
          | cons d x => exact innocent o (d :: x) e rfl fun r' => offends.append (by simp)

end Dead

def followed (entries : List MemberPart) : List Char :=
  entries.flatMap fun m => m.padded ++ [',']

theorem EntryOffends.followed {entries : List MemberPart} {o r : List Char} {e : Mismatch}
    (valid : ∀ m ∈ entries, IsEntry m) (h : EntryOffends o r e) :
    EntryOffends (followed entries ++ o) r e := by
  induction entries with
  | nil => exact h
  | cons m entries ih =>
    have hrest := ih fun u hu => valid u (List.mem_cons_of_mem _ hu)
    have hlater := EntryOffends.later (valid m (List.mem_cons_self ..)) hrest
    simpa [Snapshot.followed] using hlater

theorem decodeStreamed_entries (opening : Opening) {entries : List MemberPart} {o r : List Char}
    {e : Mismatch} (valid : ∀ m ∈ entries, IsEntry m) (h : EntryOffends o r e) :
    decode .streamed (String.ofList (opening.text ++ (followed entries ++ (o ++ r)))) =
      (.error (.mismatch e) : Except DecodeError Snapshot) := by
  rw [← List.append_assoc (followed entries)]
  exact (decodeStreamed_eq_mismatch_iff opening).2 ⟨_, r, rfl, .entry (h.followed valid)⟩

theorem padded_append (m : MemberPart) (cs : List Char) :
    m.padded ++ cs = upToValue m ++ (m.part.after ++ cs) := by
  simp [upToValue, MemberPart.padded, Part.padded]

/--
The first thing wrong behind the beginning of the map decides what the reader answers that takes
a snapshot straight from its text: for a key or a value that does not belong there a mismatch,
for anything else a malformed text, whatever follows. A text that is parsed first is malformed if
it is no JSON text. Otherwise a map in it is refused for the least key amiss, where the last value
of a key counts and the key is judged before the value.
-/
theorem first_offence_decides :
    (∀ (opening : Opening) (entries : List MemberPart), (∀ m ∈ entries, IsEntry m) →
      (∀ (sp w : List Char) (key : String) (rest : List Char), IsSpaces sp →
        Spells w key.toList → (∀ item : Item, name item ≠ key) →
        decode .streamed (String.ofList (opening.text ++
            (followed entries ++ (sp ++ '"' :: (w ++ '"' :: rest))))) =
          (.error (.mismatch (.constant (.invalidName "config item" key))) :
            Except DecodeError Snapshot)) ∧
      ∀ (m : MemberPart) (c : Char) (rest : List Char), Spells m.key m.name.toList →
        (∃ item : Item, name item = m.name) →
        Denotes (.strict valueRoom) m.part.text m.part.value →
        (∀ value, ¬ Setting.Denoted m.part.value value) → c = ',' ∨ c = '\x7d' →
        decode .streamed (String.ofList (opening.text ++
            (followed entries ++ (m.padded ++ c :: rest)))) =
          (.error (.mismatch .noSetting) : Except DecodeError Snapshot)) ∧
    (∀ (opening : Opening) (q : List Char),
      (∀ r, decode .streamed (String.ofList (opening.text ++ (q ++ r))) =
          (.error .malformed : Except DecodeError Snapshot)) ↔
        (∀ r, ¬ Readable (opening.text ++ (q ++ r))) ∧
          ∀ o x e, q = o ++ x → ¬ ∀ r, Offends o (x ++ r) e) ∧
    (∀ text : String, (¬ ∃ doc, IsText text.toList doc) →
      decode .parsed text = (.error .malformed : Except DecodeError Snapshot)) ∧
    ∀ (text : String) (fields ms : List (String × Value)),
      IsText text.toList (.object fields) →
      (valuesOf "values" fields).getLast? = some (.object ms) →
      (∀ e, decode .parsed text = (.error (.mismatch e) : Except DecodeError Snapshot) ↔
        ∃ key, Amiss ms key e ∧
          ∀ key' e', Amiss ms key' e' → key' = key ∨ Text.bytes key < Text.bytes key') ∧
      ((∃ s : Snapshot, decode .parsed text = .ok s) ↔ ∀ key e, ¬ Amiss ms key e) := by
  refine ⟨fun opening entries valid => ⟨?_, ?_⟩,
    fun _ _ => decodeStreamed_malformed_iff, ?_,
    fun text fields ms htext hmap => ⟨fun e => decodeParsed_object_error_iff htext hmap,
      decodeParsed_object_ok_iff htext hmap⟩⟩
  · intro sp w key rest spaces spells unknown
    have offends : EntryOffends _ rest _ := .key spaces spells unknown
    have h := decodeStreamed_entries opening valid offends
    simpa only [List.append_assoc, List.cons_append, List.nil_append] using h
  · intro m c rest spells known text other mark
    have ends : Json.EndsNumber (c :: rest) := by
      rcases mark with rfl | rfl
      · exact Json.endsNumber_comma rest
      · exact Json.endsNumber_closeObject rest
    rw [padded_append]
    exact decodeStreamed_entries opening valid (.value spells known text other
      (Json.endsBefore_of_ends (Json.endsNumber_spaces m.part.back ends)))
  · exact fun text hnot => decodeParsed_malformed hnot

end ImsProvisioning.Snapshot
