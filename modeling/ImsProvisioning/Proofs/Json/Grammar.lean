import ImsProvisioning.Proofs.Json.Nesting
import ImsProvisioning.Proofs.Json.Tokens

/-! # The grammar of JSON texts

The grammar of RFC 8259 with the limits of a mode, apart from how a text is read: which
texts are values, and which values they are. Reading finds just these texts.
-/

namespace ImsProvisioning.Json

/-- A value in a text, with the space around it. -/
structure Part where
  before : List Char
  text : List Char
  after : List Char
  value : Value
  front : IsSpaces before
  back : IsSpaces after

def Part.padded (p : Part) : List Char := p.before ++ (p.text ++ p.after)

structure MemberPart where
  before : List Char
  key : List Char
  name : String
  after : List Char
  part : Part
  front : IsSpaces before
  back : IsSpaces after

def MemberPart.padded (m : MemberPart) : List Char :=
  m.before ++ '"' :: (m.key ++ '"' :: (m.after ++ ':' :: m.part.padded))

def MemberPart.member (m : MemberPart) : String × Value := (m.name, m.part.value)

def separated : List (List Char) → List Char
  | [] => []
  | [w] => w
  | w :: ws => w ++ ',' :: separated ws

theorem separated_cons {α : Type} {f : α → List Char} {a : α} {as : List α} (nonempty : as ≠ [])
    (cs : List Char) : separated ((a :: as).map f) ++ cs =
      f a ++ ',' :: (separated (as.map f) ++ cs) := by
  rw [List.map_cons, separated, List.append_assoc, List.cons_append]
  simpa using nonempty

def Names (mode : Mode) (w : List Char) (s : String) : Prop :=
  ∃ ps, BodyText w ps ∧ mode.text? ps = some s

/-- The text is that of the value, without the space around it. -/
inductive Denotes : Mode → List Char → Value → Prop
  | null {mode : Mode} : Denotes mode "null".toList .null
  | bool {mode : Mode} (b : Bool) : Denotes mode (toString b).toList (.bool b)
  | number {mode : Mode} {l : NumberLiteral} {w : List Char} {n : Number} (text : NumberText l w)
      (value : mode.number? l = some n) : Denotes mode w (.number n)
  | string {mode : Mode} {w : List Char} {s : String} (names : Names mode w s) :
      Denotes mode ('"' :: (w ++ ['"'])) (.string s)
  | emptyArray {mode : Mode} {sp : List Char} (spaces : IsSpaces sp) :
      Denotes (mode.deeper 1) ('[' :: (sp ++ [']'])) (.array [])
  | array {mode : Mode} {parts : List Part} (nonempty : parts ≠ [])
      (items : ∀ p ∈ parts, Denotes mode p.text p.value) :
      Denotes (mode.deeper 1) ('[' :: (separated (parts.map Part.padded) ++ [']']))
        (.array (parts.map Part.value))
  | emptyObject {mode : Mode} {sp : List Char} (spaces : IsSpaces sp) :
      Denotes (mode.deeper 1) ('\x7b' :: (sp ++ ['\x7d'])) (.object [])
  | object {mode : Mode} {parts : List MemberPart} (nonempty : parts ≠ [])
      (keys : ∀ m ∈ parts, Names mode m.key m.name)
      (values : ∀ m ∈ parts, Denotes mode m.part.text m.part.value) :
      Denotes (mode.deeper 1) ('\x7b' :: (separated (parts.map MemberPart.padded) ++ ['\x7d']))
        (.object (parts.map MemberPart.member))

/-- The text is no number that goes on in what follows. -/
def EndsBefore (w rest : List Char) : Prop := ∀ l, NumberText l w → l.EndsBefore rest

/-- A JSON text: a value with the space around it. -/
def IsText (text : List Char) (v : Value) : Prop :=
  ∃ p : Part, text = p.padded ∧ p.value = v ∧ Denotes (.strict maxDepth) p.text p.value

section

variable {mode : Mode} {cs w rest sp : List Char} {v : Value} {l : NumberLiteral}

theorem endsBefore_of_ends (ends : EndsNumber rest) : EndsBefore w rest :=
  fun _ _ => NumberLiteral.endsBefore_of_ends ends

theorem readValue_emptyArray (mode : Mode) (ts : List Token) :
    readValue (mode.deeper 1) (.openArray :: .closeArray :: ts) = some (.array [], ts) := by
  rw [readValue_array]
  simp [ReadState.run, ReadState.step, ReadState.put]

theorem readValue_of_enter {t : Token} (h : ReadState.enter mode [] t = some (.done v))
    (ts : List Token) : readValue mode (t :: ts) = some (v, ts) := by
  rw [readValue_cons, h, Option.bind_some, ReadState.run]

end

section Completeness

variable {mode : Mode} {rest : List Char} {v : Value}

/-- Whatever follows the text, just the value is read from it. -/
def ReadsAs (mode : Mode) (w : List Char) (v : Value) : Prop :=
  ∀ rest, EndsBefore w rest → readValue mode (tokens (w ++ rest)) = some (v, tokens rest)

theorem Part.readValue_padded {p : Part} (reads : ReadsAs mode p.text p.value)
    (ends : EndsNumber rest) :
    readValue mode (tokens (p.padded ++ rest)) = some (p.value, tokens rest) := by
  rw [Part.padded, List.append_assoc, List.append_assoc, tokens_spaces p.front,
    reads _ (endsBefore_of_ends (endsNumber_spaces p.back ends)), tokens_spaces p.back]

theorem Part.readValue_comma {p : Part} (reads : ReadsAs mode p.text p.value) (cs : List Char) :
    readValue mode (tokens (p.padded ++ ',' :: cs)) = some (p.value, .comma :: tokens cs) := by
  rw [Part.readValue_padded reads (endsNumber_comma cs), tokens_comma]

theorem Part.readValue_closeArray {p : Part} (reads : ReadsAs mode p.text p.value)
    (cs : List Char) :
    readValue mode (tokens (p.padded ++ ']' :: cs)) = some (p.value, .closeArray :: tokens cs) := by
  rw [Part.readValue_padded reads (endsNumber_closeArray cs), tokens_closeArray]

theorem Part.readValue_closeObject {p : Part} (reads : ReadsAs mode p.text p.value)
    (cs : List Char) :
    readValue mode (tokens (p.padded ++ '\x7d' :: cs)) =
      some (p.value, .closeObject :: tokens cs) := by
  rw [Part.readValue_padded reads (endsNumber_closeObject cs), tokens_closeObject]

theorem items_of_parts {parts : List Part} (nonempty : parts ≠ [])
    (reads : ∀ p ∈ parts, ReadsAs mode p.text p.value) (rest : List Char) :
    Items mode (tokens (separated (parts.map Part.padded) ++ ']' :: rest)) (parts.map Part.value)
      (tokens rest) := by
  induction parts with
  | nil => contradiction
  | cons p parts ih =>
    have hp := reads p (List.mem_cons_self ..)
    cases parts with
    | nil => exact .last (Part.readValue_closeArray hp rest)
    | cons q parts =>
      have hrest := ih (by simp) fun u hu => reads u (List.mem_cons_of_mem _ hu)
      rw [separated_cons (by simp)]
      exact .more (Part.readValue_comma hp _) hrest

theorem MemberPart.tokens_padded {m : MemberPart} {ps : List Piece} (body : BodyText m.key ps)
    (rest : List Char) :
    tokens (m.padded ++ rest) = .string ps :: .colon :: tokens (m.part.padded ++ rest) := by
  simp only [MemberPart.padded, List.append_assoc, List.cons_append, tokens_spaces m.front,
    tokens_string body, tokens_spaces m.back, tokens_colon]

theorem members_of_parts {parts : List MemberPart} (nonempty : parts ≠ [])
    (keys : ∀ m ∈ parts, Names mode m.key m.name)
    (reads : ∀ m ∈ parts, ReadsAs mode m.part.text m.part.value) (rest : List Char) :
    Members mode (tokens (separated (parts.map MemberPart.padded) ++ '\x7d' :: rest))
      (parts.map MemberPart.member) (tokens rest) := by
  induction parts with
  | nil => contradiction
  | cons m parts ih =>
    have hm := reads m (List.mem_cons_self ..)
    obtain ⟨ps, body, name⟩ := keys m (List.mem_cons_self ..)
    cases parts with
    | nil =>
      rw [List.map_singleton, separated, MemberPart.tokens_padded body]
      exact .last name (Part.readValue_closeObject hm rest)
    | cons n parts =>
      have hrest := ih (by simp) (fun u hu => keys u (List.mem_cons_of_mem _ hu))
        fun u hu => reads u (List.mem_cons_of_mem _ hu)
      rw [separated_cons (by simp), MemberPart.tokens_padded body]
      exact .more name (Part.readValue_comma hm _) hrest

theorem Denotes.reads {w : List Char} (h : Denotes mode w v) : ReadsAs mode w v := by
  induction h with
  | null =>
    intro rest _
    rw [tokens_text .null trivial, readValue_of_enter rfl]
  | bool b =>
    intro rest _
    rw [tokens_text (.bool b) trivial, readValue_of_enter rfl]
  | @number mode l w n text value =>
    intro rest ends
    rw [tokens_text (.number text) (ends l text), readValue_of_enter]
    rw [ReadState.enter, value]
    rfl
  | @string mode w s names =>
    obtain ⟨ps, body, text⟩ := names
    intro rest _
    rw [tokens_text (.string body) trivial, readValue_of_enter]
    rw [ReadState.enter, text]
    rfl
  | @emptyArray mode sp spaces =>
    intro rest _
    rw [List.cons_append, tokens_openArray, List.append_assoc, tokens_spaces spaces,
      List.singleton_append, tokens_closeArray]
    exact readValue_emptyArray mode _
  | @array mode parts nonempty _ ih =>
    intro rest _
    rw [List.cons_append, tokens_openArray, List.append_assoc, List.singleton_append]
    exact readValue_of_items (items_of_parts nonempty ih rest)
  | @emptyObject mode sp spaces =>
    intro rest _
    rw [List.cons_append, tokens_openObject, List.append_assoc, tokens_spaces spaces,
      List.singleton_append, tokens_closeObject]
    exact readValue_emptyObject mode _
  | @object mode parts nonempty keys _ ih =>
    intro rest _
    rw [List.cons_append, tokens_openObject, List.append_assoc, List.singleton_append]
    exact readValue_of_members (members_of_parts nonempty keys ih rest)

end Completeness

section Soundness

variable {mode : Mode} {cs : List Char} {ts rest : List Token} {v : Value}

theorem endsBefore_of_first {c : Char} {w rest : List Char} (first : ¬ (c = '-' ∨ c.isDigit)) :
    EndsBefore (c :: w) rest := by
  intro l text
  obtain ⟨c', w', hw, hfirst⟩ := text.exists_cons
  obtain ⟨rfl, -⟩ := List.cons.inj hw
  exact absurd hfirst first

/-- What is read from a text stands there, behind space. -/
def Stands (mode : Mode) (cs : List Char) (v : Value) (ts : List Token) : Prop :=
  ∃ sp w r, cs = sp ++ (w ++ r) ∧ IsSpaces sp ∧ Denotes mode w v ∧ EndsBefore w r ∧ ts = tokens r

/-- A value with a token behind it is a part of the text, in front of that token's text. -/
theorem Stands.exists_part {t : Token} (h : Stands mode cs v (t :: ts)) (good : t ≠ .bad) :
    ∃ (p : Part) (w r : List Char), cs = p.padded ++ (w ++ r) ∧ p.value = v ∧
      Denotes mode p.text p.value ∧ TokenText t w ∧ ts = tokens r := by
  obtain ⟨sp, w, r, rfl, spaces, denotes, -, hrest⟩ := h
  obtain ⟨sp', w', r', rfl, spaces', text, -, rfl⟩ := (tokens_eq_cons_iff good).1 hrest.symm
  exact ⟨⟨sp, w, sp', v, spaces, spaces'⟩, w', r', by simp [Part.padded], rfl, denotes, text, rfl⟩

/-- A key and a colon stand behind space. -/
theorem exists_key {ps : List Piece} (h : tokens cs = .string ps :: .colon :: ts) :
    ∃ sp w sp' r, cs = sp ++ '"' :: (w ++ '"' :: (sp' ++ ':' :: r)) ∧ IsSpaces sp ∧
      IsSpaces sp' ∧ BodyText w ps ∧ ts = tokens r := by
  obtain ⟨sp, _, r, rfl, spaces, text, -, hcolon⟩ := (tokens_eq_cons_iff (by simp)).1 h
  obtain ⟨sp', _, r', rfl, spaces', ⟨⟩, -, rfl⟩ := (tokens_eq_cons_iff (by simp)).1 hcolon.symm
  cases text with
  | @string _ w body => exact ⟨sp, w, sp', r', by simp, spaces, spaces', body, rfl⟩

/-- A key and a value with a token behind are a member of the text. -/
theorem exists_member {ps : List Piece} {t : Token} (hcs : tokens cs = .string ps :: .colon :: ts)
    (value : ∀ r, r.length < cs.length → ts = tokens r → Stands mode r v (t :: rest))
    (good : t ≠ .bad) (key : String) :
    ∃ (m : MemberPart) (w r : List Char), cs = m.padded ++ (w ++ r) ∧ m.name = key ∧
      BodyText m.key ps ∧ m.part.value = v ∧ Denotes mode m.part.text m.part.value ∧
      TokenText t w ∧ rest = tokens r := by
  obtain ⟨sp, w, sp', r, rfl, front, back, body, rfl⟩ := exists_key hcs
  obtain ⟨p, w', r', rfl, rfl, denotes, text, rfl⟩ := (value r (by grind) rfl).exists_part good
  exact ⟨⟨sp, w, key, sp', p, front, back⟩, w', r', by simp [MemberPart.padded], rfl, body, rfl,
    denotes, text, rfl⟩

section Containers

variable {n : Nat} (sound : ∀ cs : List Char, cs.length ≤ n →
  ∀ {v ts}, readValue mode (tokens cs) = some (v, ts) → Stands mode cs v ts)

include sound

theorem stands_of_items {vs : List Value} (h : Items mode ts vs rest) (hn : cs.length ≤ n)
    (hts : ts = tokens cs) :
    ∃ parts r, parts ≠ [] ∧ cs = separated (parts.map Part.padded) ++ ']' :: r ∧
      (∀ p ∈ parts, Denotes mode p.text p.value) ∧ vs = parts.map Part.value ∧
      rest = tokens r := by
  induction h generalizing cs with
  | last value =>
    obtain ⟨p, _, r, rfl, rfl, denotes, ⟨⟩, rfl⟩ :=
      (sound cs hn (hts ▸ value)).exists_part (by simp)
    exact ⟨[p], r, by simp, rfl, by simpa using denotes, rfl, rfl⟩
  | more value _ ih =>
    obtain ⟨p, _, r, rfl, rfl, denotes, ⟨⟩, rfl⟩ :=
      (sound cs hn (hts ▸ value)).exists_part (by simp)
    obtain ⟨parts, r, nonempty, rfl, items, rfl, rfl⟩ := ih (by grind) rfl
    exact ⟨p :: parts, r, by simp, (separated_cons nonempty _).symm,
      by simpa using ⟨denotes, items⟩, rfl, rfl⟩

theorem stands_of_members {ms : List (String × Value)} (h : Members mode ts ms rest)
    (hn : cs.length ≤ n) (hts : ts = tokens cs) :
    ∃ parts r, parts ≠ [] ∧ cs = separated (parts.map MemberPart.padded) ++ '\x7d' :: r ∧
      (∀ m ∈ parts, Names mode m.key m.name) ∧
      (∀ m ∈ parts, Denotes mode m.part.text m.part.value) ∧
      ms = parts.map MemberPart.member ∧ rest = tokens r := by
  induction h generalizing cs with
  | @last ps ts rest key v name value =>
    obtain ⟨m, _, r, rfl, rfl, body, rfl, denotes, ⟨⟩, rfl⟩ := exists_member hts.symm
      (fun r hr he => sound r (by omega) (he ▸ value)) (by simp) key
    exact ⟨[m], r, by simp, rfl, by simpa using ⟨ps, body, name⟩, by simpa using denotes, rfl, rfl⟩
  | @more ps ts ts' rest key v ms name value _ ih =>
    obtain ⟨m, _, r, rfl, rfl, body, rfl, denotes, ⟨⟩, rfl⟩ := exists_member hts.symm
      (fun r hr he => sound r (by omega) (he ▸ value)) (by simp) key
    obtain ⟨parts, r, nonempty, rfl, keys, values, rfl, rfl⟩ := ih (by grind) rfl
    exact ⟨m :: parts, r, by simp, (separated_cons nonempty _).symm,
      by simpa using ⟨⟨ps, body, name⟩, keys⟩, by simpa using ⟨denotes, values⟩, rfl, rfl⟩

end Containers

theorem Mode.eq_deeper_of_admits {mode : Mode} (h : mode.admits ([] : List Frame) = true) :
    ∃ inner : Mode, mode = inner.deeper 1 := by
  cases mode with
  | skipping => exact ⟨.skipping, rfl⟩
  | strict room =>
    cases room with
    | zero => simp [admits] at h
    | succ room => exact ⟨.strict room, rfl⟩

/-- Only a mode with room for a container reads one. -/
theorem exists_inner {t : Token} (h : readValue mode (t :: ts) = some (v, rest))
    (opens : t = .openArray ∨ t = .openObject) : ∃ inner : Mode, mode = inner.deeper 1 := by
  by_cases hadmits : mode.admits ([] : List Frame) = true
  · exact Mode.eq_deeper_of_admits hadmits
  · rw [readValue_cons] at h
    rcases opens with rfl | rfl <;> simp [ReadState.enter, hadmits] at h

/-- A token that is a value of its own has the text of the value. -/
theorem denotes_of_enter {t : Token} {w : List Char} (text : TokenText t w)
    (h : ReadState.enter mode [] t = some (.done v)) : Denotes mode w v := by
  cases text with
  | null =>
    obtain rfl := ReadState.done.inj (Option.some.inj h)
    exact .null
  | bool b =>
    obtain rfl := ReadState.done.inj (Option.some.inj h)
    exact .bool b
  | number text =>
    obtain ⟨n, value, hv⟩ := Option.map_eq_some_iff.1 h
    obtain rfl := ReadState.done.inj hv
    exact .number text value
  | string body =>
    obtain ⟨s, name, hv⟩ := Option.map_eq_some_iff.1 h
    obtain rfl := ReadState.done.inj hv
    exact .string ⟨_, body, name⟩
  | openArray | openObject =>
    rw [ReadState.enter] at h
    split at h <;> cases h
  | _ => cases h

theorem TokenText.endsBefore {t : Token} {w r : List Char} (text : TokenText t w)
    (ends : t.EndsBefore r) : EndsBefore w r := by
  cases text with
  | number text => exact fun l' text' => text.unique text' ▸ ends
  | bool b => cases b <;> exact endsBefore_of_first (by decide)
  | _ => exact endsBefore_of_first (by decide)

/-- What is read from a text stands at its front. -/
theorem stands_of_readValue (h : readValue mode (tokens cs) = some (v, ts)) :
    Stands mode cs v ts := by
  -- What stands in a container is shorter, but it is read with less room.
  induction hn : cs.length using Nat.strongRecOn generalizing mode cs v ts with
  | ind n ih =>
    cases hcs : tokens cs with
    | nil =>
      rw [hcs] at h
      cases h
    | cons t ts' =>
      rw [hcs] at h
      by_cases good : t = .bad
      · subst good
        cases h
      obtain ⟨sp, w, r, rfl, spaces, text, ends, rfl⟩ := (tokens_eq_cons_iff good).1 hcs
      obtain ⟨c, w', rfl, -⟩ := text.exists_cons
      have sound (inner : Mode) (cs' : List Char) (le : cs'.length ≤ r.length) {v : Value}
          {ts : List Token} (hv : readValue inner (tokens cs') = some (v, ts)) :
          Stands inner cs' v ts :=
        ih cs'.length (by grind) hv rfl
      by_cases array : t = .openArray
      · subst array
        cases text
        obtain ⟨inner, rfl⟩ := exists_inner h (.inl rfl)
        rcases readValue_openArray inner h with ⟨hr, rfl⟩ | ⟨vs, hvs, rfl⟩
        · obtain ⟨sp', _, r', rfl, spaces', ⟨⟩, -, rfl⟩ := (tokens_eq_cons_iff (by simp)).1 hr
          exact ⟨sp, _, r', by simp, spaces, .emptyArray spaces',
            endsBefore_of_first (by decide), rfl⟩
        · obtain ⟨parts, r', nonempty, rfl, items, rfl, rfl⟩ :=
            stands_of_items (sound inner) hvs (Nat.le_refl _) rfl
          exact ⟨sp, _, r', by simp, spaces, .array nonempty items,
            endsBefore_of_first (by decide), rfl⟩
      by_cases object : t = .openObject
      · subst object
        cases text
        obtain ⟨inner, rfl⟩ := exists_inner h (.inr rfl)
        rcases readValue_openObject inner h with ⟨hr, rfl⟩ | ⟨ms, hms, rfl⟩
        · obtain ⟨sp', _, r', rfl, spaces', ⟨⟩, -, rfl⟩ := (tokens_eq_cons_iff (by simp)).1 hr
          exact ⟨sp, _, r', by simp, spaces, .emptyObject spaces',
            endsBefore_of_first (by decide), rfl⟩
        · obtain ⟨parts, r', nonempty, rfl, keys, values, rfl, rfl⟩ :=
            stands_of_members (sound inner) hms (Nat.le_refl _) rfl
          exact ⟨sp, _, r', by simp, spaces, .object nonempty keys values,
            endsBefore_of_first (by decide), rfl⟩
      · obtain ⟨henter, hrest⟩ := readValue_scalar array object h
        exact ⟨sp, c :: w', r, rfl, spaces, denotes_of_enter text henter, text.endsBefore ends,
          hrest.symm⟩

theorem stands_iff : Stands mode cs v ts ↔ readValue mode (tokens cs) = some (v, ts) := by
  constructor
  · rintro ⟨sp, w, r, rfl, spaces, denotes, ends, rfl⟩
    rw [tokens_spaces spaces]
    exact denotes.reads r ends
  · exact stands_of_readValue

end Soundness

section Texts

variable {text : List Char} {v : Value}

/-- Just the JSON texts are parsed. -/
theorem isText_iff : IsText text v ↔ parseAsWritten text = some v := by
  rw [parseAsWritten_eq_some_iff, ← stands_iff]
  constructor
  · rintro ⟨p, rfl, rfl, denotes⟩
    have ends : EndsNumber p.after := by
      have h := endsNumber_spaces p.back (show EndsNumber [] from trivial)
      rwa [List.append_nil] at h
    exact ⟨p.before, p.text, p.after, rfl, p.front, denotes, endsBefore_of_ends ends,
      (tokens_eq_nil_iff.2 p.back).symm⟩
  · rintro ⟨sp, w, r, rfl, spaces, denotes, -, hr⟩
    exact ⟨⟨sp, w, r, v, spaces, tokens_eq_nil_iff.1 hr.symm⟩, rfl, rfl, denotes⟩

end Texts

end ImsProvisioning.Json
