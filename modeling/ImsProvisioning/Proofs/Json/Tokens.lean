import ImsProvisioning.Proofs.Json.Literals

/-! # Tokens in a text

The tokens of RFC 8259 as texts. Each is found behind space, and nothing but the end of a
number depends on what follows it.
-/

namespace ImsProvisioning.Json

def IsSpaces (cs : List Char) : Prop := ∀ c ∈ cs, isSpace c

inductive TokenText : Token → List Char → Prop
  | openArray : TokenText .openArray ['[']
  | closeArray : TokenText .closeArray [']']
  | openObject : TokenText .openObject ['\x7b']
  | closeObject : TokenText .closeObject ['\x7d']
  | comma : TokenText .comma [',']
  | colon : TokenText .colon [':']
  | null : TokenText .null "null".toList
  | bool (b : Bool) : TokenText (.bool b) (toString b).toList
  | number {l : NumberLiteral} {w : List Char} (text : NumberText l w) : TokenText (.number l) w
  | string {ps : List Piece} {w : List Char} (body : BodyText w ps) :
      TokenText (.string ps) ('"' :: (w ++ ['"']))

/-- The token does not go on in the text behind it. -/
def Token.EndsBefore : Token → List Char → Prop
  | .number l, rest => l.EndsBefore rest
  | _, _ => True

section Scanning

variable {t : Token} {c : Char} {w rest r : List Char}

theorem scan_number (h : c = '-' ∨ c.isDigit) (cs : List Char) :
    scan (c :: cs) = (scanNumber (c :: cs)).map fun r => (.number r.1, r.2) := by
  rw [scan.eq_def]
  split <;> simp_all

theorem scan_eq_some_iff {cs : List Char} :
    scan cs = some (t, r) ↔ ∃ w, TokenText t w ∧ cs = w ++ r ∧ t.EndsBefore r := by
  constructor
  · intro h
    unfold scan at h
    split at h
    case h_10 =>
      obtain ⟨⟨ps, r'⟩, hs, he⟩ := Option.map_eq_some_iff.1 h
      obtain ⟨rfl, rfl⟩ := Prod.mk.inj he
      obtain ⟨w, hw, rfl⟩ := body_of_scanString hs
      exact ⟨_, .string hw, by simp, trivial⟩
    case h_11 =>
      obtain ⟨⟨l, r'⟩, hs, he⟩ := Option.map_eq_some_iff.1 h
      obtain ⟨rfl, rfl⟩ := Prod.mk.inj he
      obtain ⟨w, hw, rfl, ends⟩ := scanNumber_eq_some_iff.1 hs
      exact ⟨w, .number hw, rfl, ends⟩
    all_goals
      obtain ⟨rfl, rfl⟩ := Prod.mk.inj (Option.some.inj h)
      exact ⟨_, by constructor, rfl, trivial⟩
  · rintro ⟨w, text, rfl, ends⟩
    cases text with
    | number text =>
      have h := scanNumber_eq_some_iff.2 ⟨w, text, rfl, ends⟩
      obtain ⟨c, w', rfl, first⟩ := text.exists_cons
      rw [List.cons_append] at h ⊢
      rw [scan_number first, h]
      rfl
    | @string ps w body =>
      have h := scanString_of_body body r
      rw [List.cons_append, List.append_assoc, List.singleton_append, scan, h]
      rfl
    | bool b => cases b <;> rfl
    | _ => rfl

theorem isSpace_iff : isSpace c ↔ c = ' ' ∨ c = '\n' ∨ c = '\r' ∨ c = '\t' := by
  simp [isSpace, or_assoc]

theorem TokenText.exists_cons (h : TokenText t w) : ∃ c w', w = c :: w' ∧ ¬ isSpace c := by
  cases h with
  | number text =>
    obtain ⟨c, w', rfl, first⟩ := text.exists_cons
    refine ⟨c, w', rfl, ?_⟩
    rw [isSpace_iff]
    rintro (rfl | rfl | rfl | rfl) <;> revert first <;> decide
  | bool b => cases b <;> exact ⟨_, _, rfl, by decide⟩
  | _ => exact ⟨_, _, rfl, by decide⟩

end Scanning

section

variable (cs : List Char)

@[simp] theorem tokens_nil : tokens [] = [] := tokens_of_space rfl

@[simp] theorem tokens_openArray : tokens ('[' :: cs) = .openArray :: tokens cs :=
  tokens_of_scan rfl rfl

@[simp] theorem tokens_closeArray : tokens (']' :: cs) = .closeArray :: tokens cs :=
  tokens_of_scan rfl rfl

@[simp] theorem tokens_openObject : tokens ('\x7b' :: cs) = .openObject :: tokens cs :=
  tokens_of_scan rfl rfl

@[simp] theorem tokens_closeObject : tokens ('\x7d' :: cs) = .closeObject :: tokens cs :=
  tokens_of_scan rfl rfl

@[simp] theorem tokens_comma : tokens (',' :: cs) = .comma :: tokens cs :=
  tokens_of_scan rfl rfl

@[simp] theorem tokens_colon : tokens (':' :: cs) = .colon :: tokens cs :=
  tokens_of_scan rfl rfl

end

section Spaces

variable {t : Token} {ts : List Token} {cs sp w rest : List Char}

theorem isSpaces_nil : IsSpaces [] := List.forall_mem_nil _

theorem exists_spaces (cs : List Char) :
    ∃ sp, IsSpaces sp ∧ cs = sp ++ cs.dropWhile isSpace :=
  ⟨cs.takeWhile isSpace, fun c hc => List.all_eq_true.1 List.all_takeWhile c hc,
    List.takeWhile_append_dropWhile.symm⟩

theorem dropWhile_spaces (spaces : IsSpaces sp) (cs : List Char) :
    (sp ++ cs).dropWhile isSpace = cs.dropWhile isSpace :=
  List.dropWhile_append_of_pos spaces

theorem tokens_spaces (spaces : IsSpaces sp) (cs : List Char) : tokens (sp ++ cs) = tokens cs := by
  have hdrop := dropWhile_spaces spaces cs
  cases hcs : cs.dropWhile isSpace with
  | nil => rw [tokens_of_space hcs, tokens_of_space (hdrop.trans hcs)]
  | cons c rest =>
    cases hs : scan (c :: rest) with
    | none => rw [tokens_of_bad hcs hs, tokens_of_bad (hdrop.trans hcs) hs]
    | some r => rw [tokens_of_scan hcs hs, tokens_of_scan (hdrop.trans hcs) hs]

theorem tokens_text (text : TokenText t w) (ends : t.EndsBefore rest) :
    tokens (w ++ rest) = t :: tokens rest := by
  have hscan := scan_eq_some_iff.2 ⟨w, text, rfl, ends⟩
  obtain ⟨c, w', rfl, first⟩ := text.exists_cons
  exact tokens_of_scan (List.dropWhile_cons_of_neg first) hscan

theorem tokens_string {ps : List Piece} (body : BodyText w ps) (cs : List Char) :
    tokens ('"' :: (w ++ '"' :: cs)) = .string ps :: tokens cs := by
  have hends : (Token.string ps).EndsBefore cs := trivial
  have h := tokens_text (.string body) hends
  rwa [List.cons_append, List.append_assoc, List.singleton_append] at h

/-- The first token stands behind space, and nothing but the end of a number depends on what
follows it. -/
theorem tokens_eq_cons_iff (good : t ≠ .bad) :
    tokens cs = t :: ts ↔ ∃ sp w r, cs = sp ++ (w ++ r) ∧ IsSpaces sp ∧ TokenText t w ∧
      t.EndsBefore r ∧ ts = tokens r := by
  constructor
  · intro h
    obtain ⟨sp, spaces, hcs⟩ := exists_spaces cs
    cases hdrop : cs.dropWhile isSpace with
    | nil =>
      rw [tokens_of_space hdrop] at h
      cases h
    | cons c rest =>
      cases hs : scan (c :: rest) with
      | none =>
        rw [tokens_of_bad hdrop hs] at h
        exact absurd (List.cons.inj h).1.symm good
      | some r =>
        rw [tokens_of_scan hdrop hs] at h
        obtain ⟨rfl, rfl⟩ := List.cons.inj h
        obtain ⟨w, text, heq, ends⟩ := scan_eq_some_iff.1 hs
        exact ⟨sp, w, r.2, by rw [← heq, ← hdrop, ← hcs], spaces, text, ends, rfl⟩
  · rintro ⟨sp, w, r, rfl, spaces, text, ends, rfl⟩
    rw [tokens_spaces spaces, tokens_text text ends]

theorem tokens_eq_nil_iff : tokens cs = [] ↔ IsSpaces cs := by
  constructor
  · intro h
    obtain ⟨sp, spaces, hcs⟩ := exists_spaces cs
    cases hdrop : cs.dropWhile isSpace with
    | nil =>
      rw [hdrop, List.append_nil] at hcs
      exact hcs ▸ spaces
    | cons c rest =>
      cases hs : scan (c :: rest) with
      | none =>
        rw [tokens_of_bad hdrop hs] at h
        cases h
      | some r =>
        rw [tokens_of_scan hdrop hs] at h
        cases h
  · intro spaces
    rw [← List.append_nil cs, tokens_spaces spaces, tokens_nil]

end Spaces

section Ends

variable {sp rest : List Char}

theorem endsNumber_comma (cs : List Char) : EndsNumber (',' :: cs) := by simp [EndsNumber]

theorem endsNumber_closeArray (cs : List Char) : EndsNumber (']' :: cs) := by simp [EndsNumber]

theorem endsNumber_closeObject (cs : List Char) : EndsNumber ('\x7d' :: cs) := by
  simp [EndsNumber]

theorem endsNumber_spaces (spaces : IsSpaces sp) (ends : EndsNumber rest) :
    EndsNumber (sp ++ rest) := by
  cases sp with
  | nil => exact ends
  | cons c sp =>
    rcases isSpace_iff.1 (spaces c (List.mem_cons_self ..)) with rfl | rfl | rfl | rfl <;>
      simp [EndsNumber]

end Ends

end ImsProvisioning.Json
