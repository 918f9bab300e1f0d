import ImsProvisioning.Proofs.Json.Grammar

/-! # Texts of strings and integers

A text is parsed as a string, or as an integer, just if it is a string literal or an
integer literal with space around it.
-/

namespace ImsProvisioning.Json

/-- The text of an integer: digits without a superfluous zero, and no minus in front of zero. -/
inductive IntegerText : List Char → Int → Prop
  | plain {ds : List Char} (whole : IsWhole ds) : IntegerText ds (Nat.ofDigitChars 10 ds 0)
  | minus {ds : List Char} (whole : IsWhole ds) (nonzero : ds ≠ ['0']) :
      IntegerText ('-' :: ds) (-(Nat.ofDigitChars 10 ds 0 : Nat))

def Surrounds (text literal : List Char) : Prop :=
  ∃ sp sp', text = sp ++ (literal ++ sp') ∧ IsSpaces sp ∧ IsSpaces sp'

variable {mode : Mode} {text w ds : List Char} {s : String} {z : Int} {l : NumberLiteral}
  {v : Value}

theorem spells_toList_iff : Spells w s.toList ↔ ∃ ps, BodyText w ps ∧ text? ps = some s := by
  rw [spells_iff]
  apply exists_congr
  intro ps
  apply and_congr_right
  intro _
  simp only [text?, Option.map_eq_some_iff]
  constructor
  · exact fun h => ⟨s.toList, h, String.ofList_toList⟩
  · rintro ⟨cs, h, rfl⟩
    rw [h, String.toList_ofList]

theorem names_strict_iff {room : Nat} : Names (.strict room) w s ↔ Spells w s.toList :=
  spells_toList_iff.symm

theorem isText_iff_surrounds :
    IsText text v ↔ ∃ w, Surrounds text w ∧ Denotes (.strict maxDepth) w v := by
  constructor
  · rintro ⟨p, rfl, rfl, denotes⟩
    exact ⟨p.text, ⟨p.before, p.after, rfl, p.front, p.back⟩, denotes⟩
  · rintro ⟨w, ⟨sp, sp', rfl, front, back⟩, denotes⟩
    exact ⟨⟨sp, w, sp', v, front, back⟩, rfl, rfl, denotes⟩

theorem denotes_string_iff :
    Denotes mode w (.string s) ↔ ∃ body, w = '"' :: (body ++ ['"']) ∧ Names mode body s := by
  constructor
  · intro h
    generalize hv : Value.string s = v at h
    cases h with
    | string names =>
      obtain rfl := Value.string.inj hv
      exact ⟨_, rfl, names⟩
    | _ => cases hv
  · rintro ⟨body, rfl, names⟩
    exact .string names

theorem denotes_number_iff {n : Number} :
    Denotes mode w (.number n) ↔ ∃ l, NumberText l w ∧ mode.number? l = some n := by
  constructor
  · intro h
    generalize hv : Value.number n = v at h
    cases h with
    | number text value =>
      obtain rfl := Value.number.inj hv
      exact ⟨_, text, value⟩
    | _ => cases hv
  · rintro ⟨l, text, value⟩
    exact .number text value

theorem IsWhole.value_pos (h : IsWhole ds) (nonzero : ds ≠ ['0']) :
    0 < Nat.ofDigitChars 10 ds 0 := by
  obtain ⟨c, ds', rfl, digit⟩ := h.1.exists_cons
  have hc : c ≠ '0' := by
    rintro rfl
    exact nonzero (h.2 rfl)
  have hzero : '0'.toNat < c.toNat := by
    have le : '0'.toNat ≤ c.toNat := (Char.isDigit_iff_toNat.1 digit).1
    have ne : '0'.toNat ≠ c.toNat := fun he => hc (Char.toNat_inj.1 he).symm
    omega
  rw [Nat.ofDigitChars_cons, Nat.ofDigitChars_eq_ofDigitChars_zero]
  have hpow : 0 < 10 ^ ds'.length := Nat.pow_pos (by decide)
  have hmul := Nat.mul_pos hpow (show 0 < 10 * 0 + (c.toNat - '0'.toNat) by omega)
  omega

theorem NumberLiteral.real?_ne_integer : l.real? ≠ some (.integer z) := by
  simp [real?]

/-- Only a literal without fraction and exponent denotes an integer. -/
theorem NumberLiteral.value?_eq_integer_iff (low : -0x80000000 ≤ z) (high : z ≤ 0x7FFFFFFF) :
    l.value? = some (.integer z) ↔ l.fraction = none ∧ l.exponent = none ∧
      if l.negative then
        0 < Nat.ofDigitChars 10 l.whole 0 ∧ z = -(Nat.ofDigitChars 10 l.whole 0 : Nat)
      else z = Nat.ofDigitChars 10 l.whole 0 := by
  have hpow : Nat.pow 2 63 = 0x8000000000000000 := by decide
  have hreal := l.real?_ne_integer (z := z)
  obtain ⟨negative, whole, fraction, exponent⟩ := l
  generalize hn : Nat.ofDigitChars 10 whole 0 = n
  cases fraction with
  | some => simpa [value?] using hreal
  | none =>
    cases exponent with
    | some => simpa [value?] using hreal
    | none =>
      cases negative with
      | true =>
        simp only [value?, hn, hpow, Option.isNone_none, and_self, if_true, true_and]
        by_cases bound : 0 < n ∧ n ≤ 0x8000000000000000
        · rw [if_pos bound]
          simp [bound.1, eq_comm]
        · rw [if_neg bound]
          exact iff_of_false hreal (by omega)
      | false =>
        simp only [value?, hn, UInt64.size, Option.isNone_none, and_self, if_true, true_and]
        by_cases bound : n < 0x10000000000000000
        · rw [if_neg (by simp), if_pos bound]
          simp [eq_comm]
        · rw [if_neg (by simp), if_neg bound]
          exact iff_of_false hreal (by simp; omega)

/-- A literal denotes an integer in range just if it is the text of the integer. -/
theorem integerText_iff (low : -0x80000000 ≤ z) (high : z ≤ 0x7FFFFFFF) :
    IntegerText w z ↔ ∃ l, NumberText l w ∧ l.value? = some (.integer z) := by
  constructor
  · intro h
    cases h with
    | @plain ds whole =>
      have text : NumberText ⟨false, w, none, none⟩ w := by
        simpa using NumberText.mk (l := ⟨false, w, none, none⟩) whole .absent .absent
      exact ⟨_, text, (NumberLiteral.value?_eq_integer_iff low high).2 ⟨rfl, rfl, rfl⟩⟩
    | @minus ds whole nonzero =>
      have text : NumberText ⟨true, ds, none, none⟩ ('-' :: ds) := by
        simpa using NumberText.mk (l := ⟨true, ds, none, none⟩) whole .absent .absent
      exact ⟨_, text, (NumberLiteral.value?_eq_integer_iff low high).2
        ⟨rfl, rfl, whole.value_pos nonzero, rfl⟩⟩
  · rintro ⟨l, text, value⟩
    obtain ⟨hfraction, hexponent, hz⟩ := (NumberLiteral.value?_eq_integer_iff low high).1 value
    obtain ⟨whole, hf, he⟩ := text
    rw [hfraction] at hf
    rw [hexponent] at he
    cases hf
    cases he
    cases hnegative : l.negative with
    | true =>
      rw [hnegative, if_pos rfl] at hz
      obtain ⟨pos, rfl⟩ := hz
      have nonzero : l.whole ≠ ['0'] := by
        intro hzero
        rw [hzero] at pos
        revert pos
        decide
      simpa using IntegerText.minus whole nonzero
    | false =>
      rw [hnegative, if_neg (by simp)] at hz
      subst hz
      simpa using IntegerText.plain whole

theorem isText_string_iff :
    IsText text (.string s) ↔
      ∃ w, Surrounds text ('"' :: (w ++ ['"'])) ∧ Spells w s.toList := by
  simp only [isText_iff_surrounds, denotes_string_iff, names_strict_iff]
  constructor
  · rintro ⟨_, h, w, rfl, spells⟩
    exact ⟨w, h, spells⟩
  · rintro ⟨w, h, spells⟩
    exact ⟨_, h, w, rfl, spells⟩

theorem isText_integer_iff (low : -0x80000000 ≤ z) (high : z ≤ 0x7FFFFFFF) :
    IsText text (.number (.integer z)) ↔ ∃ w, Surrounds text w ∧ IntegerText w z := by
  simp only [isText_iff_surrounds, denotes_number_iff, integerText_iff low high]
  rfl

end ImsProvisioning.Json
