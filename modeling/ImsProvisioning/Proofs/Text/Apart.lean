/-! # Taking texts apart

A text in front of a mark can be told from what follows if no mark stands in it. The decimal
text of an integer is made of digits and at most a sign, and the integer can be read off it.
-/

namespace ImsProvisioning.Text

variable {u v s t : List Char} {x y : Char}

/-- No character of the text is a mark. A fixed text is matched with its list of characters. -/
def Unmarked (isMark : Char → Bool) (text : String) : Prop :=
  ∃ cs, text = String.ofList cs ∧ cs.all fun c => ! isMark c

theorem Unmarked.not_isMark {isMark : Char → Bool} {text : String} (h : Unmarked isMark text) :
    ∀ c ∈ text.toList, ¬ isMark c := by
  obtain ⟨cs, rfl, hcs⟩ := h
  rw [String.toList_ofList]
  simpa using hcs

/-- Texts that agree have their first marks in the same place. -/
theorem append_mark_inj (isMark : Char → Bool) (hu : ∀ c ∈ u, ¬ isMark c)
    (hv : ∀ c ∈ v, ¬ isMark c) (hx : isMark x) (hy : isMark y)
    (h : u ++ x :: s = v ++ y :: t) : u = v ∧ x = y ∧ s = t := by
  induction u generalizing v with
  | nil =>
    cases v with
    | nil => exact ⟨rfl, List.cons.inj h⟩
    | cons d v =>
      obtain ⟨rfl, -⟩ := List.cons.inj h
      exact absurd hx (hv x (List.mem_cons_self ..))
  | cons c u ih =>
    cases v with
    | nil =>
      obtain ⟨rfl, -⟩ := List.cons.inj h
      exact absurd hy (hu c (List.mem_cons_self ..))
    | cons d v =>
      obtain ⟨rfl, hrest⟩ := List.cons.inj h
      obtain ⟨rfl, hmark⟩ := ih (fun c hc => hu c (List.mem_cons_of_mem _ hc))
        (fun c hc => hv c (List.mem_cons_of_mem _ hc)) hrest
      exact ⟨rfl, hmark⟩

theorem toList_toString_natCast (n : Nat) : (toString (n : Int)).toList = Nat.toDigits 10 n :=
  Nat.toList_repr

theorem toList_toString_negSucc (n : Nat) :
    (toString (Int.negSucc n)).toList = '-' :: Nat.toDigits 10 (n + 1) := by
  have hneg : toString (Int.negSucc n) = "-" ++ (n + 1).repr := rfl
  rw [hneg, String.toList_append, Nat.toList_repr]
  rfl

theorem isDigit_of_mem_decimal {n : Nat} {c : Char} (h : c ∈ Nat.toDigits 10 n) : c.isDigit :=
  Nat.isDigit_of_mem_toDigits (by decide) (by decide) h

theorem mem_toString {z : Int} {c : Char} (h : c ∈ (toString z).toList) :
    c = '-' ∨ c.isDigit := by
  cases z with
  | ofNat n =>
    rw [Int.ofNat_eq_natCast, toList_toString_natCast] at h
    exact .inr (isDigit_of_mem_decimal h)
  | negSucc n =>
    rw [toList_toString_negSucc] at h
    exact (List.mem_cons.1 h).imp_right isDigit_of_mem_decimal

theorem toDigits_inj {m n : Nat} : Nat.toDigits 10 m = Nat.toDigits 10 n ↔ m = n := by
  refine ⟨fun h => ?_, congrArg _⟩
  have hvalue := congrArg (fun ds => Nat.ofDigitChars 10 ds 0) h
  simpa only [Nat.ofDigitChars_ten_toDigits] using hvalue

/-- A sign is no digit, so the texts of integers of different signs differ at once. -/
theorem toDigits_ne_minus (n : Nat) (ds : List Char) : Nat.toDigits 10 n ≠ '-' :: ds := by
  intro h
  have hdigit := isDigit_of_mem_decimal (h ▸ List.mem_cons_self ..)
  revert hdigit
  decide

theorem toString_inj {m n : Int} : toString m = toString n ↔ m = n := by
  rw [← String.toList_inj]
  cases m with
  | ofNat m =>
    rw [Int.ofNat_eq_natCast, toList_toString_natCast]
    cases n with
    | ofNat n => rw [Int.ofNat_eq_natCast, toList_toString_natCast, toDigits_inj, Int.natCast_inj]
    | negSucc n =>
      rw [toList_toString_negSucc]
      exact iff_of_false (toDigits_ne_minus m _) (by omega)
  | negSucc m =>
    rw [toList_toString_negSucc]
    cases n with
    | ofNat n =>
      rw [Int.ofNat_eq_natCast, toList_toString_natCast]
      exact iff_of_false (toDigits_ne_minus n _).symm (by omega)
    | negSucc n =>
      rw [toList_toString_negSucc, List.cons.injEq, toDigits_inj, Int.negSucc_inj]
      simp

theorem int32_inj {m n : Int32} (h : (toString m.toInt).toList = (toString n.toInt).toList) :
    m = n :=
  Int32.toInt_inj.1 (toString_inj.1 (String.toList_inj.1 h))

end ImsProvisioning.Text
