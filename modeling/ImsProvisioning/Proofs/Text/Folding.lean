import ImsProvisioning.Text.Blank
import ImsProvisioning.Text.LowerCase

/-! # Blanks and case

Trimming leaves the one part of a text that is only surrounded by blanks and has none at its
ends. Of the words in ASCII, one without the letters i and k is the lower case of just those
texts that differ from it in the case of ASCII letters.
-/

namespace ImsProvisioning.Text

/-- The text is this part with blanks around, and the part has no blank at either end. -/
structure Strips (s part : List Char) : Prop where
  around : ∃ front back, s = front ++ part ++ back ∧
    (∀ c ∈ front, isBlank c) ∧ ∀ c ∈ back, isBlank c
  first : ∀ c, part.head? = some c → ¬ isBlank c
  last : ∀ c, part.getLast? = some c → ¬ isBlank c

theorem dropWhile_of_head {s : List Char} (h : ∀ c, s.head? = some c → ¬ isBlank c) :
    s.dropWhile isBlank = s := by
  cases s with
  | nil => rfl
  | cons c s => exact List.dropWhile_cons_of_neg (h c rfl)

theorem dropWhile_blanks {s : List Char} (h : ∀ c ∈ s, isBlank c) (rest : List Char) :
    (s ++ rest).dropWhile isBlank = rest.dropWhile isBlank :=
  List.dropWhile_append_of_pos h

/-- Trimming finds the part. -/
theorem Strips.trim_eq {s part : List Char} (h : Strips s part) : trim s = part := by
  obtain ⟨front, back, rfl, hfront, hback⟩ := h.around
  have hback' : ∀ c ∈ back.reverse, isBlank c := fun c hc => hback c (List.mem_reverse.1 hc)
  have hlast : part.reverse.dropWhile isBlank = part.reverse := by
    apply dropWhile_of_head
    intro c hc
    exact h.last c (by rwa [List.head?_reverse] at hc)
  rw [trim, List.append_assoc, dropWhile_blanks hfront]
  cases part with
  | nil =>
    have hall : back.dropWhile isBlank = [] := by
      simpa using dropWhile_blanks hback []
    rw [List.nil_append, hall]
    rfl
  | cons c part =>
    have hfirst : (c :: part ++ back).dropWhile isBlank = c :: part ++ back :=
      dropWhile_of_head fun d hd => h.first d hd
    rw [hfirst, List.reverse_append, dropWhile_blanks hback', hlast, List.reverse_reverse]

theorem dropWhile_head (s : List Char) :
    ∀ c, (s.dropWhile isBlank).head? = some c → ¬ isBlank c := by
  intro c hc
  have h := List.head?_dropWhile_not isBlank s
  rw [hc] at h
  simpa using h

theorem mem_takeWhile_blank {s : List Char} {c : Char} (h : c ∈ s.takeWhile isBlank) : isBlank c :=
  List.all_eq_true.1 List.all_takeWhile c h

theorem exists_dropWhile_eq (s : List Char) :
    ∃ back, s.dropWhile isBlank = trim s ++ back ∧ ∀ c ∈ back, isBlank c := by
  refine ⟨((s.dropWhile isBlank).reverse.takeWhile isBlank).reverse, ?_, fun c hc =>
    mem_takeWhile_blank (List.mem_reverse.1 hc)⟩
  rw [trim, ← List.reverse_append, List.takeWhile_append_dropWhile, List.reverse_reverse]

theorem strips_trim (s : List Char) : Strips s (trim s) where
  around := by
    obtain ⟨back, hback, blank⟩ := exists_dropWhile_eq s
    refine ⟨s.takeWhile isBlank, back, ?_, fun c => mem_takeWhile_blank, blank⟩
    rw [List.append_assoc, ← hback, List.takeWhile_append_dropWhile]
  first := by
    intro c hc
    obtain ⟨back, hback, -⟩ := exists_dropWhile_eq s
    apply dropWhile_head s c
    rw [hback, List.head?_append, hc, Option.some_or]
  last := by
    intro c hc
    rw [trim, List.getLast?_reverse] at hc
    exact dropWhile_head _ c hc

theorem trim_surrounded {front back : List Char} (hfront : ∀ c ∈ front, isBlank c)
    (hback : ∀ c ∈ back, isBlank c) (s : List Char) : trim (front ++ s ++ back) = trim s := by
  have h := strips_trim s
  obtain ⟨before, after, hs, hbefore, hafter⟩ := h.around
  apply Strips.trim_eq
  refine ⟨⟨front ++ before, after ++ back, ?_, ?_, ?_⟩, h.first, h.last⟩
  · conv => lhs; rw [hs]
    simp only [List.append_assoc]
  · intro c hc
    exact (List.mem_append.1 hc).elim (hfront c) (hbefore c)
  · intro c hc
    exact (List.mem_append.1 hc).elim (hafter c) (hback c)

/-- The texts are the same up to the case of ASCII letters. -/
def SameUpToCase (s t : List Char) : Prop := s.map Char.toLower = t.map Char.toLower

/-- But for the Kelvin sign, a character beyond ASCII has its lower case there as well. -/
theorem lowerRuns_beyond : ∀ r ∈ lowerRuns, r.2.1 < 0x80 ∨ r = (0x212A, 0x212A, 1, -8383) ∨
    0x80 ≤ r.1 + r.2.2.2 ∧
      (r.2.1 + r.2.2.2 < 0xD800 ∨ 0xE000 ≤ r.1 + r.2.2.2 ∧ r.2.1 + r.2.2.2 < 0x110000) := by
  decide +kernel

theorem forall_ascii {P : Char → Prop} (h : ∀ n < 0x80, P (Char.ofNat n)) {c : Char}
    (ascii : c.toNat < 0x80) : P c := by
  have hc := h c.toNat ascii
  rwa [Char.ofNat_toNat] at hc

theorem lowerCase_ascii {c : Char} (h : c.toNat < 0x80) : lowerCase c = [c.toLower] :=
  forall_ascii (P := fun c => lowerCase c = [c.toLower]) (by decide +kernel) h

theorem toNat_ofNat {n : Nat} (h : n < 0xD800 ∨ 0xE000 ≤ n ∧ n < 0x110000) :
    (Char.ofNat n).toNat = n := by
  have valid : n.isValidChar := by
    unfold Nat.isValidChar
    omega
  rw [Char.ofNat, dif_pos valid]
  rfl

theorem lowerCase_beyond {c : Char} (h : 0x80 ≤ c.toNat) :
    ∃ d rest, lowerCase c = d :: rest ∧ (0x80 ≤ d.toNat ∨ d = 'k' ∨ d = 'i') := by
  unfold lowerCase
  split
  · exact ⟨'i', _, rfl, .inr (.inr rfl)⟩
  · dsimp only
    split
    · rename_i r hr
      have hmem := List.mem_of_find?_eq_some hr
      have hholds := List.find?_some hr
      simp only [Bool.and_eq_true, decide_eq_true_eq] at hholds
      refine ⟨_, [], rfl, ?_⟩
      rcases lowerRuns_beyond r hmem with low | rfl | ⟨beyond, valid⟩
      · omega
      · right; left
        rw [Nat.le_antisymm hholds.1.2 hholds.1.1]
        rfl
      · left
        rw [toNat_ofNat] <;> omega
    · exact ⟨c, [], rfl, .inl h⟩

-- The Kelvin sign is why the letter k is set apart.
example : lowerCase '\u212A' = ['k'] := by decide +kernel

/-- A character that no character beyond ASCII has at the front of its lower case. -/
def IsPlain (c : Char) : Prop := c.toNat < 0x80 ∧ c ≠ 'k' ∧ c ≠ 'i'

theorem toLower_beyond {c : Char} (h : 0x80 ≤ c.toNat) : c.toLower = c := by
  refine dif_neg ?_
  rintro ⟨-, le⟩
  have hle : c.toNat ≤ 0x5A := le
  omega

theorem flatMap_lowerCase_eq_iff {s word : List Char} (plain : ∀ c ∈ word, IsPlain c) :
    s.flatMap lowerCase = word ↔ s.map Char.toLower = word := by
  induction s generalizing word with
  | nil => rfl
  | cons c s ih =>
    rw [List.flatMap_cons, List.map_cons]
    by_cases ascii : c.toNat < 0x80
    · rw [lowerCase_ascii ascii, List.singleton_append]
      cases word with
      | nil => simp
      | cons d word =>
        rw [List.cons.injEq, List.cons.injEq, ih fun e he => plain e (List.mem_cons_of_mem _ he)]
    · obtain ⟨d, rest, hd, hbeyond⟩ := lowerCase_beyond (Nat.le_of_not_lt ascii)
      have hc := toLower_beyond (Nat.le_of_not_lt ascii)
      rw [hd, hc]
      constructor
      · rintro rfl
        obtain ⟨hascii, hk, hi⟩ := plain d (List.mem_cons_self ..)
        simp only [hk, hi, or_false] at hbeyond
        omega
      · rintro rfl
        exact absurd (plain c (List.mem_cons_self ..)).1 ascii

theorem isBlank_toLower (c : Char) : isBlank c.toLower = isBlank c := by
  by_cases ascii : c.toNat < 0x80
  · exact forall_ascii (P := fun c => isBlank c.toLower = isBlank c) (by decide +kernel) ascii
  · rw [toLower_beyond (Nat.le_of_not_lt ascii)]

theorem dropWhile_toLower (s : List Char) :
    (s.map Char.toLower).dropWhile isBlank = (s.dropWhile isBlank).map Char.toLower := by
  rw [List.dropWhile_map, show isBlank ∘ Char.toLower = isBlank from funext isBlank_toLower]

theorem trim_toLower (s : List Char) : trim (s.map Char.toLower) = (trim s).map Char.toLower := by
  rw [trim, trim, dropWhile_toLower, ← List.map_reverse, dropWhile_toLower, ← List.map_reverse]

theorem SameUpToCase.trim {s t : List Char} (h : SameUpToCase s t) :
    SameUpToCase (trim s) (trim t) := by
  rw [SameUpToCase, ← trim_toLower, ← trim_toLower, h]

end ImsProvisioning.Text
