import ImsProvisioning.Json.Token

/-! # Literals

The string and number literals of RFC 8259 as texts, apart from how they are scanned. The
scanner takes a string up to its closing quote, and a number as far as that goes on.
-/

namespace ImsProvisioning.Json

/-- The text does not begin with such a character. -/
def NotFirst (p : Char → Prop) (cs : List Char) : Prop := ∀ c, cs.head? = some c → ¬ p c

inductive BodyText : List Char → List Piece → Prop
  | nil : BodyText [] []
  | plain {c : Char} {w : List Char} {ps : List Piece} (quote : c ≠ '"') (backslash : c ≠ '\\')
      (control : 0x20 ≤ c.toNat) (body : BodyText w ps) : BodyText (c :: w) (.char c :: ps)
  | escape {e c : Char} {w : List Char} {ps : List Piece} (short : shortEscape? e = some c)
      (body : BodyText w ps) : BodyText ('\\' :: e :: w) (.char c :: ps)
  | unit {a b c d : Char} {n : Nat} {w : List Char} {ps : List Piece}
      (hex : codeUnit? a b c d = some n) (body : BodyText w ps) :
      BodyText ('\\' :: 'u' :: a :: b :: c :: d :: w) (.unit n :: ps)

def IsDigits (ds : List Char) : Prop := ds ≠ [] ∧ ∀ c ∈ ds, c.isDigit

/-- Digits without a superfluous zero in front. -/
def IsWhole (ds : List Char) : Prop := IsDigits ds ∧ (ds.head? = some '0' → ds = ['0'])

inductive FractionText : Option (List Char) → List Char → Prop
  | absent : FractionText none []
  | present {ds : List Char} (digits : IsDigits ds) : FractionText (some ds) ('.' :: ds)

inductive SignText : Bool → List Char → Prop
  | none : SignText false []
  | plus : SignText false ['+']
  | minus : SignText true ['-']

inductive ExponentText : Option (Bool × List Char) → List Char → Prop
  | absent : ExponentText none []
  | present {e : Char} {negative : Bool} {sign ds : List Char} (mark : e = 'e' ∨ e = 'E')
      (signed : SignText negative sign) (digits : IsDigits ds) :
      ExponentText (some (negative, ds)) (e :: (sign ++ ds))

inductive NumberText : NumberLiteral → List Char → Prop
  | mk {l : NumberLiteral} {fraction exponent : List Char} (whole : IsWhole l.whole)
      (hfraction : FractionText l.fraction fraction)
      (hexponent : ExponentText l.exponent exponent) :
      NumberText l ((if l.negative then ['-'] else []) ++ (l.whole ++ (fraction ++ exponent)))

/-- The literal does not go on in the text behind it. -/
structure NumberLiteral.EndsBefore (l : NumberLiteral) (rest : List Char) : Prop where
  digit : NotFirst (fun c => c.isDigit) rest
  point : l.fraction = none → l.exponent = none → NotFirst (· = '.') rest
  mark : l.exponent = none → NotFirst (fun c => c = 'e' ∨ c = 'E') rest

/-- The text is empty or begins with what cannot go on with a number literal. -/
def EndsNumber : List Char → Prop
  | [] => True
  | c :: _ => ¬ c.isDigit ∧ c ≠ '.' ∧ c ≠ 'e' ∧ c ≠ 'E'

section Strings

theorem scanString_of_body {w : List Char} {ps : List Piece} (h : BodyText w ps)
    (rest : List Char) :
    scanString (w ++ '"' :: rest) = some (ps, rest) := by
  induction h with
  | nil => rfl
  | plain quote backslash control _ ih =>
    rw [List.cons_append, scanString]
    · rw [if_neg, ih]
      · rfl
      · simp only [backslash, false_or]
        omega
    all_goals simp_all
  | @escape e c w ps short _ ih =>
    have hu : e ≠ 'u' := by
      rintro rfl
      cases short
    rw [List.cons_append, List.cons_append, scanString]
    · simp only [short, ih, Option.map_some]
    · simp [hu]
  | unit hex _ ih => simp only [List.cons_append, scanString, hex, ih, Option.map_some]

theorem body_of_scanString {cs r : List Char} {ps : List Piece}
    (h : scanString cs = some (ps, r)) : ∃ w, BodyText w ps ∧ cs = w ++ '"' :: r := by
  fun_induction scanString cs generalizing ps r with
  | case1 => cases h
  | case2 rest =>
    obtain ⟨rfl, rfl⟩ : [] = ps ∧ rest = r := by simpa using h
    exact ⟨[], .nil, rfl⟩
  | case3 a b c d rest n hex ih =>
    obtain ⟨⟨ps', r'⟩, hs, he⟩ := Option.map_eq_some_iff.1 h
    obtain ⟨rfl, rfl⟩ := Prod.mk.inj he
    obtain ⟨w, hw, rfl⟩ := ih hs
    exact ⟨_, .unit hex hw, rfl⟩
  | case5 e rest c _ short ih =>
    obtain ⟨⟨ps', r'⟩, hs, he⟩ := Option.map_eq_some_iff.1 h
    obtain ⟨rfl, rfl⟩ := Prod.mk.inj he
    obtain ⟨w, hw, rfl⟩ := ih hs
    exact ⟨_, .escape short hw, rfl⟩
  | case8 c rest quote _ _ allowed ih =>
    obtain ⟨⟨ps', r'⟩, hs, he⟩ := Option.map_eq_some_iff.1 h
    obtain ⟨rfl, rfl⟩ := Prod.mk.inj he
    obtain ⟨w, hw, rfl⟩ := ih hs
    rw [not_or] at allowed
    exact ⟨c :: w, .plain (by simpa using quote) allowed.1 (Nat.le_of_not_lt allowed.2) hw, rfl⟩
  | case4 | case6 | case7 => cases h

end Strings

section Numbers

variable {cs ds rest r : List Char} {p : Char → Prop} {l : NumberLiteral}

theorem notFirst_nil : NotFirst p [] := nofun

theorem notFirst_cons {c : Char} : NotFirst p (c :: cs) ↔ ¬ p c := by
  simp [NotFirst]

theorem scanDigits_eq_some_iff :
    scanDigits cs = some (ds, r) ↔
      cs = ds ++ r ∧ IsDigits ds ∧ NotFirst (fun c => c.isDigit) r := by
  constructor
  · intro h
    rw [scanDigits] at h
    split at h
    · cases h
    · rename_i nonempty
      obtain ⟨rfl, rfl⟩ := Prod.mk.inj (Option.some.inj h)
      refine ⟨List.takeWhile_append_dropWhile.symm, ⟨nonempty, fun c hc => ?_⟩, fun c hc => ?_⟩
      · exact List.all_eq_true.1 List.all_takeWhile c hc
      · have hfirst := List.head?_dropWhile_not Char.isDigit cs
        rw [hc] at hfirst
        simpa using hfirst
  · rintro ⟨rfl, ⟨nonempty, digits⟩, ends⟩
    have htake : r.takeWhile Char.isDigit = [] := by
      cases r with
      | nil => rfl
      | cons c cs => exact List.takeWhile_cons_of_neg (notFirst_cons.1 ends)
    have hdrop : r.dropWhile Char.isDigit = r := by
      cases r with
      | nil => rfl
      | cons c cs => exact List.dropWhile_cons_of_neg (notFirst_cons.1 ends)
    rw [scanDigits, List.takeWhile_append_of_pos digits, List.dropWhile_append_of_pos digits, htake,
      hdrop, List.append_nil]
    split
    · exact absurd rfl nonempty
    · rfl

theorem scanWhole_eq_some_iff :
    scanWhole cs = some (ds, r) ↔
      cs = ds ++ r ∧ IsWhole ds ∧ NotFirst (fun c => c.isDigit) r := by
  constructor
  · intro h
    rw [scanWhole] at h
    split at h
    · cases h
    · rename_i plain
      obtain ⟨hcs, digits, ends⟩ := scanDigits_eq_some_iff.1 h
      refine ⟨hcs, ⟨digits, fun zero => ?_⟩, ends⟩
      obtain ⟨ds', rfl⟩ := List.head?_eq_some_iff.1 zero
      cases ds' with
      | nil => rfl
      | cons d ds' => exact absurd h (plain d ds' r)
  · rintro ⟨hcs, ⟨digits, whole⟩, ends⟩
    have h := scanDigits_eq_some_iff.2 ⟨hcs, digits, ends⟩
    rw [scanWhole, h]
    split
    · rename_i he
      obtain ⟨rfl, -⟩ := Prod.mk.inj (Option.some.inj he)
      exact absurd (whole rfl) (by simp)
    · rfl

theorem scanFraction_eq_some_iff {fraction : Option (List Char)} :
    scanFraction cs = some (fraction, r) ↔
      ∃ w, cs = w ++ r ∧ FractionText fraction w ∧
        (fraction = none → NotFirst (· = '.') r) ∧
        (fraction ≠ none → NotFirst (fun c => c.isDigit) r) := by
  constructor
  · intro h
    rw [scanFraction.eq_def] at h
    split at h
    · obtain ⟨⟨ds, r'⟩, hs, he⟩ := Option.map_eq_some_iff.1 h
      obtain ⟨rfl, rfl⟩ := Prod.mk.inj he
      obtain ⟨rfl, digits, ends⟩ := scanDigits_eq_some_iff.1 hs
      exact ⟨'.' :: ds, rfl, .present digits, nofun, fun _ => ends⟩
    · rename_i other
      obtain ⟨rfl, rfl⟩ := Prod.mk.inj (Option.some.inj h)
      refine ⟨[], rfl, .absent, fun _ c hc => ?_, fun hne => absurd rfl hne⟩
      rintro rfl
      obtain ⟨rest, rfl⟩ := List.head?_eq_some_iff.1 hc
      exact other rest rfl
  · rintro ⟨w, rfl, text, hnone, hsome⟩
    cases text with
    | absent =>
      rw [List.nil_append, scanFraction]
      rintro rest rfl
      exact notFirst_cons.1 (hnone rfl) rfl
    | @present ds digits =>
      have h := scanDigits_eq_some_iff.2 ⟨rfl, digits, hsome (by simp)⟩
      rw [List.cons_append, scanFraction, h]
      rfl

theorem exists_signText (cs : List Char) :
    ∃ sign, SignText (scanSign cs).1 sign ∧ cs = sign ++ (scanSign cs).2 := by
  unfold scanSign
  split
  · exact ⟨['-'], .minus, rfl⟩
  · exact ⟨['+'], .plus, rfl⟩
  · exact ⟨[], .none, rfl⟩

theorem IsDigits.exists_cons (h : IsDigits ds) : ∃ c ds', ds = c :: ds' ∧ c.isDigit := by
  obtain ⟨nonempty, digits⟩ := h
  obtain ⟨c, ds', rfl⟩ := List.exists_cons_of_ne_nil nonempty
  exact ⟨c, ds', rfl, digits c (List.mem_cons_self ..)⟩

theorem scanSign_append {negative : Bool} {sign : List Char} (signed : SignText negative sign)
    (digits : IsDigits ds) (r : List Char) :
    scanSign (sign ++ (ds ++ r)) = (negative, ds ++ r) := by
  cases signed with
  | none =>
    obtain ⟨c, ds', rfl, digit⟩ := digits.exists_cons
    rw [List.nil_append, List.cons_append, scanSign]
    all_goals
      rintro rest he
      obtain ⟨rfl, -⟩ := List.cons.inj he
      revert digit
      decide
  | plus | minus => rfl

theorem scanExponent_eq_some_iff {exponent : Option (Bool × List Char)} :
    scanExponent cs = some (exponent, r) ↔
      ∃ w, cs = w ++ r ∧ ExponentText exponent w ∧
        (exponent = none → NotFirst (fun c => c = 'e' ∨ c = 'E') r) ∧
        (exponent ≠ none → NotFirst (fun c => c.isDigit) r) := by
  constructor
  · intro h
    rw [scanExponent.eq_def] at h
    split at h
    · obtain ⟨rfl, rfl⟩ := Prod.mk.inj (Option.some.inj h)
      exact ⟨[], rfl, .absent, fun _ => notFirst_nil, fun hne => absurd rfl hne⟩
    · rename_i c rest
      split at h
      · rename_i mark
        obtain ⟨⟨ds, r'⟩, hs, he⟩ := Option.map_eq_some_iff.1 h
        obtain ⟨rfl, rfl⟩ := Prod.mk.inj he
        obtain ⟨hcs, digits, ends⟩ := scanDigits_eq_some_iff.1 hs
        obtain ⟨sign, signed, hrest⟩ := exists_signText rest
        refine ⟨c :: (sign ++ ds), ?_, .present mark signed digits, nofun, fun _ => ends⟩
        rw [List.cons_append, List.append_assoc, ← hcs, ← hrest]
      · rename_i other
        obtain ⟨rfl, rfl⟩ := Prod.mk.inj (Option.some.inj h)
        exact ⟨[], rfl, .absent, fun _ => notFirst_cons.2 other, fun hne => absurd rfl hne⟩
  · rintro ⟨w, rfl, text, hnone, hsome⟩
    cases text with
    | absent =>
      rw [List.nil_append]
      cases r with
      | nil => rfl
      | cons c r => rw [scanExponent, if_neg (notFirst_cons.1 (hnone rfl))]
    | @present e negative sign ds mark signed digits =>
      have h := scanDigits_eq_some_iff.2 ⟨rfl, digits, hsome (by simp)⟩
      rw [List.cons_append, List.append_assoc, scanExponent, if_pos mark,
        scanSign_append signed digits, h]
      rfl

theorem FractionText.notFirst {fraction : Option (List Char)} {w : List Char}
    (h : FractionText fraction w) (hp : ¬ p '.') (ends : fraction = none → NotFirst p r) :
    NotFirst p (w ++ r) := by
  cases h with
  | absent => exact ends rfl
  | present => exact notFirst_cons.2 hp

theorem ExponentText.notFirst {exponent : Option (Bool × List Char)} {w : List Char}
    (h : ExponentText exponent w) (he : ¬ p 'e') (hE : ¬ p 'E')
    (ends : exponent = none → NotFirst p r) : NotFirst p (w ++ r) := by
  cases h with
  | absent => exact ends rfl
  | present mark => rcases mark with rfl | rfl <;> exact notFirst_cons.2 ‹_›

theorem scanUnsigned_eq_some_iff {negative : Bool} :
    scanUnsigned negative cs = some (l, r) ↔
      ∃ fraction exponent, cs = l.whole ++ (fraction ++ exponent) ++ r ∧ l.negative = negative ∧
        IsWhole l.whole ∧ FractionText l.fraction fraction ∧ ExponentText l.exponent exponent ∧
        l.EndsBefore r := by
  simp only [scanUnsigned, Option.bind_eq_bind, Option.bind_eq_some_iff, Option.pure_def,
    Option.some.injEq, Prod.exists, scanWhole_eq_some_iff, scanFraction_eq_some_iff, Prod.mk.injEq]
  constructor
  · rintro ⟨whole, c₁, ⟨rfl, hwhole, ends₁⟩, fraction, c₂, ⟨f, rfl, hf, point, ends₂⟩,
      exponent, c₃, h₃, rfl, rfl⟩
    obtain ⟨e, rfl, he, mark, ends₃⟩ := scanExponent_eq_some_iff.1 h₃
    -- No digit follows the last part that is there, whichever of the three that is.
    refine ⟨f, e, by simp only [List.append_assoc], rfl, hwhole, hf, he, ?_, ?_, mark⟩
    · cases he with
      | present => exact ends₃ (by simp)
      | absent =>
        cases hf with
        | present => exact ends₂ (by simp)
        | absent => exact ends₁
    · rintro rfl rfl
      cases he
      exact point rfl
  · rintro ⟨f, e, rfl, rfl, hwhole, hf, he, ends⟩
    have hdigit : NotFirst (fun c => c.isDigit) (e ++ r) :=
      he.notFirst (by decide) (by decide) fun _ => ends.digit
    have hpoint (hnone : l.fraction = none) : NotFirst (· = '.') (e ++ r) :=
      he.notFirst (by decide) (by decide) (ends.point hnone)
    have hexponent := scanExponent_eq_some_iff.2 ⟨e, rfl, he, ends.mark, fun _ => ends.digit⟩
    exact ⟨l.whole, f ++ (e ++ r), ⟨by simp only [List.append_assoc], hwhole,
      hf.notFirst (by decide) fun _ => hdigit⟩, l.fraction, e ++ r,
      ⟨f, rfl, hf, hpoint, fun _ => hdigit⟩, l.exponent, r, hexponent, rfl, rfl⟩

theorem scanNumber_eq_some_iff :
    scanNumber cs = some (l, r) ↔ ∃ w, NumberText l w ∧ cs = w ++ r ∧ l.EndsBefore r := by
  constructor
  · intro h
    unfold scanNumber at h
    split at h
    · obtain ⟨f, e, rfl, negative, hwhole, hf, he, ends⟩ := scanUnsigned_eq_some_iff.1 h
      refine ⟨_, .mk hwhole hf he, ?_, ends⟩
      rw [negative]
      rfl
    · obtain ⟨f, e, rfl, negative, hwhole, hf, he, ends⟩ := scanUnsigned_eq_some_iff.1 h
      refine ⟨_, .mk hwhole hf he, ?_, ends⟩
      rw [negative]
      rfl
  · rintro ⟨_, ⟨hwhole, hf, he⟩, rfl, ends⟩
    have h := scanUnsigned_eq_some_iff.2 ⟨_, _, rfl, rfl, hwhole, hf, he, ends⟩
    cases negative : l.negative with
    | true =>
      rw [negative] at h
      exact h
    | false =>
      rw [negative] at h
      obtain ⟨c, ds', hc, digit⟩ := hwhole.1.exists_cons
      rw [if_neg (by simp), List.nil_append, scanNumber, h]
      rintro rest heq
      rw [hc] at heq
      obtain ⟨rfl, -⟩ := List.cons.inj heq
      revert digit
      decide

theorem NumberText.exists_cons {w : List Char} (h : NumberText l w) :
    ∃ c w', w = c :: w' ∧ (c = '-' ∨ c.isDigit) := by
  obtain ⟨whole, -, -⟩ := h
  obtain ⟨c, ds, hc, digit⟩ := whole.1.exists_cons
  cases l.negative with
  | true => exact ⟨'-', _, rfl, .inl rfl⟩
  | false => exact ⟨c, _, by rw [hc]; rfl, .inr digit⟩

theorem NumberLiteral.endsBefore_of_ends (ends : EndsNumber rest) : l.EndsBefore rest := by
  cases rest with
  | nil => exact ⟨notFirst_nil, fun _ _ => notFirst_nil, fun _ => notFirst_nil⟩
  | cons c rest =>
    obtain ⟨digit, point, mark, Mark⟩ := ends
    exact ⟨notFirst_cons.2 digit, fun _ _ => notFirst_cons.2 point,
      fun _ => notFirst_cons.2 (by simp [mark, Mark])⟩

theorem NumberText.unique {l' : NumberLiteral} {w : List Char} (h : NumberText l w)
    (h' : NumberText l' w) : l = l' := by
  have ends {l : NumberLiteral} : l.EndsBefore [] := NumberLiteral.endsBefore_of_ends trivial
  have hs := scanNumber_eq_some_iff.2 ⟨w, h, (List.append_nil w).symm, ends⟩
  have hs' := scanNumber_eq_some_iff.2 ⟨w, h', (List.append_nil w).symm, ends⟩
  rw [hs] at hs'
  exact (Prod.mk.inj (Option.some.inj hs')).1

end Numbers

section Spelling

/-- What the text between the quotes of a string literal denotes. -/
inductive Spells : List Char → List Char → Prop
  | nil : Spells [] []
  | plain {c : Char} {w s : List Char} (quote : c ≠ '"') (backslash : c ≠ '\\')
      (control : 0x20 ≤ c.toNat) (spells : Spells w s) : Spells (c :: w) (c :: s)
  | escape {e c : Char} {w s : List Char} (short : shortEscape? e = some c)
      (spells : Spells w s) : Spells ('\\' :: e :: w) (c :: s)
  | unit {a b c d : Char} {n : Nat} {w s : List Char} (hex : codeUnit? a b c d = some n)
      (alone : n < 0xD800 ∨ 0xDFFF < n) (spells : Spells w s) :
      Spells ('\\' :: 'u' :: a :: b :: c :: d :: w) (Char.ofNat n :: s)
  | pair {a b c d a' b' c' d' : Char} {n m : Nat} {w s : List Char}
      (hex : codeUnit? a b c d = some n) (hex' : codeUnit? a' b' c' d' = some m)
      (high : 0xD800 ≤ n ∧ n ≤ 0xDBFF) (low : 0xDC00 ≤ m ∧ m ≤ 0xDFFF) (spells : Spells w s) :
      Spells ('\\' :: 'u' :: a :: b :: c :: d :: '\\' :: 'u' :: a' :: b' :: c' :: d' :: w)
        (Char.ofNat (0x10000 + (n - 0xD800) * 0x400 + (m - 0xDC00)) :: s)

/-- A unit that is no surrogate stands for a character of its own. -/
theorem decodePieces_unit {n : Nat} (alone : n < 0xD800 ∨ 0xDFFF < n) (ps : List Piece) :
    decodePieces (.unit n :: ps) = (decodePieces ps).map (Char.ofNat n :: ·) := by
  have high : ¬ (0xD800 ≤ n ∧ n ≤ 0xDBFF) := by omega
  have low : ¬ (0xDC00 ≤ n ∧ n ≤ 0xDFFF) := by omega
  have surrogate : ¬ (0xD800 ≤ n ∧ n ≤ 0xDFFF) := by omega
  match ps with
  | [] | .char _ :: _ => simp [decodePieces, surrogate]
  | .unit _ :: _ => simp [decodePieces, high, low]

theorem spells_iff {w s : List Char} :
    Spells w s ↔ ∃ ps, BodyText w ps ∧ decodePieces ps = some s := by
  constructor
  · intro h
    induction h with
    | nil => exact ⟨[], .nil, rfl⟩
    | plain quote backslash control _ ih =>
      obtain ⟨ps, body, hs⟩ := ih
      exact ⟨_, .plain quote backslash control body, by rw [decodePieces, hs]; rfl⟩
    | escape short _ ih =>
      obtain ⟨ps, body, hs⟩ := ih
      exact ⟨_, .escape short body, by rw [decodePieces, hs]; rfl⟩
    | unit hex alone _ ih =>
      obtain ⟨ps, body, hs⟩ := ih
      exact ⟨_, .unit hex body, by rw [decodePieces_unit alone, hs]; rfl⟩
    | pair hex hex' high low _ ih =>
      obtain ⟨ps, body, hs⟩ := ih
      exact ⟨_, .unit hex (.unit hex' body), by rw [decodePieces, if_pos high, if_pos low, hs]; rfl⟩
  · rintro ⟨ps, body, h⟩
    fun_induction decodePieces ps generalizing w s with
    | case1 =>
      cases body
      obtain rfl := Option.some.inj h
      exact .nil
    | case2 c ps ih =>
      obtain ⟨s', hs, rfl⟩ := Option.map_eq_some_iff.1 h
      cases body with
      | plain quote backslash control body => exact .plain quote backslash control (ih body hs)
      | escape short body => exact .escape short (ih body hs)
    | case3 n m ps high low ih =>
      obtain ⟨s', hs, rfl⟩ := Option.map_eq_some_iff.1 h
      obtain _ | _ | _ | ⟨hex, _ | _ | _ | ⟨hex', body⟩⟩ := body
      exact .pair hex hex' high low (ih body hs)
    | case6 n m ps high low ih =>
      obtain ⟨s', hs, rfl⟩ := Option.map_eq_some_iff.1 h
      cases body with
      | unit hex body => exact .unit hex (by omega) (ih body hs)
    | case8 n ps _ alone ih =>
      obtain ⟨s', hs, rfl⟩ := Option.map_eq_some_iff.1 h
      cases body with
      | unit hex body => exact .unit hex (by omega) (ih body hs)
    | case4 | case5 | case7 => cases h

end Spelling

end ImsProvisioning.Json
