/-! # JSON tokens

The tokens of RFC 8259. A text is cut into tokens up to its first lexical error,
which is a token of its own, so that a reader meets the error when it gets
there and not before. What a string or number literal denotes, if anything, is
a question for whoever reads it.
-/

namespace ImsProvisioning.Json

/-- A unit of a string literal: a character, or the number of an escaped UTF-16 code unit. -/
inductive Piece where
  | char (c : Char)
  | unit (n : Nat)
deriving DecidableEq, Repr

/-- A number literal as it is written, in digits. -/
structure NumberLiteral where
  negative : Bool
  whole : List Char
  fraction : Option (List Char)
  exponent : Option (Bool × List Char)
deriving DecidableEq, Repr

inductive Token where
  | openArray | closeArray | openObject | closeObject | comma | colon
  | null
  | bool (b : Bool)
  | number (n : NumberLiteral)
  | string (pieces : List Piece)
  | bad
deriving DecidableEq, Repr

def isSpace (c : Char) : Bool := c == ' ' || c == '\n' || c == '\r' || c == '\t'

def hexDigit? (c : Char) : Option Nat :=
  if c.isDigit then some (c.toNat - '0'.toNat)
  else if 'a' ≤ c ∧ c ≤ 'f' then some (c.toNat - 'a'.toNat + 10)
  else if 'A' ≤ c ∧ c ≤ 'F' then some (c.toNat - 'A'.toNat + 10)
  else none

def codeUnit? (a b c d : Char) : Option Nat := do
  return (((← hexDigit? a) * 16 + (← hexDigit? b)) * 16 + (← hexDigit? c)) * 16 + (← hexDigit? d)

def shortEscape? : Char → Option Char
  | '"' => some '"'
  | '\\' => some '\\'
  | '/' => some '/'
  | 'b' => some '\x08'
  | 'f' => some '\x0c'
  | 'n' => some '\n'
  | 'r' => some '\r'
  | 't' => some '\t'
  | _ => none

/-- A string literal behind its opening quote, and what follows the closing one. -/
def scanString : List Char → Option (List Piece × List Char)
  | [] => none
  | '"' :: rest => some ([], rest)
  | '\\' :: 'u' :: a :: b :: c :: d :: rest =>
    match codeUnit? a b c d with
    | some n => (scanString rest).map fun r => (.unit n :: r.1, r.2)
    | none => none
  | '\\' :: e :: rest =>
    match shortEscape? e with
    | some c => (scanString rest).map fun r => (.char c :: r.1, r.2)
    | none => none
  | c :: rest =>
    if c = '\\' ∨ c.toNat < 0x20 then none
    else (scanString rest).map fun r => (.char c :: r.1, r.2)

/-- The leading digits, at least one, and what follows them. -/
def scanDigits (cs : List Char) : Option (List Char × List Char) :=
  match cs.takeWhile Char.isDigit with
  | [] => none
  | ds => some (ds, cs.dropWhile Char.isDigit)

def scanWhole (cs : List Char) : Option (List Char × List Char) :=
  match scanDigits cs with
  | some ('0' :: _ :: _, _) => none
  | r => r

def scanFraction : List Char → Option (Option (List Char) × List Char)
  | '.' :: rest => (scanDigits rest).map fun r => (some r.1, r.2)
  | rest => some (none, rest)

/-- A sign, if there is one; true for minus. -/
def scanSign : List Char → Bool × List Char
  | '-' :: rest => (true, rest)
  | '+' :: rest => (false, rest)
  | rest => (false, rest)

def scanExponent : List Char → Option (Option (Bool × List Char) × List Char)
  | [] => some (none, [])
  | c :: rest =>
    if c = 'e' ∨ c = 'E' then
      (scanDigits (scanSign rest).2).map fun r => (some ((scanSign rest).1, r.1), r.2)
    else some (none, c :: rest)

def scanUnsigned (negative : Bool) (cs : List Char) : Option (NumberLiteral × List Char) := do
  let (whole, cs) ← scanWhole cs
  let (fraction, cs) ← scanFraction cs
  let (exponent, cs) ← scanExponent cs
  return (⟨negative, whole, fraction, exponent⟩, cs)

def scanNumber : List Char → Option (NumberLiteral × List Char)
  | '-' :: rest => scanUnsigned true rest
  | rest => scanUnsigned false rest

/-- The token at the front of a text that does not begin with space, and what follows it. -/
def scan : List Char → Option (Token × List Char)
  | '[' :: rest => some (.openArray, rest)
  | ']' :: rest => some (.closeArray, rest)
  | '\x7b' :: rest => some (.openObject, rest)
  | '\x7d' :: rest => some (.closeObject, rest)
  | ',' :: rest => some (.comma, rest)
  | ':' :: rest => some (.colon, rest)
  | 'n' :: 'u' :: 'l' :: 'l' :: rest => some (.null, rest)
  | 't' :: 'r' :: 'u' :: 'e' :: rest => some (.bool true, rest)
  | 'f' :: 'a' :: 'l' :: 's' :: 'e' :: rest => some (.bool false, rest)
  | '"' :: rest => (scanString rest).map fun r => (.string r.1, r.2)
  | cs => (scanNumber cs).map fun r => (.number r.1, r.2)

theorem scanString_length {cs r : List Char} {ps : List Piece}
    (h : scanString cs = some (ps, r)) : r.length < cs.length := by
  fun_induction scanString cs generalizing ps r with
  | case1 => simp at h
  | case2 rest => simp_all
  | case3 a b c d rest n _ ih | case5 e rest c _ _ ih | case8 c rest _ _ _ _ ih =>
    obtain ⟨⟨ps', r'⟩, hs, he⟩ := Option.map_eq_some_iff.1 h
    have := ih hs
    obtain ⟨-, rfl⟩ := Prod.mk.inj he
    simp only [List.length_cons]
    omega
  | case4 | case6 | case7 => simp at h

theorem scanDigits_length {cs ds r : List Char} (h : scanDigits cs = some (ds, r)) :
    r.length < cs.length := by
  have hl := congrArg List.length (List.takeWhile_append_dropWhile (p := Char.isDigit) (l := cs))
  rw [List.length_append] at hl
  unfold scanDigits at h
  split at h
  · simp at h
  · rename_i hne
    simp only [Option.some.injEq, Prod.mk.injEq] at h
    have := List.length_pos_iff.2 hne
    grind

theorem scanWhole_length {cs ds r : List Char} (h : scanWhole cs = some (ds, r)) :
    r.length < cs.length := by
  unfold scanWhole at h
  split at h
  · simp at h
  · exact scanDigits_length h

theorem scanFraction_length {cs r : List Char} {f : Option (List Char)}
    (h : scanFraction cs = some (f, r)) : r.length ≤ cs.length := by
  unfold scanFraction at h
  split at h
  · obtain ⟨⟨ds, r'⟩, hs, he⟩ := Option.map_eq_some_iff.1 h
    have := scanDigits_length hs
    grind
  · grind

theorem scanSign_length (cs : List Char) : (scanSign cs).2.length ≤ cs.length := by
  unfold scanSign
  split <;> simp

theorem scanExponent_length {cs r : List Char} {e : Option (Bool × List Char)}
    (h : scanExponent cs = some (e, r)) : r.length ≤ cs.length := by
  unfold scanExponent at h
  split at h
  · grind
  · rename_i c rest
    split at h
    · obtain ⟨⟨ds, r'⟩, hs, he⟩ := Option.map_eq_some_iff.1 h
      have := scanDigits_length hs
      have := scanSign_length rest
      grind
    · grind

theorem scanUnsigned_length {neg : Bool} {cs r : List Char} {n : NumberLiteral}
    (h : scanUnsigned neg cs = some (n, r)) : r.length < cs.length := by
  simp only [scanUnsigned, Option.bind_eq_bind, Option.bind_eq_some_iff, Option.pure_def,
    Option.some.injEq, Prod.mk.injEq] at h
  obtain ⟨⟨w, c₁⟩, h₁, ⟨f, c₂⟩, h₂, ⟨e, c₃⟩, h₃, -, rfl⟩ := h
  have hw := scanWhole_length h₁
  have hf := scanFraction_length h₂
  have he := scanExponent_length h₃
  dsimp only at hf he ⊢
  omega

theorem scanNumber_length {cs r : List Char} {n : NumberLiteral}
    (h : scanNumber cs = some (n, r)) : r.length < cs.length := by
  unfold scanNumber at h
  split at h
  · exact Nat.lt_succ_of_lt (scanUnsigned_length h)
  · exact scanUnsigned_length h

theorem scan_length {cs r : List Char} {t : Token} (h : scan cs = some (t, r)) :
    r.length < cs.length := by
  unfold scan at h
  split at h
  case h_10 =>
    obtain ⟨⟨ps, r'⟩, hs, he⟩ := Option.map_eq_some_iff.1 h
    have := scanString_length hs
    grind
  case h_11 =>
    obtain ⟨⟨n, r'⟩, hs, he⟩ := Option.map_eq_some_iff.1 h
    have := scanNumber_length hs
    grind
  all_goals grind

/-- The tokens of a text; the first lexical error ends them with a bad one. -/
def tokens (cs : List Char) : List Token :=
  match _hc : cs.dropWhile isSpace with
  | [] => []
  | c :: rest =>
    match _hs : scan (c :: rest) with
    | none => [.bad]
    | some (t, r) => t :: tokens r
termination_by cs.length
decreasing_by
  have h₁ := scan_length _hs
  have h₂ := (List.dropWhile_suffix (l := cs) isSpace).length_le
  rw [_hc] at h₂
  omega

theorem tokens_of_space {cs : List Char} (h : cs.dropWhile isSpace = []) : tokens cs = [] := by
  rw [tokens]
  split
  · rfl
  · simp_all

theorem tokens_of_scan {cs cs' r : List Char} {t : Token} (h : cs.dropWhile isSpace = cs')
    (hs : scan cs' = some (t, r)) : tokens cs = t :: tokens r := by
  rw [tokens]
  split
  · have := scan_length hs
    simp_all
  · rename_i c rest hc
    obtain rfl : c :: rest = cs' := hc.symm.trans h
    split
    · simp_all
    · rename_i hs'
      rw [hs] at hs'
      obtain ⟨rfl, rfl⟩ := Prod.mk.inj (Option.some.inj hs')
      rfl

theorem tokens_of_bad {cs rest : List Char} {c : Char} (h : cs.dropWhile isSpace = c :: rest)
    (hs : scan (c :: rest) = none) : tokens cs = [.bad] := by
  rw [tokens]
  split
  · simp_all
  · rename_i c' rest' hc
    obtain ⟨rfl, rfl⟩ := List.cons.inj (hc.symm.trans h)
    split
    · rfl
    · simp_all

/-- The characters that the pieces denote, unless half of a surrogate pair is missing. -/
def decodePieces : List Piece → Option (List Char)
  | [] => some []
  | .char c :: ps => (decodePieces ps).map (c :: ·)
  | .unit n :: .unit m :: ps =>
    if 0xD800 ≤ n ∧ n ≤ 0xDBFF then
      if 0xDC00 ≤ m ∧ m ≤ 0xDFFF then
        (decodePieces ps).map (Char.ofNat (0x10000 + (n - 0xD800) * 0x400 + (m - 0xDC00)) :: ·)
      else none
    else if 0xDC00 ≤ n ∧ n ≤ 0xDFFF then none
    else (decodePieces (.unit m :: ps)).map (Char.ofNat n :: ·)
  | .unit n :: ps =>
    if 0xD800 ≤ n ∧ n ≤ 0xDFFF then none else (decodePieces ps).map (Char.ofNat n :: ·)

def text? (pieces : List Piece) : Option String := (decodePieces pieces).map String.ofList

end ImsProvisioning.Json
