import ImsProvisioning.Json.Writer
import ImsProvisioning.Proofs.Json.Scalars

/-! # Reading what was written

A written string is a literal that denotes it, and a written integer is its own literal. So
a value whose numbers are exact, and whose containers do not nest too deep, is written as a
JSON text of its own, and is read back as it was.
-/

namespace ImsProvisioning.Json

section Strings

theorem hexDigit?_digitChar : ∀ n < 16, hexDigit? (Nat.digitChar n) = some n := by decide

theorem codeUnit?_control {n : Nat} (h : n < 0x20) :
    codeUnit? '0' '0' (Nat.digitChar (n / 16)) (Nat.digitChar (n % 16)) = some n := by
  have zero : hexDigit? '0' = some 0 := by decide
  simp only [codeUnit?, zero, hexDigit?_digitChar _ (show n / 16 < 16 by omega),
    hexDigit?_digitChar _ (show n % 16 < 16 by omega), Option.bind_eq_bind, Option.bind_some,
    Option.pure_def]
  congr 1
  omega

theorem spells_escapeChar (c : Char) {w s : List Char} (spells : Spells w s) :
    Spells (escapeChar c ++ w) (c :: s) := by
  unfold escapeChar
  split
  case h_8 quote backslash _ _ _ _ _ =>
    split
    · rename_i control
      have h := Spells.unit (codeUnit?_control control) (.inl (by omega)) spells
      rwa [Char.ofNat_toNat] at h
    · rename_i control
      exact .plain quote backslash (Nat.le_of_not_lt control) spells
  all_goals exact .escape rfl spells

theorem spells_written (s : List Char) : Spells (s.flatMap escapeChar) s := by
  induction s with
  | nil => exact .nil
  | cons c s ih =>
    rw [List.flatMap_cons]
    exact spells_escapeChar c ih

theorem names_written (room : Nat) (s : String) :
    Names (.strict room) (s.toList.flatMap escapeChar) s :=
  names_strict_iff.2 (spells_written s.toList)

end Strings

section Integers

def NumberLiteral.ofInt (n : Int) : NumberLiteral :=
  ⟨decide (n < 0), Nat.toDigits 10 n.natAbs, none, none⟩

theorem toDigits_isDigit (n : Nat) : ∀ c ∈ Nat.toDigits 10 n, c.isDigit :=
  fun _ hc => Nat.isDigit_of_mem_toDigits (by omega) (by omega) hc

theorem head?_toDigits {n : Nat} (h : n ≠ 0) : (Nat.toDigits 10 n).head? ≠ some '0' := by
  induction n using Nat.strongRecOn with
  | ind n ih =>
    rw [Nat.toDigits_eq_if (by omega)]
    split
    · simpa using h
    · have hd : n / 10 ≠ 0 := by omega
      rw [List.head?_append, List.head?_eq_some_head Nat.toDigits_ne_nil, Option.some_or,
        ← List.head?_eq_some_head Nat.toDigits_ne_nil]
      exact ih (n / 10) (by omega) hd

theorem isWhole_toDigits (n : Nat) : IsWhole (Nat.toDigits 10 n) := by
  refine ⟨⟨Nat.toDigits_ne_nil, toDigits_isDigit n⟩, fun zero => ?_⟩
  by_cases h : n = 0
  · subst h
    rfl
  · exact absurd zero (head?_toDigits h)

theorem numberText_ofInt (n : Int) : NumberText (.ofInt n) (writeNumber (.integer n)) := by
  have text := NumberText.mk (l := .ofInt n) (isWhole_toDigits n.natAbs) .absent .absent
  cases n with
  | ofNat m =>
    have hw : writeNumber (.integer m) = Nat.toDigits 10 m := Nat.toList_repr
    simpa [NumberLiteral.ofInt, hw, Int.not_lt.2 (Int.natCast_nonneg m)] using text
  | negSucc m =>
    have hw : writeNumber (.integer (.negSucc m)) = '-' :: Nat.toDigits 10 (m + 1) := by
      have hs : (Number.integer (.negSucc m)).text = "-" ++ Nat.repr (m + 1) := rfl
      rw [writeNumber, hs, String.toList_append, Nat.toList_repr]
      rfl
    simpa [NumberLiteral.ofInt, Int.negSucc_lt_zero, hw] using text

/-- The integers that JSON readers keep as they are. -/
def Number.IsExact : Number → Prop
  | .integer n => -0x8000000000000000 ≤ n ∧ n < 0x10000000000000000
  | .real _ => False

theorem NumberLiteral.value?_ofInt {n : Int} (exact : Number.IsExact (.integer n)) :
    (ofInt n).value? = some (.integer n) := by
  have hpow : Nat.pow 2 63 = 0x8000000000000000 := by decide
  obtain ⟨low, high⟩ := exact
  simp only [value?, ofInt, Nat.ofDigitChars_ten_toDigits, Option.isNone_none, and_self, if_true,
    decide_eq_true_eq, hpow, UInt64.size]
  by_cases negative : n < 0
  · rw [if_pos negative, if_pos (by omega)]
    congr 2
    omega
  · rw [if_neg negative, if_pos (by omega)]
    congr 2
    omega

end Integers

section Values

/-- All numbers of the value are exact, and at most `room` containers nest. -/
inductive Value.Fits : Nat → Value → Prop
  | null {room : Nat} : Fits room .null
  | bool {room : Nat} (b : Bool) : Fits room (.bool b)
  | number {room : Nat} {n : Number} (exact : n.IsExact) : Fits room (.number n)
  | string {room : Nat} (s : String) : Fits room (.string s)
  | array {room : Nat} {items : List Value} (fits : ∀ v ∈ items, Fits room v) :
      Fits (room + 1) (.array items)
  | object {room : Nat} {members : List (String × Value)}
      (fits : ∀ m ∈ members, Fits room m.2) : Fits (room + 1) (.object members)

def Part.written (v : Value) : Part :=
  ⟨[], write v, [], v, isSpaces_nil, isSpaces_nil⟩

def MemberPart.written (m : String × Value) : MemberPart :=
  ⟨[], m.1.toList.flatMap escapeChar, m.1, [], .written m.2, isSpaces_nil, isSpaces_nil⟩

@[simp] theorem Part.written_padded (v : Value) : (written v).padded = write v :=
  List.append_nil (write v)

@[simp] theorem MemberPart.written_padded (m : String × Value) :
    (written m).padded = writeString m.1 ++ ':' :: write m.2 := by
  simp [written, padded, writeString]

theorem Part.map_value_written (vs : List Value) : (vs.map written).map value = vs := by
  rw [List.map_map]
  exact List.map_id vs

theorem MemberPart.map_member_written (ms : List (String × Value)) :
    (ms.map written).map member = ms := by
  rw [List.map_map]
  exact List.map_id ms

theorem writeItems_eq (vs : List Value) :
    writeItems vs = separated ((vs.map Part.written).map Part.padded) ++ [']'] := by
  induction vs with
  | nil => rfl
  | cons v vs ih => cases vs <;> simp_all [writeItems, separated]

theorem writeMembers_eq (ms : List (String × Value)) :
    writeMembers ms = separated ((ms.map MemberPart.written).map MemberPart.padded) ++
      ['\x7d'] := by
  induction ms with
  | nil => rfl
  | cons m ms ih => cases ms <;> simp_all [writeMembers, separated]

variable {room : Nat} {v : Value}

theorem denotes_array {items : List Value}
    (values : ∀ v ∈ items, Denotes (.strict room) (write v) v) :
    Denotes ((Mode.strict room).deeper 1) (write (.array items)) (.array items) := by
  rw [write, writeItems_eq]
  by_cases empty : items = []
  · subst empty
    exact .emptyArray isSpaces_nil
  · have parts : ∀ p ∈ items.map Part.written, Denotes (.strict room) p.text p.value :=
      List.forall_mem_map.2 values
    have h := Denotes.array (by simpa using empty) parts
    rwa [Part.map_value_written] at h

theorem denotes_object {members : List (String × Value)}
    (values : ∀ m ∈ members, Denotes (.strict room) (write m.2) m.2) :
    Denotes ((Mode.strict room).deeper 1) (write (.object members)) (.object members) := by
  rw [write, writeMembers_eq]
  by_cases empty : members = []
  · subst empty
    exact .emptyObject isSpaces_nil
  · have keys : ∀ m ∈ members.map MemberPart.written, Names (.strict room) m.key m.name :=
      List.forall_mem_map.2 fun m _ => names_written room m.1
    have parts : ∀ m ∈ members.map MemberPart.written,
        Denotes (.strict room) m.part.text m.part.value := List.forall_mem_map.2 values
    have h := Denotes.object (by simpa using empty) keys parts
    rwa [MemberPart.map_member_written] at h

/-- The text that is written is that of the value. -/
theorem Value.Fits.denotes (h : v.Fits room) : Denotes (.strict room) (write v) v := by
  induction h with
  | null => exact .null
  | bool b =>
    cases b with
    | false => exact .bool false
    | true => exact .bool true
  | @number _ n exact =>
    cases n with
    | integer n => exact .number (numberText_ofInt n) (NumberLiteral.value?_ofInt exact)
    | real x => exact exact.elim
  | @string room s => exact .string (names_written room s)
  | array _ ih => exact denotes_array ih
  | object _ ih => exact denotes_object ih

/-- What is written is a JSON text that holds just the value. -/
theorem parseAsWritten_write (h : v.Fits maxDepth) :
    parseAsWritten (write v) = some v :=
  isText_iff.1 ⟨.written v, (Part.written_padded v).symm, rfl, h.denotes⟩

end Values

end ImsProvisioning.Json
