import ImsProvisioning.Options
import ImsProvisioning.Proofs.Text.Folding

/-! # The flag in the environment

The environment turns logging on or off by one of four words, in any case of their letters
and with any blanks around. Without a text it leaves logging on, and with any other text there
are no options.
-/

namespace ImsProvisioning.Options

open Text (Strips SameUpToCase IsPlain isBlank trim)

theorem fromUTF8?_toUTF8 (raw : String) : String.fromUTF8? raw.toUTF8 = some raw :=
  dif_pos raw.isValidUTF8

theorem fromUTF8?_eq_none {bytes : ByteArray} (h : ∀ raw : String, raw.toUTF8 ≠ bytes) :
    String.fromUTF8? bytes = none :=
  dif_neg fun valid => h (String.fromUTF8 bytes valid) rfl

theorem ofEnvironment_text (raw : String) :
    ofEnvironment (some raw.toUTF8) = ofFlagText raw := by
  simp only [ofEnvironment, fromUTF8?_toUTF8]

theorem ofEnvironment_no_text {content : Option ByteArray}
    (h : ∀ raw : String, content ≠ some raw.toUTF8) : ofEnvironment content = .ok standard := by
  cases content with
  | none => rfl
  | some bytes =>
    have hnone := fromUTF8?_eq_none fun raw eq => h raw (congrArg some eq.symm)
    simp only [ofEnvironment, hnone]

/-- A digit is the lower case of itself alone. -/
theorem toLower_eq_digit_iff {c digit : Char} (h : digit.toNat < 0x41) :
    c.toLower = digit ↔ c = digit := by
  by_cases ascii : c.toNat < 0x80
  · have raised := Text.forall_ascii (P := fun c => c.toLower = c ∨ 0x41 ≤ c.toLower.toNat ∧
      0x41 ≤ c.toNat) (by decide +kernel) ascii
    rcases raised with same | ⟨lower, upper⟩
    · rw [same]
    · constructor <;> (rintro rfl; omega)
  · rw [Text.toLower_beyond (Nat.le_of_not_lt ascii)]

theorem sameUpToCase_digit {word : List Char} {digit : Char} (h : digit.toNat < 0x41) :
    SameUpToCase word [digit] ↔ word = [digit] := by
  have hdigit : digit.toLower = digit := (toLower_eq_digit_iff h).2 rfl
  cases word with
  | nil => simp [SameUpToCase]
  | cons c word => simp [SameUpToCase, hdigit, toLower_eq_digit_iff h]

/-- The word turns logging on or off. -/
def Says (word : List Char) : Bool → Prop
  | true => word = ['1'] ∨ SameUpToCase word "true".toList
  | false => word = ['0'] ∨ SameUpToCase word "false".toList

/-- Folding the case of a word in full leaves a flag exactly where folding its ASCII letters
does. -/
theorem flatMap_lowerCase_flag {word letters : List Char} {digit : Char}
    (plain : ∀ c ∈ digit :: letters, IsPlain c) (lower : letters.map Char.toLower = letters)
    (h : digit.toNat < 0x41) :
    (word.flatMap Text.lowerCase = letters ∨ word.flatMap Text.lowerCase = [digit]) ↔
      (word = [digit] ∨ SameUpToCase word letters) := by
  have hdigit : word.map Char.toLower = [digit] ↔ word = [digit] := by
    refine Iff.trans ?_ (sameUpToCase_digit h)
    rw [SameUpToCase, List.map_singleton, (toLower_eq_digit_iff h).2 rfl]
  rw [Text.flatMap_lowerCase_eq_iff fun c hc => plain c (List.mem_cons_of_mem _ hc),
    Text.flatMap_lowerCase_eq_iff (by simpa using plain digit (List.mem_cons_self ..)),
    hdigit, SameUpToCase, lower, or_comm]

theorem flatMap_lowerCase_on (word : List Char) :
    (word.flatMap Text.lowerCase = "true".toList ∨ word.flatMap Text.lowerCase = ['1']) ↔
      Says word true :=
  flatMap_lowerCase_flag (by simp [IsPlain]) (by decide) (by decide)

theorem flatMap_lowerCase_off (word : List Char) :
    (word.flatMap Text.lowerCase = "false".toList ∨ word.flatMap Text.lowerCase = ['0']) ↔
      Says word false :=
  flatMap_lowerCase_flag (by simp [IsPlain]) (by decide) (by decide)

theorem not_says_both {word : List Char} (on : Says word true) : ¬ Says word false := by
  rw [← flatMap_lowerCase_on] at on
  rw [← flatMap_lowerCase_off]
  rcases on with h | h <;> rw [h] <;> decide

theorem flag?_eq_some_iff {s : List Char} {on : Bool} :
    flag? s = some on ↔ Says (trim s) on := by
  have hon := flatMap_lowerCase_on (trim s)
  have hoff := flatMap_lowerCase_off (trim s)
  by_cases affirmed : Says (trim s) true
  · have hflag : flag? s = some true := if_pos (hon.2 affirmed)
    cases on <;> simp [hflag, affirmed, not_says_both affirmed]
  · by_cases denied : Says (trim s) false
    · have hflag : flag? s = some false :=
        (if_neg (mt hon.1 affirmed)).trans (if_pos (hoff.2 denied))
      cases on <;> simp [hflag, affirmed, denied]
    · have hflag : flag? s = none := (if_neg (mt hon.1 affirmed)).trans (if_neg (mt hoff.1 denied))
      cases on <;> simp [hflag, affirmed, denied]

theorem says_congr {word other : List Char} (h : SameUpToCase word other) (on : Bool) :
    Says word on ↔ Says other on := by
  have same (letters : List Char) : SameUpToCase word letters ↔ SameUpToCase other letters := by
    rw [SameUpToCase, SameUpToCase, show word.map Char.toLower = other.map Char.toLower from h]
  have digit {d : Char} (hd : d.toNat < 0x41) : word = [d] ↔ other = [d] := by
    rw [← sameUpToCase_digit hd, same, sameUpToCase_digit hd]
  cases on with
  | true => rw [Says, Says, same, digit (by decide)]
  | false => rw [Says, Says, same, digit (by decide)]

theorem ascii_of_sameUpToCase {word letters : List Char} (h : SameUpToCase word letters)
    (plain : ∀ d ∈ letters.map Char.toLower, d.toNat < 0x80 ∧ ¬ isBlank d) :
    ∀ c ∈ word, c.toNat < 0x80 ∧ ¬ isBlank c := by
  intro c hc
  rw [← show word.map Char.toLower = letters.map Char.toLower from h] at plain
  obtain ⟨ascii, filled⟩ := plain c.toLower (List.mem_map_of_mem hc)
  rw [Text.isBlank_toLower] at filled
  refine ⟨Nat.lt_of_not_le fun beyond => ?_, filled⟩
  rw [Text.toLower_beyond beyond] at ascii
  omega

/-- A flag is written in ASCII and without blanks. -/
theorem ascii_of_says {word : List Char} {on : Bool} (h : Says word on) :
    ∀ c ∈ word, c.toNat < 0x80 ∧ ¬ isBlank c := by
  cases on with
  | true =>
    rcases h with rfl | h
    · exact List.forall_mem_singleton.2 (by decide)
    · exact ascii_of_sameUpToCase h (by simp [isBlank])
  | false =>
    rcases h with rfl | h
    · exact List.forall_mem_singleton.2 (by decide)
    · exact ascii_of_sameUpToCase h (by simp [isBlank])

theorem ofFlagText_eq_ok_iff {raw : String} {core : List Char} (h : Strips raw.toList core)
    {on : Bool} : ofFlagText raw = .ok ⟨on⟩ ↔ Says core on := by
  rw [← h.trim_eq, ← flag?_eq_some_iff, ofFlagText]
  cases flag? raw.toList <;> simp

theorem ofFlagText_error {raw : String} (h : ∀ o, ofFlagText raw ≠ .ok o) :
    ofFlagText raw = .error ⟨"Invalid IMS_CONFIG_DEBUG value '" ++ raw ++
      "'. Must be one of: true, false, 1, 0"⟩ := by
  unfold ofFlagText at h ⊢
  cases hflag : flag? raw.toList with
  | some on => simp [hflag] at h
  | none => rfl

/-- Texts whose parts between the outer blanks are the same up to case hold the same flag. -/
theorem ofFlagText_congr {raw other : String}
    (h : SameUpToCase (trim raw.toList) (trim other.toList)) (o : Options) :
    ofFlagText raw = .ok o ↔ ofFlagText other = .ok o := by
  obtain ⟨on⟩ := o
  rw [ofFlagText_eq_ok_iff (Text.strips_trim _), ofFlagText_eq_ok_iff (Text.strips_trim _),
    says_congr h]

/--
Bytes that encode no text leave logging on. Of a text just the words `true`, `1`, `false` and `0`
are flags, in whatever case and with whatever blanks around them, and any other text is refused
with a message that quotes it as it is.
-/
theorem environment_accepts_flags :
    (∀ content, (∀ raw : String, content ≠ some raw.toUTF8) →
      ofEnvironment content = .ok ⟨true⟩) ∧
    (∀ raw : String, ∃ core, Strips raw.toList core ∧
      let result := ofEnvironment (some raw.toUTF8)
      (result = .ok ⟨true⟩ ↔ core = ['1'] ∨ SameUpToCase core "true".toList) ∧
      (result = .ok ⟨false⟩ ↔ core = ['0'] ∨ SameUpToCase core "false".toList) ∧
      ((∃ o, result = .ok o) → ∀ c ∈ core, c.toNat < 0x80 ∧ ¬ isBlank c) ∧
      ((∀ o, result ≠ .ok o) → result = .error ⟨"Invalid IMS_CONFIG_DEBUG value '" ++ raw ++
        "'. Must be one of: true, false, 1, 0"⟩)) ∧
    (∀ raw other : String, ∀ o,
      (∃ front back, other.toList = front ++ raw.toList ++ back ∧
        (∀ c ∈ front, isBlank c) ∧ ∀ c ∈ back, isBlank c) ∨
          SameUpToCase raw.toList other.toList →
      (ofEnvironment (some raw.toUTF8) = .ok o ↔ ofEnvironment (some other.toUTF8) = .ok o)) := by
  refine ⟨fun content => ofEnvironment_no_text, fun raw => ?_, fun raw other o same => ?_⟩
  · refine ⟨trim raw.toList, Text.strips_trim _, ?_⟩
    rw [ofEnvironment_text]
    have hflag {on : Bool} : ofFlagText raw = .ok ⟨on⟩ ↔ Says (trim raw.toList) on :=
      ofFlagText_eq_ok_iff (Text.strips_trim _)
    refine ⟨hflag, hflag, ?_, ofFlagText_error⟩
    rintro ⟨⟨on⟩, accepted⟩
    exact ascii_of_says (hflag.1 accepted)
  · rw [ofEnvironment_text, ofEnvironment_text]
    apply ofFlagText_congr
    rcases same with ⟨front, back, hother, hfront, hback⟩ | same
    · rw [hother, Text.trim_surrounded hfront hback]
      exact rfl
    · exact same.trim

end ImsProvisioning.Options
