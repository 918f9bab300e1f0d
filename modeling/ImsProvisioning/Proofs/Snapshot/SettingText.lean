import ImsProvisioning.Proofs.Json.Scalars
import ImsProvisioning.Proofs.Snapshot.Acceptance

/-! # The texts of settings

An integer setting is read from just the integer literals in range, a text setting from just
the string literals. Of the other texts those that are JSON are a mismatch. So is, to the
reader that does not parse first, every text that begins with another value.
-/

namespace ImsProvisioning

open Json (Value IsText Surrounds IntegerText Spells Denotes EndsBefore IsSpaces tokens readValue)

/-- A text that is parsed first is malformed if it is no JSON text. -/
theorem decodeParsed_malformed {α : Type} [JsonReadable α] {text : String}
    (h : ¬ ∃ doc, IsText text.toList doc) :
    (decodeParsed text : Except DecodeError α) = .error .malformed := by
  rw [decodeParsed, Json.parse]
  cases hparse : Json.parseAsWritten text.toList with
  | none => rfl
  | some doc => exact absurd ⟨doc, Json.isText_iff.2 hparse⟩ h

namespace Setting

variable {text : String} {value : Setting} {v : Value} {strategy : Strategy}

theorem decode_iff_isText : decode strategy text = .ok value ↔ IsText text.toList value.toJson := by
  rw [decode_eq_ok_iff, Json.isText_iff]

theorem decode_integer_iff {n : Int32} :
    decode strategy text = .ok (integer n) ↔
      ∃ w, Surrounds text.toList w ∧ IntegerText w n.toInt := by
  have low := n.minValue_le_toInt
  have high := n.toInt_le
  rw [Int32.toInt_minValue] at low
  rw [Int32.toInt_maxValue] at high
  rw [decode_iff_isText, toJson, Json.isText_integer_iff (by omega) (by omega)]

theorem decode_text_iff {s : String} :
    decode strategy text = .ok (Setting.text s) ↔
      ∃ w, Surrounds text.toList ('"' :: (w ++ ['"'])) ∧ Spells w s.toList := by
  rw [decode_iff_isText, toJson, Json.isText_string_iff]

theorem decode_written (value : Setting) : decode strategy value.toJson.text = .ok value := by
  rw [decode_eq_ok_iff, Value.text, String.toList_ofList]
  exact Json.parseAsWritten_write (value.toJson_fits _)

/-- There is only one way to be no setting. -/
theorem ofJson_error {e : Mismatch} (h : ofJson v = .error e) : e = .noSetting := by
  cases v with
  | string s => cases h
  | number n =>
    cases n with
    | integer n =>
      rw [ofJson] at h
      split at h
      · cases h
      · exact (Except.error.inj h).symm
    | real x => exact (Except.error.inj h).symm
  | _ => exact (Except.error.inj h).symm

theorem ofJson_eq_error_iff : ofJson v = .error .noSetting ↔ ∀ value, ¬ Denoted v value := by
  simp only [denoted_iff, ← ofJson_eq_ok_iff]
  cases hv : ofJson v with
  | ok value => simp
  | error e => simp [ofJson_error hv]

/-- The text begins with a value that is no setting. -/
def BeginsOtherwise (text : String) : Prop :=
  ∃ sp w rest v, text.toList = sp ++ (w ++ rest) ∧ IsSpaces sp ∧
    Denotes (.strict Json.maxDepth) w v ∧ EndsBefore w rest ∧ ∀ value, ¬ Denoted v value

theorem decodeParsed_eq (text : String) :
    (decodeParsed text : Except DecodeError Setting) =
      match Json.parseAsWritten text.toList with
      | none => .error .malformed
      | some v => (ofJson v).mapError .mismatch := by
  rw [decodeParsed, Json.parse]
  cases Json.parseAsWritten text.toList with
  | none => rfl
  | some v => exact congrArg (Except.mapError DecodeError.mismatch) (ofJson_canonical v)

theorem decodeStreamed_eq (text : String) :
    (decodeStreamed text : Except DecodeError Setting) =
      match readValue (.strict Json.maxDepth) (tokens text.toList) with
      | none => .error .malformed
      | some (v, rest) => (Reading.of (ofJson v) rest).whole := by
  have hread : (decodeStreamed text : Except DecodeError Setting) =
      (readIn Json.maxDepth (tokens text.toList)).whole := rfl
  rw [hread]
  cases h : readValue (.strict Json.maxDepth) (tokens text.toList) with
  | none => simp [readIn, h, Reading.whole]
  | some r => rw [readIn_eq h]

theorem beginsOtherwise_iff :
    BeginsOtherwise text ↔ ∃ v rest, readValue (.strict Json.maxDepth) (tokens text.toList) =
      some (v, rest) ∧ ofJson v = .error .noSetting := by
  simp only [← Json.stands_iff, ofJson_eq_error_iff]
  constructor
  · rintro ⟨sp, w, rest, v, htext, spaces, denotes, ends, other⟩
    exact ⟨v, tokens rest, ⟨sp, w, rest, htext, spaces, denotes, ends, rfl⟩, other⟩
  · rintro ⟨v, _, ⟨sp, w, rest, htext, spaces, denotes, ends, rfl⟩, other⟩
    exact ⟨sp, w, rest, v, htext, spaces, denotes, ends, other⟩

/-- The reader that does not parse first refuses another value at its end. -/
theorem decodeStreamed_mismatch (h : BeginsOtherwise text) :
    (decodeStreamed text : Except DecodeError Setting) = .error (.mismatch .noSetting) := by
  obtain ⟨v, rest, hv, other⟩ := beginsOtherwise_iff.1 h
  rw [decodeStreamed_eq, hv]
  simp [other, Reading.of, Reading.whole]

theorem decodeStreamed_malformed (h : ¬ BeginsOtherwise text) (hnot : ¬ ∃ v, IsText text.toList v) :
    (decodeStreamed text : Except DecodeError Setting) = .error .malformed := by
  rw [decodeStreamed_eq]
  cases hv : readValue (.strict Json.maxDepth) (tokens text.toList) with
  | none => rfl
  | some r =>
    obtain ⟨v, rest⟩ := r
    cases hs : ofJson v with
    | error e =>
      obtain rfl := ofJson_error hs
      exact absurd (beginsOtherwise_iff.2 ⟨v, rest, hv, hs⟩) h
    | ok value =>
      cases rest with
      | nil => exact absurd ⟨v, Json.isText_iff.2 (Json.parseAsWritten_eq_some_iff.2 hv)⟩ hnot
      | cons t rest => simp [hs, Reading.of, Reading.whole]

theorem decode_mismatch (htext : IsText text.toList v) (other : ∀ value, ¬ Denoted v value)
    (strategy : Strategy) :
    (decode strategy text : Except DecodeError Setting) = .error (.mismatch .noSetting) := by
  have hofJson := ofJson_eq_error_iff.2 other
  rw [Json.isText_iff] at htext
  cases strategy with
  | parsed =>
    rw [decode, decodeParsed_eq, htext]
    exact congrArg (Except.mapError DecodeError.mismatch) hofJson
  | streamed =>
    rw [Json.parseAsWritten_eq_some_iff] at htext
    exact decodeStreamed_mismatch (beginsOtherwise_iff.2 ⟨v, [], htext, hofJson⟩)

/-- What is read as a setting and what is not. -/
theorem settings_are_literals :
    (∀ (strategy : Strategy) (text : String) (n : Int32),
      decode strategy text = .ok (integer n) ↔
        ∃ w, Surrounds text.toList w ∧ IntegerText w n.toInt) ∧
    (∀ (strategy : Strategy) (text s : String),
      decode strategy text = .ok (Setting.text s) ↔
        ∃ w, Surrounds text.toList ('"' :: (w ++ ['"'])) ∧ Spells w s.toList) ∧
    (∀ (strategy : Strategy) (text : String), (∃ v, IsText text.toList v) →
      (∀ value : Setting, decode strategy text ≠ .ok value) →
      decode strategy text = (.error (.mismatch .noSetting) : Except DecodeError Setting)) ∧
    (∀ text : String, (¬ ∃ v, IsText text.toList v) →
      decode .parsed text = (.error .malformed : Except DecodeError Setting) ∧
      (BeginsOtherwise text →
        decode .streamed text = (.error (.mismatch .noSetting) : Except DecodeError Setting)) ∧
      (¬ BeginsOtherwise text →
        decode .streamed text = (.error .malformed : Except DecodeError Setting))) ∧
    ∀ (strategy : Strategy) (value : Setting), decode strategy value.toJson.text = .ok value := by
  refine ⟨fun _ _ _ => decode_integer_iff, fun _ _ _ => decode_text_iff, ?_, ?_,
    fun _ => decode_written⟩
  · rintro strategy text ⟨v, htext⟩ hnot
    refine decode_mismatch htext (fun value denoted => hnot value ?_) strategy
    rw [decode_iff_isText, ← denoted_iff.1 denoted]
    exact htext
  · intro text hnot
    exact ⟨decodeParsed_malformed hnot, decodeStreamed_mismatch,
      fun h => decodeStreamed_malformed h hnot⟩

/-- A text that is not JSON may be refused for the value it begins with. -/
theorem malformed_text_mismatches :
    (¬ ∃ v, IsText "true x".toList v) ∧
      (decode .streamed "true x" : Except DecodeError Setting) ≠ .error .malformed := by
  have htokens : tokens "true x".toList = [.bool true, .bad] := by
    have hbad : tokens " x".toList = [.bad] := Json.tokens_of_bad rfl rfl
    rw [← hbad]
    exact Json.tokens_of_scan rfl rfl
  have hvalue : readValue (.strict Json.maxDepth) (tokens "true x".toList) =
      some (.bool true, [.bad]) := by
    rw [htokens]
    rfl
  constructor
  · rintro ⟨v, htext⟩
    rw [Json.isText_iff, Json.parseAsWritten_eq_some_iff, hvalue] at htext
    cases htext
  · rw [decode, decodeStreamed_mismatch (beginsOtherwise_iff.2 ⟨_, _, hvalue, rfl⟩)]
    simp

end Setting
end ImsProvisioning
