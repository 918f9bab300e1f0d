import ImsProvisioning.Constant.Calling
import ImsProvisioning.Constant.Feature
import ImsProvisioning.Proofs.Json.Scalars
import ImsProvisioning.Proofs.Snapshot.Identity

/-! # Looking constants up

A constant is found by its code, by its name and by nothing else. From a JSON text it is read
just if the text is a string literal that spells its name, and a literal that spells no name of
the table is refused as that name would be. Constants are ordered as their table lists them.
-/

namespace ImsProvisioning

open Json (IsText Surrounds Spells tokens)

/-- The text is a string literal for `s`, with space around it. -/
def Json.IsLiteral (text s : String) : Prop :=
  ∃ w, Surrounds text.toList ('"' :: (w ++ ['"'])) ∧ Spells w s.toList

theorem Json.isLiteral_iff {text s : String} :
    IsLiteral text s ↔ ∃ ps, tokens text.toList = [.string ps] ∧ text? ps = some s := by
  rw [IsLiteral, ← isText_string_iff, isText_iff, parseAsWritten_eq_some_iff]
  exact readValue_string (.strict (maxDepth - 1))

namespace ConstantTable

/-- Two entries of a list are the same one, or one is listed in front of the other. -/
theorem listed_or_eq {α : Type} {a b : α} {l : List α} (ha : a ∈ l) (hb : b ∈ l) :
    [a, b].Sublist l ∨ a = b ∨ [b, a].Sublist l := by
  induction l with
  | nil => cases ha
  | cons c l ih =>
    rcases List.mem_cons.1 ha with rfl | ha' <;> rcases List.mem_cons.1 hb with rfl | hb'
    · exact .inr (.inl rfl)
    · exact .inl ((List.singleton_sublist.2 hb').cons_cons a)
    · exact .inr (.inr ((List.singleton_sublist.2 ha').cons_cons b))
    · exact (ih ha' hb').imp (·.cons c) (·.imp_right (·.cons c))

variable {α : Type} [ConstantTable α] {a b : α} {text s : String}

theorem ofCode_eq_ok_iff {n : Int32} : ofCode α n = .ok a ↔ code a = n := by
  rw [← ofCode?_eq_some_iff, ofCode]
  cases ofCode? α n <;> simp

theorem ofCode_eq_error_iff {n : Int32} {e : ConstantError} :
    ofCode α n = .error e ↔ (∀ a : α, code a ≠ n) ∧ e = .invalidCode (kind α) n := by
  rw [ofCode]
  cases h : ofCode? α n with
  | none =>
    have unknown (a : α) : code a ≠ n := by
      intro ha
      rw [ofCode?_eq_some_iff.2 ha] at h
      cases h
    simp [unknown, eq_comm]
  | some a => exact iff_of_false (by simp) fun he => he.1 a (ofCode?_eq_some_iff.1 h)

theorem decode_ok_iff_isLiteral (strategy : Strategy) :
    decode strategy text = .ok a ↔ Json.IsLiteral text (name a) := by
  rw [decode_eq_ok_iff, Json.isLiteral_iff]

/-- A name that is not in the table is refused by both readers for the same reason. -/
theorem decode_unknown (literal : Json.IsLiteral text s) (unknown : ∀ a : α, name a ≠ s)
    (strategy : Strategy) :
    (decode strategy text : Except DecodeError α) =
      .error (.mismatch (.constant (.invalidName (kind α) s))) := by
  have hname : ofName α s = .error (.invalidName (kind α) s) :=
    ofName_eq_error_iff.2 ⟨unknown, rfl⟩
  cases strategy with
  | parsed =>
    have hparse : Json.parseAsWritten text.toList = some (.string s) := by
      rwa [← Json.isText_iff, Json.isText_string_iff]
    have hdecode : (decode .parsed text : Except DecodeError α) =
        (ofJson α (.string s)).mapError .mismatch := by
      rw [decode, decodeParsed, Json.parse, hparse]
      rfl
    rw [hdecode, ofJson, hname]
    rfl
  | streamed =>
    obtain ⟨ps, htokens, hs⟩ := Json.isLiteral_iff.1 literal
    have hdecode : (decode .streamed text : Except DecodeError α) =
        (read α (tokens text.toList)).whole := rfl
    rw [hdecode, htokens]
    simp [read, hs, hname, Reading.whole]

theorem decode_written (a : α) (strategy : Strategy) :
    decode strategy (toJson a).text = .ok a := by
  rw [decode_ok_iff_isLiteral, Json.IsLiteral, ← Json.isText_string_iff, Json.isText_iff,
    Json.Value.text, String.toList_ofList]
  exact Json.parseAsWritten_write (.string (name a))

theorem order_eq_lt_iff : order a b = .lt ↔ (code a).toInt < (code b).toInt :=
  Int.compare_eq_lt

theorem order_eq_eq_iff : order a b = .eq ↔ a = b := by
  rw [order, Std.compare_eq_iff_eq, Int32.toInt_inj, code_inj]

/-- One constant is in front of another just if its table lists it in front. -/
theorem order_eq_lt_iff_listed : order a b = .lt ↔ [a, b].Sublist (all : List α) := by
  have ascending : (all : List α).Pairwise fun a b => (code a).toInt < (code b).toInt :=
    List.pairwise_map.1 code_lt
  rw [List.pairwise_iff_forall_sublist] at ascending
  rw [order_eq_lt_iff]
  constructor
  · intro hlt
    rcases listed_or_eq (mem_all a) (mem_all b) with listed | rfl | listed
    · exact listed
    · exact absurd hlt (Int.lt_irrefl _)
    · exact absurd hlt (Int.lt_asymm (ascending listed))
  · exact ascending

variable (α) in
/-- Codes, names and JSON literals stand for the constants of the table and for nothing else. -/
structure IsExact : Prop where
  ofCode_ok (n : Int32) (a : α) : ofCode α n = .ok a ↔ code a = n
  ofCode_error (n : Int32) (e : ConstantError) :
    ofCode α n = .error e ↔ (∀ a : α, code a ≠ n) ∧ e = .invalidCode (kind α) n
  ofName_ok (s : String) (a : α) : ofName α s = .ok a ↔ name a = s
  ofName_error (s : String) (e : ConstantError) :
    ofName α s = .error e ↔ (∀ a : α, name a ≠ s) ∧ e = .invalidName (kind α) s
  decode_ok (strategy : Strategy) (text : String) (a : α) :
    decode strategy text = .ok a ↔ Json.IsLiteral text (name a)
  decode_error (strategy : Strategy) (text s : String) :
    Json.IsLiteral text s → (∀ a : α, name a ≠ s) →
    ∃ m : Mismatch, (decode strategy text : Except DecodeError α) = .error (.mismatch m) ∧
      m.message = (ConstantError.invalidName (kind α) s).message
  code_injective (a b : α) : code a = code b → a = b
  name_injective (a b : α) : name a = name b → a = b
  displayed (a : α) : ofName α (name a) = .ok a
  written (strategy : Strategy) (a : α) : decode strategy (toJson a).text = .ok a
  ordered (a b : α) :
    (order a b = .lt ↔ (code a).toInt < (code b).toInt) ∧
    (order a b = .lt ↔ [a, b].Sublist (all : List α)) ∧ (order a b = .eq ↔ a = b)

variable (α) in
theorem isExact : IsExact α where
  ofCode_ok _ _ := ofCode_eq_ok_iff
  ofCode_error _ _ := ofCode_eq_error_iff
  ofName_ok _ _ := ofName_eq_ok_iff
  ofName_error _ _ := ofName_eq_error_iff
  decode_ok strategy _ _ := decode_ok_iff_isLiteral strategy
  decode_error strategy _ _ literal unknown := ⟨_, decode_unknown literal unknown strategy, rfl⟩
  code_injective _ _ := code_inj.1
  name_injective _ _ := name_inj.1
  displayed := ofName_name
  written strategy a := decode_written a strategy
  ordered _ _ := ⟨order_eq_lt_iff, order_eq_lt_iff_listed, order_eq_eq_iff⟩

/--
Each of the seven tables is exact: lookups by code and by name and both readers of JSON find a
constant just by what stands for it, and say of anything else that it is not in the table. The
items of a snapshot are listed in the order of their table.
-/
theorem lookups_invert_tables :
    IsExact Feature ∧ IsExact Item ∧ IsExact Status ∧ IsExact VideoQuality ∧ IsExact Toggle ∧
    IsExact WfcMode ∧ IsExact Network ∧
    ∀ s : Snapshot, (s.entries.map Prod.fst).Pairwise fun item other => order item other = .lt := by
  refine ⟨isExact _, isExact _, isExact _, isExact _, isExact _, isExact _, isExact _, ?_⟩
  intro s
  exact s.entries_code_lt.imp order_eq_lt_iff.2

/-- An escape in the name of a constant is seen through, and its case counts. -/
theorem lookups_invert_tables_toggle :
    (Json.IsLiteral " \"O\\u004E\"" (name Toggle.on) ∧
      ∀ strategy, decode strategy " \"O\\u004E\"" = .ok Toggle.on) ∧
    Json.IsLiteral "\"On\"" "On" ∧ (∀ a : Toggle, name a ≠ "On") ∧
    ∀ strategy, ∃ m : Mismatch,
      (decode strategy "\"On\"" : Except DecodeError Toggle) = .error (.mismatch m) ∧
      m.message = "invalid feature value name: 'On'" := by
  have escaped : Json.IsLiteral " \"O\\u004E\"" (name Toggle.on) := by
    refine ⟨['O', '\\', 'u', '0', '0', '4', 'E'], ⟨[' '], [], ?_, ?_, ?_⟩, ?_⟩
    · simp
    · simp [Json.IsSpaces, Json.isSpace]
    · exact Json.isSpaces_nil
    · have hname : (name Toggle.on).toList = ['O', 'N'] := String.toList_ofList
      rw [hname]
      exact .plain (by decide) (by decide) (by decide) (.unit rfl (by decide) .nil)
  have plain : Json.IsLiteral "\"On\"" "On" := by
    refine ⟨['O', 'n'], ⟨[], [], ?_, Json.isSpaces_nil, Json.isSpaces_nil⟩, ?_⟩
    · simp
    · have htext : "On".toList = ['O', 'n'] := String.toList_ofList
      rw [htext]
      exact .plain (by decide) (by decide) (by decide)
        (.plain (by decide) (by decide) (by decide) .nil)
  have unknown (a : Toggle) : name a ≠ "On" := by cases a <;> decide
  obtain ⟨-, -, -, -, toggles, -, -, -⟩ := lookups_invert_tables
  refine ⟨⟨escaped, fun strategy => ?_⟩, plain, unknown, fun strategy => ?_⟩
  · exact (toggles.decode_ok strategy _ .on).2 escaped
  · obtain ⟨m, hm, hmessage⟩ := toggles.decode_error strategy _ _ plain unknown
    exact ⟨m, hm, hmessage⟩

end ConstantTable
end ImsProvisioning
