import ImsProvisioning.Call.Failure
import ImsProvisioning.Proofs.Constant.Lookup
import ImsProvisioning.Proofs.Text.Apart

/-! # Errors and their messages

A message says all there is to its error, whatever texts are quoted in it. What stands in front
never holds the mark that ends it, numbers are written in decimal, and only the last part may be
any text at all, so a message comes apart in one way.
-/

namespace ImsProvisioning

open ConstantTable (name ofKey)
open Text (Unmarked append_mark_inj)

theorem Method.name_inj {m m' : Method} (h : m.name = m'.name) : m = m' := by
  have mem_all (m : Method) : m ∈ all := by cases m <;> decide
  have distinct : ∀ m ∈ all, ∀ m' ∈ all, m.name = m'.name → m = m' := by decide
  exact distinct m (mem_all m) m' (mem_all m') h

namespace CallError

theorem toList_message_remote (m : String) :
    (remote m).message.toList = "remote call failed: ".toList ++ m.toList :=
  String.toList_append

/-- The eighth character tells the other messages from those of remote failures. -/
theorem message_ne_remote {c : CallError} (m : String) (h : ∀ m, c ≠ .remote m) :
    c.message ≠ (remote m).message := by
  have differs : ∃ cs, c.message = String.ofList cs ∧ cs[7]? ≠ some 'c' := by
    cases c with
    | remote m => exact absurd rfl (h m)
    | _ => exact ⟨_, rfl, by decide⟩
  obtain ⟨cs, hcs, hne⟩ := differs
  intro hm
  have htexts := congrArg String.toList (hcs.symm.trans hm)
  rw [String.toList_ofList, toList_message_remote] at htexts
  rw [htexts] at hne
  simp at hne

theorem message_inj {c c' : CallError} (h : c.message = c'.message) : c = c' := by
  cases c with
  | remote m =>
    cases c' with
    | remote m' => rw [(String.append_right_inj _).1 h]
    | _ => exact absurd h.symm (message_ne_remote m (by simp))
  | _ =>
    cases c' with
    | remote m' => exact absurd h (message_ne_remote m' (by simp))
    | _ => first | rfl | exact absurd h (by decide)

end CallError

namespace Failure

def endsName (c : Char) : Bool := c == '(' || c == ' '

theorem unmarked_method (m : Method) : Unmarked endsName m.name := by
  cases m <;> exact ⟨_, rfl, rfl⟩

theorem unmarked_item (item : Item) : Unmarked endsName (name item) := by
  cases item <;> exact ⟨_, rfl, rfl⟩

theorem not_bracket_of_mem_toString (n : Int32) :
    ∀ c ∈ (toString n.toInt).toList, ¬ c == ')' := by
  intro c hc hbracket
  obtain rfl := eq_of_beq hbracket
  rcases Text.mem_toString hc with hsign | hdigit
  · exact absurd hsign (by decide)
  · exact absurd hdigit (by decide)

theorem toList_message_serviceCall (m : Method) (n : Int32) (c : CallError) :
    (serviceCall m n c).message.toList = m.name.toList ++ '(' ::
      (") failed (code ".toList ++ ((toString n.toInt).toList ++ ')' ::
        (": ".toList ++ c.message.toList))) := by
  simp [message, Method.display]

theorem toList_message_invalidValue (item : Item) (n : Int32) :
    (invalidValue item n).message.toList = (name item).toList ++ ' ' ::
      ("returned out-of-range value ".toList ++ (toString n.toInt).toList) := by
  simp [message]

/-- The mark behind the name tells failed calls from values that are out of range. -/
theorem message_serviceCall_ne (m : Method) (n n' : Int32) (c : CallError) (item : Item) :
    (serviceCall m n c).message ≠ (invalidValue item n').message := by
  intro h
  have htexts := congrArg String.toList h
  rw [toList_message_serviceCall, toList_message_invalidValue] at htexts
  obtain ⟨-, hmark, -⟩ := append_mark_inj endsName (unmarked_method m).not_isMark
    (unmarked_item item).not_isMark rfl rfl htexts
  exact absurd hmark (by decide)

theorem serviceCall_inj {m m' : Method} {n n' : Int32} {c c' : CallError}
    (h : (serviceCall m n c).message = (serviceCall m' n' c').message) :
    m = m' ∧ n = n' ∧ c = c' := by
  have htexts := congrArg String.toList h
  rw [toList_message_serviceCall, toList_message_serviceCall] at htexts
  obtain ⟨hname, -, hrest⟩ := append_mark_inj endsName (unmarked_method m).not_isMark
    (unmarked_method m').not_isMark rfl rfl htexts
  obtain ⟨hcode, -, hcause⟩ := append_mark_inj (· == ')')
    (not_bracket_of_mem_toString n) (not_bracket_of_mem_toString n') rfl rfl
    (List.append_cancel_left hrest)
  exact ⟨Method.name_inj (String.toList_inj.1 hname), Text.int32_inj hcode,
    CallError.message_inj (String.toList_inj.1 (List.append_cancel_left hcause))⟩

theorem invalidValue_inj {item item' : Item} {n n' : Int32}
    (h : (invalidValue item n).message = (invalidValue item' n').message) :
    item = item' ∧ n = n' := by
  have htexts := congrArg String.toList h
  rw [toList_message_invalidValue, toList_message_invalidValue] at htexts
  obtain ⟨hname, -, hvalue⟩ := append_mark_inj endsName (unmarked_item item).not_isMark
    (unmarked_item item').not_isMark rfl rfl htexts
  exact ⟨ConstantTable.name_inj.1 (String.toList_inj.1 hname),
    Text.int32_inj (List.append_cancel_left hvalue)⟩

theorem message_inj {f f' : Failure} (h : f.message = f'.message) : f = f' := by
  cases f with
  | serviceCall m n c =>
    cases f' with
    | serviceCall m' n' c' =>
      obtain ⟨rfl, rfl, rfl⟩ := serviceCall_inj h
      rfl
    | invalidValue item n' => exact absurd h (message_serviceCall_ne m n n' c item)
  | invalidValue item n =>
    cases f' with
    | serviceCall m' n' c' => exact absurd h.symm (message_serviceCall_ne m' n' n c' item)
    | invalidValue item' n' =>
      obtain ⟨rfl, rfl⟩ := invalidValue_inj h
      rfl

end Failure

namespace ConstantError

def kind : ConstantError → String
  | .invalidCode kind _ => kind
  | .invalidName kind _ => kind

/-- The part of a message that says what was looked up. -/
def key : ConstantError → String
  | .invalidCode _ _ => " code"
  | .invalidName _ _ => " name"

def sought : ConstantError → List Char
  | .invalidCode _ n => ' ' :: (toString n.toInt).toList
  | .invalidName _ s => " '".toList ++ s.toList ++ ['\'']

variable {e e' : ConstantError}

theorem toList_message (e : ConstantError) :
    e.message.toList = "invalid ".toList ++ e.kind.toList ++ e.key.toList ++ ':' :: e.sought := by
  cases e <;> simp [message, kind, key, sought]

theorem length_key (e : ConstantError) : e.key.toList.length = 5 := by
  cases e <;> simp [key]

/-- The part of a message in front of the colon holds none if the kind holds none. -/
theorem not_colon_of_kind (hkind : ':' ∉ e.kind.toList) :
    ∀ c ∈ "invalid ".toList ++ e.kind.toList ++ e.key.toList, ¬ c == ':' := by
  intro c hc hcolon
  obtain rfl := eq_of_beq hcolon
  cases e <;> simp [kind, key] at hc hkind <;> exact hkind hc

theorem message_inj (hkind : ':' ∉ e.kind.toList) (hkind' : ':' ∉ e'.kind.toList)
    (h : e.message = e'.message) : e = e' := by
  have htexts := congrArg String.toList h
  rw [toList_message, toList_message] at htexts
  obtain ⟨hfront, -, hsought⟩ := append_mark_inj (· == ':') (not_colon_of_kind hkind)
    (not_colon_of_kind hkind') rfl rfl htexts
  -- Both keys are of one length, so the kinds in front of them end in the same place.
  obtain ⟨hstart, hkeys⟩ := List.append_inj' hfront (by rw [length_key, length_key])
  have hkey : e.key = e'.key := String.toList_inj.1 hkeys
  have hsame : e.kind = e'.kind := String.toList_inj.1 (List.append_cancel_left hstart)
  cases e with
  | invalidCode k n =>
    cases e' with
    | invalidCode k' n' =>
      obtain rfl : k = k' := hsame
      rw [Text.int32_inj (List.cons.inj hsought).2]
    | invalidName k' s' => simp [key] at hkey
  | invalidName k s =>
    cases e' with
    | invalidCode k' n' => simp [key] at hkey
    | invalidName k' s' =>
      obtain rfl : k = k' := hsame
      have hname := List.append_cancel_left (List.append_cancel_right hsought)
      rw [String.toList_inj.1 hname]

/-- A table reports its own kind, with a code or a name that it does not list. -/
theorem kind_of_ofKey {α : Type} [ConstantTable α] {key : ConstantKey}
    (h : ofKey α key = .error e) : e.kind = ConstantTable.kind α := by
  cases key with
  | code n =>
    obtain ⟨-, rfl⟩ := ConstantTable.ofCode_eq_error_iff.1 h
    rfl
  | name s =>
    obtain ⟨-, rfl⟩ := ConstantTable.ofName_eq_error_iff.1 h
    rfl

def tableKinds : List String :=
  [ConstantTable.kind Feature, ConstantTable.kind Item, ConstantTable.kind Status,
    ConstantTable.kind VideoQuality, ConstantTable.kind Toggle, ConstantTable.kind WfcMode,
    ConstantTable.kind Network]

/-- One of the seven tables refuses a key with this error. -/
inductive IsReported (e : ConstantError) : Prop
  | feature {key : ConstantKey} (h : ofKey Feature key = .error e) : IsReported e
  | item {key : ConstantKey} (h : ofKey Item key = .error e) : IsReported e
  | status {key : ConstantKey} (h : ofKey Status key = .error e) : IsReported e
  | videoQuality {key : ConstantKey} (h : ofKey VideoQuality key = .error e) : IsReported e
  | toggle {key : ConstantKey} (h : ofKey Toggle key = .error e) : IsReported e
  | wfcMode {key : ConstantKey} (h : ofKey WfcMode key = .error e) : IsReported e
  | network {key : ConstantKey} (h : ofKey Network key = .error e) : IsReported e

theorem kind_mem_of_isReported (h : e.IsReported) : e.kind ∈ tableKinds := by
  rcases h with h | h | h | h | h | h | h <;> simp [tableKinds, kind_of_ofKey h]

theorem not_colon_of_mem (k : String) (h : k ∈ tableKinds) : ':' ∉ k.toList := by
  revert k
  decide

end ConstantError

/--
Errors with the same message are the same error: failures of operations with all they carry,
the causes of failed calls, and what the tables say of codes and names that they do not list.
The texts of remote failures and the names that were looked up may be any texts.
-/
theorem messages_identify_errors :
    (∀ f f' : Failure, f.message = f'.message ↔ f = f') ∧
    (∀ c c' : CallError, c.message = c'.message ↔ c = c') ∧
    (∀ e e' : ConstantError, e.kind ∈ ConstantError.tableKinds →
      e'.kind ∈ ConstantError.tableKinds → (e.message = e'.message ↔ e = e')) ∧
    ∀ e : ConstantError, e.IsReported → e.kind ∈ ConstantError.tableKinds := by
  refine ⟨fun f f' => ⟨Failure.message_inj, congrArg _⟩,
    fun c c' => ⟨CallError.message_inj, congrArg _⟩, fun e e' he he' => ⟨?_, congrArg _⟩,
    fun e => ConstantError.kind_mem_of_isReported⟩
  exact ConstantError.message_inj (ConstantError.not_colon_of_mem _ he)
    (ConstantError.not_colon_of_mem _ he')

/-- A name with the text of another message in it is not taken for what that message reports. -/
theorem messages_identify_errors_quoting :
    let e := ConstantError.invalidName "wfc mode" "7', invalid wfc mode code: 7"
    let e' := ConstantError.invalidCode "wfc mode" 7
    e.IsReported ∧ e'.IsReported ∧ e.message ≠ e'.message := by
  intro e e'
  have named : ofKey WfcMode (.name "7', invalid wfc mode code: 7") = .error e := rfl
  have coded : ofKey WfcMode (.code 7) = .error e' := rfl
  have he : e.IsReported := .wfcMode named
  have he' : e'.IsReported := .wfcMode coded
  obtain ⟨-, -, tables, reported⟩ := messages_identify_errors
  refine ⟨he, he', ?_⟩
  rw [Ne, tables e e' (reported e he) (reported e' he')]
  simp [e, e']

end ImsProvisioning
