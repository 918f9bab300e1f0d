/-! # Constant tables

A constant of the provisioning service has a wire code, a name and a label. A
table lists its constants in code order; codes and names are distinct, so both
identify a constant and either one finds it again.
-/

namespace ImsProvisioning

/-- One line of a constant table; the label stands for the constant in diagnostics. -/
structure ConstantRow where
  code : Int32
  name : String
  label : String
deriving DecidableEq, Repr

/-- A type whose values are exactly the constants of one table, with what messages call them. -/
class ConstantTable (α : Type) where
  kind : String
  all : List α
  row : α → ConstantRow
  mem_all : ∀ a, a ∈ all
  code_lt : (all.map fun a => (row a).code.toInt).Pairwise (· < ·)
  name_nodup : (all.map fun a => (row a).name).Nodup

/-- A code or a name that is not in the table it was looked up in. -/
inductive ConstantError where
  | invalidCode (kind : String) (code : Int32)
  | invalidName (kind name : String)
deriving DecidableEq, Repr

def ConstantError.message : ConstantError → String
  | .invalidCode kind code => "invalid " ++ kind ++ " code: " ++ toString code.toInt
  | .invalidName kind name => "invalid " ++ kind ++ " name: '" ++ name ++ "'"

inductive ConstantKey where
  | code (code : Int32)
  | name (name : String)
deriving DecidableEq, Repr

private theorem eq_of_map_nodup {α β : Type} {f : α → β} :
    ∀ {l : List α}, (l.map f).Nodup → ∀ {a b}, a ∈ l → b ∈ l → f a = f b → a = b
  | [], _, _, _, ha, _, _ => nomatch ha
  | c :: l, h, a, b, ha, hb, hab => by
    rw [List.map_cons, List.nodup_cons] at h
    rcases List.mem_cons.1 ha with rfl | ha' <;> rcases List.mem_cons.1 hb with rfl | hb'
    · rfl
    · exact absurd (hab ▸ List.mem_map_of_mem hb') h.1
    · exact absurd (hab ▸ List.mem_map_of_mem ha') h.1
    · exact eq_of_map_nodup h.2 ha' hb' hab

namespace ConstantTable

variable {α : Type} [ConstantTable α]

def code (a : α) : Int32 := (row a).code
def name (a : α) : String := (row a).name
def label (a : α) : String := (row a).label

def ofCode? (α : Type) [ConstantTable α] (n : Int32) : Option α :=
  all.find? fun a => code a == n

def ofName? (α : Type) [ConstantTable α] (s : String) : Option α :=
  all.find? fun a => name a == s

def ofCode (α : Type) [ConstantTable α] (n : Int32) : Except ConstantError α :=
  match ofCode? α n with
  | some a => .ok a
  | none => .error (.invalidCode (kind α) n)

def ofName (α : Type) [ConstantTable α] (s : String) : Except ConstantError α :=
  match ofName? α s with
  | some a => .ok a
  | none => .error (.invalidName (kind α) s)

def ofKey (α : Type) [ConstantTable α] : ConstantKey → Except ConstantError α
  | .code n => ofCode α n
  | .name s => ofName α s

def order (a b : α) : Ordering := compare (code a).toInt (code b).toInt

theorem code_inj {a b : α} : code a = code b ↔ a = b := by
  refine ⟨fun h => ?_, congrArg code⟩
  refine eq_of_map_nodup (f := fun a => (row a).code.toInt) ?_ (mem_all a) (mem_all b)
    (congrArg Int32.toInt h)
  exact code_lt.imp fun h => by omega

theorem name_inj {a b : α} : name a = name b ↔ a = b :=
  ⟨eq_of_map_nodup name_nodup (mem_all a) (mem_all b), congrArg name⟩

theorem ofCode?_eq_some_iff {n : Int32} {a : α} : ofCode? α n = some a ↔ code a = n := by
  refine ⟨fun h => by simpa using List.find?_some h, fun h => ?_⟩
  cases hf : ofCode? α n with
  | none => simpa [h] using List.find?_eq_none.1 hf a (mem_all a)
  | some b =>
    have hb : code b = n := by simpa using List.find?_some hf
    rw [code_inj.1 (hb.trans h.symm)]

theorem ofName?_eq_some_iff {s : String} {a : α} : ofName? α s = some a ↔ name a = s := by
  refine ⟨fun h => by simpa using List.find?_some h, fun h => ?_⟩
  cases hf : ofName? α s with
  | none => simpa [h] using List.find?_eq_none.1 hf a (mem_all a)
  | some b =>
    have hb : name b = s := by simpa using List.find?_some hf
    rw [name_inj.1 (hb.trans h.symm)]

@[simp] theorem ofCode?_code (a : α) : ofCode? α (code a) = some a :=
  ofCode?_eq_some_iff.2 rfl

@[simp] theorem ofName?_name (a : α) : ofName? α (name a) = some a :=
  ofName?_eq_some_iff.2 rfl

end ConstantTable
end ImsProvisioning
