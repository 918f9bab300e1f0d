import ImsProvisioning.Proofs.Client.Facade
import ImsProvisioning.Proofs.History.LastWrite

/-! # Writes to an item

An item is written through the setter of the kind that it declares. The setter of the other
kind writes elsewhere, and no other call and no other operation writes anything to an item.
-/

namespace ImsProvisioning

open ConstantTable (code)

def Call.writes? (item : Item) : Call → Option Setting
  | .setInteger other n =>
    if other = item ∧ item.settingKind = .integer then some (.integer n) else none
  | .setText other t =>
    if other = item ∧ item.settingKind = .text then some (.text t) else none
  | _ => none

/-- What an operation writes to an item; setting the WiFi calling mode writes its code. -/
def Operation.writes? (item : Item) : Operation → Option Setting
  | .forward c => c.writes? item
  | .setWfcMode mode =>
    if item = .voiceOverWifiMode then some (.integer (code mode)) else none
  | _ => none

@[simp] theorem Call.writes?_getter (item other : Item) :
    other.getter.writes? item = none := by
  unfold Item.getter
  cases other.settingKind <;> rfl

namespace Operation

variable {σ : Type} {o : Options} {s : Service σ}

/-- An operation with one call writes what its call writes. -/
theorem writes?_of_request {op : Operation} {c : Call} (h : op.request? = some c) (item : Item) :
    op.writes? item = c.writes? item := by
  cases op with
  | forward c' =>
    obtain rfl : c' = c := Option.some.inj h
    rfl
  | getProvisioned other =>
    obtain rfl : other.getter = c := Option.some.inj h
    exact (Call.writes?_getter item other).symm
  | getWfcMode =>
    obtain rfl : Call.getInteger .voiceOverWifiMode = c := Option.some.inj h
    rfl
  | setWfcMode mode =>
    obtain rfl : Call.setInteger .voiceOverWifiMode (code mode) = c := Option.some.inj h
    by_cases hitem : item = .voiceOverWifiMode
    · subst hitem
      rfl
    · simp [writes?, Call.writes?, hitem, Ne.symm hitem]
  | snapshot => cases h

theorem lastWrite_getters {cs : List Call} {items : List Item} (h : cs <+: items.map Item.getter)
    (item : Item) : lastWrite (Call.writes? item) cs = none := by
  have hnone : cs.filterMap (Call.writes? item) = [] := by
    rw [List.filterMap_eq_nil_iff]
    intro c hc
    obtain ⟨other, -, rfl⟩ := List.mem_map.1 (h.subset hc)
    exact Call.writes?_getter item other
  rw [lastWrite, hnone, List.getLast?_nil]

/-- The calls of an operation write what the operation writes. -/
theorem lastWrite_program (op : Operation) (item : Item) (l : Ledger σ) :
    lastWrite (Call.writes? item) ((op.program o).run s l.state).calls = op.writes? item := by
  by_cases hop : op = .snapshot
  · subst hop
    exact lastWrite_getters (run_readingAll_calls l .empty) item
  · obtain ⟨c, hc⟩ := request?_isSome hop
    rw [program_calls o s hc, lastWrite_cons, writes?_of_request hc, lastWrite_nil,
      Option.none_or]

/-- The calls of some operations write last what the operations write last. -/
theorem lastWrite_sequence (ops : List Operation) (item : Item) (l : Ledger σ) :
    lastWrite (Call.writes? item) ((sequence o ops).run s l.state).calls =
      lastWrite (Operation.writes? item) ops := by
  induction ops generalizing l with
  | nil => rfl
  | cons op ops ih =>
    have hstate := congrArg Ledger.state (Program.run_serveAll s (op.program o) l)
    have hrest := ih (l.serveAll s.backend ((op.program o).run s l.state).calls)
    rw [hstate] at hrest
    have hcalls : ((sequence o (op :: ops)).run s l.state).calls =
        ((op.program o).run s l.state).calls ++
          ((sequence o ops).run s ((op.program o).run s l.state).state).calls := by
      rw [run_sequence_cons]
      exact List.filterMap_append
    rw [hcalls, lastWrite_append, hrest, lastWrite_program, lastWrite_cons]

end Operation
end ImsProvisioning
