import ImsProvisioning.Setting

/-! # Snapshots

A snapshot assigns settings to some of the items. Its entries are listed in the
order of the item codes, however it was filled.
-/

namespace ImsProvisioning

structure Snapshot where
  get? : Item → Option Setting

namespace Snapshot

def empty : Snapshot := ⟨fun _ => none⟩

def insert (s : Snapshot) (item : Item) (value : Setting) : Snapshot :=
  ⟨fun other => if other = item then some value else s.get? other⟩

/-- The items with a setting and their settings, in code order. -/
def entries (s : Snapshot) : List (Item × Setting) :=
  Item.all.filterMap fun item => (s.get? item).map (item, ·)

def size (s : Snapshot) : Nat := s.entries.length

def isEmpty (s : Snapshot) : Bool := s.entries.isEmpty

@[ext] theorem ext {s t : Snapshot} (h : ∀ item, s.get? item = t.get? item) : s = t := by
  cases s
  cases t
  exact congrArg Snapshot.mk (funext h)

theorem ext_iff_all {s t : Snapshot} : s = t ↔ ∀ item ∈ Item.all, s.get? item = t.get? item :=
  ⟨fun h _ _ => h ▸ rfl, fun h => ext fun item => h item (ConstantTable.mem_all item)⟩

instance : DecidableEq Snapshot := fun _ _ => decidable_of_iff _ ext_iff_all.symm

@[simp] theorem get?_empty (item : Item) : empty.get? item = none := rfl

@[simp] theorem get?_insert_self (s : Snapshot) (item : Item) (value : Setting) :
    (s.insert item value).get? item = some value := if_pos rfl

theorem get?_insert_of_ne {s : Snapshot} {item other : Item} {value : Setting}
    (h : other ≠ item) : (s.insert item value).get? other = s.get? other := if_neg h

theorem mem_entries {s : Snapshot} {item : Item} {value : Setting} :
    (item, value) ∈ s.entries ↔ s.get? item = some value := by
  simp only [entries, List.mem_filterMap, Option.map_eq_some_iff, Prod.mk.injEq]
  constructor
  · rintro ⟨i, _, v, h, rfl, rfl⟩
    exact h
  · intro h
    exact ⟨item, ConstantTable.mem_all item, value, h, rfl, rfl⟩

end Snapshot
end ImsProvisioning
