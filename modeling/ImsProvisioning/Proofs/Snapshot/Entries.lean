import ImsProvisioning.Encoding.Snapshot

/-! # Snapshots from entries

A snapshot is determined by its entries: inserted into an empty snapshot, in any order,
they give it back.
-/

namespace ImsProvisioning.Snapshot

variable {s : Snapshot} {es : List (Item × Setting)}

def insertAll (s : Snapshot) (es : List (Item × Setting)) : Snapshot :=
  es.foldl (fun s e => s.insert e.1 e.2) s

@[simp] theorem insertAll_nil (s : Snapshot) : s.insertAll [] = s := rfl

@[simp] theorem insertAll_cons (s : Snapshot) (e : Item × Setting) (es : List (Item × Setting)) :
    s.insertAll (e :: es) = (s.insert e.1 e.2).insertAll es := rfl

theorem get?_insertAll {item : Item} {value : Setting} (items : (es.map Prod.fst).Nodup) :
    (s.insertAll es).get? item = some value ↔
      (item, value) ∈ es ∨ item ∉ es.map Prod.fst ∧ s.get? item = some value := by
  induction es generalizing s with
  | nil => simp
  | cons e es ih =>
    obtain ⟨item', value'⟩ := e
    rw [List.map_cons, List.nodup_cons] at items
    rw [insertAll_cons, ih items.2, List.map_cons, List.mem_cons, List.mem_cons, not_or]
    by_cases h : item = item'
    · subst h
      have absent : (item, value) ∉ es := fun hm => items.1 (List.mem_map.2 ⟨_, hm, rfl⟩)
      simp [items.1, absent, eq_comm]
    · simp [get?_insert_of_ne h, h]

/-- A snapshot that was filled from nothing holds just what it was filled with. -/
theorem get?_insertAll_empty (items : (es.map Prod.fst).Nodup) {item : Item} {value : Setting} :
    (empty.insertAll es).get? item = some value ↔ (item, value) ∈ es := by
  rw [get?_insertAll items]
  simp

theorem map_fst_map (items : List Item) (value : Item → Setting) :
    (items.map fun item => (item, value item)).map Prod.fst = items := by
  simp [Function.comp_def]

/-- A snapshot that was filled item by item has for each what it was given. -/
theorem get?_insertAll_map {items : List Item} (nodup : items.Nodup) (value : Item → Setting)
    {item : Item} (hi : item ∈ items) :
    (empty.insertAll (items.map fun item => (item, value item))).get? item = some (value item) := by
  rw [get?_insertAll_empty (by rwa [map_fst_map])]
  exact List.mem_map.2 ⟨item, hi, rfl⟩

theorem entries_items (s : Snapshot) :
    s.entries.map Prod.fst = Item.all.filter fun item => (s.get? item).isSome := by
  unfold entries
  induction Item.all with
  | nil => rfl
  | cons item items ih => cases h : s.get? item <;> simp [h, ih]

theorem all_nodup : Item.all.Nodup := by
  have h := List.pairwise_map.1 (ConstantTable.name_nodup (α := Item))
  exact h.imp fun hne he => hne (congrArg ConstantTable.name he)

theorem entries_nodup (s : Snapshot) : (s.entries.map Prod.fst).Nodup := by
  rw [entries_items]
  exact all_nodup.filter _

theorem insertAll_of_perm (h : es.Perm s.entries) : empty.insertAll es = s := by
  have items : (es.map Prod.fst).Nodup := (h.map Prod.fst).nodup_iff.2 s.entries_nodup
  ext item value
  rw [get?_insertAll_empty items, h.mem_iff, mem_entries]

end ImsProvisioning.Snapshot
