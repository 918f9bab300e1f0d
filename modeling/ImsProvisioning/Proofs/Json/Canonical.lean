import ImsProvisioning.Json.Value

/-! # Members in canonical order

Setting members whose keys are all different puts them into another order and changes
nothing else. In general the keys of a canonical object ascend, and under each of them
stands the last value that was written.
-/

namespace ImsProvisioning.Json

variable {key : String} {v : Value} {done ms : List (String × Value)}

theorem setMember_perm (fresh : key ∉ ms.map Prod.fst) :
    (setMember key v ms).Perm ((key, v) :: ms) := by
  induction ms with
  | nil => exact .refl _
  | cons m ms ih =>
    obtain ⟨k, w⟩ := m
    simp only [List.map_cons, List.mem_cons, not_or] at fresh
    rw [setMember, if_neg fresh.1]
    by_cases lt : key < k
    · rw [if_pos lt]
    · rw [if_neg lt]
      exact ((ih fresh.2).cons _).trans (.swap ..)

theorem canonicalMembers_perm (keys : ((done ++ ms).map Prod.fst).Nodup)
    (canonical : ∀ m ∈ ms, m.2.canonical = m.2) :
    (canonicalMembers done ms).Perm (done ++ ms) := by
  induction ms generalizing done with
  | nil => simp [canonicalMembers]
  | cons m ms ih =>
    obtain ⟨k, w⟩ := m
    have hw : w.canonical = w := canonical (k, w) (List.mem_cons_self ..)
    rw [canonicalMembers, hw]
    have middle : (done ++ (k, w) :: ms).Perm ((k, w) :: (done ++ ms)) := List.perm_middle
    have keys' := (middle.map Prod.fst).nodup_iff.1 keys
    rw [List.map_cons, List.nodup_cons, List.map_append, List.mem_append, not_or] at keys'
    have hset := setMember_perm (v := w) keys'.1.1
    have happend : (setMember k w done ++ ms).Perm ((k, w) :: (done ++ ms)) :=
      hset.append_right ms
    have hmove := happend.trans middle.symm
    have hrest := ih ((hmove.map Prod.fst).nodup_iff.2 keys)
      fun m hm => canonical m (List.mem_cons_of_mem _ hm)
    exact hrest.trans hmove

/-- Members that are all of one form keep it in another order. -/
theorem exists_of_perm_map {α β : Type} {f : α → β} {bs : List β} {as : List α}
    (h : bs.Perm (as.map f)) : ∃ as' : List α, as'.Perm as ∧ bs = as'.map f := by
  generalize hl : as.map f = l at h
  induction h generalizing as with
  | nil => exact ⟨as, .refl _, hl.symm⟩
  | cons b _ ih =>
    obtain ⟨a, as', rfl, rfl, hrest⟩ := List.map_eq_cons_iff.1 hl
    obtain ⟨as'', hp, rfl⟩ := ih hrest
    exact ⟨a :: as'', hp.cons a, rfl⟩
  | swap b b' bs =>
    obtain ⟨a, as', rfl, rfl, hrest⟩ := List.map_eq_cons_iff.1 hl
    obtain ⟨a', as'', rfl, rfl, rfl⟩ := List.map_eq_cons_iff.1 hrest
    exact ⟨a' :: a :: as'', .swap .., rfl⟩
  | trans _ _ ih₁ ih₂ =>
    obtain ⟨as', hp, rfl⟩ := ih₂ hl
    obtain ⟨as'', hp', rfl⟩ := ih₁ rfl
    exact ⟨as'', hp'.trans hp, rfl⟩

def valuesOf (key : String) (ms : List (String × Value)) : List Value :=
  ms.filterMap fun m => if m.1 = key then some m.2 else none

theorem mem_valuesOf : v ∈ valuesOf key ms ↔ (key, v) ∈ ms := by
  rw [valuesOf, List.mem_filterMap]
  constructor
  · rintro ⟨⟨k, w⟩, hm, h⟩
    split at h
    · rename_i hk
      obtain rfl := Option.some.inj h
      exact hk ▸ hm
    · exact nomatch h
  · exact fun hm => ⟨_, hm, if_pos rfl⟩

theorem valuesOf_cons (key k : String) (w : Value) (ms : List (String × Value)) :
    valuesOf key ((k, w) :: ms) = if k = key then w :: valuesOf key ms else valuesOf key ms := by
  rw [valuesOf, List.filterMap_cons]
  split <;> rename_i h <;> split at h <;> simp_all [valuesOf]

theorem lookup_cons_ite (key k : String) (w : Value) (ms : List (String × Value)) :
    ((k, w) :: ms).lookup key = if key = k then some w else ms.lookup key := by
  rw [List.lookup_cons]
  by_cases h : key = k
  · simp [h]
  · rw [if_neg h, beq_false_of_ne h]

theorem lookup_setMember (key k : String) (v : Value) (ms : List (String × Value)) :
    (setMember key v ms).lookup k = if k = key then some v else ms.lookup k := by
  induction ms with
  | nil => rw [setMember, lookup_cons_ite]
  | cons m ms ih =>
    obtain ⟨k', w⟩ := m
    rw [setMember]
    by_cases he : key = k'
    · subst he
      rw [if_pos rfl, lookup_cons_ite, lookup_cons_ite]
      split <;> rfl
    · rw [if_neg he]
      by_cases lt : key < k'
      · rw [if_pos lt, lookup_cons_ite]
      · rw [if_neg lt, lookup_cons_ite, ih, lookup_cons_ite]
        by_cases h : k = key
        · subst h
          rw [if_neg he, if_pos rfl, if_pos rfl]
        · rw [if_neg h, if_neg h]

/-- A key of a canonical object has the last of its values, or none if there was none. -/
theorem lookup_canonicalMembers (key : String) (done ms : List (String × Value)) :
    (canonicalMembers done ms).lookup key =
      ((valuesOf key ms).getLast?.map Value.canonical).or (done.lookup key) := by
  induction ms generalizing done with
  | nil => simp [canonicalMembers, valuesOf]
  | cons m ms ih =>
    obtain ⟨k, w⟩ := m
    rw [canonicalMembers, ih, lookup_setMember, valuesOf_cons]
    by_cases h : k = key
    · rw [if_pos h, if_pos h.symm]
      cases valuesOf key ms with
      | nil => rfl
      | cons u us => simp [List.getLast?_cons]
    · rw [if_neg h, if_neg (Ne.symm h)]

def KeysAscend (ms : List (String × Value)) : Prop := ms.Pairwise fun a b => a.1 < b.1

theorem mem_setMember {m : String × Value} (h : m ∈ setMember key v ms) :
    m = (key, v) ∨ m ∈ ms := by
  induction ms with
  | nil => exact .inl (by simpa [setMember] using h)
  | cons m' ms ih =>
    obtain ⟨k, w⟩ := m'
    rw [setMember] at h
    split at h
    · exact (List.mem_cons.1 h).imp_right (List.mem_cons_of_mem _)
    · split at h
      · exact List.mem_cons.1 h
      · rcases List.mem_cons.1 h with rfl | h
        · exact .inr (List.mem_cons_self ..)
        · exact (ih h).imp_right (List.mem_cons_of_mem _)

theorem KeysAscend.setMember (h : KeysAscend ms) (key : String) (v : Value) :
    KeysAscend (setMember key v ms) := by
  induction ms with
  | nil => exact List.pairwise_singleton ..
  | cons m ms ih =>
    obtain ⟨k, w⟩ := m
    obtain ⟨hfirst, hrest⟩ := List.pairwise_cons.1 h
    rw [Json.setMember]
    split
    · rename_i he
      subst he
      exact List.pairwise_cons.2 ⟨hfirst, hrest⟩
    · rename_i he
      split
      · rename_i lt
        refine List.pairwise_cons.2 ⟨fun m hm => ?_, h⟩
        rcases List.mem_cons.1 hm with rfl | hm
        · exact lt
        · exact String.lt_trans lt (hfirst m hm)
      · rename_i lt
        refine List.pairwise_cons.2 ⟨fun m hm => ?_, ih hrest⟩
        rcases mem_setMember hm with rfl | hm
        · exact Decidable.byContradiction fun hn =>
            he (String.le_antisymm (String.not_lt.1 hn) (String.not_lt.1 lt))
        · exact hfirst m hm

theorem KeysAscend.canonicalMembers (h : KeysAscend done) (ms : List (String × Value)) :
    KeysAscend (canonicalMembers done ms) := by
  induction ms generalizing done with
  | nil =>
    rw [Json.canonicalMembers]
    exact h
  | cons m ms ih =>
    rw [Json.canonicalMembers]
    exact ih (h.setMember m.1 m.2.canonical)

theorem KeysAscend.keys_nodup (h : KeysAscend ms) : (ms.map Prod.fst).Nodup :=
  List.pairwise_map.2 (h.imp fun {a b} lt (he : a.1 = b.1) => String.lt_irrefl b.1 (he ▸ lt))

theorem lookup_eq_some_iff_mem (keys : (ms.map Prod.fst).Nodup) :
    ms.lookup key = some v ↔ (key, v) ∈ ms := by
  induction ms with
  | nil => simp
  | cons m ms ih =>
    obtain ⟨k, w⟩ := m
    rw [List.map_cons, List.nodup_cons] at keys
    rw [lookup_cons_ite, List.mem_cons]
    by_cases h : key = k
    · subst h
      have absent : (key, v) ∉ ms := fun hm => keys.1 (List.mem_map.2 ⟨_, hm, rfl⟩)
      simp [absent, eq_comm]
    · simp [h, ih keys.2]

end ImsProvisioning.Json
