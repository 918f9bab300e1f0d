import ImsProvisioning.Proofs.History.ReadAfterWrite
import ImsProvisioning.Proofs.Traffic.Lapse

/-! # Storage

A backend is a storage if it stores what its setters are given and reads it back. It may fail
calls, and of a failed one it says whether it has carried it out all the same. What is stored
for an item is then what the last of the calls carried out wrote, and as long as nothing is
written to the item it is the same at every point.
-/

namespace ImsProvisioning

open Traffic (stateAt)

variable {σ : Type} {b : Backend σ}

/-- What makes a backend a storage: what it holds for an item and which calls it carries out. -/
structure Backend.Storage (b : Backend σ) where
  held : σ → Item → Setting
  carries : Call → σ → Bool
  carries_of_ok (c : Call) (st : σ) (answer : c.Answer) :
    (b c st).outcome = .returned (.ok answer) → carries c st
  held_call (c : Call) (st : σ) (item : Item) :
    held (b c st).state item =
      if carries c st then (c.writes? item).getD (held st item) else held st item
  held_of_ok (item : Item) (st : σ) (answer : item.getter.Answer) :
    (b item.getter st).outcome = .returned (.ok answer) →
      item.getter.setting? answer = some (held st item)

namespace Backend.Storage

/-- Those of some calls, made one after the other, that are carried out. -/
def carriedOut (k : b.Storage) : List Call → σ → List Call
  | [], _ => []
  | c :: cs, st =>
    if k.carries c st then c :: k.carriedOut cs (b c st).state
    else k.carriedOut cs (b c st).state

variable (k : b.Storage)

/-- What is stored is what the last call carried out that writes to the item wrote. -/
theorem held_serveAll (cs : List Call) (l : Ledger σ) (item : Item) :
    k.held (l.serveAll b cs).state item =
      (lastWrite (Call.writes? item) (k.carriedOut cs l.state)).getD (k.held l.state item) := by
  induction cs generalizing l with
  | nil => rfl
  | cons c cs ih =>
    have hrest := ih (l.serve b c)
    have hcall : k.held (l.serve b c).state item = _ := k.held_call c l.state item
    rw [hcall] at hrest
    change k.held ((l.serve b c).serveAll b cs).state item = _
    rw [hrest, carriedOut]
    change (lastWrite _ (k.carriedOut cs (b c l.state).state)).getD _ = _
    split
    · rw [lastWrite_cons]
      cases lastWrite (Call.writes? item) (k.carriedOut cs (b c l.state).state) <;> rfl
    · rfl

/-- Of the calls from one place up to another none that is carried out writes to the item. -/
def Undisturbed (st : σ) (cs : List Call) (item : Item) (first last : Nat) : Prop :=
  ∀ place c, first ≤ place → place < last → cs[place]? = some c →
    k.carries c ((Ledger.fresh st).serveAll b (cs.take place)).state → c.writes? item = none

/-- While an item is undisturbed, what is stored for it stays. -/
theorem held_of_undisturbed {st : σ} {w : Traffic σ} {item : Item} {first last : Nat}
    (hle : first ≤ last) (undisturbed : k.Undisturbed st w.served item first last) :
    k.held (w.stateAt b st last) item = k.held (w.stateAt b st first) item := by
  induction hle with
  | refl => rfl
  | @step last hle ih =>
    have hrest := ih fun place c hplace hlt =>
      undisturbed place c hplace (Nat.lt_succ_of_lt hlt)
    rw [← hrest, stateAt, List.take_add_one, Ledger.serveAll_append]
    cases hc : w.served[last]? with
    | none => rfl
    | some c =>
      have hcall : k.held (b c (w.stateAt b st last)).state item = _ :=
        k.held_call c (w.stateAt b st last) item
      refine hcall.trans ?_
      split
      · rename_i carried
        rw [undisturbed last c hle (Nat.lt_succ_self last) hc carried]
        rfl
      · rfl

/-- While nothing is written to an item, what is stored for it stays. -/
theorem held_of_quiet (st : σ) {w : Traffic σ} {item : Item} {first last : Nat}
    (hle : first ≤ last)
    (quiet : ∀ place c, first ≤ place → place < last → w.served[place]? = some c →
      c.writes? item = none) :
    k.held (w.stateAt b st last) item = k.held (w.stateAt b st first) item :=
  k.held_of_undisturbed hle fun place c hplace hlt hc _ => quiet place c hplace hlt hc

theorem carriedOut_subset (cs : List Call) (st : σ) : k.carriedOut cs st ⊆ cs := by
  induction cs generalizing st with
  | nil => exact List.Subset.refl []
  | cons c cs ih =>
    rw [carriedOut]
    split
    · exact List.cons_subset_cons c (ih _)
    · exact List.subset_cons_of_subset c (ih _)

/-- If no call carried out writes to an item, what is stored for it stays. -/
theorem held_of_carriedOut {cs : List Call} {l : Ledger σ} {item : Item}
    (untouched : ∀ c ∈ k.carriedOut cs l.state, c.writes? item = none) :
    k.held (l.serveAll b cs).state item = k.held l.state item := by
  rw [held_serveAll, lastWrite, List.filterMap_eq_nil_iff.2 untouched]
  rfl

/-- Reading items changes nothing that is stored. -/
theorem held_stateAt (st : σ) (items : List Item) (place : Nat) (item : Item) :
    k.held (Operation.stateAt b.service (.fresh st) items place) item = k.held st item := by
  apply k.held_of_carriedOut (l := .fresh st)
  intro c hc
  obtain ⟨other, -, rfl⟩ := List.mem_map.1 (k.carriedOut_subset _ _ hc)
  exact Call.writes?_getter item other

end Backend.Storage

namespace Store

theorem trip_setting (c : Call) (s : Store) (item : Item) :
    (s.trip c).2.setting item = s.setting item := by
  unfold trip
  split
  · rfl
  · split
    · rfl
    · split <;> rfl

/-- A call is carried out unless it is faulty, and a faulty call changes no setting. -/
theorem backend_setting (c : Call) (s : Store) (item : Item) :
    (backend c s).state.setting item =
      if (s.trip c).1.isNone then (c.writes? item).getD (s.setting item)
      else s.setting item := by
  have htrip := trip_setting c s item
  unfold backend
  split
  · rename_i heq
    rw [heq] at htrip ⊢
    exact (answer_setting c _ item).trans (by rw [htrip]; rfl)
  · rename_i heq
    rw [heq] at htrip ⊢
    exact htrip
  · rename_i heq
    rw [heq] at htrip ⊢
    exact htrip

theorem trip_of_ok {c : Call} {s : Store} {reply : c.Answer}
    (h : (backend c s).outcome = .returned (.ok reply)) :
    (s.trip c).1 = none ∧ (answer c (s.trip c).2).result = .ok reply := by
  unfold backend at h
  split at h
  · rename_i heq
    rw [heq]
    exact ⟨rfl, Outcome.returned.inj h⟩
  · cases h
  · cases h

/-- Whatever fault is planted in it, a store is a storage. -/
def storage : backend.Storage where
  held := setting
  carries c s := (s.trip c).1.isNone
  carries_of_ok c s reply h := by rw [(trip_of_ok h).1]; rfl
  held_call := backend_setting
  held_of_ok item s reply h := by
    obtain ⟨reply', hreply, hsetting⟩ := answer_getter item (s.trip item.getter).2
    obtain rfl := Except.ok.inj ((trip_of_ok h).2.symm.trans hreply)
    rw [hsetting, trip_setting]

end Store
end ImsProvisioning
