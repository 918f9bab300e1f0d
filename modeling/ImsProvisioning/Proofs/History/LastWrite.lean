/-! # The last write

A thing that is overwritten now and then is what the last write made it, or what it was to
begin with.
-/

namespace ImsProvisioning

variable {α β σ : Type} {writes : α → Option β}

/-- What the last step that writes anything writes. -/
def lastWrite (writes : α → Option β) (steps : List α) : Option β :=
  (steps.filterMap writes).getLast?

@[simp] theorem lastWrite_nil (writes : α → Option β) : lastWrite writes [] = none := rfl

theorem lastWrite_cons (writes : α → Option β) (a : α) (as : List α) :
    lastWrite writes (a :: as) = (lastWrite writes as).or (writes a) := by
  unfold lastWrite
  cases h : writes a with
  | none => rw [List.filterMap_cons_none h, Option.or_none]
  | some b =>
    rw [List.filterMap_cons_some h, List.getLast?_cons]
    cases (as.filterMap writes).getLast? <;> rfl

theorem lastWrite_append (writes : α → Option β) (as bs : List α) :
    lastWrite writes (as ++ bs) = (lastWrite writes bs).or (lastWrite writes as) := by
  induction as with
  | nil => simp
  | cons a as ih => rw [List.cons_append, lastWrite_cons, ih, lastWrite_cons, Option.or_assoc]

/-- If every step leaves what it writes, a run leaves what the last of them wrote. -/
theorem view_foldl {step : σ → α → σ} (view : σ → β)
    (h : ∀ st a, view (step st a) = (writes a).getD (view st)) (as : List α) (st : σ) :
    view (as.foldl step st) = (lastWrite writes as).getD (view st) := by
  induction as generalizing st with
  | nil => rfl
  | cons a as ih =>
    rw [List.foldl_cons, ih, h, lastWrite_cons]
    cases lastWrite writes as <;> rfl

end ImsProvisioning
