import ImsProvisioning.Proofs.Transport.Exchange

/-! # Reading every item over a channel

A client that reads item after item makes one exchange for each. The getters that were answered
have ascending places behind everything that was accepted before the client began, and the
client ends with what they were answered, or with the first getter that lapsed.
-/

namespace ImsProvisioning

open Program (Runs)
open Traffic (Answered Grows Lapse Orderly)

variable {σ : Type} {b : Backend σ} {st : σ} {site : Site} {o : Options}
  {w w₁ w' : Traffic σ} {items : List Item} {snap : Snapshot}

theorem Item.getter_isBlocking (item : Item) : item.getter.isBlocking := by
  unfold Item.getter
  cases item.settingKind <;> rfl

/-- The items were read one after the other, at these places and with these settings. -/
structure Sweep (b : Backend σ) (st : σ) (w w' : Traffic σ) (items : List Item)
    (place : Item → Nat) (value : Item → Setting) : Prop where
  ascending : items.Pairwise fun item other => place item < place other
  behind : ∀ item ∈ items, w.accepted.length ≤ place item
  answered : ∀ item ∈ items, ∃ answer, Answered b st w' (place item) item.getter answer ∧
    item.getter.setting? answer = some (value item)

theorem Sweep.nil (b : Backend σ) (st : σ) (w w' : Traffic σ) (place : Item → Nat)
    (value : Item → Setting) : Sweep b st w w' [] place value where
  ascending := .nil
  behind := by simp
  answered := by simp

/-- Answering one more getter in front. -/
theorem Sweep.cons {item : Item} {place : Item → Nat} {value : Item → Setting} {first : Nat}
    {answer : item.getter.Answer} {setting : Setting} (h : Sweep b st w₁ w' items place value)
    (new : item ∉ items) (ho : Orderly b st w₁) (before : Grows w w₁) (after : Grows w₁ w')
    (hle : w.accepted.length ≤ first) (ha : Answered b st w₁ first item.getter answer)
    (hsetting : item.getter.setting? answer = some setting) :
    Sweep b st w w' (item :: items) (fun other => if other = item then first else place other)
      (fun other => if other = item then setting else value other) := by
  have hne {other : Item} (hother : other ∈ items) : other ≠ item :=
    fun he => new (he ▸ hother)
  have hfirst : first < w₁.accepted.length := by
    have hserved : first < w₁.served.length := (List.getElem?_eq_some_iff.1 ha.served).1
    exact Nat.lt_of_lt_of_le hserved ho.served_length
  refine ⟨List.pairwise_cons.2 ⟨?_, ?_⟩, ?_, ?_⟩
  · intro other hother
    rw [if_pos rfl, if_neg (hne hother)]
    exact Nat.lt_of_lt_of_le hfirst (h.behind other hother)
  · refine h.ascending.imp_of_mem ?_
    intro x y hx hy hlt
    rwa [if_neg (hne hx), if_neg (hne hy)]
  · intro other hother
    rcases List.mem_cons.1 hother with rfl | hm
    · rwa [if_pos rfl]
    · rw [if_neg (hne hm)]
      exact Nat.le_trans before.accepted.length_le (h.behind other hm)
  · intro other hother
    rcases List.mem_cons.1 hother with rfl | hm
    · rw [if_pos rfl, if_pos rfl]
      exact ⟨answer, ha.grows after, hsetting⟩
    · rw [if_neg (hne hm), if_neg (hne hm)]
      exact h.answered other hm

/-- How a client that reads these items ends: with all of them, or at the first that lapsed. -/
inductive SweepEnds (b : Backend σ) (st : σ) (site : Site) (w w' : Traffic σ)
    (items : List Item) (snap : Snapshot) : Except Failure Snapshot → Prop
  | complete {place : Item → Nat} {value : Item → Setting}
      (sweep : Sweep b st w w' items place value) :
      SweepEnds b st site w w' items snap
        (.ok (snap.insertAll (items.map fun item => (item, value item))))
  | lapsed {before after : List Item} {item : Item} {place : Item → Nat}
      {value : Item → Setting} {start : Nat} {cause : CallError}
      (split : items = before ++ item :: after) (sweep : Sweep b st w w' before place value)
      (start_le : w.accepted.length ≤ start) (behind : ∀ other ∈ before, place other < start)
      (lapse : Lapse b st w' site start item.getter cause) :
      SweepEnds b st site w w' items snap (.error (.ofCall item.getter cause))

namespace Operation

variable {others : Action → Prop} {r : Except Failure Snapshot} {lines : List LogLine}

/-- The first getter is an exchange; if it is answered the client goes on to the next item. -/
theorem exchange_of_readingAll {item : Item}
    (h : Runs b site others (readingAll o (item :: items) snap) w r lines w') :
    ∃ reply w₁, Exchange b site w item.getter reply w₁ ∧
      (∀ cause, reply = .error cause →
        r = .error (.ofCall item.getter cause) ∧ ∃ acts, w' = w₁.runFrom b acts) ∧
      ∀ answer, reply = .ok answer → ∃ setting lines',
        item.getter.setting? answer = some setting ∧
          Runs b site others (readingAll o items (snap.insert item setting)) w₁ r lines' w' := by
  obtain ⟨r₁, w₁, lines₁, lines₂, hread, hrest, -⟩ := h.of_bind
  obtain ⟨reply, hx, herror, hok⟩ := exchange_of_reading hread
  refine ⟨reply, w₁, hx, ?_, ?_⟩
  · intro cause hcause
    obtain rfl := herror cause hcause
    exact hrest.of_done
  · intro answer hanswer
    obtain ⟨setting, hsetting, rfl⟩ := hok answer hanswer
    exact ⟨setting, lines₂, hsetting, hrest⟩

theorem sweep_of_readingAll (nodup : items.Nodup) (ho : Orderly b st w)
    (h : Runs b site others (readingAll o items snap) w r lines w') :
    SweepEnds b st site w w' items snap r := by
  induction items generalizing w snap lines with
  | nil =>
    obtain ⟨acts, _, hdone⟩ := h.of_logWhen
    obtain ⟨rfl, -⟩ := hdone.of_done
    exact .complete (.nil b st w w' (fun _ => 0) fun _ => .integer 0)
  | cons item items ih =>
    obtain ⟨hnew, nodup⟩ := List.nodup_cons.1 nodup
    obtain ⟨reply, w₁, hx, herror, hok⟩ := exchange_of_readingAll h
    have ho₁ := hx.orderly ho
    cases reply with
    | error cause =>
      obtain ⟨rfl, acts, rfl⟩ := herror cause rfl
      have hlapse := (hx.lapse ho item.getter_isBlocking).grows (Traffic.runFrom_grows b w₁ acts)
      exact .lapsed (List.nil_append _).symm (.nil b st w _ (fun _ => 0) fun _ => .integer 0)
        (Nat.le_refl _) (by simp) hlapse
    | ok answer =>
      obtain ⟨setting, lines', hsetting, hrest⟩ := hok answer rfl
      obtain ⟨first, hle, ha⟩ := hx.answered ho item.getter_isBlocking
      have hfirst : first < w₁.served.length := (List.getElem?_eq_some_iff.1 ha.served).1
      cases ih nodup ho₁ hrest with
      | @complete place value sweep =>
        have hvalues : (items.map fun other => (other, value other)) =
            items.map fun other => (other, if other = item then setting else value other) := by
          apply List.map_congr_left
          intro other hother
          have hne : other ≠ item := fun he => hnew (he ▸ hother)
          rw [if_neg hne]
        have hsweep := sweep.cons hnew ho₁ hx.grows hrest.grows hle ha hsetting
        have hall : SweepEnds b st site w w' (item :: items) snap _ := .complete hsweep
        rw [hvalues]
        simpa using hall
      | @lapsed before after failed place value start cause split sweep start_le behind lapse =>
        subst split
        rw [List.mem_append, not_or] at hnew
        refine .lapsed (List.cons_append ..).symm
          (sweep.cons hnew.1 ho₁ hx.grows hrest.grows hle ha hsetting)
          (Nat.le_trans hx.grows.accepted.length_le start_le) ?_ lapse
        intro other hother
        split
        · exact Nat.lt_of_lt_of_le hfirst (Nat.le_trans ho₁.served_length start_le)
        · rename_i hne
          exact behind other ((List.mem_cons.1 hother).resolve_left hne)

end Operation
end ImsProvisioning
