import ImsProvisioning.Snapshot.Editor
import ImsProvisioning.Proofs.History.LastWrite
import ImsProvisioning.Proofs.Snapshot.Acceptance
import ImsProvisioning.Proofs.Text.ByteOrder

/-! # Snapshots and their texts

However a snapshot has come about, its texts depend on its entries alone, and either of them
determines it. The text of the whole lists the entries in the order of the item codes, that of
the map in the order of the bytes of the item names.
-/

namespace ImsProvisioning

open Json (Value parseAsWritten)
open ConstantTable (name code)

/-- What a step leaves under an item; a text that is decoded settles all items. -/
def EditorStep.settles (item : Item) : EditorStep → Option (Option Setting)
  | .insert (.ok other) value => if other = item then some (some value) else none
  | .decode strategy text =>
    match (ImsProvisioning.decode strategy text : Except DecodeError Snapshot) with
    | .ok s => some (s.get? item)
    | .error _ => none
  | _ => none

namespace Editor

def after (sts : List EditorStep) : Editor := (fresh.steps sts).2

theorem steps_eq_foldl (sts : List EditorStep) (ed : Editor) :
    (ed.steps sts).2 = sts.foldl (fun ed st => (ed.step st).2) ed := by
  induction sts generalizing ed with
  | nil => rfl
  | cons st sts ih => exact ih _

theorem step_get? (item : Item) (ed : Editor) (st : EditorStep) :
    (ed.step st).2.current.get? item = (st.settles item).getD (ed.current.get? item) := by
  cases st with
  | insert key value =>
    cases key with
    | error e => rfl
    | ok other =>
      by_cases h : other = item
      · subst h
        simp [step, EditorStep.settles]
      · simp [step, EditorStep.settles, h, Snapshot.get?_insert_of_ne (Ne.symm h)]
  | get key => cases key <;> rfl
  | decode strategy text =>
    simp only [step, EditorStep.settles]
    cases (ImsProvisioning.decode strategy text : Except DecodeError Snapshot) <;> rfl
  | «show» | mark | isMarked => rfl

/-- After any steps an item has what the last step that settled it left. -/
theorem after_get? (sts : List EditorStep) (item : Item) :
    (after sts).current.get? item = (lastWrite (EditorStep.settles item) sts).getD none := by
  rw [after, steps_eq_foldl]
  exact view_foldl (fun ed : Editor => ed.current.get? item) (step_get? item) sts fresh

theorem step_mark (ed : Editor) (st : EditorStep) :
    (ed.step st).2.mark = ed.mark ∨ (ed.step st).2.mark = ed.current := by
  cases st with
  | insert key | get key => cases key <;> exact .inl rfl
  | decode strategy text =>
    left
    simp only [step]
    split <;> rfl
  | mark => exact .inr rfl
  | «show» | isMarked => exact .inl rfl

theorem mark_of_steps (sts : List EditorStep) (ed : Editor) :
    (ed.steps sts).2.mark = ed.mark ∨
      ∃ earlier, earlier <+: sts ∧ (ed.steps sts).2.mark = (ed.steps earlier).2.current := by
  induction sts generalizing ed with
  | nil => exact .inl rfl
  | cons st sts ih =>
    rcases ih (ed.step st).2 with hkept | ⟨earlier, hprefix, hmark⟩
    · rcases step_mark ed st with h | h
      · exact .inl (hkept.trans h)
      · exact .inr ⟨[], List.nil_prefix, hkept.trans h⟩
    · exact .inr ⟨st :: earlier, (List.prefix_cons_inj st).2 hprefix, hmark⟩

/-- The mark is the snapshot of an earlier point. -/
theorem exists_marked (sts : List EditorStep) :
    ∃ earlier, earlier <+: sts ∧ (after sts).mark = (after earlier).current := by
  rcases mark_of_steps sts fresh with h | h
  · exact ⟨[], List.nil_prefix, h⟩
  · exact h

end Editor

namespace Snapshot

variable {s t : Snapshot}

theorem entries_code_lt (s : Snapshot) :
    (s.entries.map Prod.fst).Pairwise fun a b => (code a).toInt < (code b).toInt := by
  rw [entries_items]
  exact (List.pairwise_map.1 (ConstantTable.code_lt (α := Item))).filter _

theorem parseAsWritten_toJson (s : Snapshot) :
    parseAsWritten s.toJson.text.toList = some s.toJson := by
  rw [Value.text, String.toList_ofList]
  exact Json.parseAsWritten_write (document_fits 125 s.entries)

/-- The map on its own lists the entries in another order. -/
theorem exists_valuesJson (s : Snapshot) :
    ∃ es : List (Item × Setting), es.Perm s.entries ∧ s.valuesJson = .object (es.map member) :=
  exists_canonical_map (.refl s.entries)

theorem parseAsWritten_valuesJson (s : Snapshot) :
    parseAsWritten s.valuesJson.text.toList = some s.valuesJson := by
  obtain ⟨es, -, hes⟩ := s.exists_valuesJson
  rw [hes, Value.text, String.toList_ofList]
  exact Json.parseAsWritten_write (map_fits 126 es)

theorem eq_of_toJson (h : s.toJson = t.toJson) : s = t := by
  have hs : ofJson s.toJson = .ok s := ofJson_document (.refl _)
  have ht : ofJson t.toJson = .ok t := ofJson_document (.refl _)
  rw [h, ht] at hs
  exact (Except.ok.inj hs).symm

theorem eq_of_valuesJson (h : s.valuesJson = t.valuesJson) : s = t := by
  obtain ⟨es, hs, hjson⟩ := s.exists_valuesJson
  obtain ⟨es', ht, hjson'⟩ := t.exists_valuesJson
  rw [hjson, hjson', Value.object.injEq] at h
  have hdoc : document es = document es' := by rw [document, document, h]
  have hread := ofJson_document hs
  rw [hdoc, ofJson_document ht] at hread
  exact (Except.ok.inj hread).symm

/-- Equal texts are texts of one snapshot. -/
theorem eq_of_toJson_text (h : s.toJson.text = t.toJson.text) : s = t := by
  have hs := s.parseAsWritten_toJson
  rw [h, t.parseAsWritten_toJson] at hs
  exact eq_of_toJson (Option.some.inj hs).symm

theorem eq_of_valuesJson_text (h : s.valuesJson.text = t.valuesJson.text) : s = t := by
  have hs := s.parseAsWritten_valuesJson
  rw [h, t.parseAsWritten_valuesJson] at hs
  exact eq_of_valuesJson (Option.some.inj hs).symm

/-- The keys of the map on its own stand in the order of their bytes. -/
theorem valuesJson_bytes {ms : List (String × Value)} (h : s.valuesJson = .object ms) :
    ms.Pairwise fun a b => Text.bytes a.1 < Text.bytes b.1 :=
  (Value.keysAscend_of_canonical h).imp Text.bytes_lt

theorem mem_members {item : Item} {v : Value} :
    (name item, v) ∈ s.members ↔
      ∃ value, s.get? item = some value ∧ Setting.Denoted v value := by
  constructor
  · intro h
    obtain ⟨e, he, hm⟩ := List.mem_map.1 h
    obtain ⟨hname, rfl⟩ := Prod.mk.inj hm
    obtain rfl := ConstantTable.name_inj.1 hname
    exact ⟨e.2, mem_entries.1 he, Setting.denoted_iff.2 rfl⟩
  · rintro ⟨value, hget, hv⟩
    obtain rfl := Setting.denoted_iff.1 hv
    exact List.mem_map.2 ⟨(item, value), mem_entries.2 hget, rfl⟩

/--
After any two courses of edits the snapshots are the same just when their texts are, those of
the whole or those of the map. The first lists the items in the order of their codes, the second
lists the same entries in the order of the bytes of their names. A mark is such a snapshot too.
-/
theorem texts_identify_edits (sts sts' : List EditorStep) :
    let ed := Editor.after sts
    let s := ed.current
    let t := (Editor.after sts').current
    ((s = t ↔ s.toJson.text = t.toJson.text) ∧
      (s = t ↔ s.valuesJson.text = t.valuesJson.text)) ∧
    (∀ item, s.get? item = (lastWrite (EditorStep.settles item) sts).getD none) ∧
    (∃ earlier, earlier <+: sts ∧ ed.mark = (Editor.after earlier).current) ∧
    (ed.step .isMarked).1 = .compared (decide (s.toJson.text = ed.mark.toJson.text)) ∧
    ∃ ms ms' : List (String × Value),
      parseAsWritten s.toJson.text.toList = some (.object [("values", .object ms)]) ∧
      parseAsWritten s.valuesJson.text.toList = some (.object ms') ∧
      (∃ items : List Item, ms.map Prod.fst = items.map name ∧
        items.Pairwise fun a b => (code a).toInt < (code b).toInt) ∧
      (ms'.Pairwise fun a b => Text.bytes a.1 < Text.bytes b.1) ∧
      ms'.Perm ms ∧ (ms.map Prod.fst).Nodup ∧
      (∀ item v, (name item, v) ∈ ms ↔
        ∃ value, s.get? item = some value ∧ Setting.Denoted v value) ∧
      s.size = ms.length ∧ s.size = ms'.length := by
  intro ed s t
  refine ⟨⟨⟨?_, eq_of_toJson_text⟩, ⟨?_, eq_of_valuesJson_text⟩⟩,
    Editor.after_get? sts, Editor.exists_marked sts, ?_, ?_⟩
  · exact fun h => congrArg (·.toJson.text) h
  · exact fun h => congrArg (·.valuesJson.text) h
  · have h : s = ed.mark ↔ s.toJson.text = ed.mark.toJson.text :=
      ⟨fun h => congrArg (·.toJson.text) h, eq_of_toJson_text⟩
    exact congrArg EditorResult.compared (decide_eq_decide.2 h)
  · obtain ⟨es, hperm, hes⟩ := s.exists_valuesJson
    refine ⟨s.members, es.map member, s.parseAsWritten_toJson, ?_, ?_, valuesJson_bytes hes, ?_,
      ?_, fun item v => mem_members, ?_, ?_⟩
    · rw [← hes]
      exact s.parseAsWritten_valuesJson
    · refine ⟨s.entries.map Prod.fst, ?_, s.entries_code_lt⟩
      rw [members, List.map_map, List.map_map]
      rfl
    · exact hperm.map member
    · have keys := (Value.keysAscend_of_canonical hes).keys_nodup
      exact ((hperm.map member).map Prod.fst).nodup_iff.1 keys
    · rw [members, List.length_map]
      rfl
    · rw [List.length_map, hperm.length_eq]
      rfl

end Snapshot
end ImsProvisioning
