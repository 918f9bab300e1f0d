import ImsProvisioning.Proofs.Json.Reading
import ImsProvisioning.Proofs.Snapshot.Entries
import ImsProvisioning.Proofs.Snapshot.Streaming

/-! # Snapshots are read back

The entries of a snapshot stand in its JSON in code order, or in the order of the item
names. Either way both readers give back the snapshot, whatever its settings are.
-/

namespace ImsProvisioning

open Json (Value)

theorem ConstantTable.ofName_name {α : Type} [ConstantTable α] (a : α) :
    ofName α (name a) = .ok a := by
  rw [ofName, ofName?_name]

namespace Setting

theorem ofJson_toJson (value : Setting) : ofJson value.toJson = .ok value := by
  cases value with
  | integer n =>
    rw [toJson, ofJson, if_pos ⟨n.minValue_le_toInt, n.toInt_le⟩, Int32.ofInt_toInt]
  | text s => rfl

theorem toJson_fits (room : Nat) (value : Setting) : value.toJson.Fits room := by
  cases value with
  | integer n =>
    have low := n.minValue_le_toInt
    have high := n.toInt_le
    rw [Int32.toInt_minValue] at low
    rw [Int32.toInt_maxValue] at high
    exact .number ⟨by omega, by omega⟩
  | text s => exact .string s

theorem toJson_canonical (value : Setting) : value.toJson.canonical = value.toJson := by
  cases value <;> simp only [toJson, Value.canonical]

end Setting

namespace Snapshot

def member (e : Item × Setting) : String × Value := (ConstantTable.name e.1, e.2.toJson)

def document (es : List (Item × Setting)) : Value :=
  .object [("values", .object (es.map member))]

theorem toJson_eq (s : Snapshot) : s.toJson = document s.entries := rfl

theorem map_fits (room : Nat) (es : List (Item × Setting)) :
    (Value.object (es.map member)).Fits (room + 1) := by
  apply Value.Fits.object
  intro m hm
  obtain ⟨e, -, rfl⟩ := List.mem_map.1 hm
  exact e.2.toJson_fits room

theorem document_fits (room : Nat) (es : List (Item × Setting)) :
    (document es).Fits (room + 2) := by
  apply Value.Fits.object
  intro m hm
  obtain rfl := List.mem_singleton.1 hm
  exact map_fits room es

variable {s : Snapshot} {es : List (Item × Setting)}

theorem ofMembers_map (s : Snapshot) (es : List (Item × Setting)) :
    ofMembers s (es.map member) = .ok (s.insertAll es) := by
  induction es generalizing s with
  | nil => rfl
  | cons e es ih =>
    simp only [List.map_cons, member, ofMembers, ConstantTable.ofName_name, Setting.ofJson_toJson]
    exact ih _

theorem ofJson_document (h : es.Perm s.entries) : ofJson (document es) = .ok s := by
  simp only [document, ofJson, List.lookup_cons_self, ofValues, ofMembers_map,
    insertAll_of_perm h]

theorem exists_canonical_map (h : es.Perm s.entries) :
    ∃ es' : List (Item × Setting), es'.Perm s.entries ∧
      (Value.object (es.map member)).canonical = .object (es'.map member) := by
  have keys : (([] ++ es.map member).map Prod.fst).Nodup := by
    have items := (h.map Prod.fst).nodup_iff.2 s.entries_nodup
    rw [List.nil_append, List.map_map, List.Nodup, List.pairwise_map]
    rw [List.Nodup, List.pairwise_map] at items
    exact items.imp fun hne he => hne (ConstantTable.name_inj.1 he)
  have hp := Json.canonicalMembers_perm keys fun m hm => by
    obtain ⟨e, -, rfl⟩ := List.mem_map.1 hm
    exact e.2.toJson_canonical
  obtain ⟨es', hes, heq⟩ := Json.exists_of_perm_map hp
  exact ⟨es', hes.trans h, by rw [Value.canonical, heq]⟩

/-- Parsed as a whole, a document with the entries of a snapshot gives the snapshot. -/
theorem decodeParsed_document (h : es.Perm s.entries) :
    decodeParsed (document es).text = .ok s := by
  obtain ⟨es', h', hcanonical⟩ := exists_canonical_map h
  have hparse : Json.parse (document es).text.toList = some (document es') := by
    rw [Json.parse, Value.text, String.toList_ofList,
      Json.parseAsWritten_write (document_fits 125 es), Option.map_some, document, Value.canonical,
      Json.canonicalMembers, hcanonical, Json.canonicalMembers]
    rfl
  simp only [decodeParsed, hparse, JsonReadable.ofJson, ofJson_document h']
  rfl

/-- Read straight from the tokens, a document with the entries of a snapshot gives the snapshot. -/
theorem decodeStreamed_document (h : es.Perm s.entries) :
    decodeStreamed (document es).text = .ok s := by
  have hparse : Json.parseAsWritten (document es).text.toList = some (document es) := by
    rw [Value.text, String.toList_ofList, Json.parseAsWritten_write (document_fits 125 es)]
  rw [decodeStreamed_ok_iff hparse, document, ofWritten, ofFields_none]
  exact ⟨.object (es.map member), rfl, by rw [ofValues, ofMembers_map, insertAll_of_perm h]⟩

theorem decode_document (h : es.Perm s.entries) (strategy : Strategy) :
    decode strategy (document es).text = .ok s := by
  cases strategy with
  | parsed => exact decodeParsed_document h
  | streamed => exact decodeStreamed_document h

/--
Every snapshot is written as a JSON text that either reader reads back as the snapshot, and
so is the object that holds its map with the keys in order.
-/
theorem decode_toJson (s : Snapshot) (strategy : Strategy) :
    Json.parseAsWritten s.toJson.text.toList = some s.toJson ∧
    decode strategy s.toJson.text = .ok s ∧
    Json.parseAsWritten s.valuesJson.text.toList = some s.valuesJson ∧
    ofJson (.object [("values", s.valuesJson)]) = .ok s ∧
    decode strategy (Value.object [("values", s.valuesJson)]).text = .ok s := by
  obtain ⟨es, h, hvalues⟩ := exists_canonical_map (List.Perm.refl s.entries)
  have hjson : s.valuesJson = .object (es.map member) := hvalues
  rw [hjson, toJson_eq, Value.text, Value.text, String.toList_ofList, String.toList_ofList]
  refine ⟨?_, ?_, ?_, ?_, ?_⟩
  · exact Json.parseAsWritten_write (document_fits 125 s.entries)
  · exact decode_document (List.Perm.refl _) strategy
  · exact Json.parseAsWritten_write (map_fits 126 es)
  · exact ofJson_document h
  · exact decode_document h strategy

end Snapshot
end ImsProvisioning
