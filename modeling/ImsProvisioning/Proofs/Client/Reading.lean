import ImsProvisioning.Proofs.Snapshot.Entries
import ImsProvisioning.Proofs.Transport.Transparency

/-! # Reading every item

A snapshot is read item by item in code order, each item through the getter of its kind.
The first call that fails ends it with its error; if none fails the snapshot holds what
each call was answered, and nothing else.
-/

namespace ImsProvisioning

/-- The call that reads an item: the getter of the kind that the item declares. -/
def Item.getter (item : Item) : Call :=
  match item.settingKind with
  | .integer => .getInteger item
  | .text => .getText item

/-- The setting in an answer, if the call is one that reads a setting. -/
def Call.setting? : (c : Call) → c.Answer → Option Setting
  | .getInteger _, n => some (.integer n)
  | .getText _, s => some (.text s)
  | _, _ => none

namespace Item

theorem code_lt_provisioned :
    provisioned.Pairwise fun a b =>
      (ConstantTable.code a).toInt < (ConstantTable.code b).toInt :=
  (List.pairwise_map.1 (ConstantTable.code_lt (α := Item))).filter _

theorem provisioned_nodup : provisioned.Nodup := Snapshot.all_nodup.filter _

end Item

namespace Operation

open Program (Event Run)

variable {σ : Type} {o : Options} {s : Service σ} {l : Ledger σ} {items : List Item}
  {snap : Snapshot}

/-- The state in which a service gets the call that reads the item at a place of the list. -/
def stateAt (s : Service σ) (l : Ledger σ) (items : List Item) (place : Nat) : σ :=
  (l.serveAll s.backend ((items.take place).map Item.getter)).state

theorem run_logWhen_lines {α : Type} (s : Service σ) (on : Bool) (line : LogLine)
    (p : Program α) (st : σ) :
    ((Program.logWhen on line p).run s st).lines =
      (if on then [line] else []) ++ (p.run s st).lines := by
  cases on <;> rfl

def forwardingLines (o : Options) (c : Call) (result : Except CallError c.Answer) :
    List LogLine :=
  (if o.debugLogging && c.isAnnounced then [.requested c] else []) ++
    match result with
    | .ok answer => if o.debugLogging && c.isBlocking then [.answered c answer] else []
    | .error _ => []

theorem run_forwarding_lines (c : Call) (st : σ) :
    ((forwarding o c).run s st).lines = forwardingLines o c (s c st).result := by
  rw [forwarding, run_logWhen_lines, Program.run_call_lines]
  cases (s c st).result with
  | error cause => rfl
  | ok answer =>
    rw [run_logWhen_lines, forwardingLines]
    exact congrArg _ (List.append_nil _)

theorem snapshotRead_notMem (c : Call) (result : Except CallError c.Answer) (count : Nat) :
    LogLine.snapshotRead count ∉ forwardingLines o c result := by
  cases result <;> simp [forwardingLines]

/-- Reading an item makes the call of its getter and passes on what comes of it. -/
theorem run_reading (o : Options) (s : Service σ) (item : Item) (st : σ) :
    let reply := s item.getter st
    let r := (reading o item).run s st
    r.state = reply.state ∧ r.trace = ((forwarding o item.getter).run s st).trace ∧
      (∀ cause, reply.result = .error cause →
        r.result = .error (.ofCall item.getter cause)) ∧
      ∀ answer, reply.result = .ok answer →
        ∃ value, item.getter.setting? answer = some value ∧ value.kind = item.settingKind ∧
          r.result = .ok value := by
  unfold reading Item.getter
  cases item.settingKind with
  | integer =>
    rw [Program.run_map, run_forwarding]
    refine ⟨rfl, rfl, fun cause h => ?_, fun n h => ⟨.integer n, rfl, rfl, ?_⟩⟩
    · rw [h]
      rfl
    · rw [h]
      rfl
  | text =>
    rw [Program.run_map, run_forwarding]
    refine ⟨rfl, rfl, fun cause h => ?_, fun t h => ⟨.text t, rfl, rfl, ?_⟩⟩
    · rw [h]
      rfl
    · rw [h]
      rfl

theorem run_reading_calls (o : Options) (s : Service σ) (item : Item) (st : σ) :
    ((reading o item).run s st).calls = [item.getter] := by
  rw [Run.calls, (run_reading o s item st).2.1]
  exact forwarding_calls o s item.getter st

theorem run_reading_lines (o : Options) (s : Service σ) (item : Item) (st : σ) :
    ((reading o item).run s st).lines =
      forwardingLines o item.getter (s item.getter st).result := by
  rw [Run.lines, (run_reading o s item st).2.1]
  exact run_forwarding_lines item.getter st

theorem run_readingAll_cons (o : Options) (s : Service σ) (item : Item) (items : List Item)
    (snap : Snapshot) (st : σ) :
    (readingAll o (item :: items) snap).run s st =
      let r := (reading o item).run s st
      match r.result with
      | .error failure => ⟨.error failure, r.state, r.trace⟩
      | .ok value =>
        let rest := (readingAll o items (snap.insert item value)).run s r.state
        ⟨rest.result, rest.state, r.trace ++ rest.trace⟩ := by
  rw [readingAll, Program.run_bind]
  dsimp only
  cases ((reading o item).run s st).result with
  | error failure => simp [Program.run]
  | ok value => rfl

/-- An answered getter adds its setting, and the reading goes on. -/
theorem run_readingAll_of_ok (o : Options) (items : List Item) (snap : Snapshot) {item : Item}
    {st : σ} {answer : item.getter.Answer} (answered : (s item.getter st).result = .ok answer) :
    ∃ value, item.getter.setting? answer = some value ∧ value.kind = item.settingKind ∧
      let r := (readingAll o (item :: items) snap).run s st
      let rest := (readingAll o items (snap.insert item value)).run s (s item.getter st).state
      r.result = rest.result ∧ r.calls = item.getter :: rest.calls ∧
        r.lines = forwardingLines o item.getter (.ok answer) ++ rest.lines := by
  obtain ⟨hstate, -, -, hok⟩ := run_reading o s item st
  obtain ⟨value, hvalue, hkind, hresult⟩ := hok answer answered
  have hcalls := run_reading_calls o s item st
  have hlines := run_reading_lines o s item st
  rw [answered] at hlines
  refine ⟨value, hvalue, hkind, ?_⟩
  simp only [run_readingAll_cons, hstate, hresult]
  refine ⟨trivial, ?_, ?_⟩
  · rw [Run.calls, List.filterMap_append]
    exact congrArg (· ++ _) hcalls
  · rw [Run.lines, List.filterMap_append]
    exact congrArg (· ++ _) hlines

/-- A getter that fails ends the reading. -/
theorem run_readingAll_of_error (o : Options) (items : List Item) (snap : Snapshot)
    {item : Item} {st : σ} {cause : CallError} (failed : (s item.getter st).result = .error cause) :
    let r := (readingAll o (item :: items) snap).run s st
    r.result = .error (.ofCall item.getter cause) ∧ r.calls = [item.getter] ∧
      r.lines = forwardingLines o item.getter (.error cause) := by
  have hresult := (run_reading o s item st).2.2.1 cause failed
  have hcalls := run_reading_calls o s item st
  have hlines := run_reading_lines o s item st
  rw [failed] at hlines
  simp only [run_readingAll_cons, hresult]
  exact ⟨trivial, hcalls, hlines⟩

/-- If every getter is answered, the snapshot gains what each of them was answered. -/
theorem run_readingAll_ok (l : Ledger σ) (snap : Snapshot)
    (answered : ∀ place item, items[place]? = some item →
      ∃ answer, (s item.getter (stateAt s l items place)).result = .ok answer) :
    let r := (readingAll o items snap).run s l.state
    ∃ es : List (Item × Setting), es.map Prod.fst = items ∧ r.result = .ok (snap.insertAll es) ∧
      r.calls = items.map Item.getter ∧
      ∀ place item value, es[place]? = some (item, value) →
        value.kind = item.settingKind ∧
        ∃ answer, (s item.getter (stateAt s l items place)).result = .ok answer ∧
          item.getter.setting? answer = some value := by
  induction items generalizing l snap with
  | nil =>
    refine ⟨[], rfl, ?_, ?_, by simp⟩
    · rw [readingAll, Program.run_logWhen]
      rfl
    · rw [readingAll, Program.run_logWhen_calls]
      rfl
  | cons item items ih =>
    obtain ⟨answer, hanswer⟩ := answered 0 item rfl
    obtain ⟨value, hvalue, hkind, hresult, hcalls, -⟩ :=
      run_readingAll_of_ok o items snap hanswer
    obtain ⟨es, hes, hrest, hrestcalls, heach⟩ := ih (l.serve s.backend item.getter)
      (snap.insert item value) fun place other h => answered (place + 1) other h
    refine ⟨(item, value) :: es, by rw [List.map_cons, hes], hresult.trans hrest, ?_, ?_⟩
    · exact hcalls.trans (congrArg _ hrestcalls)
    · rintro (_ | place) other value' h
      · obtain ⟨rfl, rfl⟩ : item = other ∧ value = value' := by simpa using h
        exact ⟨hkind, answer, hanswer, hvalue⟩
      · exact heach place other value' h

/-- At the first getter that fails the reading ends, with its error. -/
theorem run_readingAll_error (l : Ledger σ) (snap : Snapshot) {place : Nat} {item : Item}
    {cause : CallError} (here : items[place]? = some item)
    (failed : (s item.getter (stateAt s l items place)).result = .error cause)
    (answered : ∀ earlier other, earlier < place → items[earlier]? = some other →
      ∃ answer, (s other.getter (stateAt s l items earlier)).result = .ok answer) :
    let r := (readingAll o items snap).run s l.state
    r.result = .error (.ofCall item.getter cause) ∧
      r.calls = (items.take (place + 1)).map Item.getter := by
  induction items generalizing l snap place with
  | nil => simp at here
  | cons first items ih =>
    cases place with
    | zero =>
      obtain rfl : first = item := by simpa using here
      obtain ⟨hresult, hcalls, -⟩ := run_readingAll_of_error o items snap failed
      exact ⟨hresult, hcalls⟩
    | succ place =>
      obtain ⟨answer, hanswer⟩ := answered 0 first (Nat.succ_pos place) rfl
      obtain ⟨value, -, -, hresult, hcalls, -⟩ :=
        run_readingAll_of_ok o items snap hanswer
      obtain ⟨hrest, hrestcalls⟩ := ih (l.serve s.backend first.getter)
        (snap.insert first value) here failed
        fun earlier other h => answered (earlier + 1) other (Nat.succ_lt_succ h)
      exact ⟨hresult.trans hrest, hcalls.trans (congrArg _ hrestcalls)⟩

/-- Every getter is answered, or there is a first one that fails. -/
theorem answered_or_failed (s : Service σ) (l : Ledger σ) (items : List Item) :
    (∀ place item, items[place]? = some item →
      ∃ answer, (s item.getter (stateAt s l items place)).result = .ok answer) ∨
    ∃ place item cause, items[place]? = some item ∧
      (s item.getter (stateAt s l items place)).result = .error cause ∧
      ∀ earlier other, earlier < place → items[earlier]? = some other →
        ∃ answer, (s other.getter (stateAt s l items earlier)).result = .ok answer := by
  induction items generalizing l with
  | nil => simp
  | cons item items ih =>
    cases hfirst : (s item.getter l.state).result with
    | error cause => exact .inr ⟨0, item, cause, rfl, hfirst, by simp⟩
    | ok answer =>
      rcases ih (l.serve s.backend item.getter) with
        answered | ⟨place, other, cause, here, failed, before⟩
      · left
        rintro (_ | place) other h
        · obtain rfl : item = other := by simpa using h
          exact ⟨answer, hfirst⟩
        · exact answered place other h
      · right
        refine ⟨place + 1, other, cause, here, failed, ?_⟩
        rintro (_ | earlier) another hlt h
        · obtain rfl : item = another := by simpa using h
          exact ⟨answer, hfirst⟩
        · exact before earlier another (Nat.lt_of_succ_lt_succ hlt) h

/-- Whatever fails, no call is made that is not the next getter. -/
theorem run_readingAll_calls (l : Ledger σ) (snap : Snapshot) :
    ((readingAll o items snap).run s l.state).calls <+: items.map Item.getter := by
  induction items generalizing l snap with
  | nil =>
    rw [readingAll, Program.run_logWhen_calls]
    exact List.prefix_rfl
  | cons item items ih =>
    rw [List.map_cons]
    cases h : (s item.getter l.state).result with
    | ok answer =>
      obtain ⟨value, -, -, -, hcalls, -⟩ :=
        run_readingAll_of_ok o items snap h
      rw [hcalls]
      exact (List.prefix_cons_inj _).2 (ih (l.serve s.backend item.getter) _)
    | error cause =>
      obtain ⟨-, hcalls, -⟩ := run_readingAll_of_error o items snap h
      rw [hcalls]
      exact (List.prefix_cons_inj _).2 List.nil_prefix

/-- A snapshot that is complete has been given every item. -/
theorem run_readingAll_filled (l : Ledger σ) {snap t : Snapshot}
    (h : ((readingAll o items snap).run s l.state).result = .ok t) :
    ∃ es : List (Item × Setting), es.map Prod.fst = items ∧ t = snap.insertAll es := by
  induction items generalizing l snap with
  | nil =>
    rw [readingAll, Program.run_logWhen] at h
    exact ⟨[], rfl, (Except.ok.inj h).symm⟩
  | cons item items ih =>
    cases hresult : (s item.getter l.state).result with
    | ok answer =>
      obtain ⟨value, -, -, hrest, -, -⟩ :=
        run_readingAll_of_ok o items snap hresult
      obtain ⟨es, hes, rfl⟩ := ih (l.serve s.backend item.getter) (hrest.symm.trans h)
      exact ⟨(item, value) :: es, by rw [List.map_cons, hes], rfl⟩
    | error cause =>
      have herror := (run_readingAll_of_error o items snap hresult).1
      exact absurd (herror.symm.trans h) (by simp)

/-- The count is logged behind everything else, and only of a snapshot that is complete. -/
theorem run_readingAll_lines (o : Options) (s : Service σ) (items : List Item) (l : Ledger σ)
    (snap : Snapshot) :
    let r := (readingAll o items snap).run s l.state
    ∃ lines, (∀ count, LogLine.snapshotRead count ∉ lines) ∧
      r.lines = lines ++
        match r.result with
        | .ok t => if o.debugLogging then [.snapshotRead t.size] else []
        | .error _ => [] := by
  induction items generalizing l snap with
  | nil =>
    refine ⟨[], by simp, ?_⟩
    rw [readingAll, run_logWhen_lines, Program.run_logWhen]
    exact List.append_nil _
  | cons item items ih =>
    cases h : (s item.getter l.state).result with
    | ok answer =>
      obtain ⟨value, -, -, hresult, -, hlines⟩ :=
        run_readingAll_of_ok o items snap h
      obtain ⟨lines, hplain, hrest⟩ := ih (l.serve s.backend item.getter) (snap.insert item value)
      refine ⟨forwardingLines o item.getter (.ok answer) ++ lines, ?_, ?_⟩
      · intro count hm
        rcases List.mem_append.1 hm with hm | hm
        · exact snapshotRead_notMem _ _ _ hm
        · exact hplain count hm
      · rw [hlines, hresult, List.append_assoc]
        exact congrArg _ hrest
    | error cause =>
      obtain ⟨hresult, -, hlines⟩ :=
        run_readingAll_of_error o items snap h
      refine ⟨forwardingLines o item.getter (.error cause), snapshotRead_notMem _ _, ?_⟩
      rw [hlines, hresult, List.append_nil]

end Operation

namespace Snapshot

variable {es : List (Item × Setting)}

theorem entries_insertAll_empty (items : es.map Prod.fst = Item.provisioned) :
    (empty.insertAll es).entries.map Prod.fst = Item.provisioned := by
  have nodup : (es.map Prod.fst).Nodup := items ▸ Item.provisioned_nodup
  rw [entries_items, Item.provisioned]
  apply List.filter_congr
  intro item _
  rw [Bool.eq_iff_iff, Option.isSome_iff_exists]
  have hmem : item ∈ es.map Prod.fst ↔ item.isProvisioned := by
    rw [items, Item.provisioned, List.mem_filter]
    exact and_iff_right (ConstantTable.mem_all item)
  rw [← hmem, List.mem_map]
  constructor
  · rintro ⟨value, h⟩
    exact ⟨(item, value), (get?_insertAll_empty nodup).1 h, rfl⟩
  · rintro ⟨⟨_, value⟩, h, rfl⟩
    exact ⟨value, (get?_insertAll_empty nodup).2 h⟩

end Snapshot

namespace Operation

open Program (Run)

/--
A snapshot asks the getter of each provisioned item once, in code order, and nothing else. It
holds what every one of them was answered, or it fails with the first error and nothing is asked
behind it.
-/
theorem snapshot_reads_every_item {σ : Type} (o : Options) (s : Service σ) (st : σ) :
    let items := Item.provisioned
    let getters := items.map Item.getter
    let result (place : Nat) (item : Item) :=
      (s item.getter (stateAt s (.fresh st) items place)).result
    let r := (program o .snapshot).run s st
    (∀ item, item ∈ items ↔ item.isProvisioned) ∧
    (items.Pairwise fun a b => (ConstantTable.code a).toInt < (ConstantTable.code b).toInt) ∧
    r.calls <+: getters ∧
    r.ledger = (Ledger.fresh st).serveAll s.backend r.calls ∧
    ((∀ place item, items[place]? = some item → ∃ answer, result place item = .ok answer) →
      r.calls = getters ∧
      ∃ snap, r.result = .ok snap ∧ snap.entries.map Prod.fst = items ∧
        ∀ place item, items[place]? = some item →
          ∃ answer value, result place item = .ok answer ∧
            item.getter.setting? answer = some value ∧ snap.get? item = some value ∧
            value.kind = item.settingKind) ∧
    (∀ place item cause, items[place]? = some item → result place item = .error cause →
      (∀ earlier other, earlier < place → items[earlier]? = some other →
        ∃ answer, result earlier other = .ok answer) →
      r.calls = getters.take (place + 1) ∧ r.calls.length = place + 1 ∧
      r.result = .error (.serviceCall item.getter.method 131 cause)) ∧
    ∃ lines, (∀ count, LogLine.snapshotRead count ∉ lines) ∧
      r.lines = lines ++
        if o.debugLogging && r.result.isOk then [.snapshotRead items.length] else [] := by
  intro items getters result r
  have hcalls : r.calls <+: getters := run_readingAll_calls (.fresh st) .empty
  refine ⟨fun item => ?_, Item.code_lt_provisioned, hcalls,
    (Program.fresh_serveAll s _ st).symm, ?_, ?_, ?_⟩
  · exact List.mem_filter.trans (and_iff_right (ConstantTable.mem_all item))
  · intro answered
    obtain ⟨es, hes, hresult, hcalls, heach⟩ :=
      run_readingAll_ok (o := o) (.fresh st) .empty answered
    refine ⟨hcalls, _, hresult, Snapshot.entries_insertAll_empty hes, ?_⟩
    intro place item hitem
    have hentry : (es.map Prod.fst)[place]? = some item := hes ▸ hitem
    rw [List.getElem?_map, Option.map_eq_some_iff] at hentry
    obtain ⟨⟨_, value⟩, hentry, rfl⟩ := hentry
    obtain ⟨hkind, answer, hanswer, hvalue⟩ := heach place _ value hentry
    have nodup : (es.map Prod.fst).Nodup := hes ▸ Item.provisioned_nodup
    exact ⟨answer, value, hanswer, hvalue,
      (Snapshot.get?_insertAll_empty nodup).2 (List.mem_of_getElem? hentry), hkind⟩
  · intro place item cause here failed answered
    obtain ⟨hresult, hcalls⟩ :=
      run_readingAll_error (o := o) (.fresh st) .empty here failed answered
    have hcalls : r.calls = getters.take (place + 1) := hcalls.trans List.map_take
    refine ⟨hcalls, ?_, hresult⟩
    have hlt : place < items.length := (List.getElem?_eq_some_iff.1 here).1
    rw [hcalls, List.length_take, List.length_map]
    exact Nat.min_eq_left hlt
  · obtain ⟨lines, hplain, hlines⟩ :=
      run_readingAll_lines o s items (.fresh st) .empty
    refine ⟨lines, hplain, hlines.trans (congrArg _ ?_)⟩
    change (match r.result with
      | .ok t => if o.debugLogging then [LogLine.snapshotRead t.size] else []
      | .error _ => []) = _
    cases hresult : r.result with
    | error failure => simp [Except.isOk, Except.toBool]
    | ok t =>
      obtain ⟨es, hes, rfl⟩ := run_readingAll_filled (.fresh st) hresult
      have hsize := congrArg List.length (Snapshot.entries_insertAll_empty hes)
      rw [List.length_map] at hsize
      simp [Except.isOk, Except.toBool, Snapshot.size, hsize, items]

example : Item.provisioned.length = 54 := by decide

end Operation
end ImsProvisioning
