import ImsProvisioning.Proofs.History.Writes
import ImsProvisioning.Proofs.Transport.Agreement

/-! # Reading what was written

As long as no fault is planted in a store, reading an item gives what the last write to it
wrote, or what it was to begin with. It is so whatever else was done in between and whatever
status the setters answered, and over a channel as well.
-/

namespace ImsProvisioning
namespace Store

open Operation (sequence)
open Program (Runs)

variable {o : Options} {st : Store} {ops : List Operation}

def setting (s : Store) (item : Item) : Setting :=
  match item.settingKind with
  | .integer => .integer (s.integer item)
  | .text => .text (s.text item)

def settingAfter (s : Store) (ops : List Operation) (item : Item) : Setting :=
  (lastWrite (Operation.writes? item) ops).getD (s.setting item)

theorem setting_setInteger (s : Store) (item other : Item) (n : Int32) :
    (s.setInteger other n).setting item =
      ((Call.setInteger other n).writes? item).getD (s.setting item) := by
  unfold setting Call.writes?
  cases item.settingKind with
  | integer =>
    by_cases h : other = item
    · subst h
      simp [setInteger, integer]
    · simp [setInteger, integer, h, Ne.symm h]
  | text => simp [setInteger, text]

theorem setting_setText (s : Store) (item other : Item) (t : String) :
    (s.setText other t).setting item =
      ((Call.setText other t).writes? item).getD (s.setting item) := by
  unfold setting Call.writes?
  cases item.settingKind with
  | integer => simp [setText, integer]
  | text =>
    by_cases h : other = item
    · subst h
      simp [setText, text]
    · simp [setText, text, h, Ne.symm h]

/-- A call leaves an item as it was unless it writes to it. -/
theorem answer_setting (c : Call) (s : Store) (item : Item) :
    (answer c s).state.setting item = (c.writes? item).getD (s.setting item) := by
  cases c with
  | setInteger other n => exact setting_setInteger s item other n
  | setText other t => exact setting_setText s item other t
  | _ => rfl

theorem answer_getter (item : Item) (s : Store) :
    ∃ reply, (answer item.getter s).result = .ok reply ∧
      item.getter.setting? reply = some (s.setting item) := by
  unfold Item.getter setting
  cases item.settingKind with
  | integer => exact ⟨s.integer item, rfl, rfl⟩
  | text => exact ⟨s.text item, rfl, rfl⟩

theorem serveAll_setting (cs : List Call) (l : Ledger Store) (item : Item) :
    (l.serveAll answer.backend cs).state.setting item =
      (lastWrite (Call.writes? item) cs).getD (l.state.setting item) :=
  view_foldl (fun l : Ledger Store => l.state.setting item)
    (fun l c => answer_setting c l.state item) cs l

theorem run_sequence_setting (ops : List Operation) (st : Store) (item : Item) :
    ((sequence o ops).run answer st).state.setting item = st.settingAfter ops item := by
  have hcalls := serveAll_setting ((sequence o ops).run answer st).calls (.fresh st) item
  have hlast := Operation.lastWrite_sequence (o := o) (s := answer) ops item (.fresh st)
  rw [Program.fresh_serveAll] at hcalls
  exact hcalls.trans (congrArg (·.getD (st.setting item)) hlast)

theorem run_getProvisioned (item : Item) (st : Store) :
    ((Operation.getProvisioned item).program o |>.run answer st).result =
      .ok (st.setting item) := by
  obtain ⟨reply, hreply, hsetting⟩ := answer_getter item st
  obtain ⟨-, -, -, hok⟩ := Operation.run_reading o answer item st
  obtain ⟨value, hvalue, -, hresult⟩ := hok reply hreply
  obtain rfl : st.setting item = value := Option.some.inj (hsetting.symm.trans hvalue)
  exact hresult

theorem setting_getter (item : Item) (s : Store) :
    (answer item.getter s).state.setting = s.setting := by
  funext other
  rw [answer_setting, Call.writes?_getter]
  rfl

/-- Reading items of a store adds what it holds for them. -/
theorem run_readingAll (items : List Item) (snap : Snapshot) (st : Store) :
    ((Operation.readingAll o items snap).run answer st).result =
      .ok (snap.insertAll (items.map fun item => (item, st.setting item))) := by
  induction items generalizing snap st with
  | nil =>
    rw [Operation.readingAll, Program.run_logWhen]
    rfl
  | cons item items ih =>
    have hresult : ((Operation.reading o item).run answer st).result = .ok (st.setting item) :=
      run_getProvisioned item st
    have hstate := (Operation.run_reading o answer item st).1
    rw [Operation.run_readingAll_cons]
    simp only [hresult, hstate]
    rw [ih, setting_getter]
    rfl

/-- A complete snapshot of what a store holds. -/
theorem run_snapshot (st : Store) :
    ∃ snap, (Operation.snapshot.program o |>.run answer st).result = .ok snap ∧
      snap.entries.map Prod.fst = Item.provisioned ∧
      ∀ item ∈ Item.provisioned, snap.get? item = some (st.setting item) := by
  refine ⟨_, run_readingAll _ _ st,
    Snapshot.entries_insertAll_empty (Snapshot.map_fst_map _ _), fun item hitem => ?_⟩
  exact Snapshot.get?_insertAll_map Item.provisioned_nodup st.setting hitem

/-- Operations on a store that read back what was written before them. -/
structure Recalls (st : Store) (ops : List Operation) (results : List Completed) : Prop where
  reads : ∀ before item after, ops = before ++ .getProvisioned item :: after →
    results[before.length]? = some ⟨.getProvisioned item, .ok (st.settingAfter before item)⟩
  snapshots : ∀ before after, ops = before ++ .snapshot :: after →
    ∃ snap, results[before.length]? = some ⟨.snapshot, .ok snap⟩ ∧
      snap.entries.map Prod.fst = Item.provisioned ∧
      ∀ item ∈ Item.provisioned, snap.get? item = some (st.settingAfter before item)

theorem recalls_run (st : Store) (ops : List Operation) :
    Recalls st ops ((sequence o ops).run answer st).result where
  reads := by
    rintro before item after rfl
    rw [Operation.run_sequence_getElem?, run_getProvisioned, run_sequence_setting]
  snapshots := by
    rintro before after rfl
    obtain ⟨snap, hresult, hitems, hget⟩ :=
      run_snapshot (o := o) ((sequence o before).run answer st).state
    refine ⟨snap, ?_, hitems, ?_⟩
    · rw [Operation.run_sequence_getElem?, hresult]
    · intro item hitem
      rw [hget item hitem, run_sequence_setting]

/-- Over a channel only requests that report to a listener end otherwise. -/
theorem Recalls.overChannel {results : List Completed} (h : Recalls st ops results) :
    Recalls st ops (results.map Completed.overChannel) where
  reads before item after hops := by
    rw [List.getElem?_map, h.reads before item after hops]
    rfl
  snapshots before after hops := by
    obtain ⟨snap, hresult, hsnap⟩ := h.snapshots before after hops
    refine ⟨snap, ?_, hsnap⟩
    rw [List.getElem?_map, hresult]
    rfl

/-- Without a fault a store is the service that answers every call. -/
theorem answer_agreesOn : answer.backend.AgreesOn (·.fault = none) backend where
  same c st hst := by simp only [backend, trip, hst]
  closed c st hst := by
    cases c <;> exact hst

/--
Whatever operations are done to a store without a fault, directly, behind a shared reference or
over a channel, each read of an item gives what the last write to it before the read wrote, and
each snapshot has every item so; an item that was not written is what it was to begin with.
-/
theorem reads_return_last_writes (st : Store) (faultless : st.fault = none) (o : Options)
    (ops : List Operation) :
    let s := backend.service
    let started := Traffic.run backend st [.start]
    Recalls st ops ((sequence o ops).run s st).result ∧
    Recalls st ops ((sequence o ops).run s.shared st).result ∧
    ∀ site, site ≠ .currentThread →
      (∀ results lines w,
        Runs backend site (· = .work) (sequence o ops) started results lines w →
        Recalls st ops results) ∧
      ∃ results lines w,
        Runs backend site (· = .work) (sequence o ops) started results lines w := by
  intro s started
  have hrun : (sequence o ops).run s st = (sequence o ops).run answer st :=
    answer_agreesOn.run _ faultless
  have hstarted : started = Traffic.run answer.backend st [.start] :=
    (answer_agreesOn.runFrom (w := .fresh st) faultless [.start]).1
  have hdirect : Recalls st ops ((sequence o ops).run s st).result :=
    hrun ▸ recalls_run st ops
  refine ⟨hdirect, (Service.shared_eq s).symm ▸ hdirect, fun site outside => ⟨?_, ?_⟩⟩
  · intro results lines w h
    have h := answer_agreesOn.symm.runs faultless h
    rw [hstarted] at h
    obtain ⟨hresults, -, -⟩ := Operation.overChannel_of_runs outside h
    rw [hresults]
    exact (recalls_run st ops).overChannel
  · obtain ⟨results, lines, w, h, -⟩ := Program.drive_runs (sequence o ops)
      (Traffic.Follows.started answer.backend st) outside
    rw [← hstarted] at h
    exact ⟨results, lines, w, answer_agreesOn.runs faultless h⟩

/-- A setter that answers a failure has written, and the setter of texts has not. -/
theorem reads_return_last_writes_mode :
    let st := empty.edit (.setStatus .failed)
    let writes := [Operation.setWfcMode .wifiPreferred,
      .forward (.setText .voiceOverWifiMode "cellular"), .forward (.setVideoQuality .high none)]
    st.fault = none ∧
    ((sequence ⟨true⟩ (writes ++ [.getProvisioned .voiceOverWifiMode])).run
      backend.service st).result[3]? =
        some ⟨.getProvisioned .voiceOverWifiMode,
          .ok (.integer (ConstantTable.code WfcMode.wifiPreferred))⟩ := by
  intro st writes
  refine ⟨rfl, ?_⟩
  have h := (reads_return_last_writes st rfl ⟨true⟩
    (writes ++ [.getProvisioned .voiceOverWifiMode])).1
  exact h.reads writes .voiceOverWifiMode [] rfl

end Store
end ImsProvisioning
