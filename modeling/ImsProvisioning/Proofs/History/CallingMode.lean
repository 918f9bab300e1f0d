import ImsProvisioning.Proofs.History.Storage
import ImsProvisioning.Proofs.Transport.Sweep

/-! # The WiFi calling mode

The mode is stored as its code, under an item of its own. Once a storage has answered that it is
set, every later reader shows it, as long as no other integer is stored under the item; what else
happens in between, and over which transport, makes no difference. An integer that is no mode's
code is reported as it is and never taken for a mode.
-/

namespace ImsProvisioning

open ConstantTable (code code_inj)
open Operation (Yields sequence)
open Program (Run Runs)
open Traffic (Answered Lapse Orderly stateAt)

namespace WfcMode

def readers : List Operation :=
  [.getWfcMode, .forward (.getInteger .voiceOverWifiMode), .getProvisioned .voiceOverWifiMode,
    .snapshot]

/-- How a reader that has found the mode ends. -/
inductive Shows (mode : WfcMode) : (op : Operation) → Except Failure op.Answer → Prop
  | mode : Shows mode .getWfcMode (.ok mode)
  | integer : Shows mode (.forward (.getInteger .voiceOverWifiMode)) (.ok (code mode))
  | setting : Shows mode (.getProvisioned .voiceOverWifiMode) (.ok (.integer (code mode)))
  | snapshot (snap : Snapshot)
      (found : snap.get? .voiceOverWifiMode = some (.integer (code mode))) :
      Shows mode .snapshot (.ok snap)

/-- The result is the mode with this code, or reports the integer if no mode has it. -/
def Interprets (n : Int32) (result : Except Failure WfcMode) : Prop :=
  (∀ mode, result = .ok mode ↔ code mode = n) ∧
    ((∀ mode : WfcMode, code mode ≠ n) → result = .error (.invalidValue .voiceOverWifiMode n))

variable {mode : WfcMode} {op : Operation} {c : Call}

theorem Shows.of_yields {answer : c.Answer} {result : Except Failure op.Answer}
    (reader : op ∈ readers) (h : Yields op c answer result)
    (hsetting : c.setting? answer = some (.integer (code mode))) : Shows mode op result := by
  cases h with
  | forwarded c answer =>
    obtain rfl : c = .getInteger .voiceOverWifiMode := by simpa [readers] using reader
    obtain rfl : answer = code mode := by simpa [Call.setting?] using hsetting
    exact .integer
  | setting item answer value hvalue =>
    obtain rfl : item = .voiceOverWifiMode := by simpa [readers] using reader
    obtain rfl : value = .integer (code mode) := Option.some.inj (hvalue.symm.trans hsetting)
    exact .setting
  | mode found =>
    have hcode : code found = code mode := by simpa [Call.setting?] using hsetting
    obtain rfl := code_inj.1 hcode
    exact .mode
  | noMode n unknown =>
    have hcode : n = code mode := by simpa [Call.setting?] using hsetting
    exact absurd hcode.symm (unknown mode)
  | modeSet => simp [readers] at reader

theorem interprets_of_yields {n : Int32} {result : Except Failure WfcMode}
    (h : Yields .getWfcMode (.getInteger .voiceOverWifiMode) n result) : Interprets n result := by
  cases h with
  | mode found =>
    refine ⟨fun mode => ?_, fun unknown => absurd rfl (unknown found)⟩
    rw [Except.ok.injEq, code_inj]
    exact eq_comm
  | noMode n unknown => exact ⟨fun mode => iff_of_false (by simp) (unknown mode), fun _ => rfl⟩

theorem request?_getWfcMode :
    Operation.getWfcMode.request? = some (.getInteger .voiceOverWifiMode) := rfl

theorem request?_setWfcMode (mode : WfcMode) : (Operation.setWfcMode mode).request? =
    some (.setInteger .voiceOverWifiMode (code mode)) := rfl

/-- A reader makes one call, or it reads every item. -/
theorem request?_of_reader (reader : op ∈ readers) :
    op.request? = some (.getInteger .voiceOverWifiMode) ∨ op = .snapshot := by
  simp only [readers, List.mem_cons, List.not_mem_nil, or_false] at reader
  rcases reader with rfl | rfl | rfl | rfl
  · exact .inl rfl
  · exact .inl rfl
  · exact .inl rfl
  · exact .inr rfl

end WfcMode

variable {σ : Type} {b : Backend σ} {s : Service σ} {st : σ} {o : Options} {mode : WfcMode}
  {op : Operation}

/-- The last call of the run failed, and the run ended with its error. -/
def FailsLast {α : Type} (s : Service σ) (st : σ) (r : Run (Except Failure α) σ) : Prop :=
  ∃ before c cause, r.calls = before ++ [c] ∧
    (s c ((Ledger.fresh st).serveAll s.backend before).state).result = .error cause ∧
    r.result = .error (.ofCall c cause)

namespace WfcMode

/-- Over a service that has the code of a mode stored, the snapshot has it or a call fails. -/
theorem run_snapshot (k : b.Storage)
    (stored : k.held st .voiceOverWifiMode = .integer (code mode)) :
    let r := (Operation.snapshot.program o).run b.service st
    Shows mode .snapshot r.result ∨ FailsLast b.service st r := by
  intro r
  rcases Operation.answered_or_failed b.service (.fresh st) Item.provisioned with
    answered | ⟨place, item, cause, here, failed, earlier⟩
  · left
    obtain ⟨es, hes, hresult, -, heach⟩ :=
      Operation.run_readingAll_ok (o := o) (.fresh st) .empty answered
    have hmem : Item.voiceOverWifiMode ∈ es.map Prod.fst := by
      rw [hes]
      decide
    obtain ⟨⟨_, value⟩, hentry, rfl⟩ := List.mem_map.1 hmem
    obtain ⟨place, hplace⟩ := List.mem_iff_getElem?.1 hentry
    obtain ⟨-, answer, hanswer, hvalue⟩ := heach place _ value hplace
    -- The calls for the items in front only read, so the code is still stored.
    have hheld := k.held_of_ok _ _ answer (Outcome.eq_of_result_ok hanswer)
    rw [k.held_stateAt, stored] at hheld
    obtain rfl := Option.some.inj (hvalue.symm.trans hheld)
    have hr : r.result = _ := hresult
    rw [hr]
    apply Shows.snapshot
    exact (Snapshot.get?_insertAll_empty (hes ▸ Item.provisioned_nodup)).2 hentry
  · right
    obtain ⟨hresult, hcalls⟩ :=
      Operation.run_readingAll_error (o := o) (.fresh st) .empty here failed earlier
    refine ⟨(Item.provisioned.take place).map Item.getter, item.getter, cause, ?_, failed,
      hresult⟩
    refine hcalls.trans ?_
    simp [List.take_add_one, here]

/-- Over a service that has the code of a mode stored, a reader shows the mode or a call fails. -/
theorem run_reader (k : b.Storage) (reader : op ∈ readers)
    (stored : k.held st .voiceOverWifiMode = .integer (code mode)) :
    let r := (op.program o).run b.service st
    Shows mode op r.result ∨ FailsLast b.service st r := by
  intro r
  rcases request?_of_reader reader with hc | rfl
  · obtain ⟨-, -, hconcludes⟩ := Operation.run_program o b.service hc st
    cases hreply : (b.service (.getInteger .voiceOverWifiMode) st).result with
    | error cause =>
      rw [hreply] at hconcludes
      exact .inr ⟨[], _, cause, Operation.program_calls o b.service hc st, hreply, hconcludes⟩
    | ok n =>
      rw [hreply] at hconcludes
      have hsetting := k.held_of_ok .voiceOverWifiMode st n (Outcome.eq_of_result_ok hreply)
      rw [stored] at hsetting
      exact .inl (.of_yields reader hconcludes hsetting)
  · exact run_snapshot k stored

/-- On a channel a reader is answered with an integer that it shows, or one of its calls lapses. -/
theorem answered_or_lapsed_reader {site : Site} {others : Action → Prop} {w w' : Traffic σ}
    {result : Except Failure op.Answer} {lines : List LogLine} (reader : op ∈ readers)
    (ho : Orderly b st w) (h : Runs b site others (op.program o) w result lines w') :
    (∃ last n, w.accepted.length ≤ last ∧
      Answered b st w' last (.getInteger .voiceOverWifiMode) n ∧
      ∀ mode, code mode = n → Shows mode op result) ∨
    ∃ c cause, Lapse b st w' site w.accepted.length c cause ∧
      result = .error (.ofCall c cause) := by
  rcases request?_of_reader reader with hc | rfl
  · rcases Operation.answered_or_lapsed ho rfl hc h with
      ⟨last, n, hle, hanswered, hyields⟩ | ⟨cause, hlapse, hresult⟩
    · refine .inl ⟨last, n, hle, hanswered, ?_⟩
      rintro mode rfl
      exact .of_yields reader hyields rfl
    · exact .inr ⟨_, cause, hlapse, hresult⟩
  · have hends : SweepEnds b st site w w' Item.provisioned .empty result :=
      Operation.sweep_of_readingAll Item.provisioned_nodup ho h
    cases hends with
    | @complete place value sweep =>
      left
      have hmem : Item.voiceOverWifiMode ∈ Item.provisioned := by decide
      obtain ⟨n, hanswered, hvalue⟩ := sweep.answered _ hmem
      refine ⟨place .voiceOverWifiMode, n, sweep.behind _ hmem, hanswered, ?_⟩
      rintro mode rfl
      apply Shows.snapshot
      rw [Snapshot.get?_insertAll_map Item.provisioned_nodup value hmem]
      exact hvalue.symm
    | @lapsed before after item place value start cause split sweep start_le behind lapse =>
      exact .inr ⟨_, cause, lapse.of_le start_le, rfl⟩

/-- Where a call that sets the mode has been answered, the code of the mode is stored. -/
theorem held_of_answered (k : b.Storage) {w : Traffic σ} {first : Nat} {status : Status}
    (h : Answered b st w first (.setInteger .voiceOverWifiMode (code mode)) status) :
    k.held (w.stateAt b st (first + 1)) .voiceOverWifiMode = .integer (code mode) := by
  have hstate : w.stateAt b st (first + 1) =
      (b (.setInteger .voiceOverWifiMode (code mode)) (w.stateAt b st first)).state := by
    rw [stateAt, List.take_add_one, h.served, Ledger.serveAll_append]
    rfl
  have hcarried := k.carries_of_ok _ _ _ h.outcome
  rw [hstate, k.held_call, if_pos hcarried]
  rfl

/-- A channel that answers that the mode is set has set it behind all it had accepted before. -/
theorem answered_of_set {site : Site} {others : Action → Prop} {w w' : Traffic σ} {status : Status}
    {lines : List LogLine} (ho : Orderly b st w)
    (h : Runs b site others ((Operation.setWfcMode mode).program o) w (.ok status) lines w') :
    ∃ first, w.accepted.length ≤ first ∧
      Answered b st w' first (.setInteger .voiceOverWifiMode (code mode)) status := by
  rcases Operation.answered_or_lapsed ho rfl (request?_setWfcMode mode) h with
    ⟨first, answer, hle, hanswered, hyields⟩ | ⟨cause, -, hfailed⟩
  · cases hyields
    exact ⟨first, hle, hanswered⟩
  · cases hfailed

/-- As long as nothing else is stored under the item, it is that code that is read back. -/
theorem code_of_undisturbed (k : b.Storage) {w : Traffic σ} {first last : Nat} {status : Status}
    {n : Int32} (hset : Answered b st w first (.setInteger .voiceOverWifiMode (code mode)) status)
    (hget : Answered b st w last (.getInteger .voiceOverWifiMode) n) (hlt : first < last)
    (undisturbed : k.Undisturbed st w.served .voiceOverWifiMode (first + 1) last) :
    code mode = n := by
  have hkept := k.held_of_undisturbed hlt undisturbed
  have hsetting := k.held_of_ok .voiceOverWifiMode _ n hget.outcome
  rw [hkept, held_of_answered k hset] at hsetting
  exact (Setting.integer.inj (Option.some.inj hsetting)).symm

/-- A service that answers that the mode is set has its code stored. -/
theorem held_of_set (k : b.Storage) {status : Status}
    (h : ((Operation.setWfcMode mode).program o |>.run b.service st).result = .ok status) :
    k.held ((Operation.setWfcMode mode).program o |>.run b.service st).state .voiceOverWifiMode =
      .integer (code mode) := by
  obtain ⟨hstate, -, hconcludes⟩ :=
    Operation.run_program o b.service (request?_setWfcMode mode) st
  rw [h] at hconcludes
  have hanswer : (b.service (.setInteger .voiceOverWifiMode (code mode)) st).result =
      .ok status := by
    cases hreply : (b.service (.setInteger .voiceOverWifiMode (code mode)) st).result with
    | error cause =>
      rw [hreply] at hconcludes
      cases hconcludes
    | ok answer =>
      rw [hreply] at hconcludes
      cases hconcludes with
      | modeSet => rfl
  have hcarried := k.carries_of_ok _ _ _ (Outcome.eq_of_result_ok hanswer)
  have hcall := k.held_call (.setInteger .voiceOverWifiMode (code mode)) st .voiceOverWifiMode
  rw [if_pos hcarried] at hcall
  rw [hstate]
  exact hcall

/-- Only the setter of integers writes to the item. -/
theorem writes?_eq_none {c : Call} (h : ∀ n, c ≠ .setInteger .voiceOverWifiMode n) :
    c.writes? .voiceOverWifiMode = none := by
  cases c with
  | setInteger item n =>
    have hitem : item ≠ .voiceOverWifiMode := fun he => h n (he ▸ rfl)
    exact if_neg fun hc => hitem hc.1
  | setText item t => exact if_neg fun hc => by cases hc.2
  | _ => rfl

/--
Once setting the mode has ended well its code is stored, and as long as no integer is stored
under its item any more, every later reader shows the mode unless a call of its own fails. That
holds over the backend itself and behind a shared reference after any operations, and over a
channel with whatever others do meanwhile. Reading the mode takes each integer that may be
answered for the mode whose code it is, and reports it if there is none.
-/
theorem modes_are_read_as_set (b : Backend σ) (o : Options) :
    (∀ (k : b.Storage) (mode : WfcMode) (between : List Operation), ∀ op ∈ readers,
      (∀ s ∈ [b.service, b.service.shared], ∀ st status,
        let set := (Operation.setWfcMode mode).program o |>.run s st
        let rest := (sequence o between).run s set.state
        let read := (op.program o).run s rest.state
        set.result = .ok status →
        k.held set.state .voiceOverWifiMode = .integer (code mode) ∧
        ((∀ c ∈ k.carriedOut rest.calls set.state, ∀ n, c ≠ .setInteger .voiceOverWifiMode n) →
          Shows mode op read.result ∨ FailsLast s rest.state read)) ∧
      ∀ st acts site site' site'' status results result lines lines' lines'' w w' w'',
        let started := Traffic.run b st acts
        Runs b site (fun _ => True) ((Operation.setWfcMode mode).program o) started (.ok status)
          lines w →
        Runs b site' (fun _ => True) (sequence o between) w results lines' w' →
        Runs b site'' (fun _ => True) (op.program o) w' result lines'' w'' →
        ∃ first, started.accepted.length ≤ first ∧
          Answered b st w first (.setInteger .voiceOverWifiMode (code mode)) status ∧
          k.held (w.stateAt b st (first + 1)) .voiceOverWifiMode = .integer (code mode) ∧
          ((∃ last n, w'.accepted.length ≤ last ∧
              Answered b st w'' last (.getInteger .voiceOverWifiMode) n ∧
              (k.Undisturbed st w''.served .voiceOverWifiMode (first + 1) last →
                Shows mode op result)) ∨
            ∃ c cause, Lapse b st w'' site'' w'.accepted.length c cause ∧
              result = .error (.ofCall c cause))) ∧
    (∀ s ∈ [b.service, b.service.shared], ∀ st n,
      (s (.getInteger .voiceOverWifiMode) st).result = .ok n →
      Interprets n (Operation.getWfcMode.program o |>.run s st).result) ∧
    ∀ st acts site result lines w,
      let started := Traffic.run b st acts
      Runs b site (fun _ => True) (Operation.getWfcMode.program o) started result lines w →
      (∃ place n, started.accepted.length ≤ place ∧
        Answered b st w place (.getInteger .voiceOverWifiMode) n ∧ Interprets n result) ∨
      ∃ cause, Lapse b st w site started.accepted.length (.getInteger .voiceOverWifiMode) cause ∧
        result = .error (.ofCall (.getInteger .voiceOverWifiMode) cause) := by
  refine ⟨fun k mode between op reader => ⟨?_, ?_⟩, ?_, ?_⟩
  · intro s hs st status set rest read hset
    obtain rfl : s = b.service := by simpa using hs
    have hstored := held_of_set k hset
    refine ⟨hstored, fun untouched => ?_⟩
    apply run_reader k reader
    have hkept := k.held_of_carriedOut (l := .fresh set.state)
      fun c hc => writes?_eq_none (untouched c hc)
    have hstate := congrArg Ledger.state
      (Program.fresh_serveAll b.service (sequence o between) set.state)
    exact (congrArg (k.held · .voiceOverWifiMode) hstate).symm.trans (hkept.trans hstored)
  · intro st acts site site' site'' status results result lines lines' lines'' w w' w'' started
      hset hbetween hread
    have ho : Orderly b st started := Traffic.run_orderly b st acts
    obtain ⟨first, hle, hanswered⟩ := answered_of_set ho hset
    refine ⟨first, hle, hanswered, held_of_answered k hanswered, ?_⟩
    have ho' : Orderly b st w' := hbetween.orderly (hset.orderly ho)
    rcases answered_or_lapsed_reader reader ho' hread with
      ⟨last, n, hlast, hn, hshows⟩ | lapsed
    · -- The mode was set before the reader's call was accepted, so it was also served before.
      have hserved : w.served.length ≤ w.accepted.length := (hset.orderly ho).served_length
      have haccepted := hbetween.grows.accepted.length_le
      have hfirst := (List.getElem?_eq_some_iff.1 hanswered.served).1
      have hlater := hanswered.grows (hbetween.grows.trans hread.grows)
      refine .inl ⟨last, n, hlast, hn, fun undisturbed => hshows mode ?_⟩
      exact code_of_undisturbed k hlater hn (by omega) undisturbed
    · exact .inr lapsed
  · intro s hs st n hn
    obtain rfl : s = b.service := by simpa using hs
    obtain ⟨-, -, hconcludes⟩ := Operation.run_program o b.service request?_getWfcMode st
    rw [hn] at hconcludes
    exact interprets_of_yields hconcludes
  · intro st acts site result lines w started h
    have ho : Orderly b st started := Traffic.run_orderly b st acts
    rcases Operation.answered_or_lapsed ho rfl request?_getWfcMode h with
      ⟨place, n, hle, hanswered, hyields⟩ | lapsed
    · exact .inl ⟨place, n, hle, hanswered, interprets_of_yields hyields⟩
    · exact .inr lapsed

/-- A store that carries out only the first write of an integer shows the mode it was given. -/
theorem modes_are_read_as_set_store :
    let st := Store.empty.edit (.fault (some ⟨.error (.remote "busy"), 1, [.setInteger]⟩))
    let between := [.forward (.setInteger .voiceOverWifiMode 1),
      .forward (.setText .voiceOverWifiMode "WIFI_ONLY"), .setWfcMode .wifiOnly]
    let s := Store.backend.service
    let set := (Operation.setWfcMode .wifiPreferred).program ⟨true⟩ |>.run s st
    let rest := (sequence ⟨true⟩ between).run s set.state
    let read := Operation.getWfcMode.program ⟨true⟩ |>.run s rest.state
    set.result = .ok .success ∧
    (∀ c ∈ Store.storage.carriedOut rest.calls set.state, ∀ n,
      c ≠ .setInteger .voiceOverWifiMode n) ∧
    read.result = .ok .wifiPreferred := by
  intro st between s set rest read
  have hset : set.result = .ok .success := rfl
  have hcarried : Store.storage.carriedOut rest.calls set.state =
    [.setText .voiceOverWifiMode "WIFI_ONLY"] := rfl
  have untouched : ∀ c ∈ Store.storage.carriedOut rest.calls set.state, ∀ n,
      c ≠ .setInteger .voiceOverWifiMode n := by
    simp [hcarried]
  refine ⟨hset, untouched, ?_⟩
  obtain ⟨-, hread⟩ := ((modes_are_read_as_set Store.backend ⟨true⟩).1 Store.storage .wifiPreferred
    between .getWfcMode (List.mem_cons_self ..)).1 s (List.mem_cons_self ..) st .success hset
  rcases hread untouched with shown | ⟨before, c, cause, hcalls, failed, -⟩
  · change Shows .wifiPreferred .getWfcMode read.result at shown
    generalize read.result = result at shown ⊢
    cases shown
    rfl
  · have hone : [Call.getInteger .voiceOverWifiMode] = before ++ [c] :=
      (Operation.program_calls ⟨true⟩ s request?_getWfcMode rest.state).symm.trans hcalls
    obtain ⟨rfl, rfl⟩ : before = [] ∧ c = .getInteger .voiceOverWifiMode := by
      cases before with
      | nil => exact ⟨rfl, (List.singleton_inj.1 hone).symm⟩
      | cons _ before => simp at hone
    cases failed

end WfcMode
end ImsProvisioning
