import ImsProvisioning.Proofs.History.Storage
import ImsProvisioning.Proofs.Transport.Sweep

/-! # Snapshots while others write

A snapshot over a channel is many calls, and others write between them. Still it is not torn
within an item: each of its settings is what was stored for the item at the place of the item's
own getter, and the getters are served in code order. It is complete, or it is an error.
-/

namespace ImsProvisioning

open ConstantTable (code)
open Operation (reading readingAll)
open Program (Runs)
open Traffic (Answered Follows Grows Lapse Orderly stateAt)

variable {σ : Type} {b : Backend σ} {st : σ} {site : Site} {o : Options} {w w' : Traffic σ}

/--
A snapshot begun at `w` and complete at `w'`, with the places of its getters. Each setting is the
one stored when the item's getter was served, which the last write in front wrote. In front of
the place stands what was accepted before the getter, and if nothing is written between the
getters the snapshot is the whole store at any point there.
-/
structure Untorn (k : b.Storage) (st : σ) (w w' : Traffic σ) (snap : Snapshot)
    (place : Item → Nat) : Prop where
  items : snap.entries.map Prod.fst = Item.provisioned
  asked : ∀ item ∈ Item.provisioned, w'.served[place item]? = some item.getter
  ascending : ∀ item ∈ Item.provisioned, ∀ other ∈ Item.provisioned,
    (code item).toInt < (code other).toInt → place item < place other
  read : ∀ item ∈ Item.provisioned,
    snap.get? item = some (k.held (w'.stateAt b st (place item)) item)
  last : ∀ item ∈ Item.provisioned, k.held (w'.stateAt b st (place item)) item =
    (lastWrite (Call.writes? item) (k.carriedOut (w'.served.take (place item)) st)).getD
      (k.held st item)
  front : ∀ item ∈ Item.provisioned,
    (w'.served.take (place item)).map Command.call = w'.accepted.take (place item) ∧
      w.accepted <+: w'.accepted.take (place item)
  still : ∀ first last, (∀ item ∈ Item.provisioned, first ≤ place item ∧ place item ≤ last) →
    (∀ i c, first ≤ i → i < last → w'.served[i]? = some c →
      ∀ item ∈ Item.provisioned, c.writes? item = none) →
    ∀ moment, first ≤ moment → moment ≤ last → ∀ item ∈ Item.provisioned,
      snap.get? item = some (k.held (w'.stateAt b st moment) item)

theorem Item.lt_of_pairwise {place : Item → Nat}
    (h : provisioned.Pairwise fun item other => place item < place other) {item other : Item}
    (hi : item ∈ provisioned) (ho : other ∈ provisioned)
    (hlt : (code item).toInt < (code other).toInt) : place item < place other := by
  obtain ⟨i, hil, rfl⟩ := List.mem_iff_getElem.1 hi
  obtain ⟨j, hjl, rfl⟩ := List.mem_iff_getElem.1 ho
  rcases Nat.lt_trichotomy i j with hij | rfl | hji
  · exact List.pairwise_iff_getElem.1 h i j hil hjl hij
  · exact absurd hlt (Int.lt_irrefl _)
  · have hcode := List.pairwise_iff_getElem.1 code_lt_provisioned j i hjl hil hji
    omega

/-- What an answered getter gave is what was stored at its place. -/
theorem Sweep.value_eq {items : List Item} {place : Item → Nat} {value : Item → Setting}
    (h : Sweep b st w w' items place value) (k : b.Storage) {item : Item} (hi : item ∈ items) :
    value item = k.held (w'.stateAt b st (place item)) item := by
  obtain ⟨answer, ha, hsetting⟩ := h.answered item hi
  have hheld := k.held_of_ok item _ answer ha.outcome
  exact Option.some.inj (hsetting.symm.trans hheld)

theorem Sweep.untorn {place : Item → Nat} {value : Item → Setting}
    (h : Sweep b st w w' Item.provisioned place value) (k : b.Storage) (ho : Orderly b st w')
    (hg : Grows w w') :
    Untorn k st w w'
      (Snapshot.empty.insertAll (Item.provisioned.map fun item => (item, value item))) place := by
  have asked (item : Item) (hi : item ∈ Item.provisioned) :
      w'.served[place item]? = some item.getter := by
    obtain ⟨answer, ha, -⟩ := h.answered item hi
    exact ha.served
  have read (item : Item) (hi : item ∈ Item.provisioned) :
      (Snapshot.empty.insertAll (Item.provisioned.map fun item => (item, value item))).get? item =
        some (k.held (w'.stateAt b st (place item)) item) := by
    rw [← h.value_eq k hi]
    exact Snapshot.get?_insertAll_map Item.provisioned_nodup value hi
  refine ⟨Snapshot.entries_insertAll_empty (Snapshot.map_fst_map _ _), asked,
    fun item hi other ho => Item.lt_of_pairwise h.ascending hi ho, read, ?_, ?_, ?_⟩
  · intro item _
    exact k.held_serveAll _ (.fresh st) item
  · intro item hi
    have hlt : place item < w'.served.length := (List.getElem?_eq_some_iff.1 (asked item hi)).1
    constructor
    · obtain ⟨rest, hrest⟩ := ho.served
      rw [← hrest, List.take_append_of_le_length (by simpa using Nat.le_of_lt hlt), List.map_take]
    · exact List.prefix_take_iff.2 ⟨hg.accepted, h.behind item hi⟩
  · intro first last between quiet moment hfirst hlast item hi
    obtain ⟨hle, hge⟩ := between item hi
    rw [read item hi]
    have hplace := k.held_of_quiet st hle fun i c hi₁ hi₂ hc =>
      quiet i c hi₁ (Nat.lt_of_lt_of_le hi₂ hge) hc item hi
    have hmoment := k.held_of_quiet st hfirst fun i c hi₁ hi₂ hc =>
      quiet i c hi₁ (Nat.lt_of_lt_of_le hi₂ hlast) hc item hi
    rw [hplace, hmoment]

/-- What remains of a snapshot from here on ends in the error of its next getter. -/
def RestFails (b : Backend σ) (site : Site) (o : Options) (w : Traffic σ)
    (causes : CallError → Prop) : Prop :=
  ∀ item items snap result lines w',
    Runs b site (fun _ => True) (readingAll o (item :: items) snap) w result lines w' →
    ∃ cause, causes cause ∧ result = .error (.serviceCall item.getter.method 131 cause)

theorem RestFails.of_exchange {causes : CallError → Prop}
    (h : ∀ item w₁ reply, Exchange b site w (Item.getter item) reply w₁ →
      ∃ cause, causes cause ∧ reply = .error cause) : RestFails b site o w causes := by
  intro item items snap result lines w' hr
  obtain ⟨reply, w₁, hx, herror, -⟩ := Operation.exchange_of_readingAll hr
  obtain ⟨cause, hcause, hreply⟩ := h item w₁ reply hx
  exact ⟨cause, hcause, (herror cause hreply).1⟩

/--
A snapshot over a channel, taken while others do whatever they like, is complete and untorn, or
it is the error of a getter that lapsed behind getters that were answered. Once a shutdown is
accepted, or the channel has ended for whatever reason, what remains of it fails; and when the
channel ends, a getter that waits in the queue gets no reply.
-/
theorem snapshots_are_untorn (b : Backend σ) (k : b.Storage) (st : σ) (o : Options)
    (site : Site) (acts : List Action) :
    let w := Traffic.run b st acts
    (∀ result lines w',
      Runs b site (fun _ => True) (Operation.snapshot.program o) w result lines w' →
      (∀ snap, result = .ok snap → ∃ place, Untorn k st w w' snap place) ∧
      ∀ failure, result = .error failure → ∃ before item after start cause,
        Item.provisioned = before ++ item :: after ∧
        (∀ other ∈ before, ∃ place answer, w.accepted.length ≤ place ∧ place < start ∧
          Answered b st w' place other.getter answer) ∧
        w.accepted.length ≤ start ∧ Lapse b st w' site start item.getter cause ∧
        failure = .serviceCall item.getter.method 131 cause) ∧
    (.shutdown ∈ w.accepted → RestFails b site o w fun cause =>
      cause = .noReply ∨ cause = .disconnected ∨
        site = .currentThread ∧ cause = .blockingInRuntime) ∧
    (∀ w₁ : Traffic σ, w₁.channel.phase = .ended → RestFails b site o w₁ fun cause =>
      cause = .disconnected ∨ site = .currentThread ∧ cause = .blockingInRuntime) ∧
    ∀ place item, ⟨place, .call (Item.getter item)⟩ ∈ w.channel.queue →
      w.channel.close.receipt? place item.getter = some (.error .noReply) := by
  intro w
  have ho : Orderly b st w := Traffic.run_orderly b st acts
  refine ⟨?_, ?_, ?_, ?_⟩
  · intro result lines w' hr
    have hends : SweepEnds b st site w w' Item.provisioned .empty result :=
      Operation.sweep_of_readingAll Item.provisioned_nodup ho hr
    cases hends with
    | @complete place value sweep =>
      refine ⟨?_, fun failure hfailure => ?_⟩
      · rintro snap ⟨⟩
        exact ⟨place, sweep.untorn k (hr.orderly ho) hr.grows⟩
      · cases hfailure
    | @lapsed before after item place value start cause split sweep start_le behind lapse =>
      refine ⟨fun snap hsnap => ?_, ?_⟩
      · cases hsnap
      · rintro failure ⟨⟩
        refine ⟨before, item, after, start, cause, split, ?_, start_le, lapse, rfl⟩
        intro other hother
        obtain ⟨answer, ha, -⟩ := sweep.answered other hother
        exact ⟨place other, answer, sweep.behind other hother, behind other hother, ha⟩
  · intro hs
    apply RestFails.of_exchange
    intro item w₁ reply hx
    rcases hx.of_shutdown ho hs item.getter_isBlocking with ⟨inside, rfl⟩ | rfl | rfl
    · exact ⟨_, .inr (.inr ⟨inside, rfl⟩), rfl⟩
    · exact ⟨_, .inr (.inl rfl), rfl⟩
    · exact ⟨_, .inl rfl, rfl⟩
  · intro w₁ ended
    apply RestFails.of_exchange
    intro item w₂ reply hx
    rcases hx.of_ended ended item.getter_isBlocking with ⟨inside, rfl⟩ | rfl
    · exact ⟨_, .inr ⟨inside, rfl⟩, rfl⟩
    · exact ⟨_, .inl rfl, rfl⟩
  · intro place item queued
    apply ho.receipt?_of_close _ queued item.getter_isBlocking
    intro ended
    have hempty : w.channel.queue = [] := (Traffic.run_departed b st acts ended).queue
    simp [hempty] at queued

/--
Another handle writes the first item before and after it is read, and a second item meanwhile: the
snapshot has the first of the two writes and the write of the second item.
-/
theorem snapshots_are_untorn_store :
    let early := Call.setText .vocoderAmrModeSet "0,2"
    let late := [Call.setText .vocoderAmrModeSet "7", Call.setInteger .voiceOverWifiMode 2]
    let w := Traffic.run Store.backend .empty [.start, .clone, .call .outside early]
    ∃ snap lines w' place,
      Runs Store.backend .outside (fun _ => True) (Operation.snapshot.program ⟨true⟩) w (.ok snap)
        lines w' ∧
      Untorn Store.storage .empty w w' snap place ∧
      (early :: .getText .vocoderAmrModeSet :: late).map Command.call <+: w'.accepted ∧
      snap.get? .vocoderAmrModeSet = some (.text "0,2") ∧
      snap.get? .voiceOverWifiMode = some (.integer 2) := by
  intro early late w
  have outside : Site.outside ≠ .currentThread := by decide
  have before : Follows Store.answer.backend .empty w [early] :=
    (Follows.started _ _).clone.call outside early
  -- The first getter is answered before the other handle writes again.
  obtain ⟨r, lines, w₁, hfirst, -⟩ :=
    Program.drive_runs (reading ⟨true⟩ .vocoderAmrModeSet) before outside
  obtain ⟨hr, -, hfollows⟩ := hfirst.leadsTo outside before
  obtain rfl : r = .ok (.text "0,2") := hr.trans rfl
  have between : Follows Store.answer.backend .empty
      (w₁.runFrom Store.answer.backend (late.map (.call .outside)))
      (early :: .getText .vocoderAmrModeSet :: late) :=
    (hfollows.call outside _).call outside _
  let items := Item.provisioned.tail
  have hitems : Item.provisioned = .vocoderAmrModeSet :: items := rfl
  let first := Snapshot.empty.insert .vocoderAmrModeSet (.text "0,2")
  obtain ⟨r, lines', w', hrest, -⟩ :=
    Program.drive_runs (readingAll ⟨true⟩ items first) between outside
  obtain ⟨hr, -, hfollows'⟩ := hrest.leadsTo outside between
  rw [(Operation.readingAll_isBlocking _ _ _).run_acknowledged, Store.run_readingAll] at hr
  subst hr
  have hwhole : Runs Store.answer.backend .outside (fun _ => True)
      (Operation.snapshot.program ⟨true⟩) w _ (lines ++ lines') w' :=
    (hfirst.mono fun _ _ => trivial).bind
      (.others (fun _ _ => trivial) (hrest.mono fun _ _ => trivial))
  have hstore := Store.answer_agreesOn.runs rfl hwhole
  obtain ⟨place, huntorn⟩ := ((snapshots_are_untorn Store.backend Store.storage .empty ⟨true⟩
    .outside [.start, .clone, .call .outside early]).1 _ _ _ hstore).1 _ rfl
  have hkeys := Snapshot.map_fst_map items
  obtain ⟨absent, nodup⟩ : .vocoderAmrModeSet ∉ items ∧ items.Nodup :=
    List.nodup_cons.1 (hitems ▸ Item.provisioned_nodup)
  refine ⟨_, _, w', place, hstore, huntorn, ?_, ?_, ?_⟩
  · rw [hfollows'.accepted, List.map_append]
    exact List.prefix_append ..
  · exact (Snapshot.get?_insertAll (by rwa [hkeys])).2 (.inr ⟨by rwa [hkeys], rfl⟩)
  · exact (Snapshot.get?_insertAll (by rwa [hkeys])).2 (.inl (List.mem_map.2 ⟨_, by decide, rfl⟩))

end ImsProvisioning
