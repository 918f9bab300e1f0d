import ImsProvisioning.Json.Reader

/-! # Nested values

What is read inside open containers is read as it would be alone, with so much less room
to nest. So an object is read member by member and an array item by item, each value on
its own; and what a strict reader takes, a reader that skips takes as well.
-/

namespace ImsProvisioning.Json

/-- The mode with room for more containers around. -/
def Mode.deeper (n : Nat) : Mode → Mode
  | .strict room => .strict (room + n)
  | .skipping => .skipping

section

variable (mode : Mode) (n : Nat)

@[simp] theorem Mode.deeper_text? (ps : List Piece) : (mode.deeper n).text? ps = mode.text? ps := by
  cases mode <;> rfl

@[simp] theorem Mode.deeper_number? (l : NumberLiteral) :
    (mode.deeper n).number? l = mode.number? l := by
  cases mode <;> rfl

theorem Mode.deeper_admits {α : Type} (outer base : List α) :
    (mode.deeper base.length).admits (outer ++ base) = mode.admits outer := by
  cases mode <;> simp [deeper, admits]

end

namespace ReadState

variable {mode : Mode} {base outer : List Frame} {s s' : ReadState} {t : Token} {ts : List Token}

theorem run_cons (h : s.step mode t = some s') (ts : List Token) :
    s.run mode (t :: ts) = s'.run mode ts := by
  cases s with
  | done v => simp [step] at h
  | _ => simp only [run, h]

def within (base : List Frame) : ReadState → ReadState
  | .value outer => .value (outer ++ base)
  | .firstItem outer => .firstItem (outer ++ base)
  | .afterItem outer items => .afterItem (outer ++ base) items
  | .firstKey outer => .firstKey (outer ++ base)
  | .nextKey outer members => .nextKey (outer ++ base) members
  | .colon outer members key => .colon (outer ++ base) members key
  | .afterMember outer members => .afterMember (outer ++ base) members
  | .done v => put v base

def isDone : ReadState → Bool
  | .done _ => true
  | _ => false

@[simp] theorem put_within (v : Value) (outer base : List Frame) :
    (put v outer).within base = put v (outer ++ base) := by
  cases outer with
  | nil => rfl
  | cons frame outer => cases frame <;> rfl

theorem enter_within (mode : Mode) (base outer : List Frame) (t : Token) :
    enter (mode.deeper base.length) (outer ++ base) t = (enter mode outer t).map (within base) := by
  cases t with
  | openArray | openObject =>
    simp only [enter, mode.deeper_admits]
    split <;> rfl
  | number l =>
    cases h : mode.number? l <;> simp [enter, h]
  | string ps =>
    cases h : mode.text? ps <;> simp [enter, h]
  | _ => simp [enter]

/-- Behind an opening bracket only a closing one is read otherwise than as a value. -/
theorem step_firstItem (h : t ≠ .closeArray) (mode : Mode) (outer : List Frame) :
    (firstItem outer).step mode t = enter mode (.array [] :: outer) t := by
  cases t with
  | closeArray => exact absurd rfl h
  | _ => rfl

theorem step_within (hs : s.isDone = false) (base : List Frame) (t : Token) :
    (s.within base).step (mode.deeper base.length) t = (s.step mode t).map (within base) := by
  cases s with
  | done v => cases hs
  | value outer => exact enter_within mode base outer t
  | firstItem outer =>
    by_cases h : t = .closeArray
    · subst h
      exact congrArg some (put_within ..).symm
    · rw [step_firstItem h]
      exact (step_firstItem h ..).trans (enter_within mode base (.array [] :: outer) t)
  | firstKey outer =>
    cases t with
    | closeObject => exact congrArg some (put_within ..).symm
    | string ps => cases h : mode.text? ps <;> simp [within, step, h]
    | _ => rfl
  | nextKey outer members =>
    cases t with
    | string ps => cases h : mode.text? ps <;> simp [within, step, h]
    | _ => rfl
  | colon outer members key => cases t <;> rfl
  | afterItem outer items =>
    cases t with
    | closeArray => exact congrArg some (put_within ..).symm
    | _ => rfl
  | afterMember outer members =>
    cases t with
    | closeObject => exact congrArg some (put_within ..).symm
    | _ => rfl

theorem run_of_open (hs : s.isDone = false) (t : Token) (ts : List Token) :
    s.run mode (t :: ts) = (s.step mode t).bind fun s' => s'.run mode ts := by
  cases h : s.step mode t with
  | none | some s' =>
    cases s with
    | done v => cases hs
    | _ => simp [run, h]

theorem within_isDone (hs : s.isDone = false) (base : List Frame) :
    (s.within base).isDone = false := by
  cases s with
  | done v => cases hs
  | _ => rfl

/-- A run inside open containers is a run without them, and then goes on behind the value. -/
theorem run_within (base : List Frame) (s : ReadState) (ts : List Token) :
    (s.within base).run (mode.deeper base.length) ts =
      (s.run mode ts).bind fun r => (put r.1 base).run (mode.deeper base.length) r.2 := by
  induction ts generalizing s with
  | nil => cases s <;> rfl
  | cons t ts ih =>
    cases hs : s.isDone with
    | true =>
      cases s with
      | done v => rfl
      | _ => cases hs
    | false =>
      rw [run_of_open hs, run_of_open (within_isDone hs base), step_within hs]
      cases s.step mode t with
      | none => rfl
      | some s' => exact ih s'

/-- A value inside a container is read on its own, and then put into the container. -/
theorem run_inside (frame : Frame) (ts : List Token) :
    (ReadState.value [frame]).run (mode.deeper 1) ts =
      (readValue mode ts).bind fun r => (put r.1 [frame]).run (mode.deeper 1) r.2 :=
  run_within [frame] (.value []) ts

end ReadState

/-- The items of an array from the next one on, up to its end. -/
inductive Items (mode : Mode) : List Token → List Value → List Token → Prop
  | last {ts rest : List Token} {v : Value}
      (value : readValue mode ts = some (v, .closeArray :: rest)) : Items mode ts [v] rest
  | more {ts ts' rest : List Token} {v : Value} {vs : List Value}
      (value : readValue mode ts = some (v, .comma :: ts')) (items : Items mode ts' vs rest) :
      Items mode ts (v :: vs) rest

inductive Members (mode : Mode) : List Token → List (String × Value) → List Token → Prop
  | last {ps : List Piece} {ts rest : List Token} {key : String} {v : Value}
      (name : mode.text? ps = some key)
      (value : readValue mode ts = some (v, .closeObject :: rest)) :
      Members mode (.string ps :: .colon :: ts) [(key, v)] rest
  | more {ps : List Piece} {ts ts' rest : List Token} {key : String} {v : Value}
      {ms : List (String × Value)} (name : mode.text? ps = some key)
      (value : readValue mode ts = some (v, .comma :: ts')) (members : Members mode ts' ms rest) :
      Members mode (.string ps :: .colon :: ts) ((key, v) :: ms) rest

namespace ReadState

variable {mode : Mode} {ts rest : List Token} {v : Value}

/-- What is read inside an array is items up to its end. -/
theorem items_of_run {done : List Value}
    (h : (ReadState.value [.array done]).run (mode.deeper 1) ts = some (v, rest)) :
    ∃ vs, Items mode ts vs rest ∧ v = .array (done.reverse ++ vs) := by
  -- The items behind the next one stand in fewer tokens, however deep that one is nested.
  induction hn : ts.length using Nat.strongRecOn generalizing ts done with
  | ind n ih =>
    rw [run_inside, Option.bind_eq_some_iff] at h
    obtain ⟨⟨w, ts'⟩, hw, h⟩ := h
    have hlt := readValue_length hw
    dsimp only [put] at h
    cases ts' with
    | nil => cases h
    | cons t ts' =>
      rw [run_of_open rfl] at h
      cases t with
      | comma =>
        obtain ⟨vs, hvs, rfl⟩ := ih ts'.length (by simp at hlt; omega) h rfl
        exact ⟨w :: vs, .more hw hvs, by simp⟩
      | closeArray =>
        obtain ⟨rfl, rfl⟩ : .array (w :: done).reverse = v ∧ ts' = rest := by
          simpa [step, put, run] using h
        exact ⟨[w], .last hw, by simp⟩
      | _ => cases h

theorem run_of_items {vs : List Value} (h : Items mode ts vs rest) (done : List Value) :
    (ReadState.value [.array done]).run (mode.deeper 1) ts =
      some (.array (done.reverse ++ vs), rest) := by
  induction h generalizing done with
  | @last ts rest v value =>
    rw [run_inside, value]
    simp [put, step, run]
  | @more ts ts' rest v vs value _ ih =>
    rw [run_inside, value]
    refine (run_cons rfl ts').trans ((ih (v :: done)).trans ?_)
    simp

theorem run_key {ps : List Piece} {key : String} {done : List (String × Value)}
    (name : mode.text? ps = some key) (ts : List Token) :
    (ReadState.nextKey [] done).run mode (.string ps :: .colon :: ts) =
      (ReadState.value [.object done key]).run mode ts := by
  have hstep : (ReadState.nextKey [] done).step mode (.string ps) = some (.colon [] done key) := by
    simp [step, name]
  rw [run_cons hstep, run_cons rfl]

theorem run_of_members {ms : List (String × Value)} (h : Members mode ts ms rest)
    (done : List (String × Value)) :
    (ReadState.nextKey [] done).run (mode.deeper 1) ts =
      some (.object (done.reverse ++ ms), rest) := by
  induction h generalizing done with
  | @last ps ts rest key v name value =>
    rw [run_key (by rwa [mode.deeper_text?]), run_inside, value]
    simp [put, step, run]
  | @more ps ts ts' rest key v ms name value _ ih =>
    rw [run_key (by rwa [mode.deeper_text?]), run_inside, value]
    refine (run_cons rfl ts').trans ((ih ((key, v) :: done)).trans ?_)
    simp

/-- In front of a member stand its key and a colon. -/
theorem key_of_run {done : List (String × Value)}
    (h : (ReadState.nextKey [] done).run mode ts = some (v, rest)) :
    ∃ ps key ts', ts = .string ps :: .colon :: ts' ∧ mode.text? ps = some key ∧
      (ReadState.value [.object done key]).run mode ts' = some (v, rest) := by
  cases ts with
  | nil => cases h
  | cons t ts =>
    rw [run_of_open rfl] at h
    cases t with
    | string ps =>
      obtain ⟨s, hs, h⟩ := Option.bind_eq_some_iff.1 h
      obtain ⟨key, hkey, rfl⟩ := Option.map_eq_some_iff.1 hs
      cases ts with
      | nil => cases h
      | cons t ts =>
        rw [run_of_open rfl] at h
        cases t with
        | colon => exact ⟨ps, key, ts, rfl, hkey, h⟩
        | _ => cases h
    | _ => cases h

/-- What is read inside an object is members up to its end. -/
theorem members_of_run {done : List (String × Value)}
    (h : (ReadState.nextKey [] done).run (mode.deeper 1) ts = some (v, rest)) :
    ∃ ms, Members mode ts ms rest ∧ v = .object (done.reverse ++ ms) := by
  induction hn : ts.length using Nat.strongRecOn generalizing ts done with
  | ind n ih =>
    obtain ⟨ps, key, ts, rfl, hkey, h⟩ := key_of_run h
    rw [mode.deeper_text?] at hkey
    rw [run_inside, Option.bind_eq_some_iff] at h
    obtain ⟨⟨w, ts'⟩, hw, h⟩ := h
    have hlt := readValue_length hw
    dsimp only [put] at h
    cases ts' with
    | nil => cases h
    | cons t ts' =>
      rw [run_of_open rfl] at h
      cases t with
      | comma =>
        obtain ⟨ms, hms, rfl⟩ := ih ts'.length (by simp at hlt hn; omega) h rfl
        exact ⟨(key, w) :: ms, .more hkey hw hms, by simp⟩
      | closeObject =>
        obtain ⟨rfl, rfl⟩ : .object ((key, w) :: done).reverse = v ∧ ts' = rest := by
          simpa [step, put, run] using h
        exact ⟨[(key, w)], .last hkey hw, by simp⟩
      | _ => cases h

end ReadState

section

variable {mode : Mode} {t : Token} {ts rest : List Token} {v : Value}

theorem readValue_cons (mode : Mode) (t : Token) (ts : List Token) :
    readValue mode (t :: ts) =
      (ReadState.enter mode [] t).bind fun s => s.run mode ts :=
  ReadState.run_of_open rfl t ts

theorem Items.ne_closeArray {vs : List Value} (h : Items mode (t :: ts) vs rest) :
    t ≠ .closeArray := by
  rintro rfl
  cases h with
  | last value | more value => cases value

theorem Mode.deeper_one_admits {α : Type} (mode : Mode) :
    (mode.deeper 1).admits ([] : List α) = true := by
  cases mode <;> simp [deeper, admits]

theorem readValue_array (mode : Mode) (ts : List Token) :
    readValue (mode.deeper 1) (.openArray :: ts) =
      (ReadState.firstItem []).run (mode.deeper 1) ts := by
  rw [readValue_cons, ReadState.enter, if_pos mode.deeper_one_admits]
  rfl

theorem readValue_object (mode : Mode) (ts : List Token) :
    readValue (mode.deeper 1) (.openObject :: ts) =
      (ReadState.firstKey []).run (mode.deeper 1) ts := by
  rw [readValue_cons, ReadState.enter, if_pos mode.deeper_one_admits]
  rfl

theorem readValue_emptyObject (mode : Mode) (ts : List Token) :
    readValue (mode.deeper 1) (.openObject :: .closeObject :: ts) = some (.object [], ts) := by
  rw [readValue_object]
  simp [ReadState.run, ReadState.step, ReadState.put]

theorem readValue_of_items {vs : List Value} (h : Items mode ts vs rest) :
    readValue (mode.deeper 1) (.openArray :: ts) = some (.array vs, rest) := by
  rw [readValue_array]
  have hrun := ReadState.run_of_items h []
  cases ts with
  | nil => cases hrun
  | cons t ts =>
    rw [ReadState.run_of_open rfl] at hrun ⊢
    rw [ReadState.step_firstItem h.ne_closeArray]
    exact hrun

theorem readValue_of_members {ms : List (String × Value)} (h : Members mode ts ms rest) :
    readValue (mode.deeper 1) (.openObject :: ts) = some (.object ms, rest) := by
  rw [readValue_object]
  have hrun := ReadState.run_of_members h []
  cases h <;> (rw [ReadState.run_of_open rfl] at hrun ⊢; exact hrun)

/-- An array is empty, or it is read item by item. -/
theorem readValue_openArray (mode : Mode)
    (h : readValue (mode.deeper 1) (.openArray :: ts) = some (v, rest)) :
    ts = .closeArray :: rest ∧ v = .array [] ∨ ∃ vs, Items mode ts vs rest ∧ v = .array vs := by
  have hfirst := (readValue_array mode ts).symm.trans h
  cases ts with
  | nil => cases hfirst
  | cons t ts =>
    rw [ReadState.run_of_open rfl] at hfirst
    by_cases ht : t = .closeArray
    · subst ht
      obtain ⟨rfl, rfl⟩ : .array [] = v ∧ ts = rest := by
        simpa [ReadState.step, ReadState.put, ReadState.run] using hfirst
      exact .inl ⟨rfl, rfl⟩
    · rw [ReadState.step_firstItem ht] at hfirst
      have hvalue : (ReadState.value [.array []]).run (mode.deeper 1) (t :: ts) = some (v, rest) :=
        (ReadState.run_of_open rfl t ts).trans hfirst
      exact .inr (ReadState.items_of_run hvalue)

/-- An object is empty, or it is read member by member. -/
theorem readValue_openObject (mode : Mode)
    (h : readValue (mode.deeper 1) (.openObject :: ts) = some (v, rest)) :
    ts = .closeObject :: rest ∧ v = .object [] ∨
      ∃ ms, Members mode ts ms rest ∧ v = .object ms := by
  have hfirst := (readValue_object mode ts).symm.trans h
  cases ts with
  | nil => cases hfirst
  | cons t ts =>
    rw [ReadState.run_of_open rfl] at hfirst
    cases t with
    | closeObject =>
      obtain ⟨rfl, rfl⟩ : .object [] = v ∧ ts = rest := by
        simpa [ReadState.step, ReadState.put, ReadState.run] using hfirst
      exact .inl ⟨rfl, rfl⟩
    | string ps =>
      have hkey : (ReadState.nextKey [] []).run (mode.deeper 1) (.string ps :: ts) =
          some (v, rest) := (ReadState.run_of_open rfl (.string ps) ts).trans hfirst
      exact .inr (ReadState.members_of_run hkey)
    | _ => cases hfirst

/-- A value that does not open a container is one token. -/
theorem readValue_scalar (array : t ≠ .openArray) (object : t ≠ .openObject)
    (h : readValue mode (t :: ts) = some (v, rest)) :
    ReadState.enter mode [] t = some (.done v) ∧ ts = rest := by
  rw [readValue_cons] at h
  obtain ⟨s, hs, h⟩ := Option.bind_eq_some_iff.1 h
  obtain ⟨w, rfl⟩ : ∃ w, s = .done w := by
    cases t with
    | openArray => exact absurd rfl array
    | openObject => exact absurd rfl object
    | null | bool =>
      obtain rfl := Option.some.inj hs
      exact ⟨_, rfl⟩
    | number | string =>
      obtain ⟨_, _, rfl⟩ := Option.map_eq_some_iff.1 hs
      exact ⟨_, rfl⟩
    | _ => cases hs
  obtain ⟨rfl, rfl⟩ : w = v ∧ ts = rest := by simpa [ReadState.run] using h
  exact ⟨hs, rfl⟩

theorem first_of_array (mode : Mode) {vs : List Value}
    (h : readValue (mode.deeper 1) (t :: ts) = some (.array vs, rest)) : t = .openArray := by
  cases t with
  | openArray => rfl
  | openObject =>
    obtain ⟨-, hv⟩ | ⟨_, -, hv⟩ := readValue_openObject mode h <;> cases hv
  | _ =>
    obtain ⟨henter, -⟩ := readValue_scalar (by simp) (by simp) h
    simp [ReadState.enter, ReadState.put] at henter

theorem first_of_object (mode : Mode) {ms : List (String × Value)}
    (h : readValue (mode.deeper 1) (t :: ts) = some (.object ms, rest)) : t = .openObject := by
  cases t with
  | openObject => rfl
  | openArray =>
    obtain ⟨-, hv⟩ | ⟨_, -, hv⟩ := readValue_openArray mode h <;> cases hv
  | _ =>
    obtain ⟨henter, -⟩ := readValue_scalar (by simp) (by simp) h
    simp [ReadState.enter, ReadState.put] at henter

/-- A text is one token. -/
theorem readValue_string (mode : Mode) {s : String} :
    readValue (mode.deeper 1) ts = some (.string s, rest) ↔
      ∃ ps, ts = .string ps :: rest ∧ mode.text? ps = some s := by
  constructor
  · intro h
    cases ts with
    | nil => cases h
    | cons t ts =>
      cases t with
      | openArray =>
        obtain ⟨-, hv⟩ | ⟨_, -, hv⟩ := readValue_openArray mode h <;> cases hv
      | openObject =>
        obtain ⟨-, hv⟩ | ⟨_, -, hv⟩ := readValue_openObject mode h <;> cases hv
      | string ps =>
        obtain ⟨henter, rfl⟩ := readValue_scalar (by simp) (by simp) h
        refine ⟨ps, rfl, ?_⟩
        simpa [ReadState.enter, ReadState.put] using henter
      | _ =>
        obtain ⟨henter, -⟩ := readValue_scalar (by simp) (by simp) h
        simp [ReadState.enter, ReadState.put] at henter
  · rintro ⟨ps, rfl, hs⟩
    simp [readValue_cons, ReadState.enter, hs, ReadState.put, ReadState.run]

end

namespace ReadState

variable {room : Nat} {s s' : ReadState} {t : Token}

theorem enter_skipping {outer : List Frame} (h : enter (.strict room) outer t = some s) :
    enter .skipping outer t = some s := by
  cases t with
  | null | bool => exact h
  | number l =>
    obtain ⟨n, hn, rfl⟩ := Option.map_eq_some_iff.1 h
    simp only [Mode.number?] at hn
    simp [enter, Mode.number?, hn]
  | string ps =>
    obtain ⟨text, htext, rfl⟩ := Option.map_eq_some_iff.1 h
    simp only [Mode.text?] at htext
    simp [enter, Mode.text?, htext]
  | openArray | openObject =>
    simp only [enter] at h
    split at h
    · exact h
    · cases h
  | _ => cases h

theorem step_skipping (h : s.step (.strict room) t = some s') : s.step .skipping t = some s' := by
  cases s with
  | value outer => exact enter_skipping h
  | firstItem outer =>
    by_cases ht : t = .closeArray
    · subst ht
      exact h
    · rw [step_firstItem ht] at h ⊢
      exact enter_skipping h
  | firstKey outer | nextKey outer members =>
    cases t with
    | string ps =>
      obtain ⟨text, htext, rfl⟩ := Option.map_eq_some_iff.1 h
      simp only [Mode.text?] at htext
      simp [step, Mode.text?, htext]
    | closeObject => exact h
    | _ => cases h
  | done v => cases h
  | _ => cases t <;> exact h

theorem run_skipping {s : ReadState} {ts : List Token} {r : Value × List Token}
    (h : s.run (.strict room) ts = some r) : s.run .skipping ts = some r := by
  induction ts generalizing s with
  | nil => cases s <;> exact h
  | cons t ts ih =>
    cases hs : s.isDone with
    | true =>
      cases s with
      | done v => exact h
      | _ => cases hs
    | false =>
      rw [run_of_open hs] at h ⊢
      obtain ⟨s', hstep, hrest⟩ := Option.bind_eq_some_iff.1 h
      rw [step_skipping hstep]
      exact ih hrest

end ReadState

/-- A reader that skips takes every value that a strict reader takes. -/
theorem readValue_skipping {room : Nat} {ts : List Token} {r : Value × List Token}
    (h : readValue (.strict room) ts = some r) : readValue .skipping ts = some r :=
  ReadState.run_skipping h

theorem parseAsWritten_eq_some_iff {text : List Char} {v : Value} :
    parseAsWritten text = some v ↔ readValue (.strict maxDepth) (tokens text) = some (v, []) := by
  unfold parseAsWritten
  split
  · rename_i w hw
    simp [hw]
  · rename_i hnot
    constructor
    · exact nofun
    · exact fun h => absurd h (hnot v)

end ImsProvisioning.Json
