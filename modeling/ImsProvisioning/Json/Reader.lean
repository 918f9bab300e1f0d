import ImsProvisioning.Json.Value

/-! # Reading JSON values

Values are read from tokens one token at a time, by a machine that keeps the
containers which are still open. A strict reader takes only what denotes a value
and limits how deep containers nest; a reader that skips takes whatever has the
form of a value.
-/

namespace ImsProvisioning.Json

/-- How a value is read; a strict reader has room for so many open containers. -/
inductive Mode where
  | strict (room : Nat)
  | skipping
deriving DecidableEq, Repr

namespace Mode

def admits {α : Type} : Mode → List α → Bool
  | .strict room, outer => outer.length < room
  | .skipping, _ => true

def text? : Mode → List Piece → Option String
  | .strict _, ps => Json.text? ps
  | .skipping, ps => some ((Json.text? ps).getD "")

def number? : Mode → NumberLiteral → Option Number
  | .strict _, l => l.value?
  | .skipping, l => some (l.value?.getD (.integer 0))

end Mode

/-- A container that is open while a value in it is read; what stands before is kept last first. -/
inductive Frame where
  | array (items : List Value)
  | object (members : List (String × Value)) (key : String)

/-- What the reader is about to read, inside the containers of the list. -/
inductive ReadState where
  | value (outer : List Frame)
  | firstItem (outer : List Frame)
  | afterItem (outer : List Frame) (items : List Value)
  | firstKey (outer : List Frame)
  | nextKey (outer : List Frame) (members : List (String × Value))
  | colon (outer : List Frame) (members : List (String × Value)) (key : String)
  | afterMember (outer : List Frame) (members : List (String × Value))
  | done (v : Value)

namespace ReadState

def put (v : Value) : List Frame → ReadState
  | [] => .done v
  | .array items :: outer => .afterItem outer (v :: items)
  | .object members key :: outer => .afterMember outer ((key, v) :: members)

def enter (mode : Mode) (outer : List Frame) : Token → Option ReadState
  | .null => some (put .null outer)
  | .bool b => some (put (.bool b) outer)
  | .number l => (mode.number? l).map fun n => put (.number n) outer
  | .string ps => (mode.text? ps).map fun s => put (.string s) outer
  | .openArray => if mode.admits outer then some (.firstItem outer) else none
  | .openObject => if mode.admits outer then some (.firstKey outer) else none
  | _ => none

def step (mode : Mode) : ReadState → Token → Option ReadState
  | .value outer, t => enter mode outer t
  | .firstItem outer, .closeArray => some (put (.array []) outer)
  | .firstItem outer, t => enter mode (.array [] :: outer) t
  | .afterItem outer items, .comma => some (.value (.array items :: outer))
  | .afterItem outer items, .closeArray => some (put (.array items.reverse) outer)
  | .firstKey outer, .closeObject => some (put (.object []) outer)
  | .firstKey outer, .string ps => (mode.text? ps).map (.colon outer [])
  | .nextKey outer members, .string ps => (mode.text? ps).map (.colon outer members)
  | .colon outer members key, .colon => some (.value (.object members key :: outer))
  | .afterMember outer members, .comma => some (.nextKey outer members)
  | .afterMember outer members, .closeObject => some (put (.object members.reverse) outer)
  | _, _ => none

def run (mode : Mode) : ReadState → List Token → Option (Value × List Token)
  | .done v, ts => some (v, ts)
  | _, [] => none
  | s, t :: ts =>
    match s.step mode t with
    | some s => run mode s ts
    | none => none

end ReadState

def readValue (mode : Mode) (ts : List Token) : Option (Value × List Token) :=
  ReadState.run mode (.value []) ts

/-- The number of containers that may be open at a time. -/
def maxDepth : Nat := 127

/-- The value of a whole text, as it is written. -/
def parseAsWritten (text : List Char) : Option Value :=
  match readValue (.strict maxDepth) (tokens text) with
  | some (v, []) => some v
  | _ => none

/-- The value of a whole text, with the last of repeated members. -/
def parse (text : List Char) : Option Value := (parseAsWritten text).map Value.canonical

theorem ReadState.run_length {mode : Mode} {s : ReadState} {ts rest : List Token} {v : Value}
    (h : s.run mode ts = some (v, rest)) : rest.length ≤ ts.length := by
  fun_induction ReadState.run mode s ts with
  | case1 => simp_all
  | case2 => simp at h
  | case3 s t ts _ s' _ ih => exact Nat.le_succ_of_le (ih h)
  | case4 => simp at h

theorem readValue_length {mode : Mode} {ts rest : List Token} {v : Value}
    (h : readValue mode ts = some (v, rest)) : rest.length < ts.length := by
  cases ts with
  | nil => simp [readValue, ReadState.run] at h
  | cons t ts =>
    rw [readValue, ReadState.run] at h
    · split at h
      · exact Nat.lt_succ_of_le (ReadState.run_length h)
      · simp at h
    · simp

end ImsProvisioning.Json
