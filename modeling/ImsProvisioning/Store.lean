import ImsProvisioning.Call.Service

/-! # The store backend

A backend that keeps what its setters are given and reads it back, with integer
and text settings apart. A fault may be planted in it: after some calls have
passed, the calls it applies to fail.
-/

namespace ImsProvisioning

inductive FaultKind where
  | error (cause : CallError)
  | crash
deriving DecidableEq, Repr

/-- A fault of some methods that lets a number of their calls pass first. -/
structure Fault where
  kind : FaultKind
  passes : Nat
  methods : List Method
deriving DecidableEq, Repr

def Fault.concerns (f : Fault) (c : Call) : Bool := f.methods.contains c.method

structure Store where
  integers : Item → Option Int32
  texts : Item → Option String
  features : Feature → Network → Option Toggle
  videoQuality : Option VideoQuality
  volte : Bool
  setStatus : Status
  fault : Option Fault

namespace Store

def empty : Store :=
  ⟨fun _ => none, fun _ => none, fun _ _ => none, none, false, .success, none⟩

def integer (s : Store) (item : Item) : Int32 := (s.integers item).getD 0

def text (s : Store) (item : Item) : String := (s.texts item).getD ""

def feature (s : Store) (f : Feature) (n : Network) : Toggle := (s.features f n).getD .off

def quality (s : Store) : VideoQuality := s.videoQuality.getD .low

def setInteger (s : Store) (item : Item) (value : Int32) : Store :=
  { s with integers := fun other => if other = item then some value else s.integers other }

def setText (s : Store) (item : Item) (value : String) : Store :=
  { s with texts := fun other => if other = item then some value else s.texts other }

def setFeature (s : Store) (f : Feature) (n : Network) (value : Toggle) : Store :=
  { s with
    features := fun f' n' => if f' = f ∧ n' = n then some value else s.features f' n' }

def setQuality (s : Store) (q : Option VideoQuality) : Store := { s with videoQuality := q }

/-- What a store does with a call that no fault concerns. -/
def answer : Service Store
  | .getInteger item, s => ⟨.ok (s.integer item), s, []⟩
  | .getText item, s => ⟨.ok (s.text item), s, []⟩
  | .setInteger item value, s => ⟨.ok s.setStatus, s.setInteger item value, []⟩
  | .setText item value, s => ⟨.ok s.setStatus, s.setText item value, []⟩
  | .getFeature f n listener, s =>
    ⟨.ok (), s, [⟨listener, .featureRead f n (s.feature f n) .success⟩]⟩
  | .setFeature f n value listener, s =>
    ⟨.ok (), s.setFeature f n value,
      listener.toList.map fun l => ⟨l, .featureSet f n value s.setStatus⟩⟩
  | .getVolte, s => ⟨.ok s.volte, s, []⟩
  | .getVideoQuality listener, s =>
    ⟨.ok (), s, [⟨listener, .qualityRead .success s.quality⟩]⟩
  | .setVideoQuality q listener, s =>
    ⟨.ok (), s.setQuality (some q),
      listener.toList.map fun l => ⟨l, .qualitySet s.setStatus⟩⟩

/-- What becomes of a call: nothing wrong with it, or a fault; the fault counts down. -/
def trip (c : Call) (s : Store) : Option FaultKind × Store :=
  match s.fault with
  | none => (none, s)
  | some fault =>
    if !fault.concerns c then (none, s)
    else
      match fault.passes with
      | n + 1 => (none, { s with fault := some { fault with passes := n } })
      | 0 => (some fault.kind, s)

def backend : Backend Store := fun c s =>
  match s.trip c with
  | (none, s) => answer.backend c s
  | (some (.error cause), s) => ⟨.returned (.error cause), s, []⟩
  | (some .crash, s) => ⟨.crashed, s, []⟩

inductive Edit where
  | integer (item : Item) (value : Int32)
  | text (item : Item) (value : String)
  | feature (f : Feature) (n : Network) (value : Toggle)
  | quality (q : Option VideoQuality)
  | volte (on : Bool)
  | setStatus (status : Status)
  | fault (fault : Option Fault)

def edit (s : Store) : Edit → Store
  | .integer item value => s.setInteger item value
  | .text item value => s.setText item value
  | .feature f n value => s.setFeature f n value
  | .quality q => s.setQuality q
  | .volte on => { s with volte := on }
  | .setStatus status => { s with setStatus := status }
  | .fault fault => { s with fault := fault }

/-- Makes changes up to the first that names no constant; those before it stay. -/
def editAll : List (Except ConstantError Edit) → Store → Option ConstantError × Store
  | [], s => (none, s)
  | .ok e :: edits, s => editAll edits (s.edit e)
  | .error e :: _, s => (some e, s)

def integerEntries (s : Store) : List (Item × Int32) :=
  Item.all.filterMap fun item => (s.integers item).map (item, ·)

def textEntries (s : Store) : List (Item × String) :=
  Item.all.filterMap fun item => (s.texts item).map (item, ·)

def featureEntries (s : Store) : List (Feature × Network × Toggle) :=
  Feature.all.flatMap fun f =>
    Network.all.filterMap fun n => (s.features f n).map fun value => (f, n, value)

end Store
end ImsProvisioning
