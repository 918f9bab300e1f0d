import ImsProvisioning.Constant.Item
import ImsProvisioning.Constant.Feature
import ImsProvisioning.Constant.Calling

/-! # Service calls

The nine calls of the provisioning service. Five of them wait for an answer; the
other four only ask, and what comes of it is reported to a listener.
-/

namespace ImsProvisioning

open ConstantTable (name)

inductive Method where
  | getInteger | getText | setInteger | setText | getFeature | setFeature | getVolte
  | getVideoQuality | setVideoQuality
deriving DecidableEq, Repr

def Method.all : List Method :=
  [.getInteger, .getText, .setInteger, .setText, .getFeature, .setFeature, .getVolte,
   .getVideoQuality, .setVideoQuality]

def Method.name : Method → String
  | .getInteger => "getProvisionedValue"
  | .getText => "getProvisionedStringValue"
  | .setInteger => "setProvisionedValue"
  | .setText => "setProvisionedStringValue"
  | .getFeature => "getFeatureValue"
  | .setFeature => "setFeatureValue"
  | .getVolte => "getVolteProvisioned"
  | .getVideoQuality => "getVideoQuality"
  | .setVideoQuality => "setVideoQuality"

def Method.label : Method → String
  | .getInteger => "GetProvisionedValue"
  | .getText => "GetProvisionedStringValue"
  | .setInteger => "SetProvisionedValue"
  | .setText => "SetProvisionedStringValue"
  | .getFeature => "GetFeatureValue"
  | .setFeature => "SetFeatureValue"
  | .getVolte => "GetVolteProvisioned"
  | .getVideoQuality => "GetVideoQuality"
  | .setVideoQuality => "SetVideoQuality"

def Method.display (m : Method) : String := m.name ++ "()"

abbrev Listener := Nat

inductive Call where
  | getInteger (item : Item)
  | getText (item : Item)
  | setInteger (item : Item) (value : Int32)
  | setText (item : Item) (value : String)
  | getFeature (feature : Feature) (network : Network) (listener : Listener)
  | setFeature (feature : Feature) (network : Network) (value : Toggle)
      (listener : Option Listener)
  | getVolte
  | getVideoQuality (listener : Listener)
  | setVideoQuality (quality : VideoQuality) (listener : Option Listener)
deriving DecidableEq, Repr

namespace Call

def method : Call → Method
  | .getInteger _ => .getInteger
  | .getText _ => .getText
  | .setInteger _ _ => .setInteger
  | .setText _ _ => .setText
  | .getFeature _ _ _ => .getFeature
  | .setFeature _ _ _ _ => .setFeature
  | .getVolte => .getVolte
  | .getVideoQuality _ => .getVideoQuality
  | .setVideoQuality _ _ => .setVideoQuality

@[reducible] def Answer : Call → Type
  | .getInteger _ => Int32
  | .getText _ => String
  | .setInteger _ _ => Status
  | .setText _ _ => Status
  | .getFeature _ _ _ => Unit
  | .setFeature _ _ _ _ => Unit
  | .getVolte => Bool
  | .getVideoQuality _ => Unit
  | .setVideoQuality _ _ => Unit

instance : (c : Call) → DecidableEq c.Answer
  | .getInteger _ => inferInstanceAs (DecidableEq Int32)
  | .getText _ => inferInstanceAs (DecidableEq String)
  | .setInteger _ _ => inferInstanceAs (DecidableEq Status)
  | .setText _ _ => inferInstanceAs (DecidableEq Status)
  | .getFeature _ _ _ => inferInstanceAs (DecidableEq Unit)
  | .setFeature _ _ _ _ => inferInstanceAs (DecidableEq Unit)
  | .getVolte => inferInstanceAs (DecidableEq Bool)
  | .getVideoQuality _ => inferInstanceAs (DecidableEq Unit)
  | .setVideoQuality _ _ => inferInstanceAs (DecidableEq Unit)

def showAnswer : (c : Call) → c.Answer → String
  | .getInteger _, n => toString n.toInt
  | .getText _, s => s
  | .setInteger _ _, status => name status
  | .setText _ _, status => name status
  | .getVolte, on => toString on
  | .getFeature _ _ _, () | .setFeature _ _ _ _, () | .getVideoQuality _, ()
  | .setVideoQuality _ _, () => ""

/--
The answer of a call that need not wait for the service. Exactly the calls that report
to a listener have one.
-/
def acknowledgement? : (c : Call) → Option c.Answer
  | .getInteger _ => none
  | .getText _ => none
  | .setInteger _ _ => none
  | .setText _ _ => none
  | .getFeature _ _ _ => some ()
  | .setFeature _ _ _ _ => some ()
  | .getVolte => none
  | .getVideoQuality _ => some ()
  | .setVideoQuality _ _ => some ()

/-- Whether the caller waits for the service's own answer. -/
def isBlocking (c : Call) : Bool := c.acknowledgement?.isNone

/-- The named arguments of a call, its listener apart. -/
def arguments : Call → List (String × String)
  | .getInteger item | .getText item => [("item", name item)]
  | .setInteger item value => [("item", name item), ("value", toString value.toInt)]
  | .setText item value => [("item", name item), ("value", value)]
  | .getFeature feature network _ => [("feature", name feature), ("network", name network)]
  | .setFeature feature network value _ =>
    [("feature", name feature), ("network", name network), ("value", name value)]
  | .getVolte | .getVideoQuality _ => []
  | .setVideoQuality quality _ => [("quality", name quality)]

end Call
end ImsProvisioning
