import ImsProvisioning.Constant.Item

/-! # Settings

The setting of a provisioning item is an integer or a text. Which of the two an
item declares is a property of the item; a setting does not depend on it.
-/

namespace ImsProvisioning

inductive Setting where
  | integer (value : Int32)
  | text (value : String)
deriving DecidableEq, Repr

namespace Setting

def kind : Setting → SettingKind
  | .integer _ => .integer
  | .text _ => .text

def integer? : Setting → Option Int32
  | .integer value => some value
  | .text _ => none

def text? : Setting → Option String
  | .integer _ => none
  | .text value => some value

def display : Setting → String
  | .integer value => toString value.toInt
  | .text value => value

end Setting
end ImsProvisioning
