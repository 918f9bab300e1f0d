import ImsProvisioning.Text.Blank
import ImsProvisioning.Text.LowerCase
import ImsProvisioning.Text.Outline
import ImsProvisioning.Text.Quoted

/-! # Accessor options

The options of an accessor are one flag, whether it logs its calls. The flag may
come from an environment variable, whose text is read without regard to case
and to outer blanks.
-/

namespace ImsProvisioning

structure Options where
  debugLogging : Bool
deriving DecidableEq, Repr

structure OptionsError where
  message : String
deriving DecidableEq, Repr

def OptionsError.display (e : OptionsError) : String :=
  "Invalid configuration: " ++ e.message

def OptionsError.outline (e : OptionsError) : Text.Outline :=
  .tuple "InvalidConfig" [.word (Text.quoted e.message)]

namespace Options

/-- Without a setting of the environment, calls are logged. -/
def standard : Options := ⟨true⟩

def quiet : Options := ⟨false⟩

def variableName : String := "IMS_CONFIG_DEBUG"

/-- What the text says, up to outer blanks and to case. No flag contains a sigma of either form. -/
def flag? (s : List Char) : Option Bool :=
  let word := (Text.trim s).flatMap Text.lowerCase
  if word = "true".toList ∨ word = ['1'] then some true
  else if word = "false".toList ∨ word = ['0'] then some false
  else none

def ofFlagText (raw : String) : Except OptionsError Options :=
  match flag? raw.toList with
  | some on => .ok ⟨on⟩
  | none =>
    .error ⟨"Invalid " ++ variableName ++ " value '" ++ raw ++
      "'. Must be one of: true, false, 1, 0"⟩

/-- Bytes that encode no text count as no setting. -/
def ofEnvironment : Option ByteArray → Except OptionsError Options
  | none => .ok standard
  | some bytes =>
    match String.fromUTF8? bytes with
    | none => .ok standard
    | some raw => ofFlagText raw

def outline (o : Options) : Text.Outline :=
  .record "AccessorOptions" [("debug_logging", .word (toString o.debugLogging))] false

end Options
end ImsProvisioning
