import ImsProvisioning.Constant.Basic

/-! # Outcomes and calling preferences

The status a set request ends with, and the two preferences that are stored as
the codes of a table of their own.
-/

namespace ImsProvisioning

/-- The outcome of a set request, as the service judges it. -/
inductive Status where
  | unknown | success | failed | unsupportedCauseNone | unsupportedCauseRat
  | unsupportedCauseDisabled
deriving DecidableEq, Repr

def Status.row : Status → ConstantRow
  | .unknown => ⟨-1, "UNKNOWN", "Unknown"⟩
  | .success => ⟨0, "SUCCESS", "Success"⟩
  | .failed => ⟨1, "FAILED", "Failed"⟩
  | .unsupportedCauseNone => ⟨2, "UNSUPPORTED_CAUSE_NONE", "UnsupportedCauseNone"⟩
  | .unsupportedCauseRat => ⟨3, "UNSUPPORTED_CAUSE_RAT", "UnsupportedCauseRat"⟩
  | .unsupportedCauseDisabled => ⟨4, "UNSUPPORTED_CAUSE_DISABLED", "UnsupportedCauseDisabled"⟩

def Status.all : List Status :=
  [.unknown, .success, .failed, .unsupportedCauseNone, .unsupportedCauseRat,
   .unsupportedCauseDisabled]

instance : ConstantTable Status where
  kind := "operation status"
  all := Status.all
  row := Status.row
  mem_all a := by cases a <;> decide
  code_lt := by decide
  name_nodup := by decide

inductive VideoQuality where
  | low | high
deriving DecidableEq, Repr

def VideoQuality.row : VideoQuality → ConstantRow
  | .low => ⟨0, "LOW", "Low"⟩
  | .high => ⟨1, "HIGH", "High"⟩

def VideoQuality.all : List VideoQuality :=
  [.low, .high]

instance : ConstantTable VideoQuality where
  kind := "video quality"
  all := VideoQuality.all
  row := VideoQuality.row
  mem_all a := by cases a <;> decide
  code_lt := by decide
  name_nodup := by decide

/-- The preferred bearer of a call where WiFi calling is available. -/
inductive WfcMode where
  | wifiOnly | cellularPreferred | wifiPreferred
deriving DecidableEq, Repr

def WfcMode.row : WfcMode → ConstantRow
  | .wifiOnly => ⟨0, "WIFI_ONLY", "WifiOnly"⟩
  | .cellularPreferred => ⟨1, "CELLULAR_PREFERRED", "CellularPreferred"⟩
  | .wifiPreferred => ⟨2, "WIFI_PREFERRED", "WifiPreferred"⟩

def WfcMode.all : List WfcMode :=
  [.wifiOnly, .cellularPreferred, .wifiPreferred]

instance : ConstantTable WfcMode where
  kind := "wfc mode"
  all := WfcMode.all
  row := WfcMode.row
  mem_all a := by cases a <;> decide
  code_lt := by decide
  name_nodup := by decide

namespace Status

def isSuccess (s : Status) : Bool := s == .success

def isUnsupported : Status → Bool
  | .unsupportedCauseNone | .unsupportedCauseRat | .unsupportedCauseDisabled => true
  | _ => false

end Status
end ImsProvisioning
