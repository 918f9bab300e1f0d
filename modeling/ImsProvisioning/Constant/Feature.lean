import ImsProvisioning.Constant.Basic

/-! # Features and networks

A feature is switched per radio network, so feature requests name both.
-/

namespace ImsProvisioning

inductive Feature where
  | unknown | voiceOverLte | videoOverLte | voiceOverWifi | videoOverWifi | utOverLte
  | utOverWifi
deriving DecidableEq, Repr

def Feature.row : Feature → ConstantRow
  | .unknown => ⟨-1, "FEATURE_TYPE_UNKNOWN", "Unknown"⟩
  | .voiceOverLte => ⟨0, "FEATURE_TYPE_VOICE_OVER_LTE", "VoiceOverLte"⟩
  | .videoOverLte => ⟨1, "FEATURE_TYPE_VIDEO_OVER_LTE", "VideoOverLte"⟩
  | .voiceOverWifi => ⟨2, "FEATURE_TYPE_VOICE_OVER_WIFI", "VoiceOverWifi"⟩
  | .videoOverWifi => ⟨3, "FEATURE_TYPE_VIDEO_OVER_WIFI", "VideoOverWifi"⟩
  | .utOverLte => ⟨4, "FEATURE_TYPE_UT_OVER_LTE", "UtOverLte"⟩
  | .utOverWifi => ⟨5, "FEATURE_TYPE_UT_OVER_WIFI", "UtOverWifi"⟩

def Feature.all : List Feature :=
  [.unknown, .voiceOverLte, .videoOverLte, .voiceOverWifi, .videoOverWifi, .utOverLte,
   .utOverWifi]

instance : ConstantTable Feature where
  kind := "feature type"
  all := Feature.all
  row := Feature.row
  mem_all a := by cases a <;> decide
  code_lt := by decide
  name_nodup := by decide

/-- The radio access network a feature applies to. -/
inductive Network where
  | unknown | gprs | edge | umts | cdma | evdo0 | evdoA | oneXRtt | hsdpa | hsupa | hspa | iden
  | evdoB | lte | ehrpd | hspap | gsm | tdScdma | iwlan
deriving DecidableEq, Repr

def Network.row : Network → ConstantRow
  | .unknown => ⟨0, "NETWORK_TYPE_UNKNOWN", "Unknown"⟩
  | .gprs => ⟨1, "NETWORK_TYPE_GPRS", "Gprs"⟩
  | .edge => ⟨2, "NETWORK_TYPE_EDGE", "Edge"⟩
  | .umts => ⟨3, "NETWORK_TYPE_UMTS", "Umts"⟩
  | .cdma => ⟨4, "NETWORK_TYPE_CDMA", "Cdma"⟩
  | .evdo0 => ⟨5, "NETWORK_TYPE_EVDO_0", "Evdo0"⟩
  | .evdoA => ⟨6, "NETWORK_TYPE_EVDO_A", "EvdoA"⟩
  | .oneXRtt => ⟨7, "NETWORK_TYPE_1xRTT", "OneXRtt"⟩
  | .hsdpa => ⟨8, "NETWORK_TYPE_HSDPA", "Hsdpa"⟩
  | .hsupa => ⟨9, "NETWORK_TYPE_HSUPA", "Hsupa"⟩
  | .hspa => ⟨10, "NETWORK_TYPE_HSPA", "Hspa"⟩
  | .iden => ⟨11, "NETWORK_TYPE_IDEN", "Iden"⟩
  | .evdoB => ⟨12, "NETWORK_TYPE_EVDO_B", "EvdoB"⟩
  | .lte => ⟨13, "NETWORK_TYPE_LTE", "Lte"⟩
  | .ehrpd => ⟨14, "NETWORK_TYPE_EHRPD", "Ehrpd"⟩
  | .hspap => ⟨15, "NETWORK_TYPE_HSPAP", "Hspap"⟩
  | .gsm => ⟨16, "NETWORK_TYPE_GSM", "Gsm"⟩
  | .tdScdma => ⟨17, "NETWORK_TYPE_TD_SCDMA", "TdScdma"⟩
  | .iwlan => ⟨18, "NETWORK_TYPE_IWLAN", "Iwlan"⟩

def Network.all : List Network :=
  [.unknown, .gprs, .edge, .umts, .cdma, .evdo0, .evdoA, .oneXRtt, .hsdpa, .hsupa, .hspa, .iden,
   .evdoB, .lte, .ehrpd, .hspap, .gsm, .tdScdma, .iwlan]

instance : ConstantTable Network where
  kind := "network type"
  all := Network.all
  row := Network.row
  mem_all a := by cases a <;> decide
  code_lt := by decide
  name_nodup := by decide

inductive Toggle where
  | off | on
deriving DecidableEq, Repr

def Toggle.row : Toggle → ConstantRow
  | .off => ⟨0, "OFF", "Off"⟩
  | .on => ⟨1, "ON", "On"⟩

def Toggle.all : List Toggle :=
  [.off, .on]

instance : ConstantTable Toggle where
  kind := "feature value"
  all := Toggle.all
  row := Toggle.row
  mem_all a := by cases a <;> decide
  code_lt := by decide
  name_nodup := by decide

namespace Toggle

def isOn : Toggle → Bool
  | .on => true
  | .off => false

def ofBool : Bool → Toggle
  | true => .on
  | false => .off

@[simp] theorem isOn_ofBool (b : Bool) : (ofBool b).isOn = b := by cases b <;> rfl

@[simp] theorem ofBool_isOn (t : Toggle) : ofBool t.isOn = t := by cases t <;> rfl

end Toggle
end ImsProvisioning
