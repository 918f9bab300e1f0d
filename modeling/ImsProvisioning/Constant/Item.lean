import ImsProvisioning.Constant.Basic

/-! # Provisioning items

The items an operator provisions, and the representation each one declares for
its setting.
-/

namespace ImsProvisioning

inductive Item where
  | vocoderAmrModeSet | vocoderAmrWbModeSet | sipSessionTimer | minSe | cancellationTimer
  | tDelay | silentRedialEnable | sipT1Timer | sipT2Timer | sipTfTimer | vltSettingEnabled
  | lvcSettingEnabled | domainName | smsFormat | smsOverIp | publishTimer | publishTimerExtended
  | capabilitiesCacheExpiration | availabilityCacheExpiration | capabilitiesPollInterval
  | sourceThrottlePublish | maxNumEntriesInRcl | capabPollListSubExp | gzipFlag
  | eabSettingEnabled | voiceOverWifiRoaming | voiceOverWifiMode | mobileDataEnabled
  | volteUserOptInStatus | lboPcscfAddress | keepAliveEnabled | registrationRetryBaseTimeSec
  | registrationRetryMaxTimeSec | speechStartPort | speechEndPort | sipInviteReqRetxIntervalMsec
  | sipInviteRspWaitTimeMsec | sipInviteRspRetxWaitTimeMsec | sipNonInviteReqRetxIntervalMsec
  | sipNonInviteTxnTimeoutTimerMsec | sipInviteRspRetxIntervalMsec | sipAckReceiptWaitTimeMsec
  | sipAckRetxWaitTimeMsec | sipNonInviteReqRetxWaitTimeMsec | sipNonInviteRspRetxWaitTimeMsec
  | amrWbOctetAlignedPt | amrWbBandwidthEfficientPt | amrOctetAlignedPt | amrBandwidthEfficientPt
  | dtmfWbPt | dtmfNbPt | amrDefaultMode | smsPsi | videoQuality
deriving DecidableEq, Repr

def Item.row : Item → ConstantRow
  | .vocoderAmrModeSet => ⟨0, "VOCODER_AMRMODESET", "VocoderAmrModeSet"⟩
  | .vocoderAmrWbModeSet => ⟨1, "VOCODER_AMRWBMODESET", "VocoderAmrWbModeSet"⟩
  | .sipSessionTimer => ⟨2, "SIP_SESSION_TIMER", "SipSessionTimer"⟩
  | .minSe => ⟨3, "MIN_SE", "MinSe"⟩
  | .cancellationTimer => ⟨4, "CANCELLATION_TIMER", "CancellationTimer"⟩
  | .tDelay => ⟨5, "TDELAY", "TDelay"⟩
  | .silentRedialEnable => ⟨6, "SILENT_REDIAL_ENABLE", "SilentRedialEnable"⟩
  | .sipT1Timer => ⟨7, "SIP_T1_TIMER", "SipT1Timer"⟩
  | .sipT2Timer => ⟨8, "SIP_T2_TIMER", "SipT2Timer"⟩
  | .sipTfTimer => ⟨9, "SIP_TF_TIMER", "SipTfTimer"⟩
  | .vltSettingEnabled => ⟨10, "VLT_SETTING_ENABLED", "VltSettingEnabled"⟩
  | .lvcSettingEnabled => ⟨11, "LVC_SETTING_ENABLED", "LvcSettingEnabled"⟩
  | .domainName => ⟨12, "DOMAIN_NAME", "DomainName"⟩
  | .smsFormat => ⟨13, "SMS_FORMAT", "SmsFormat"⟩
  | .smsOverIp => ⟨14, "SMS_OVER_IP", "SmsOverIp"⟩
  | .publishTimer => ⟨15, "PUBLISH_TIMER", "PublishTimer"⟩
  | .publishTimerExtended => ⟨16, "PUBLISH_TIMER_EXTENDED", "PublishTimerExtended"⟩
  | .capabilitiesCacheExpiration =>
    ⟨17, "CAPABILITIES_CACHE_EXPIRATION", "CapabilitiesCacheExpiration"⟩
  | .availabilityCacheExpiration =>
    ⟨18, "AVAILABILITY_CACHE_EXPIRATION", "AvailabilityCacheExpiration"⟩
  | .capabilitiesPollInterval => ⟨19, "CAPABILITIES_POLL_INTERVAL", "CapabilitiesPollInterval"⟩
  | .sourceThrottlePublish => ⟨20, "SOURCE_THROTTLE_PUBLISH", "SourceThrottlePublish"⟩
  | .maxNumEntriesInRcl => ⟨21, "MAX_NUMENTRIES_IN_RCL", "MaxNumEntriesInRcl"⟩
  | .capabPollListSubExp => ⟨22, "CAPAB_POLL_LIST_SUB_EXP", "CapabPollListSubExp"⟩
  | .gzipFlag => ⟨23, "GZIP_FLAG", "GzipFlag"⟩
  | .eabSettingEnabled => ⟨24, "EAB_SETTING_ENABLED", "EabSettingEnabled"⟩
  | .voiceOverWifiRoaming => ⟨25, "VOICE_OVER_WIFI_ROAMING", "VoiceOverWifiRoaming"⟩
  | .voiceOverWifiMode => ⟨26, "VOICE_OVER_WIFI_MODE", "VoiceOverWifiMode"⟩
  | .mobileDataEnabled => ⟨27, "MOBILE_DATA_ENABLED", "MobileDataEnabled"⟩
  | .volteUserOptInStatus => ⟨28, "VOLTE_USER_OPT_IN_STATUS", "VolteUserOptInStatus"⟩
  | .lboPcscfAddress => ⟨29, "LBO_PCSCF_ADDRESS", "LboPcscfAddress"⟩
  | .keepAliveEnabled => ⟨30, "KEEP_ALIVE_ENABLED", "KeepAliveEnabled"⟩
  | .registrationRetryBaseTimeSec =>
    ⟨31, "REGISTRATION_RETRY_BASE_TIME_SEC", "RegistrationRetryBaseTimeSec"⟩
  | .registrationRetryMaxTimeSec =>
    ⟨32, "REGISTRATION_RETRY_MAX_TIME_SEC", "RegistrationRetryMaxTimeSec"⟩
  | .speechStartPort => ⟨33, "SPEECH_START_PORT", "SpeechStartPort"⟩
  | .speechEndPort => ⟨34, "SPEECH_END_PORT", "SpeechEndPort"⟩
  | .sipInviteReqRetxIntervalMsec =>
    ⟨35, "SIP_INVITE_REQ_RETX_INTERVAL_MSEC", "SipInviteReqRetxIntervalMsec"⟩
  | .sipInviteRspWaitTimeMsec => ⟨36, "SIP_INVITE_RSP_WAIT_TIME_MSEC", "SipInviteRspWaitTimeMsec"⟩
  | .sipInviteRspRetxWaitTimeMsec =>
    ⟨37, "SIP_INVITE_RSP_RETX_WAIT_TIME_MSEC", "SipInviteRspRetxWaitTimeMsec"⟩
  | .sipNonInviteReqRetxIntervalMsec =>
    ⟨38, "SIP_NON_INVITE_REQ_RETX_INTERVAL_MSEC", "SipNonInviteReqRetxIntervalMsec"⟩
  | .sipNonInviteTxnTimeoutTimerMsec =>
    ⟨39, "SIP_NON_INVITE_TXN_TIMEOUT_TIMER_MSEC", "SipNonInviteTxnTimeoutTimerMsec"⟩
  | .sipInviteRspRetxIntervalMsec =>
    ⟨40, "SIP_INVITE_RSP_RETX_INTERVAL_MSEC", "SipInviteRspRetxIntervalMsec"⟩
  | .sipAckReceiptWaitTimeMsec =>
    ⟨41, "SIP_ACK_RECEIPT_WAIT_TIME_MSEC", "SipAckReceiptWaitTimeMsec"⟩
  | .sipAckRetxWaitTimeMsec => ⟨42, "SIP_ACK_RETX_WAIT_TIME_MSEC", "SipAckRetxWaitTimeMsec"⟩
  | .sipNonInviteReqRetxWaitTimeMsec =>
    ⟨43, "SIP_NON_INVITE_REQ_RETX_WAIT_TIME_MSEC", "SipNonInviteReqRetxWaitTimeMsec"⟩
  | .sipNonInviteRspRetxWaitTimeMsec =>
    ⟨44, "SIP_NON_INVITE_RSP_RETX_WAIT_TIME_MSEC", "SipNonInviteRspRetxWaitTimeMsec"⟩
  | .amrWbOctetAlignedPt => ⟨45, "AMR_WB_OCTET_ALIGNED_PT", "AmrWbOctetAlignedPt"⟩
  | .amrWbBandwidthEfficientPt => ⟨46, "AMR_WB_BANDWIDTH_EFFICIENT_PT", "AmrWbBandwidthEfficientPt"⟩
  | .amrOctetAlignedPt => ⟨47, "AMR_OCTET_ALIGNED_PT", "AmrOctetAlignedPt"⟩
  | .amrBandwidthEfficientPt => ⟨48, "AMR_BANDWIDTH_EFFICIENT_PT", "AmrBandwidthEfficientPt"⟩
  | .dtmfWbPt => ⟨49, "DTMF_WB_PT", "DtmfWbPt"⟩
  | .dtmfNbPt => ⟨50, "DTMF_NB_PT", "DtmfNbPt"⟩
  | .amrDefaultMode => ⟨51, "AMR_DEFAULT_MODE", "AmrDefaultMode"⟩
  | .smsPsi => ⟨52, "SMS_PSI", "SmsPsi"⟩
  | .videoQuality => ⟨53, "VIDEO_QUALITY", "VideoQuality"⟩

def Item.all : List Item :=
  [.vocoderAmrModeSet, .vocoderAmrWbModeSet, .sipSessionTimer, .minSe, .cancellationTimer,
   .tDelay, .silentRedialEnable, .sipT1Timer, .sipT2Timer, .sipTfTimer, .vltSettingEnabled,
   .lvcSettingEnabled, .domainName, .smsFormat, .smsOverIp, .publishTimer, .publishTimerExtended,
   .capabilitiesCacheExpiration, .availabilityCacheExpiration, .capabilitiesPollInterval,
   .sourceThrottlePublish, .maxNumEntriesInRcl, .capabPollListSubExp, .gzipFlag,
   .eabSettingEnabled, .voiceOverWifiRoaming, .voiceOverWifiMode, .mobileDataEnabled,
   .volteUserOptInStatus, .lboPcscfAddress, .keepAliveEnabled, .registrationRetryBaseTimeSec,
   .registrationRetryMaxTimeSec, .speechStartPort, .speechEndPort, .sipInviteReqRetxIntervalMsec,
   .sipInviteRspWaitTimeMsec, .sipInviteRspRetxWaitTimeMsec, .sipNonInviteReqRetxIntervalMsec,
   .sipNonInviteTxnTimeoutTimerMsec, .sipInviteRspRetxIntervalMsec, .sipAckReceiptWaitTimeMsec,
   .sipAckRetxWaitTimeMsec, .sipNonInviteReqRetxWaitTimeMsec, .sipNonInviteRspRetxWaitTimeMsec,
   .amrWbOctetAlignedPt, .amrWbBandwidthEfficientPt, .amrOctetAlignedPt,
   .amrBandwidthEfficientPt, .dtmfWbPt, .dtmfNbPt, .amrDefaultMode, .smsPsi, .videoQuality]

instance : ConstantTable Item where
  kind := "config item"
  all := Item.all
  row := Item.row
  mem_all a := by cases a <;> decide
  code_lt := by decide
  name_nodup := by decide

inductive SettingKind where
  | integer | text
deriving DecidableEq, Repr

def SettingKind.name : SettingKind → String
  | .integer => "Integer"
  | .text => "String"

namespace Item

/-- Codec mode sets, host names and addresses are texts; every other setting is an integer. -/
def settingKind : Item → SettingKind
  | .vocoderAmrModeSet | .vocoderAmrWbModeSet | .domainName | .lboPcscfAddress | .smsPsi => .text
  | _ => .integer

def firstProvisioned : Item := .vocoderAmrModeSet

def lastProvisioned : Item := .videoQuality

/-- Whether the item lies in the operator range. -/
def isProvisioned (item : Item) : Bool :=
  firstProvisioned.row.code ≤ item.row.code && item.row.code ≤ lastProvisioned.row.code

/-- The operator range, in code order. -/
def provisioned : List Item := all.filter isProvisioned

end Item
end ImsProvisioning
