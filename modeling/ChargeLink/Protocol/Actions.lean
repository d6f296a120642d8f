import ChargeLink.Protocol.Version

/-!
# Known actions

The actions each version of the protocol defines, whether a registry serves
them or not: a call of a known action that nobody serves is refused otherwise
than a call of an unknown one.
-/

namespace ChargeLink

/-- The actions of the core profiles and the security extension. -/
def actionsV16 : List String :=
  ["Authorize", "BootNotification", "CancelReservation", "CertificateSigned",
   "ChangeAvailability", "ChangeConfiguration", "ClearCache", "ClearChargingProfile",
   "DataTransfer", "DeleteCertificate", "DiagnosticsStatusNotification",
   "ExtendedTriggerMessage", "FirmwareStatusNotification", "GetCompositeSchedule",
   "GetConfiguration", "GetDiagnostics", "GetInstalledCertificateIds", "GetLocalListVersion",
   "GetLog", "Heartbeat", "InstallCertificate", "LogStatusNotification", "MeterValues",
   "RemoteStartTransaction", "RemoteStopTransaction", "ReserveNow", "Reset",
   "SecurityEventNotification", "SendLocalList", "SetChargingProfile", "SignCertificate",
   "SignedFirmwareStatusNotification", "SignedUpdateFirmware", "StartTransaction",
   "StatusNotification", "StopTransaction", "TriggerMessage", "UnlockConnector",
   "UpdateFirmware"]

/-- The actions of the newer version. -/
def actionsV201 : List String :=
  ["Authorize", "BootNotification", "CancelReservation", "CertificateSigned",
   "ChangeAvailability", "ClearCache", "ClearChargingProfile", "ClearDisplayMessage",
   "ClearedChargingLimit", "ClearVariableMonitoring", "CostUpdated", "CustomerInformation",
   "DataTransfer", "DeleteCertificate", "FirmwareStatusNotification", "Get15118EVCertificate",
   "GetBaseReport", "GetCertificateStatus", "GetChargingProfiles", "GetCompositeSchedule",
   "GetDisplayMessages", "GetInstalledCertificateIds", "GetLocalListVersion", "GetLog",
   "GetMonitoringReport", "GetReport", "GetTransactionStatus", "GetVariables", "Heartbeat",
   "InstallCertificate", "LogStatusNotification", "MeterValues", "NotifyChargingLimit",
   "NotifyCustomerInformation", "NotifyDisplayMessages", "NotifyEVChargingNeeds",
   "NotifyEVChargingSchedule", "NotifyEvent", "NotifyMonitoringReport", "NotifyReport",
   "PublishFirmware", "PublishFirmwareStatusNotification", "ReportChargingProfiles",
   "RequestStartTransaction", "RequestStopTransaction", "ReservationStatusUpdate", "ReserveNow",
   "Reset", "SecurityEventNotification", "SendLocalList", "SetChargingProfile",
   "SetDisplayMessage", "SetMonitoringBase", "SetMonitoringLevel", "SetNetworkProfile",
   "SetVariableMonitoring", "SetVariables", "SignCertificate", "StatusNotification",
   "TransactionEvent", "TriggerMessage", "UnlockConnector", "UnpublishFirmware",
   "UpdateFirmware"]

/-- The actions that a version defines, in the order of their listing. -/
def Version.actions : Version → List String
  | .v16 => actionsV16
  | .v201 => actionsV201

/-- Whether a version defines the action. -/
def Version.knows (v : Version) (action : String) : Bool :=
  v.actions.contains action

end ChargeLink
