import ChargeLink.Schema.Shape

/-!
# Messages of the older version

The requests and confirmations of the core of the protocol: first the types they share, then
the messages of the charge point, then those of the central system.
-/

namespace ChargeLink.V16

/-- Whether an identifier may charge. -/
def authorizationStatus : Shape :=
  .choice ["Accepted", "Blocked", "Expired", "Invalid", "ConcurrentTx"]

/-- Whether a charge point is accepted. -/
def registrationStatus : Shape :=
  .choice ["Accepted", "Pending", "Rejected"]

/-- What is wrong with a connector. -/
def chargePointErrorCode : Shape :=
  .choice ["ConnectorLockFailure", "EVCommunicationError", "GroundFailure", "HighTemperature",
    "InternalError", "LocalListConflict", "NoError", "OtherError", "OverCurrentFailure",
    "PowerMeterFailure", "PowerSwitchFailure", "ReaderFailure", "ResetFailure", "UnderVoltage",
    "OverVoltage", "WeakSignal"]

/-- What a connector is doing. -/
def chargePointStatus : Shape :=
  .choice ["Available", "Preparing", "Charging", "SuspendedEVSE", "SuspendedEV", "Finishing",
    "Reserved", "Unavailable", "Faulted"]

/-- Why a transaction stopped. -/
def stopReason : Shape :=
  .choice ["EmergencyStop", "EVDisconnected", "HardReset", "Local", "Other", "PowerLoss",
    "Reboot", "Remote", "SoftReset", "UnlockCommand", "DeAuthorized"]

/-- What became of vendor data. -/
def dataTransferStatus : Shape :=
  .choice ["Accepted", "Rejected", "UnknownMessageId", "UnknownVendorId"]

/-- Whether a remote request is followed. -/
def remoteStartStopStatus : Shape :=
  .choice ["Accepted", "Rejected"]

/-- The kind of a reset. -/
def resetType : Shape :=
  .choice ["Hard", "Soft"]

/-- Whether a reset is done. -/
def resetStatus : Shape :=
  .choice ["Accepted", "Rejected"]

/-- The availability that is asked for. -/
def availabilityType : Shape :=
  .choice ["Inoperative", "Operative"]

/-- Whether the availability changes. -/
def availabilityStatus : Shape :=
  .choice ["Accepted", "Rejected", "Scheduled"]

/-- What became of a configuration change. -/
def configurationStatus : Shape :=
  .choice ["Accepted", "Rejected", "RebootRequired", "NotSupported"]

/-- A message that can be asked for. -/
def messageTrigger : Shape :=
  .choice ["BootNotification", "DiagnosticsStatusNotification", "FirmwareStatusNotification",
    "Heartbeat", "MeterValues", "StatusNotification"]

/-- Whether the message will come. -/
def triggerMessageStatus : Shape :=
  .choice ["Accepted", "Rejected", "NotImplemented"]

/-- What is known of an identifier. -/
def idTagInfo : Shape :=
  .record "IdTagInfo" [
    required "status" authorizationStatus [],
    optional "expiry_date" .instant [],
    optional "parent_id_tag" .text [.length 0 (some 20)]]

/-- One measured value. -/
def sampledValue : Shape :=
  .record "SampledValue" [
    required "value" .text [],
    optional "context" .text [],
    optional "format" .text [],
    optional "measurand" .text [],
    optional "phase" .text [],
    optional "location" .text [],
    optional "unit" .text []]

/-- The values measured at one time. -/
def meterValue : Shape :=
  .record "MeterValue" [
    required "timestamp" .instant [],
    required "sampled_value" (.list sampledValue) []]

/-- A configuration key with its value. -/
def keyValue : Shape :=
  .record "KeyValue" [
    required "key" .text [.length 0 (some 50)],
    required "readonly" .flag [],
    optional "value" .text [.length 0 (some 500)]]

/-- Asks whether an identifier may charge. -/
def authorize : Message where
  action := "Authorize"
  request := {
    name := "AuthorizeRequest"
    members := [
      required "id_tag" .text [.length 1 (some 20)]] }
  confirmation := {
    name := "AuthorizeResponse"
    members := [
      required "id_tag_info" idTagInfo []] }
  transactional := fun _ => false

/-- Announces a charge point after its start. -/
def bootNotification : Message where
  action := "BootNotification"
  request := {
    name := "BootNotificationRequest"
    members := [
      required "charge_point_vendor" .text [.length 1 (some 20)],
      required "charge_point_model" .text [.length 1 (some 20)],
      optional "charge_point_serial_number" .text [.length 0 (some 25)],
      optional "charge_box_serial_number" .text [.length 0 (some 25)],
      optional "firmware_version" .text [.length 0 (some 50)],
      optional "iccid" .text [.length 0 (some 20)],
      optional "imsi" .text [.length 0 (some 20)],
      optional "meter_type" .text [.length 0 (some 25)],
      optional "meter_serial_number" .text [.length 0 (some 25)]] }
  confirmation := {
    name := "BootNotificationResponse"
    members := [
      required "status" registrationStatus [],
      required "current_time" .instant [],
      required "interval" .int32 [.range (some 0) none]] }
  transactional := fun _ => false

/-- Says that the charge point is alive, and asks for the time. -/
def heartbeat : Message where
  action := "Heartbeat"
  request := { name := "HeartbeatRequest", members := [] }
  confirmation := {
    name := "HeartbeatResponse"
    members := [
      required "current_time" .instant []] }
  transactional := fun _ => false

/-- Reports the status of a connector. -/
def statusNotification : Message where
  action := "StatusNotification"
  request := {
    name := "StatusNotificationRequest"
    members := [
      required "connector_id" .int32 [.range (some 0) none],
      required "error_code" chargePointErrorCode [],
      required "status" chargePointStatus [],
      optional "info" .text [.length 0 (some 50)],
      optional "timestamp" .instant [],
      optional "vendor_id" .text [.length 0 (some 255)],
      optional "vendor_error_code" .text [.length 0 (some 50)]] }
  confirmation := { name := "StatusNotificationResponse", members := [] }
  transactional := fun _ => false

/-- Reports that a transaction has started. -/
def startTransaction : Message where
  action := "StartTransaction"
  request := {
    name := "StartTransactionRequest"
    members := [
      required "connector_id" .int32 [.range (some 1) none],
      required "id_tag" .text [.length 1 (some 20)],
      required "meter_start" .int32 [],
      optional "reservation_id" .int32 [],
      required "timestamp" .instant []] }
  confirmation := {
    name := "StartTransactionResponse"
    members := [
      required "id_tag_info" idTagInfo [],
      required "transaction_id" .int32 []] }
  transactional := fun _ => true

/-- Reports that a transaction has stopped. -/
def stopTransaction : Message where
  action := "StopTransaction"
  request := {
    name := "StopTransactionRequest"
    members := [
      optional "id_tag" .text [.length 0 (some 20)],
      required "meter_stop" .int32 [],
      required "timestamp" .instant [],
      required "transaction_id" .int32 [],
      optional "reason" stopReason [],
      optional "transaction_data" (.list meterValue) []] }
  confirmation := {
    name := "StopTransactionResponse"
    members := [
      optional "id_tag_info" idTagInfo []] }
  transactional := fun _ => true

/-- Reports meter samples. Only samples of a transaction belong to one. -/
def meterValues : Message where
  action := "MeterValues"
  request := {
    name := "MeterValuesRequest"
    members := [
      required "connector_id" .int32 [.range (some 0) none],
      optional "transaction_id" .int32 [],
      required "meter_value" (.list meterValue) []] }
  confirmation := { name := "MeterValuesResponse", members := [] }
  transactional := fun v => (v.get? "transactionId").isSome

/-- Carries data of a vendor, in either direction. -/
def dataTransfer : Message where
  action := "DataTransfer"
  request := {
    name := "DataTransferRequest"
    members := [
      required "vendor_id" .text [.length 1 (some 255)],
      optional "message_id" .text [.length 0 (some 50)],
      optional "data" .text []] }
  confirmation := {
    name := "DataTransferResponse"
    members := [
      required "status" dataTransferStatus [],
      optional "data" .text []] }
  transactional := fun _ => false

/-- Asks a charge point to start a transaction. -/
def remoteStartTransaction : Message where
  action := "RemoteStartTransaction"
  request := {
    name := "RemoteStartTransactionRequest"
    members := [
      optional "connector_id" .int32 [.range (some 1) none],
      required "id_tag" .text [.length 1 (some 20)]] }
  confirmation := {
    name := "RemoteStartTransactionResponse"
    members := [
      required "status" remoteStartStopStatus []] }
  transactional := fun _ => false

/-- Asks a charge point to stop a transaction. -/
def remoteStopTransaction : Message where
  action := "RemoteStopTransaction"
  request := {
    name := "RemoteStopTransactionRequest"
    members := [
      required "transaction_id" .int32 []] }
  confirmation := {
    name := "RemoteStopTransactionResponse"
    members := [
      required "status" remoteStartStopStatus []] }
  transactional := fun _ => false

/-- Asks for a reset. -/
def reset : Message where
  action := "Reset"
  request := {
    name := "ResetRequest"
    members := [
      typeMember resetType] }
  confirmation := {
    name := "ResetResponse"
    members := [
      required "status" resetStatus []] }
  transactional := fun _ => false

/-- Asks to change the availability of a connector. -/
def changeAvailability : Message where
  action := "ChangeAvailability"
  request := {
    name := "ChangeAvailabilityRequest"
    members := [
      required "connector_id" .int32 [.range (some 0) none],
      typeMember availabilityType] }
  confirmation := {
    name := "ChangeAvailabilityResponse"
    members := [
      required "status" availabilityStatus []] }
  transactional := fun _ => false

/-- Asks for configuration keys. -/
def getConfiguration : Message where
  action := "GetConfiguration"
  request := {
    name := "GetConfigurationRequest"
    members := [
      optional "key" (.list .text) []] }
  confirmation := {
    name := "GetConfigurationResponse"
    members := [
      optional "configuration_key" (.list keyValue) [],
      optional "unknown_key" (.list .text) []] }
  transactional := fun _ => false

/-- Asks to change a configuration key. -/
def changeConfiguration : Message where
  action := "ChangeConfiguration"
  request := {
    name := "ChangeConfigurationRequest"
    members := [
      required "key" .text [.length 1 (some 50)],
      required "value" .text [.length 0 (some 500)]] }
  confirmation := {
    name := "ChangeConfigurationResponse"
    members := [
      required "status" configurationStatus []] }
  transactional := fun _ => false

/-- Asks for a message out of turn. -/
def triggerMessage : Message where
  action := "TriggerMessage"
  request := {
    name := "TriggerMessageRequest"
    members := [
      required "requested_message" messageTrigger [],
      optional "connector_id" .int32 [.range (some 1) none]] }
  confirmation := {
    name := "TriggerMessageResponse"
    members := [
      required "status" triggerMessageStatus []] }
  transactional := fun _ => false

/-- Every message of the version. -/
def messages : List Message :=
  [authorize, bootNotification, heartbeat, statusNotification, startTransaction, stopTransaction,
   meterValues, dataTransfer, remoteStartTransaction, remoteStopTransaction, reset,
   changeAvailability, getConfiguration, changeConfiguration, triggerMessage]

end ChargeLink.V16
