import ChargeLink.Schema.Shape

/-!
# Messages of the newer version

Requests and confirmations of the newer version: first the types they share, then the messages.
-/

namespace ChargeLink.V201

/-- The kind of an identifier. -/
def idTokenType : Shape :=
  .choice ["Central", "eMAID", "ISO14443", "ISO15693", "KeyCode", "Local", "MacAddress",
    "NoAuthorization"]

/-- Whether an identifier may charge. -/
def authorizationStatus : Shape :=
  .choice ["Accepted", "Blocked", "ConcurrentTx", "Expired", "Invalid", "NoCredit",
    "NotAllowedTypeEVSE", "NotAtThisLocation", "NotAtThisTime", "Unknown"]

/-- Why a station started. -/
def bootReason : Shape :=
  .choice ["ApplicationReset", "FirmwareUpdate", "LocalReset", "PowerUp", "RemoteReset",
    "ScheduledReset", "Triggered", "Unknown", "Watchdog"]

/-- Whether a charge point is accepted. -/
def registrationStatus : Shape :=
  .choice ["Accepted", "Pending", "Rejected"]

/-- What a connector is doing. -/
def connectorStatus : Shape :=
  .choice ["Available", "Occupied", "Reserved", "Unavailable", "Faulted"]

/-- The place of an event in its transaction. -/
def transactionEventType : Shape :=
  .choice ["Ended", "Started", "Updated"]

/-- What caused a transaction event. -/
def triggerReason : Shape :=
  .choice ["Authorized", "CablePluggedIn", "ChargingRateChanged", "ChargingStateChanged",
    "Deauthorized", "EnergyLimitReached", "EVCommunicationLost", "EVConnectTimeout",
    "MeterValueClock", "MeterValuePeriodic", "TimeLimitReached", "Trigger", "UnlockCommand",
    "StopAuthorized", "EVDeparted", "EVDetected", "RemoteStop", "RemoteStart",
    "AbnormalCondition", "SignedDataReceived", "ResetCommand"]

/-- How charging goes. -/
def chargingState : Shape :=
  .choice ["Charging", "EVConnected", "SuspendedEV", "SuspendedEVSE", "Idle"]

/-- Whether a remote request is followed. -/
def requestStartStopStatus : Shape :=
  .choice ["Accepted", "Rejected"]

/-- The kind of a reset. -/
def resetType : Shape :=
  .choice ["Immediate", "OnIdle"]

/-- Whether a reset is done. -/
def resetStatus : Shape :=
  .choice ["Accepted", "Rejected", "Scheduled"]

/-- An identifier with its kind. -/
def idToken : Shape :=
  .record "IdToken" [
    required "id_token" .text [.length 0 (some 36)],
    typeMember idTokenType]

/-- What is known of an identifier. -/
def idTokenInfo : Shape :=
  .record "IdTokenInfo" [
    required "status" authorizationStatus [],
    optional "cache_expiry_date_time" .instant [],
    optional "charging_priority" .int32 [.range (some (-9)) (some 9)]]

/-- More on a status. -/
def statusInfo : Shape :=
  .record "StatusInfo" [
    required "reason_code" .text [.length 0 (some 20)],
    optional "additional_info" .text [.length 0 (some 512)]]

/-- What a station is. -/
def chargingStation : Shape :=
  .record "ChargingStation" [
    required "model" .text [.length 1 (some 20)],
    required "vendor_name" .text [.length 1 (some 50)],
    optional "serial_number" .text [.length 0 (some 25)],
    optional "firmware_version" .text [.length 0 (some 50)]]

/-- A transaction as an event reports it. -/
def transaction : Shape :=
  .record "Transaction" [
    required "transaction_id" .text [.length 1 (some 36)],
    optional "charging_state" chargingState [],
    optional "time_spent_charging" .int32 [],
    optional "remote_start_id" .int32 []]

/-- A charging place and one of its connectors. -/
def evse : Shape :=
  .record "Evse" [
    required "id" .int32 [.range (some 0) none],
    optional "connector_id" .int32 [.range (some 0) none]]

/-- Asks whether an identifier may charge. -/
def authorize : Message where
  action := "Authorize"
  request := {
    name := "AuthorizeRequest"
    members := [
      required "id_token" idToken [],
      optional "certificate" .text [.length 0 (some 5500)]] }
  confirmation := {
    name := "AuthorizeResponse"
    members := [
      required "id_token_info" idTokenInfo []] }
  transactional := fun _ => false

/-- Announces a charge point after its start. -/
def bootNotification : Message where
  action := "BootNotification"
  request := {
    name := "BootNotificationRequest"
    members := [
      required "charging_station" chargingStation [],
      required "reason" bootReason []] }
  confirmation := {
    name := "BootNotificationResponse"
    members := [
      required "current_time" .instant [],
      required "interval" .int32 [.range (some 0) none],
      required "status" registrationStatus [],
      optional "status_info" statusInfo []] }
  transactional := fun _ => false

/-- Says that the charge point is alive, and asks for the time. -/
def heartbeat : Message where
  action := "Heartbeat"
  request := { name := "HeartbeatRequest", members := [] }
  confirmation := {
    name := "HeartbeatResponse"
    members := [
      required "current_time" .instant []] }
  transactional := fun _ => false

/-- Reports the status of a connector. -/
def statusNotification : Message where
  action := "StatusNotification"
  request := {
    name := "StatusNotificationRequest"
    members := [
      required "timestamp" .instant [],
      required "connector_status" connectorStatus [],
      required "evse_id" .int32 [.range (some 0) none],
      required "connector_id" .int32 [.range (some 0) none]] }
  confirmation := { name := "StatusNotificationResponse", members := [] }
  transactional := fun _ => false

/-- Reports an event of a transaction. -/
def transactionEvent : Message where
  action := "TransactionEvent"
  request := {
    name := "TransactionEventRequest"
    members := [
      required "event_type" transactionEventType [],
      required "timestamp" .instant [],
      required "trigger_reason" triggerReason [],
      required "seq_no" .int32 [.range (some 0) none],
      required "transaction_info" transaction [],
      optional "offline" .flag [],
      optional "id_token" idToken [],
      optional "evse" evse []] }
  confirmation := {
    name := "TransactionEventResponse"
    members := [
      optional "total_cost" .real [],
      optional "charging_priority" .int32 [.range (some (-9)) (some 9)],
      optional "id_token_info" idTokenInfo []] }
  transactional := fun _ => true

/-- Asks a station to start a transaction. -/
def requestStartTransaction : Message where
  action := "RequestStartTransaction"
  request := {
    name := "RequestStartTransactionRequest"
    members := [
      optional "evse_id" .int32 [.range (some 1) none],
      required "remote_start_id" .int32 [],
      required "id_token" idToken []] }
  confirmation := {
    name := "RequestStartTransactionResponse"
    members := [
      required "status" requestStartStopStatus [],
      optional "transaction_id" .text [.length 0 (some 36)]] }
  transactional := fun _ => false

/-- Asks a station to stop a transaction. -/
def requestStopTransaction : Message where
  action := "RequestStopTransaction"
  request := {
    name := "RequestStopTransactionRequest"
    members := [
      required "transaction_id" .text [.length 1 (some 36)]] }
  confirmation := {
    name := "RequestStopTransactionResponse"
    members := [
      required "status" requestStartStopStatus []] }
  transactional := fun _ => false

/-- Asks for a reset. -/
def reset : Message where
  action := "Reset"
  request := {
    name := "ResetRequest"
    members := [
      typeMember resetType,
      optional "evse_id" .int32 []] }
  confirmation := {
    name := "ResetResponse"
    members := [
      required "status" resetStatus [],
      optional "status_info" statusInfo []] }
  transactional := fun _ => false

/-- Every message of the version. -/
def messages : List Message :=
  [authorize, bootNotification, heartbeat, statusNotification, transactionEvent,
   requestStartTransaction, requestStopTransaction, reset]

end ChargeLink.V201
