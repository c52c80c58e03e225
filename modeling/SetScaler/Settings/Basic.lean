import SetScaler.Json.Basic

/-!
Settings of the scaler that are not part of any cluster's spec: how to reach the API server, the
knobs of the scaling loop, and the form of the log.
-/

namespace SetScaler

/-- How to reach the API server, and which namespace to watch. -/
structure AccessSettings where
  /-- The namespace to watch; all of them when it is absent or empty. -/
  ns : Option String := none
  kubeconfig : Option String := none
  context : Option String := none
deriving DecidableEq, Repr, Inhabited

structure ScalingSettings where
  /-- Time between marking bookies read-only and recovering them. -/
  settleDelayMs : UInt64 := 10000
  /-- How long a cancelled task may take to finish its run before that is worth a warning. -/
  cancelGraceMs : UInt64 := 120000
  cookieDeleteAttempts : UInt32 := 3
  brokerContainer : String := "broker"
  bookieContainer : String := "bookkeeper"
  /-- The port of a bookie's HTTP admin endpoint. -/
  bookieAdminPort : UInt16 := 8000
  /-- The port of a bookie's clients, part of its identity. -/
  bookiePort : UInt16 := 3181
  /-- The directories whose version marker is moved aside when a bookie is removed. -/
  bookieDataDirs : List String :=
    ["/pulsar/data/bookkeeper/journal", "/pulsar/data/bookkeeper/ledgers"]
deriving DecidableEq, Repr, Inhabited

inductive LogFormat where
  | text
  | json
deriving DecidableEq, Repr, Inhabited

def LogFormat.name : LogFormat → String
  | text => "text"
  | json => "json"

structure Settings where
  access : AccessSettings := {}
  scaling : ScalingSettings := {}
  logFormat : LogFormat := .text
deriving DecidableEq, Repr, Inhabited

inductive SettingsError where
  /-- The text is not of the format, or a setting is not of its type. -/
  | unreadable
  | noCookieAttempts
  | emptyContainer
deriving DecidableEq, Repr

def SettingsError.message : SettingsError → String
  | unreadable => "Failed to parse TOML configuration"
  | noCookieAttempts => "autoscaler.cookie_delete_attempts must be at least 1"
  | emptyContainer => "autoscaler container names must not be empty"

/-- Reads a log format: its name, or a record whose only member is its name with nothing in it. -/
def LogFormat.ofJson? : Json → Option LogFormat
  | .str "text" | .obj [("text", .obj [])] | .obj [("text", .arr [])] => some text
  | .str "json" | .obj [("json", .obj [])] | .obj [("json", .arr [])] => some json
  | _ => none

def LogFormat.toJson (format : LogFormat) : Json := .str format.name

def AccessSettings.ofJson? (json : Json) : Option AccessSettings := do
  let record ← Record.ofJson? ["namespace", "kubeconfig", "context"] json
  return {
    ns := ← record.optional "namespace" none (Json.option? Json.str?)
    kubeconfig := ← record.optional "kubeconfig" none (Json.option? Json.str?)
    context := ← record.optional "context" none (Json.option? Json.str?) }

def AccessSettings.toJson (settings : AccessSettings) : Json :=
  .obj [("namespace", Json.ofOption .str settings.ns),
    ("kubeconfig", Json.ofOption .str settings.kubeconfig),
    ("context", Json.ofOption .str settings.context)]

namespace ScalingSettings

/-- The members of the record, in their order. -/
def names : List String :=
  ["settle_delay_ms", "cancel_grace_ms", "cookie_delete_attempts", "broker_container",
   "bookie_container", "bookie_admin_port", "bookie_port", "bookie_data_dirs"]

def ofJson? (json : Json) : Option ScalingSettings := do
  let record ← Record.ofJson? names json
  let base : ScalingSettings := {}
  return {
    settleDelayMs := ← record.optional "settle_delay_ms" base.settleDelayMs Json.uint64?
    cancelGraceMs := ← record.optional "cancel_grace_ms" base.cancelGraceMs Json.uint64?
    cookieDeleteAttempts :=
      ← record.optional "cookie_delete_attempts" base.cookieDeleteAttempts Json.uint32?
    brokerContainer := ← record.optional "broker_container" base.brokerContainer Json.str?
    bookieContainer := ← record.optional "bookie_container" base.bookieContainer Json.str?
    bookieAdminPort := ← record.optional "bookie_admin_port" base.bookieAdminPort Json.uint16?
    bookiePort := ← record.optional "bookie_port" base.bookiePort Json.uint16?
    bookieDataDirs :=
      ← record.optional "bookie_data_dirs" base.bookieDataDirs (Json.list? Json.str?) }

def toJson (settings : ScalingSettings) : Json :=
  .obj [("settle_delay_ms", .int settings.settleDelayMs.toNat),
    ("cancel_grace_ms", .int settings.cancelGraceMs.toNat),
    ("cookie_delete_attempts", .int settings.cookieDeleteAttempts.toNat),
    ("broker_container", .str settings.brokerContainer),
    ("bookie_container", .str settings.bookieContainer),
    ("bookie_admin_port", .int settings.bookieAdminPort.toNat),
    ("bookie_port", .int settings.bookiePort.toNat),
    ("bookie_data_dirs", .arr (settings.bookieDataDirs.map .str))]

end ScalingSettings

namespace Settings

def ofJson? (json : Json) : Option Settings := do
  let record ← Record.ofJson? ["kubernetes", "autoscaler", "logging"] json
  return {
    access := ← record.optional "kubernetes" {} AccessSettings.ofJson?
    scaling := ← record.optional "autoscaler" {} ScalingSettings.ofJson?
    logFormat := ← record.optional "logging" .text fun logging => do
      let record ← Record.ofJson? ["format"] logging
      record.optional "format" .text LogFormat.ofJson? }

def toJson (settings : Settings) : Json :=
  .obj [("kubernetes", settings.access.toJson), ("autoscaler", settings.scaling.toJson),
    ("logging", .obj [("format", settings.logFormat.toJson)])]

/-- Refuses settings that the scaling loop cannot work with. -/
def check (settings : Settings) : Except SettingsError Settings :=
  if settings.scaling.cookieDeleteAttempts = 0 then .error .noCookieAttempts
  else if settings.scaling.bookieContainer.isEmpty || settings.scaling.brokerContainer.isEmpty then
    .error .emptyContainer
  else .ok settings

end Settings
end SetScaler
