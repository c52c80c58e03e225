import SetScaler.Settings.Basic
import SetScaler.Toml.Document
import SetScaler.Toml.Writer

/-!
Settings as a TOML document: read with defaults for what is absent, and written with all effective
settings.
-/

namespace SetScaler

namespace AccessSettings

/-- The table of these settings; what is absent is left out. -/
def toToml (settings : AccessSettings) : String :=
  let entry (key : String) (value : Option String) :=
    value.toList.map fun value => Toml.entry key (Toml.quoted value)
  Toml.table "kubernetes"
    (entry "namespace" settings.ns ++ entry "kubeconfig" settings.kubeconfig ++
      entry "context" settings.context)

end AccessSettings

namespace ScalingSettings

/-- The table of these settings, with every one of them. -/
def toToml (settings : ScalingSettings) : String :=
  Toml.table "autoscaler" [
    Toml.entry "settle_delay_ms" (toString settings.settleDelayMs),
    Toml.entry "cancel_grace_ms" (toString settings.cancelGraceMs),
    Toml.entry "cookie_delete_attempts" (toString settings.cookieDeleteAttempts),
    Toml.entry "broker_container" (Toml.quoted settings.brokerContainer),
    Toml.entry "bookie_container" (Toml.quoted settings.bookieContainer),
    Toml.entry "bookie_admin_port" (toString settings.bookieAdminPort),
    Toml.entry "bookie_port" (toString settings.bookiePort),
    Toml.entry "bookie_data_dirs" (Toml.quotedList settings.bookieDataDirs)]

end ScalingSettings

namespace Settings

def ofToml (text : String) : Except SettingsError Settings :=
  match (Toml.read? text).bind Settings.ofJson? with
  | none => .error .unreadable
  | some settings => settings.check

/-- The document of the effective settings, a blank line between its tables. -/
def toToml (settings : Settings) : String :=
  "\n".intercalate [settings.access.toToml, settings.scaling.toToml,
    Toml.table "logging" [Toml.entry "format" (Toml.quoted settings.logFormat.name)]]

end Settings
end SetScaler
