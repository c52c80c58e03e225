import SetScaler.Cluster.Manifest
import SetScaler.CommandLine.Commands
import SetScaler.Kubeconfig
import SetScaler.Settings.Format

/-!
What comes of a command line: the texts that are printed and the exit code. Files are read by a
function that is given, in whatever monad it works; everything else is decided here.
-/

namespace SetScaler.CommandLine

structure Outcome where
  exitCode : UInt32
  output : String := ""
  errors : String := ""
deriving DecidableEq, Repr

inductive CommandError where
  | configUnreadable (path : String)
  | settings (error : SettingsError)
  | kubeconfigUnreadable
  | defaultKubeconfigUnreadable
  /-- The kubeconfig does not say where to connect. -/
  | noServer
  | notConnected
deriving DecidableEq, Repr

def CommandError.message : CommandError → String
  | configUnreadable path => "Failed to read config file: " ++ path
  | settings error => error.message
  | kubeconfigUnreadable => "Failed to read kubeconfig"
  | defaultKubeconfigUnreadable => "Failed to read default kubeconfig"
  | noServer => "Failed to build K8s config from kubeconfig"
  | notConnected => "Failed to create K8s client"

namespace Outcome

def ofText (text : String) : Outcome := { exitCode := 0, output := text }

def ofError (error : CommandError) : Outcome :=
  { exitCode := 1, errors := "Error: " ++ error.message ++ "\n" }

/-- The outcome of a command line that is refused: the reason, and where to find help. -/
def ofUsageError (error : UsageError) : Outcome :=
  let errors := match error with
    | .noCommand => scaler.help
    | error => error.message scaler.about ++ "\n\n" ++ scaler.usage ++
        "\n\nFor more information, try '--help'.\n"
  { exitCode := 2, errors }

end Outcome

variable {m : Type → Type} [Monad m]

def readSettings (readFile : String → m (Option String)) (path : String) :
    m (Except CommandError Settings) := do
  match ← readFile path with
  | none => return .error (.configUnreadable path)
  | some text => return (Settings.ofToml text).mapError .settings

/-- A path with the home directory for a tilde in front of it. -/
def expandTilde (home : Option String) (path : String) : String :=
  match path.toList, home with
  | '~' :: '/' :: rest, some home => home ++ "/" ++ String.ofList rest
  | _, _ => path

/-- Where a kubeconfig is looked for when the settings do not name one. -/
def defaultKubeconfig (home : Option String) : Option String :=
  home.map fun home => home ++ "/.kube/config"

def findServer (readFile : String → m (Option String)) (home : Option String)
    (access : AccessSettings) : m (Except CommandError String) := do
  let (path, missing) := match access.kubeconfig with
    | some path => (some (expandTilde home path), CommandError.kubeconfigUnreadable)
    | none => (defaultKubeconfig home, CommandError.defaultKubeconfigUnreadable)
  let text ← match path with
    | some path => readFile path
    | none => pure none
  match text.bind Kubeconfig.ofText? with
  | none => return .error missing
  | some config =>
    match config.server? access.context with
    | none => return .error .noServer
    | some server => return .ok server

/-- What the command that checks settings prints about sound ones. -/
def checkedText (path : String) (settings : Settings) : String :=
  "Configuration OK: " ++ path ++ "\n\n" ++ settings.toToml

/-- Carries out an invocation as far as it does not take a connection. -/
def Invocation.perform (readFile : String → m (Option String)) (home : Option String) :
    Invocation → m Outcome
  | .show text => pure (.ofText text)
  | .manifest => pure (.ofText Cluster.manifest.text)
  | .check path => do
    match ← readSettings readFile path with
    | .error error => return .ofError error
    | .ok settings => return .ofText (checkedText path settings)
  | .run config _ => do
    let settings ← match config with
      | some path => readSettings readFile path
      | none => pure (.ok {})
    match settings with
    | .error error => return .ofError error
    | .ok settings =>
      match ← findServer readFile home settings.access with
      | .error error => return .ofError error
      | .ok _ => return .ofError .notConnected

def perform (readFile : String → m (Option String)) (home : Option String) (words : List String) :
    m Outcome :=
  match Invocation.ofWords words with
  | .error error => pure (.ofUsageError error)
  | .ok invocation => invocation.perform readFile home

end SetScaler.CommandLine
