import SetScaler.CommandLine.Help
import SetScaler.Settings.Basic

/-!
The scaler's own command line: its commands, and what a whole command line asks for.
-/

namespace SetScaler.CommandLine

/-- The values that name a log format. -/
def logFormats : List LogFormat := [.text, .json]

def configOption : OptionSpec :=
  { short := some 'c', long := "config", value := "CONFIG"
    about := "Path to pulsar-operator.toml config file" }

def logFormatOption : OptionSpec :=
  { long := "log-format", value := "LOG_FORMAT", choices := logFormats.map LogFormat.name
    about := "Log format (overrides config)" }

def pathArgument : ArgumentSpec := { name := "PATH", about := "Path to the config file" }

def runCommand : CommandSpec :=
  { name := "run", about := "Watch PulsarCluster resources and run their autoscalers"
    options := [configOption, logFormatOption] }

def manifestCommand : CommandSpec :=
  { name := "crd", about := "Print the PulsarCluster CRD manifest" }

def checkCommand : CommandSpec :=
  { name := "check-config", about := "Validate a config file and print the effective settings"
    argument := some pathArgument }

def scaler : ProgramSpec :=
  { name := "pulsar-operator", version := "0.4.0"
    about := "Kubernetes operator that autoscales Apache Pulsar brokers and bookies"
    commands := [runCommand, manifestCommand, checkCommand] }

inductive Invocation where
  | show (text : String)
  | run (config : Option String) (logFormat : Option LogFormat)
  | manifest
  | check (path : String)
deriving DecidableEq, Repr

namespace Invocation

/-- The invocation of a command whose slots are filled. -/
def ofFilled (spec : CommandSpec) (filled : List (Slot × String)) : Invocation :=
  if spec.name = runCommand.name then
    .run (filled.lookup (.option configOption))
      ((filled.lookup (.option logFormatOption)).bind fun name =>
        logFormats.find? fun format => format.name == name)
  else if spec.name = checkCommand.name then
    .check ((filled.lookup (.argument pathArgument)).getD "")
  else .manifest

def ofTopic : List String → Except UsageError Invocation
  | [] => .ok (.show scaler.help)
  | topic :: rest =>
    let text := if topic = "help" then some scaler.helpHelp
      else (scaler.commands.find? fun spec => spec.name == topic).map fun spec =>
        spec.help scaler.name
    match text, rest with
    | none, _ => .error (.unknownCommand topic)
    | some _, word :: _ => .error (.unknownCommand word)
    | some text, [] => .ok (.show text)

/-- What an option in front of any command asks for. -/
def ofDashed : Dashed → List String → Except UsageError Invocation
  | .escape, [] => .error .noCommand
  | .escape, word :: _ =>
    if word = "help" || scaler.commands.any fun spec => spec.name == word then
      .error (.unexpected word)
    else .error (.unknownCommand word)
  | .long name value, _ =>
    let text := if name = "help" then some scaler.help
      else if name = "version" then some scaler.versionText
      else none
    match text, value with
    | none, _ => .error (.unexpected ("--" ++ name))
    | some _, some value => .error (.unneededValue ("--" ++ name) value)
    | some text, none => .ok (.show text)
  | .short letters, _ =>
    match letters.head? with
    | some 'h' => .ok (.show scaler.help)
    | some 'V' => .ok (.show scaler.versionText)
    | letter => .error (.unexpected (String.ofList ('-' :: letter.toList)))

/-- What a command line asks for, given its words without the program's name. -/
def ofWords : List String → Except UsageError Invocation
  | [] => .error .noCommand
  | word :: rest =>
    if word = "help" then ofTopic rest
    else match scaler.commands.find? fun spec => spec.name == word with
      | some spec => do
        match ← readWords spec false {} rest with
        | .help => return .show (spec.help scaler.name)
        | .run filled => return ofFilled spec filled
      | none =>
        match Dashed.of? word with
        | some dashed => ofDashed dashed rest
        | none => .error (.unknownCommand word)

end Invocation
end SetScaler.CommandLine
