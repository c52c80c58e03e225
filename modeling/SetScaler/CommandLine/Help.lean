import SetScaler.CommandLine.Grammar

/-!
The help of a program and of its commands: what it is, how it is called, and tables of what it
takes.
-/

namespace SetScaler.CommandLine

structure ProgramSpec where
  name : String
  version : String
  about : String
  commands : List CommandSpec
deriving Repr

/-- A table of terms and what they mean, the meanings in one column. -/
def helpTable (title : String) (rows : List (String × String)) : String :=
  let width := (rows.map fun row => row.1.length).foldl max 0
  let line (row : String × String) :=
    "  " ++ row.1 ++ String.ofList (List.replicate (width - row.1.length + 2) ' ') ++ row.2 ++ "\n"
  title ++ ":\n" ++ String.join (rows.map line)

def OptionSpec.row (spec : OptionSpec) : String × String :=
  let short := match spec.short with
    | some letter => String.ofList ['-', letter, ',', ' ']
    | none => "    "
  let choices :=
    if spec.choices.isEmpty then ""
    else " [possible values: " ++ ", ".intercalate spec.choices ++ "]"
  (short ++ (Slot.option spec).display, spec.about ++ choices)

def helpRow : String × String := ("-h, --help", "Print help")

namespace CommandSpec

def usage (spec : CommandSpec) (program : String) : String :=
  "Usage: " ++ program ++ " " ++ spec.name ++
    (if spec.options.isEmpty then "" else " [OPTIONS]") ++
    match spec.argument with
    | some argument => " " ++ (Slot.argument argument).display
    | none => ""

def help (spec : CommandSpec) (program : String) : String :=
  let arguments := match spec.argument with
    | some argument =>
      helpTable "Arguments" [((Slot.argument argument).display, argument.about)] ++ "\n"
    | none => ""
  spec.about ++ "\n\n" ++ spec.usage program ++ "\n\n" ++ arguments ++
    helpTable "Options" (spec.options.map OptionSpec.row ++ [helpRow])

end CommandSpec

namespace ProgramSpec

/-- What the command that prints help says about itself. -/
def helpAbout : String := "Print this message or the help of the given subcommand(s)"

def usage (program : ProgramSpec) : String := "Usage: " ++ program.name ++ " <COMMAND>"

def help (program : ProgramSpec) : String :=
  program.about ++ "\n\n" ++ program.usage ++ "\n\n" ++
    helpTable "Commands"
      (program.commands.map (fun spec => (spec.name, spec.about)) ++ [("help", helpAbout)]) ++
    "\n" ++
    helpTable "Options" [helpRow, ("-V, --version", "Print version")]

def helpHelp (program : ProgramSpec) : String :=
  helpAbout ++ "\n\nUsage: " ++ program.name ++ " help [COMMAND]...\n\n" ++
    helpTable "Arguments" [("[COMMAND]...", "Print help for the subcommand(s)")]

def versionText (program : ProgramSpec) : String := program.name ++ " " ++ program.version ++ "\n"

end ProgramSpec
end SetScaler.CommandLine
