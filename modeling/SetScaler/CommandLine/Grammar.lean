/-!
What may stand on a command line, and how it is read. A command takes options, each with a value,
and at most one argument. A value is only looked at when the next thing is read, or at the end: so
an option that nobody knows is refused before a wrong value in front of it is.
-/

namespace SetScaler.CommandLine

/-- An option of a command. It takes one value, called `value` in the help. -/
structure OptionSpec where
  short : Option Char := none
  long : String
  value : String
  /-- The values that it takes; any value when the list is empty. -/
  choices : List String := []
  about : String
deriving DecidableEq, Repr

/-- The argument of a command, called `name` in the help. -/
structure ArgumentSpec where
  name : String
  about : String
deriving DecidableEq, Repr

structure CommandSpec where
  name : String
  about : String
  options : List OptionSpec := []
  argument : Option ArgumentSpec := none
deriving DecidableEq, Repr

/-- What a value on a command line is for. -/
inductive Slot where
  | option (spec : OptionSpec)
  | argument (spec : ArgumentSpec)
deriving DecidableEq, Repr

namespace Slot

def display : Slot → String
  | option spec => "--" ++ spec.long ++ " <" ++ spec.value ++ ">"
  | argument spec => "<" ++ spec.name ++ ">"

def accepts : Slot → String → Bool
  | option spec, value => spec.choices.isEmpty || spec.choices.contains value
  | argument _, _ => true

end Slot

inductive UsageError where
  | noCommand
  | unknownCommand (name : String)
  /-- Something that fits nowhere. -/
  | unexpected (text : String)
  /-- A value given to a flag. -/
  | unneededValue (flag value : String)
  | missingValue (slot : Slot)
  | invalidValue (slot : Slot) (value : String)
  | repeated (slot : Slot)
  | missingArgument
deriving DecidableEq, Repr

/-- The first line of the message; `about` is what the program says about itself. -/
def UsageError.message (about : String) : UsageError → String
  | noCommand => about
  | unknownCommand name => "error: unrecognized subcommand '" ++ name ++ "'"
  | unexpected text => "error: unexpected argument '" ++ text ++ "' found"
  | unneededValue flag value =>
    "error: unexpected value '" ++ value ++ "' for '" ++ flag ++ "' found; no more were expected"
  | missingValue slot =>
    "error: a value is required for '" ++ slot.display ++ "' but none was supplied"
  | invalidValue slot value => "error: invalid value '" ++ value ++ "' for '" ++ slot.display ++ "'"
  | repeated slot => "error: the argument '" ++ slot.display ++ "' cannot be used multiple times"
  | missingArgument => "error: the following required arguments were not provided:"

/-- The values put into slots so far, and the slot whose value has not been looked at. -/
structure Reading where
  filled : List (Slot × String) := []
  pending : Option (Slot × Option String) := none
deriving Repr

inductive Asked where
  | help
  | run (filled : List (Slot × String))
deriving Repr

namespace Reading

def value? (reading : Reading) (slot : Slot) : Option String := reading.filled.lookup slot

def fill (reading : Reading) (slot : Slot) (value : String) : Except UsageError Reading :=
  if (reading.value? slot).isSome then .error (.repeated slot)
  else if value.isEmpty then .error (.missingValue slot)
  else if slot.accepts value then
    .ok { reading with filled := reading.filled ++ [(slot, value)] }
  else .error (.invalidValue slot value)

def settle (reading : Reading) : Except UsageError Reading :=
  match reading.pending with
  | none => .ok reading
  | some (slot, none) => .error (.missingValue slot)
  | some (slot, some value) => { reading with pending := none }.fill slot value

def wantsValue (reading : Reading) : Bool :=
  reading.pending.any fun pending => pending.2.isNone

/-- Takes an option with the value attached to it, or leaves it waiting for one. -/
def takeOption (reading : Reading) (spec : OptionSpec) (value : Option String) :
    Except UsageError Reading := do
  let settled ← reading.settle
  match value with
  | some value => settled.fill (.option spec) value
  | none => return { settled with pending := some (.option spec, none) }

/-- Takes a word that is no option and no option's value. -/
def takeWord (reading : Reading) (spec : CommandSpec) (word : String) : Except UsageError Reading :=
  match spec.argument with
  | none => .error (.unexpected word)
  | some argument =>
    let slot := Slot.argument argument
    if (reading.value? slot).isSome || reading.pending.any (fun pending => pending.1 == slot) then
      .error (.unexpected word)
    else reading.settle.map fun settled => { settled with pending := some (slot, some word) }

/-- What is asked for once the command line has ended. -/
def finish (reading : Reading) (spec : CommandSpec) : Except UsageError Asked := do
  let settled ← reading.settle
  match spec.argument with
  | some argument =>
    if (settled.value? (.argument argument)).isNone then .error .missingArgument
    else return .run settled.filled
  | none => return .run settled.filled

end Reading

/-- A word that starts with a dash, taken apart. -/
inductive Dashed where
  | long (name : String) (value : Option String)
  | short (letters : List Char)
  /-- Two dashes: all words after them are arguments. -/
  | escape

def splitValue (text : List Char) : List Char × Option (List Char) :=
  match text.dropWhile (· != '=') with
  | [] => (text, none)
  | _ :: value => (text.takeWhile (· != '='), some value)

/-- Takes a word apart if it is an option. A single dash is a word like any other. -/
def Dashed.of? (word : String) : Option Dashed :=
  match word.toList with
  | ['-', '-'] => some .escape
  | '-' :: '-' :: text =>
    let (name, value) := splitValue text
    some (.long (String.ofList name) (value.map String.ofList))
  | '-' :: letter :: letters => some (.short (letter :: letters))
  | _ => none

/-- What becomes of a reading: it goes on, or help was asked for. -/
abbrev Step := Except UsageError (Option Reading)

/-- Takes options by their letters. A letter that takes a value takes the rest of the word. -/
def takeLetters (spec : CommandSpec) (reading : Reading) : List Char → Step
  | [] => .ok (some reading)
  | letter :: rest =>
    match spec.options.find? fun option => option.short == some letter with
    | some option =>
      let value := match rest with
        | [] => none
        | '=' :: value => some value
        | value => some value
      (reading.takeOption option (value.map String.ofList)).map some
    | none =>
      if letter = 'h' then reading.settle.map fun _ => none
      else .error (.unexpected (String.ofList ['-', letter]))

def takeLong (spec : CommandSpec) (reading : Reading) (name : String) (value : Option String) :
    Step :=
  match spec.options.find? fun option => option.long == name with
  | some option => (reading.takeOption option value).map some
  | none =>
    if name = "help" then
      match value with
      | some value => .error (.unneededValue "--help" value)
      | none => reading.settle.map fun _ => none
    else .error (.unexpected ("--" ++ name))

def readWords (spec : CommandSpec) : (escaped : Bool) → Reading → List String →
    Except UsageError Asked
  | _, reading, [] => reading.finish spec
  | true, reading, word :: rest => do readWords spec true (← reading.takeWord spec word) rest
  | false, reading, word :: rest =>
    match Dashed.of? word with
    | some .escape => readWords spec true reading rest
    | some (.long name value) => do
      match ← takeLong spec reading name value with
      | none => return .help
      | some reading => readWords spec false reading rest
    | some (.short letters) => do
      match ← takeLetters spec reading letters with
      | none => return .help
      | some reading => readWords spec false reading rest
    | none =>
      match reading.wantsValue, reading.pending with
      | true, some (slot, _) =>
        readWords spec false { reading with pending := some (slot, some word) } rest
      | _, _ => do readWords spec false (← reading.takeWord spec word) rest

end SetScaler.CommandLine
