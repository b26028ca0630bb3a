import Patchbay.Text.Cut
import Patchbay.Validation

/-! Commands and how arguments spell them: a verb with operands and options, which have long and
short names and take their values from the same argument or the next. -/

namespace Patchbay

/-- What the tool is asked to do. Results go to the output file, if one is named. -/
inductive Command where
  | migrate (bundle : String) (output : Option String)
  | extract (flat : String) (entry : PatchPath) (library : String) (config output : Option String)
  | check (project : String)
deriving DecidableEq

namespace Command

/-- The first word of a command. -/
inductive Verb where
  | migrate
  | extract
  | check
deriving DecidableEq

def Verb.name : Verb → String
  | migrate => "migrate"
  | extract => "extract"
  | check => "check"

def Verb.ofName? (s : String) : Option Verb :=
  [Verb.migrate, .extract, .check].find? (·.name = s)

/-- Options of commands. -/
inductive Flag where
  | verbose
  | entry
  | library
  | config
  | output
  | help
  | version
deriving DecidableEq

namespace Flag

def long : Flag → String
  | verbose => "verbose"
  | entry => "entry"
  | library => "library"
  | config => "config"
  | output => "output"
  | help => "help"
  | version => "version"

def short? : Flag → Option Char
  | verbose => some 'v'
  | output => some 'o'
  | help => some 'h'
  | version => some 'V'
  | _ => none

/-- Whether a value belongs to the option. -/
def takesValue : Flag → Bool
  | entry => true
  | library => true
  | config => true
  | output => true
  | _ => false

/-- The options before any verb. -/
def general : List Flag := [verbose, help, version]

end Flag

/-- The options of a verb. -/
def Verb.flags : Verb → List Flag
  | migrate => [.output, .verbose, .help]
  | extract => [.entry, .library, .config, .output, .verbose, .help]
  | check => [.verbose, .help]

/-- Why arguments spell no command to run: they ask for information, or they are wrong. -/
inductive Refusal where
  | help
  | version
  | misuse
deriving DecidableEq

/-- The options and operands read so far. -/
structure Reading where
  given : List (Flag × String) := []
  operand : Option String := none

/-- The value of an option. -/
def Reading.value? (r : Reading) (flag : Flag) : Option String := r.given.lookup flag

/-- Whether a text may be the value of an option: files have names, and entries are patch paths. -/
def accepts : Flag → String → Bool
  | .entry, s => PatchPath.fault? s = none
  | _, s => s ≠ ""

/-- Takes an option with its value. Each option may be given once. -/
def Reading.take (r : Reading) (flag : Flag) (value : String) : Except Refusal Reading :=
  if (r.value? flag).isSome || !accepts flag value then .error .misuse
  else .ok { r with given := (flag, value) :: r.given }

/-- Takes an option that has no value. -/
def Reading.mark (r : Reading) (flag : Flag) : Except Refusal Reading :=
  match flag with
  | .help => .error .help
  | .version => .error .version
  | flag => r.take flag "true"

/-- Takes an operand, which is the name of a file. Commands have one. -/
def Reading.addOperand (r : Reading) (s : String) : Except Refusal Reading :=
  if r.operand.isSome || s = "" then .error .misuse else .ok { r with operand := some s }

/-- The forms of an argument. -/
inductive Form where
  | escape
  | long (name : List Char) (value : Option (List Char))
  | short (cluster : List Char)
  | plain (s : String)

/-- The form of an argument; a lone hyphen is plain. -/
def Form.of (arg : String) : Form :=
  match arg.toList with
  | ['-', '-'] => escape
  | '-' :: '-' :: rest =>
    match rest.dropWhile (· ≠ '=') with
    | '=' :: value => long (rest.takeWhile (· ≠ '=')) (some value)
    | _ => long rest none
  | '-' :: c :: rest => short (c :: rest)
  | _ => plain arg

/-- What the options of an argument lead to: a reading, or an option that waits for its value. -/
inductive Step where
  | done (r : Reading)
  | waiting (r : Reading) (flag : Flag)

/-- A long option. -/
def longStep (flags : List Flag) (r : Reading) (name : List Char) (value : Option (List Char)) :
    Except Refusal Step :=
  match flags.find? (·.long.toList = name), value with
  | none, _ => .error .misuse
  | some flag, some value =>
    if flag.takesValue then (r.take flag (String.ofList value)).map .done else .error .misuse
  | some flag, none =>
    if flag.takesValue then .ok (.waiting r flag) else (r.mark flag).map .done

/-- A cluster of short options. What follows one that takes a value is its value, where an equals
sign may stand between. -/
def shortSteps (flags : List Flag) (r : Reading) : List Char → Except Refusal Step
  | [] => .ok (.done r)
  | c :: rest =>
    match flags.find? (·.short? = some c) with
    | none => .error .misuse
    | some flag =>
      if flag.takesValue then
        match rest with
        | [] => .ok (.waiting r flag)
        | '=' :: value => (r.take flag (String.ofList value)).map .done
        | value => (r.take flag (String.ofList value)).map .done
      else do shortSteps flags (← r.mark flag) rest

/-- The options of one argument that is not plain. -/
def optionStep (flags : List Flag) (r : Reading) : Form → Except Refusal Step
  | .long name value => longStep flags r name value
  | .short cluster => shortSteps flags r cluster
  | _ => .error .misuse

/-- Reads the arguments behind a verb. Behind the escape there are only operands. -/
def readArguments (flags : List Flag) (r : Reading) : List String → Except Refusal Reading
  | [] => .ok r
  | arg :: rest =>
    match Form.of arg with
    | .escape => rest.foldlM Reading.addOperand r
    | .plain s => do readArguments flags (← r.addOperand s) rest
    | form => do
      match ← optionStep flags r form, rest with
      | .done r, rest => readArguments flags r rest
      | .waiting _ _, [] => .error .misuse
      | .waiting r flag, value :: rest =>
        match Form.of value with
        | .plain value => readArguments flags (← r.take flag value) rest
        | _ => .error .misuse

/-- The command of a verb and its arguments, if nothing is missing. -/
def ofReading (verb : Verb) (r : Reading) : Except Refusal Command :=
  match verb, r.operand with
  | _, none => .error .misuse
  | .migrate, some bundle => .ok (.migrate bundle (r.value? .output))
  | .check, some project => .ok (.check project)
  | .extract, some flat =>
    match (r.value? .entry).map PatchPath.ofText, r.value? .library with
    | some (.ok entry), some library =>
      .ok (.extract flat entry library (r.value? .config) (r.value? .output))
    | _, _ => .error .misuse

/-- Help is asked for on the tool as a whole or on one verb, which may be that of help itself. -/
def ofHelp : List String → Refusal
  | [] => .help
  | [s] => if s = "help" ∨ (Verb.ofName? s).isSome then .help else .misuse
  | _ => .misuse

/-- A command with the question whether to report all events. -/
structure Invocation where
  command : Command
  verbose : Bool

/-- The command that arguments spell. General options may stand before the verb. -/
def ofArguments (r : Reading) : List String → Except Refusal Invocation
  | [] => .error .misuse
  | arg :: rest =>
    match Form.of arg with
    | .escape => .error .misuse
    | .plain s =>
      if s = "help" then .error (ofHelp rest)
      else match Verb.ofName? s with
        | none => .error .misuse
        | some verb => do
          let inner ← readArguments verb.flags {} rest
          let verbose := (r.value? .verbose).isSome || (inner.value? .verbose).isSome
          return { command := ← ofReading verb inner, verbose }
    | form => do
      match ← optionStep Flag.general r form with
      | .done r => ofArguments r rest
      | .waiting _ _ => .error .misuse

end Command

end Patchbay
