import ArchSpec.Check.Finding
import ArchSpec.CommandLine.Help

/-!
# Command line arguments

A command is a word, followed by its file, if it takes one, and its options in
any order.  An option with a value takes the next argument, unless that looks
like an option, or what follows an equals sign.  After a double dash every
argument is a file.  No option may be given twice, and no value may be empty.
Arguments are read from left to right: the first one that makes no sense or asks
for help decides.
-/

namespace ArchSpec.CommandLine

/-- What the program can be asked to do. -/
inductive Command where
  /-- Run a program; the exit status is the value of its entry point. -/
  | run (file : String) (config : Option String) (strictness : Option Strictness)
      (instrument : Bool) (trace : Option String)
  | check (file : String) (strictness : Strictness)
  | primitives

inductive Request where
  | command (command : Command)
  | help (topic : Topic)
  | version
  /-- The arguments make no sense. -/
  | misuse

inductive OptionName where
  | config
  | strictness
  | instrument
  | trace
deriving DecidableEq

namespace OptionName

def ofString? : String → Option OptionName
  | "config" => some config
  | "strictness" => some strictness
  | "instrument" => some instrument
  | "trace" => some trace
  | _ => none

def hasValue : OptionName → Bool
  | instrument => false
  | _ => true

end OptionName

/-- What the arguments of a command can be. -/
structure Profile where
  takesFile : Bool
  options : List OptionName

namespace Profile

def run : Profile := ⟨true, [.config, .strictness, .instrument, .trace]⟩

def check : Profile := ⟨true, [.strictness]⟩

def primitives : Profile := ⟨false, []⟩

/-- The option of a name, if it is one of the command's. -/
def option? (profile : Profile) (name : String) : Option OptionName :=
  (OptionName.ofString? name).filter profile.options.contains

end Profile

structure Given where
  file : Option String
  options : List (OptionName × String)

namespace Given

def empty : Given := ⟨none, []⟩

def value? (given : Given) (name : OptionName) : Option String :=
  (given.options.find? fun option => option.1 = name).map Prod.snd

/-- The file, which is given once and is not empty. -/
def addFile (given : Given) (profile : Profile) (file : String) : Option Given :=
  if profile.takesFile ∧ given.file.isNone ∧ !file.isEmpty then
    some { given with file := some file }
  else none

/-- Whether an option takes a value. -/
def accepts : OptionName → String → Bool
  | .strictness, value => (Strictness.ofName? value).isSome
  | .instrument, _ => true
  | _, value => !value.isEmpty

/-- An option, which is given once and has a proper value. -/
def addOption (given : Given) (name : OptionName) (value : String) : Option Given :=
  if (given.value? name).isSome ∨ !accepts name value then none
  else some { given with options := (name, value) :: given.options }

/-- The level of strictness that is asked for. -/
def strictness? (given : Given) : Option Strictness :=
  (given.value? .strictness).bind Strictness.ofName?

end Given

inductive Argument where
  | file (name : String)
  | long (name : String) (value : Option String)
  | short (letters : List Char)
  | endOfOptions

namespace Argument

/-- The name and value of a long option. -/
def ofLong (chars : List Char) : Argument :=
  let name := String.ofList (chars.takeWhile (· ≠ '='))
  match chars.dropWhile (· ≠ '=') with
  | _ :: value => long name (some (String.ofList value))
  | [] => long name none

def ofString (text : String) : Argument :=
  match text.toList with
  | ['-', '-'] => endOfOptions
  | '-' :: '-' :: rest => ofLong rest
  | ['-'] => file text
  | '-' :: rest => short rest
  | _ => file text

/-- Whether the argument can be the value of the option before it. -/
def isValue (text : String) : Bool :=
  match ofString text with
  | file _ => true
  | _ => false

end Argument

/-- How reading the arguments of a command ends. -/
inductive Reading where
  | complete (given : Given)
  | help
  | misuse

/-- Files only. -/
def readFiles (profile : Profile) : Given → List String → Reading
  | given, [] => .complete given
  | given, file :: rest =>
      match given.addFile profile file with
      | some given => readFiles profile given rest
      | none => .misuse

/-- The file and the options of a command. -/
def readArguments (profile : Profile) : Given → List String → Reading
  | given, [] => .complete given
  | given, first :: rest =>
      match Argument.ofString first with
      | .endOfOptions => readFiles profile given rest
      | .file name =>
          match given.addFile profile name with
          | some given => readArguments profile given rest
          | none => .misuse
      | .short letters => if letters.head? = some 'h' then .help else .misuse
      | .long "help" none => .help
      | .long name value =>
          match profile.option? name with
          | none => .misuse
          | some name =>
              match name.hasValue, value, rest with
              | true, some value, rest =>
                  match given.addOption name value with
                  | some given => readArguments profile given rest
                  | none => .misuse
              | true, none, value :: rest =>
                  if Argument.isValue value then
                    match given.addOption name value with
                    | some given => readArguments profile given rest
                    | none => .misuse
                  else .misuse
              | false, none, rest =>
                  match given.addOption name "" with
                  | some given => readArguments profile given rest
                  | none => .misuse
              | _, _, _ => .misuse

/-- The request that a reading amounts to, for a command made from it and the
topic of its help. -/
def Reading.request (reading : Reading) (topic : Topic)
    (command? : Given → Option Command) : Request :=
  match reading with
  | .help => .help topic
  | .misuse => .misuse
  | .complete given =>
      match command? given with
      | some command => .command command
      | none => .misuse

def runCommand? (given : Given) : Option Command := do
  return .run (← given.file) (given.value? .config) given.strictness?
    (given.value? .instrument).isSome (given.value? .trace)

def checkCommand? (given : Given) : Option Command := do
  return .check (← given.file) (given.strictness?.getD .typeCheck)

/-- The request for help that the arguments after `help` make. -/
def helpRequest : List String → Request
  | [] => .help .program
  | [name] =>
      match Topic.ofName? name with
      | some topic => .help topic
      | none => .misuse
  | _ => .misuse

def request : List String → Request
  | [] => .misuse
  | "run" :: rest => (readArguments .run .empty rest).request .run runCommand?
  | "check" :: rest => (readArguments .check .empty rest).request .check checkCommand?
  | "primitives" :: rest =>
      (readArguments .primitives .empty rest).request .primitives fun _ => some .primitives
  | "help" :: rest => helpRequest rest
  | first :: _ =>
      match Argument.ofString first with
      | .long "help" none => .help .program
      | .long "version" none => .version
      | .short ('h' :: _) => .help .program
      | .short ('V' :: _) => .version
      | _ => .misuse

end ArchSpec.CommandLine
