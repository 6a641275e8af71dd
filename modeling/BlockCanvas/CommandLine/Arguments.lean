import BlockCanvas.Text.Digits
import BlockCanvas.Program.Statement

/-!
# Command-line arguments

The commands of the program and how they are written.  Options stand anywhere after the name of the
command, as `--name value` or `--name=value`, each at most once; after `--` everything is a file
name.
-/

namespace BlockCanvas
namespace CommandLine

/-- What the commands that run programs can be told. -/
structure Options where
  json : Bool
  maxIterations : Option Nat
  inputAnswer : Option Text
deriving DecidableEq

/-- The configuration of a run with these options. -/
def Options.config (o : Options) : Config :=
  let standard : Config := {}
  { standard with
    maxLoopIterations := o.maxIterations.getD standard.maxLoopIterations
    simulatedInput := o.inputAnswer.getD standard.simulatedInput }

inductive Command where
  | catalog
  | generate (workspace : Text)
  | run (workspace : Text) (options : Options)
  | exec (source : Text) (options : Options)
  | convert (input output : Text)
deriving DecidableEq

/-- What the arguments ask for. -/
inductive Request where
  | perform (command : Command)
  | help
  | version
  /-- The arguments are not understood. -/
  | unusable
deriving DecidableEq

/-! ### The arguments of one command -/

/-- What a command takes: how many file names, and whether it takes options. -/
structure Signature where
  files : Nat
  options : Bool

/-- What has been read so far. -/
structure Given where
  files : List Text
  json : Bool
  maxIterations : Option Nat
  inputAnswer : Option Text

def Given.nothing : Given := ⟨[], false, none, none⟩

def Given.options (g : Given) : Options := ⟨g.json, g.maxIterations, g.inputAnswer⟩

/-- A number below `2 ^ 64`, with an optional plus. -/
def count? (s : Text) : Option Nat :=
  let digits := match s with
    | '+' :: s => s
    | s => s
  if digits ≠ [] ∧ digits.all Char.isDigit ∧ Text.decimalValue digits < 0x10000000000000000 then
    some (Text.decimalValue digits)
  else none

/-- Whether an argument is an option or the mark `--`; a single dash is a file name. -/
def isOption (arg : Text) : Bool :=
  match arg with
  | '-' :: _ :: _ => true
  | _ => false

/-- The name of a long option, and the value after an equals sign. -/
def longOption (arg : Text) : Text × Option Text :=
  match Text.splitOnce ['='] arg with
  | some (name, v) => (name, some v)
  | none => (arg, none)

/-- Takes in one more file name, if the command has use for it. -/
def Given.file? (s : Signature) (g : Given) (name : Text) : Option Given :=
  if g.files.length < s.files then some { g with files := g.files ++ [name] } else none

/-- Takes in the value of an option that has one, if it was not given before. -/
def Given.set? (g : Given) (name v : Text) : Option Given :=
  if name = "max-iterations".toList ∧ g.maxIterations = none then
    (count? v).map fun n => { g with maxIterations := some n }
  else if name = "input-answer".toList ∧ g.inputAnswer = none then
    some { g with inputAnswer := some v }
  else none

/-- Reads the arguments of a command; the error is a request that needs no more arguments. -/
def Given.read (s : Signature) (g : Given) : List Text → Except Request Given
  | [] => .ok g
  | arg :: rest =>
    if arg = "--".toList then
      match rest.foldlM (Given.file? s) g with
      | some g => .ok g
      | none => .error .unusable
    else match arg with
      | '-' :: '-' :: long =>
        match longOption long with
        | (name, none) =>
          if name = "help".toList then .error .help
          else if !s.options then .error .unusable
          else if name = "json".toList then
            if g.json then .error .unusable else read s { g with json := true } rest
          else match rest with
            | v :: rest =>
              if isOption v then .error .unusable
              else match g.set? name v with
                | some g => read s g rest
                | none => .error .unusable
            | [] => .error .unusable
        | (name, some v) =>
          if !s.options then .error .unusable
          else match g.set? name v with
            | some g => read s g rest
            | none => .error .unusable
      | '-' :: 'h' :: _ => .error .help
      | arg =>
        if isOption arg then .error .unusable
        else match g.file? s arg with
          | some g => read s g rest
          | none => .error .unusable

/-! ### All arguments -/

/-- Reads the arguments of a command and makes the command of them. -/
def request (s : Signature) (args : List Text) (make : Given → Option Command) : Request :=
  match Given.read s .nothing args with
  | .error r => r
  | .ok g =>
    match make g with
    | some command => .perform command
    | none => .unusable

/-- The commands that `help` knows about. -/
def commandNames : List Text :=
  ["catalog", "generate", "run", "exec", "convert", "help"].map String.toList

/-- The help on all commands, or on one of them; each argument is taken as a name. -/
def helpRequest : List Text → Request
  | [] => .help
  | [name] => if commandNames.contains name then .help else .unusable
  | _ => .unusable

/-- What the arguments of the program ask for. -/
def parse : List Text → Request
  | [] => .unusable
  | name :: args =>
    if name = "catalog".toList then
      request ⟨0, false⟩ args fun _ => some .catalog
    else if name = "generate".toList then
      request ⟨1, false⟩ args fun g => match g.files with
        | [w] => some (.generate w)
        | _ => none
    else if name = "run".toList then
      request ⟨1, true⟩ args fun g => match g.files with
        | [w] => some (.run w g.options)
        | _ => none
    else if name = "exec".toList then
      request ⟨1, true⟩ args fun g => match g.files with
        | [s] => some (.exec s g.options)
        | _ => none
    else if name = "convert".toList then
      request ⟨2, false⟩ args fun g => match g.files with
        | [i, o] => some (.convert i o)
        | _ => none
    else if name = "help".toList then helpRequest args
    else if name = "--help".toList then .help
    else if name = "--version".toList then .version
    else match name with
      | '-' :: 'h' :: _ => .help
      | '-' :: 'V' :: _ => .version
      | _ => .unusable

end CommandLine
end BlockCanvas
