import Dimensional.Compiler
import Dimensional.ReadError
import Dimensional.Report
import Dimensional.Scope.Description

/-! The command line: its arguments, and what it does with the files that they name. -/
namespace Dimensional.CommandLine

/-- What the arguments ask for. -/
structure Options where
  files : List String := []
  scope? : Option String := none
  report? : Option Report := none
  numeric : Bool := false
  logJson : Bool := false
deriving DecidableEq, Repr

/-- What is done instead of processing files. -/
inductive Detour where
  | refuse
  | help
  | version
deriving DecidableEq, Repr

/-- The report of a name. -/
def reportNamed? : String → Option Report
  | "summary" => some .summary
  | "tree" => some (.drawing .ascii)
  | "dot" => some (.drawing .dot)
  | "mermaid" => some (.drawing .mermaid)
  | _ => none

namespace Options

/-- Files have a name. -/
def addFile (options : Options) (path : String) : Except Detour Options :=
  if path.isEmpty then .error .refuse else .ok { options with files := options.files ++ [path] }

/-- A scope is named once at most. -/
def setScope (options : Options) (path : String) : Except Detour Options :=
  if path.isEmpty || options.scope?.isSome then .error .refuse
  else .ok { options with scope? := some path }

/-- A report is chosen once at most. -/
def setReport (options : Options) (name : String) : Except Detour Options :=
  match reportNamed? name, options.report? with
  | some report, none => .ok { options with report? := some report }
  | _, _ => .error .refuse

/-- One-letter options stand together after one dash. -/
def addLetters (options : Options) : List Char → Except Detour Options
  | [] => .ok options
  | 'v' :: letters => options.addLetters letters
  | 'h' :: _ => .error .help
  | 'V' :: _ => .error .version
  | _ => .error .refuse

/-- An option without a value. -/
def addFlag (options : Options) : String → Except Detour Options
  | "--verbose" => .ok options
  | "--help" => .error .help
  | "--version" => .error .version
  | "--numeric" => if options.numeric then .error .refuse else .ok { options with numeric := true }
  | "--log-json" => if options.logJson then .error .refuse else .ok { options with logJson := true }
  | _ => .error .refuse

/-- The setter of an option that takes a value. -/
def setter? (options : Options) : String → Option (String → Except Detour Options)
  | "--scope" => some options.setScope
  | "--format" => some options.setReport
  | _ => none

/-- An option with its value behind an equals sign. -/
def addAssignment (options : Options) (cs : List Char) : Except Detour Options :=
  let name := String.ofList (cs.takeWhile (· != '='))
  match options.setter? name, cs.dropWhile (· != '=') with
  | some set, _ :: value => set (String.ofList value)
  | _, _ => .error .refuse

/-- Whether an argument is an option, and so no value of another one. -/
def isOption (argument : String) : Bool :=
  match argument.toList with
  | '-' :: _ :: _ => true
  | _ => false

/-- Take in an argument that takes no further one: an option or a file. -/
def addAlone (options : Options) (argument : String) : Except Detour Options :=
  match argument.toList with
  | '-' :: '-' :: _ =>
    if argument.toList.contains '=' then options.addAssignment argument.toList
    else options.addFlag argument
  | '-' :: letter :: letters => options.addLetters (letter :: letters)
  | _ => options.addFile argument

/-- Take in the arguments from left to right. After `--` all are files. -/
def add (options : Options) : List String → Except Detour Options
  | [] => .ok options
  | "--" :: files => files.foldlM addFile options
  | argument :: rest =>
    match options.setter? argument, rest with
    | some _, [] => .error .refuse
    | some set, value :: rest =>
      if isOption value then .error .refuse else do (← set value).add rest
    | none, rest => do (← options.addAlone argument).add rest
termination_by arguments => arguments.length

/-- The options that arguments stand for. At least one file is needed. -/
def ofArguments (arguments : List String) : Except Detour Options := do
  let options ← ({} : Options).add arguments
  if options.files.isEmpty then throw .refuse
  return options

end Options

/-- The text of a file. -/
def decode : Except ReadError ByteArray → Except String String
  | .error error => .error error.message
  | .ok bytes =>
    match String.fromUTF8? bytes with
    | some text => .ok text
    | none => .error "stream did not contain valid UTF-8"

/-- What a run leaves: its exit code and what it wrote. -/
structure Outcome where
  exitCode : Nat
  stdout : String
  errors : List String
deriving DecidableEq, Repr

def Outcome.stderr (outcome : Outcome) : String :=
  String.join (outcome.errors.map fun error => "error: " ++ error ++ "\n")

/-- The chain of causes of an error in an expression. -/
def causes : ParseError → List String
  | .algebra error location => [(ParseError.algebra error location).message, error.message]
  | error => [error.message]

/-- The scope that the options name. -/
def scopeOf (path : String) (content : Except ReadError ByteArray) : Except String Scope :=
  match decode content with
  | .error reason => .error ("Failed to read scope file " ++ path ++ ": " ++ reason)
  | .ok text =>
    match Scope.ofText text with
    | .error error =>
      .error ("Invalid scope file " ++ path ++ ": " ++
        error.message?.getD "Scope configuration error: malformed")
    | .ok scope => .ok scope

/-- The report on a file. One compiler reads all files of a run. -/
def process (compiler : Compiler) (options : Options) (path : String)
    (content : Except ReadError ByteArray) : Except String String :=
  match decode content with
  | .error reason => .error ("Failed to read " ++ path ++ ": " ++ reason)
  | .ok source =>
    let grammar := if options.numeric then .numeric else .quantity
    match compiler.statements grammar source with
    | .error error => .error ("Failed to compile " ++ path ++ ": " ++ ": ".intercalate (causes error))
    | .ok expressions => .ok ((options.report?.getD .summary).render path expressions)

/-- Collect the results for all files. A failure keeps none of the others back. -/
def summarize (results : List (Except String String)) : Outcome :=
  let outputs := results.filterMap Except.toOption
  let errors := results.filterMap fun
    | .error error => some error
    | .ok _ => none
  ⟨if errors.isEmpty then 0 else 1, String.join outputs, errors⟩

/-- Process the files that the options name, in order. -/
def processAll {m : Type → Type} [Monad m] (read : String → m (Except ReadError ByteArray))
    (options : Options) : m Outcome := do
  let scope ← match options.scope? with
    | none => pure (.ok .si)
    | some path => scopeOf path <$> read path
  match scope with
  | .error error => return ⟨1, "", [error]⟩
  | .ok scope =>
    let compiler := Compiler.ofScope scope
    return summarize (← options.files.mapM fun path => process compiler options path <$> read path)

/-- How the command line is used. -/
def usage : String :=
  "Dimensional analysis for Newton expressions\n\n" ++
  "Usage: newton [OPTIONS] <FILES>...\n\n" ++
  "Arguments:\n" ++
  "  <FILES>...  Expression files to process\n\n" ++
  "Options:\n" ++
  "      --scope <PATH>     JSON scope configuration (dimensions, constants, quantities)\n" ++
  "      --numeric          Parse files as numeric expressions instead of quantity expressions\n" ++
  "      --format <FORMAT>  Output format: summary, tree, dot or mermaid [default: summary]\n" ++
  "  -v, --verbose...       Increase log verbosity (-v, -vv, -vvv)\n" ++
  "      --log-json         Emit logs as JSON\n" ++
  "  -h, --help             Print help\n" ++
  "  -V, --version          Print version\n"

/-- Do what the arguments ask for, with the given way to read files. -/
def run {m : Type → Type} [Monad m] (read : String → m (Except ReadError ByteArray))
    (arguments : List String) : m Outcome :=
  match Options.ofArguments arguments with
  | .error .refuse => pure ⟨2, "", []⟩
  | .error .help => pure ⟨0, usage, []⟩
  | .error .version => pure ⟨0, "newton 0.1.0\n", []⟩
  | .ok options => processAll read options

end Dimensional.CommandLine
