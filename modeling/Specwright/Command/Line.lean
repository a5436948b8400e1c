import Specwright.Command.Basic

/-!
# The command line

What the words of a command line ask for.  Options may stand before the name of the command, behind
it, or both if they apply to every command; words are taken one after the other, so that the first
one that decides something on its own decides.  Every option takes one value, which is either the
next word or stands behind an equals sign.
-/

namespace Specwright

/-- What values an option takes. -/
inductive OptionValue where
  /-- A path that is not empty. -/
  | path
  /-- Any text. -/
  | text
  /-- One of some labels. -/
  | choice (labels : List String)
  deriving Repr, DecidableEq, Inhabited

namespace OptionValue

/-- Whether an option takes a value. -/
def accepts : OptionValue → String → Bool
  | .path, value => !value.isEmpty
  | .text, _ => true
  | .choice labels, value => labels.contains value

end OptionValue

/-- An option, by its name without the dashes before it. -/
structure OptionRule where
  name : String
  value : OptionValue
  required : Bool := false
  repeatable : Bool := false
  deriving Repr, DecidableEq, Inhabited

/-- The options of a command line with their values, in order. -/
abbrev GivenOptions :=
  List (String × String)

namespace GivenOptions

/-- The value of an option. -/
def get? (given : GivenOptions) (name : String) : Option String :=
  given.lookup name

/-- The value of an option that is known to be given. -/
def get (given : GivenOptions) (name : String) : String :=
  (given.get? name).getD ""

/-- The values of an option that may be repeated. -/
def all (given : GivenOptions) (name : String) : List String :=
  (given.filter (·.1 = name)).map (·.2)

/-- Whether all options that are required are given. -/
def complete (given : GivenOptions) (rules : List OptionRule) : Bool :=
  rules.all fun rule => !rule.required || (given.get? rule.name).isSome

end GivenOptions

/-- What a command line asks for instead of a command. -/
inductive Interruption where
  | help
  | version
  /-- Nothing, since it makes no sense. -/
  | usageError
  deriving Repr, DecidableEq, Inhabited

/-- The options at one place of a command line. -/
structure OptionLevel where
  rules : List OptionRule
  /-- Whether the version may be asked for. -/
  hasVersion : Bool := false

namespace OptionLevel

/-- The name and the value of a word such as `name=value`, without the dashes before it. -/
def splitWord (word : String) : String × Option String :=
  let chars := word.toList.drop 2
  let name := String.ofList (chars.takeWhile (· ≠ '='))
  match chars.dropWhile (· ≠ '=') with
  | [] => (name, none)
  | _ :: value => (name, some (String.ofList value))

/-- Whether a word cannot be a value that stands on its own. -/
def looksLikeOption (word : String) : Bool :=
  word.toList.head? == some '-' && word ≠ "-"

/-- The options with one more, if its value fits and it may be given. -/
def give (level : OptionLevel) (name value : String) (given : GivenOptions) :
    Except Interruption GivenOptions :=
  match level.rules.find? (·.name = name) with
  | none => .error .usageError
  | some rule =>
    if rule.value.accepts value && (rule.repeatable || (given.get? name).isNone)
    then .ok (given ++ [(name, value)])
    else .error .usageError

/-- What is asked for by a word with one dash. -/
def shortWord (level : OptionLevel) (word : String) : Interruption :=
  match word.toList.drop 1 with
  | 'h' :: _ => .help
  | 'V' :: _ => if level.hasVersion then .version else .usageError
  | _ => .usageError

/-- What is asked for by an option that takes no value. -/
def bareOption? (level : OptionLevel) (name : String) : Option Interruption :=
  if name = "help" then some .help
  else if name = "version" ∧ level.hasVersion then some .version
  else none

/-- Takes options off the front of a list of words, up to a word that is none.  Two dashes end the
options; nothing may come after them. -/
def take (level : OptionLevel) :
    List String → GivenOptions → Except Interruption (GivenOptions × List String)
  | [], given => .ok (given, [])
  | word :: rest, given =>
    if !looksLikeOption word then .ok (given, word :: rest)
    else if word = "--" then
      if rest.isEmpty then .ok (given, []) else .error .usageError
    else if !word.startsWith "--" then .error (level.shortWord word)
    else
      match splitWord word, level.bareOption? (splitWord word).1 with
      | (_, none), some interruption => .error interruption
      | (_, some _), some _ => .error .usageError
      | (name, some value), none =>
        match level.give name value given with
        | .ok given => take level rest given
        | .error interruption => .error interruption
      | (name, none), none =>
        match rest with
        | value :: rest =>
          if looksLikeOption value then .error .usageError
          else
            match level.give name value given with
            | .ok given => take level rest given
            | .error interruption => .error interruption
        | [] => .error .usageError

end OptionLevel

/-- How the result of generation is printed. -/
inductive OutputFormat where
  /-- As the source text of the class. -/
  | source
  /-- As a response. -/
  | json
  deriving Repr, DecidableEq, Inhabited

/-- A command of the command line. -/
inductive Command where
  | generate (command : GenerateCommand) (format : OutputFormat)
  | inspect (command : InspectCommand)
  deriving Repr, DecidableEq, Inhabited

/-- A command with the files that its settings come from. -/
structure CommandLine where
  config : Option String
  project : Option String
  command : Command
  deriving Repr, DecidableEq, Inhabited

namespace CommandLine

/-- The options of every command. -/
def globalRules : List OptionRule := [
  { name := "config", value := .path },
  { name := "project", value := .path },
  { name := "log-level", value := .choice ["trace", "debug", "info", "warn", "error"] }]

/-- The options with the snapshot and the class in it. -/
def subjectRules : List OptionRule := [
  { name := "snapshot", value := .path, required := true },
  { name := "class", value := .text, required := true }]

/-- The options of the command that generates. -/
def generateRules : List OptionRule := subjectRules ++ [
  { name := "method", value := .text, required := true, repeatable := true },
  { name := "target", value := .path },
  { name := "out", value := .path },
  { name := "format", value := .choice ["source", "json"] }]

/-- The options of a command and its making from those that are given. -/
structure CommandRule where
  name : String
  rules : List OptionRule
  make : GivenOptions → Command

/-- The commands. -/
def commandRules : List CommandRule := [
  { name := "generate"
    rules := generateRules
    make := fun given => .generate {
      snapshot := given.get "snapshot"
      className := given.get "class"
      methods := given.all "method"
      target := given.get? "target"
      out := given.get? "out" }
      (if given.get? "format" = some "json" then .json else .source) },
  { name := "inspect"
    rules := subjectRules
    make := fun given => .inspect {
      snapshot := given.get "snapshot"
      className := given.get "class" } }]

/-- Whether there is help on what follows the command that shows it: nothing, or one command. -/
def hasHelpOn : List String → Bool
  | [] => true
  | [name] => name = "help" || commandRules.any (·.name = name)
  | _ => false

/-- Reads the words behind the name of a command.  What is given there wins over what is given
before the name. -/
def ofCommandWords (rule : CommandRule) (outer : GivenOptions) (words : List String) :
    Except Interruption CommandLine := do
  let (given, rest) ← OptionLevel.take ⟨rule.rules ++ globalRules, false⟩ words []
  if !rest.isEmpty || !given.complete rule.rules then throw .usageError
  pure {
    config := (given.get? "config").or (outer.get? "config")
    project := (given.get? "project").or (outer.get? "project")
    command := rule.make given }

/-- Reads the words of a command line. -/
def ofWords (words : List String) : Except Interruption CommandLine := do
  match ← OptionLevel.take ⟨globalRules, true⟩ words [] with
  | (_, []) => throw .usageError
  | (given, name :: rest) =>
    match commandRules.find? (·.name = name) with
    | some rule => ofCommandWords rule given rest
    | none =>
      if name = "help" ∧ hasHelpOn rest then throw .help else throw .usageError

end CommandLine

/-- The end of a run: its exit code and what it prints. -/
structure Outcome where
  exit : Nat
  output : String
  deriving Repr, DecidableEq, Inhabited

namespace Outcome

/-- The name and the version of the program on a line. -/
def version : String := "testsmith 0.1.0\n"

/-- How the program is used. -/
def usage : String :=
  "Usage: testsmith [OPTIONS] <COMMAND>\n\n"
    ++ "Commands:\n"
    ++ "  generate --snapshot <PATH> --class <NAME> --method <METHOD>...\n"
    ++ "           [--target <PATH>] [--out <PATH>] [--format <source|json>]\n"
    ++ "  inspect  --snapshot <PATH> --class <NAME>\n"
    ++ "  help     Print this text\n\n"
    ++ "Options:\n"
    ++ "  --config <PATH>, --project <PATH>, --log-level <LEVEL>, -h, --help, -V, --version\n"

/-- The outcome of a command line without a command. -/
def ofInterruption : Interruption → Outcome
  | .help => ⟨0, usage⟩
  | .version => ⟨0, version⟩
  | .usageError => ⟨2, ""⟩

/-- The outcome of a command, by what it prints when it succeeds. -/
def ofResult : Except Failure String → Outcome
  | .ok output => ⟨0, output⟩
  | .error failure => ⟨failure.code, Response.text failure.response⟩

end Outcome

variable {m : Type → Type} [Monad m]

namespace Command

/-- Runs a command and gives what it prints. -/
def run (files : FileAccess m) (settings : Settings) : Command → CommandM m String
  | .generate command format => do
    let response ← command.run files settings
    match format with
    | .json => pure (Response.text response.toJson)
    | .source => pure (response.source.getD "")
  | .inspect command => do
    pure (Response.text (← command.run files settings))

end Command

namespace CommandLine

/-- Loads the settings of a command and runs it. -/
def run (line : CommandLine) (files : FileAccess m) : CommandM m String := do
  let settings ← files.settings line.config line.project
  line.command.run files settings

/-- Does what the words of a command line ask for. -/
def runWords (files : FileAccess m) (words : List String) : m Outcome :=
  match ofWords words with
  | .ok line => do
    pure (.ofResult (← (line.run files).run))
  | .error interruption => pure (.ofInterruption interruption)

end CommandLine

end Specwright
