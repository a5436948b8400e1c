import Specwright.Files.Access
import Specwright.Json.Parser
import Specwright.Host.Codec
import Specwright.Report.Response
import Specwright.Settings.Codec
import Specwright.Target.Codec
import Specwright.Toml.Parser

/-!
# Commands

The two commands and the settings that they run under.  A command loads what it needs from files,
one file after the other, and the first that cannot be loaded decides how it fails; only a command
that has succeeded otherwise writes a file.
-/

namespace Specwright

/-- What to generate, from which files, and into which. -/
structure GenerateCommand where
  /-- The file with the snapshot. -/
  snapshot : String
  className : String
  /-- The selected methods as they are given. -/
  methods : List String
  /-- The file with the class to generate into. -/
  target : Option String := none
  /-- The file that the class is written to. -/
  out : Option String := none
  deriving Repr, DecidableEq, Inhabited

/-- Which class to inspect. -/
structure InspectCommand where
  /-- The file with the snapshot. -/
  snapshot : String
  className : String
  deriving Repr, DecidableEq, Inhabited

/-- A command in the making: it may fail and works on files. -/
abbrev CommandM (m : Type → Type) :=
  ExceptT Failure m

variable {m : Type → Type} [Monad m]

namespace FileAccess

/-- The text of a file that has to be there. -/
def require (files : FileAccess m) (path : String) : CommandM m String := do
  match ← files.read path with
  | .text content => pure content
  | _ => throw (.fileNotFound path)

/-- The snapshot in a file. -/
def snapshot (files : FileAccess m) (path : String) : CommandM m Snapshot := do
  let content ← files.require path
  match (Json.parse? content).bind Snapshot.ofJson? with
  | some snapshot => pure snapshot
  | none => throw (.invalidArguments "malformed class snapshot" none)

/-- The class in a file. -/
def testClass (files : FileAccess m) (path : String) : CommandM m TestClass := do
  let content ← files.require path
  match (Json.parse? content).bind TestClass.ofJson? with
  | some testClass => pure testClass
  | none => throw (.invalidArguments "malformed target class" none)

/-- The settings in what is found under a path; `absent` is what it means that nothing is. -/
def settingsAt
    (files : FileAccess m) (path : String) (absent : CommandM m Settings) :
    CommandM m Settings := do
  match ← files.read path with
  | .missing => absent
  | .unreadable => throw (.config ("failed to read config file " ++ path))
  | .text content =>
    match (Toml.parse? content).bind Settings.ofDocument? with
    | some settings => pure settings
    | none => throw (.config ("failed to parse config file " ++ path))

/-- The path of the settings file of a project. -/
def projectSettingsPath (root : String) : String :=
  let separator := if root.isEmpty || root.toList.getLast? == some '/' then "" else "/"
  root ++ separator ++ ".testsmith/config.toml"

/-- The settings to run under.  A file that is named has to be there; the file of a project may be
missing, and so may both names. -/
def settings (files : FileAccess m) (config project : Option String) : CommandM m Settings :=
  match config, project with
  | some path, _ => files.settingsAt path (throw (.fileNotFound path))
  | none, some root => files.settingsAt (projectSettingsPath root) (pure .standard)
  | none, none => pure .standard

end FileAccess

namespace GenerateCommand

/-- The store and the task of a command.  A class to generate into is the only one of the
store, and the target of the task. -/
def task (command : GenerateCommand) (existing : Option TestClass) :
    Store × GenerationTask :=
  let store : Store := { allowCreate := true }
  ((existing.map store.insert).getD store, {
    className := command.className
    selection := Selection.ofEntries command.methods
    target := existing.map (·.qualifiedName) })

/-- Runs the command. -/
def run (command : GenerateCommand) (files : FileAccess m) (settings : Settings) :
    CommandM m GenerationSummary := do
  if (Selection.ofEntries command.methods).isEmpty then
    throw (.invalidArguments "at least one method must be selected" none)
  let snapshot ← files.snapshot command.snapshot
  let existing ← command.target.mapM files.testClass
  let (store, task) := command.task existing
  match settings.generate snapshot store task with
  | (.error cause, _) => throw (.ofGeneration cause)
  | (.ok report, store) =>
    match store.get? report.target with
    | none => throw (.internal ("target '" ++ report.target ++ "' missing after generation"))
    | some testClass =>
      if let some path := command.out then
        if !(← files.write path testClass.toJson.pretty) then
          throw (.internal ("failed to write " ++ path))
      pure (.ofReport report testClass.sourceText)

end GenerateCommand

namespace InspectCommand

/-- Runs the command. -/
def run (command : InspectCommand) (files : FileAccess m) (settings : Settings) :
    CommandM m Json := do
  let snapshot ← files.snapshot command.snapshot
  match Scope.open? snapshot command.className settings.modelOptions with
  | none => throw (.classNotFound command.className)
  | some scope =>
    let (type, cache) := (Session.extractSubject scope).run .empty
    pure (type.inspection cache.stats)

end InspectCommand

end Specwright
