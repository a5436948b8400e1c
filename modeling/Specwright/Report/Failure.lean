import Specwright.Json.Basic
import Specwright.Target.Generation

/-!
# Reported failures

A command that fails is reported with a code, a message and for some kinds of failure with details.
The code is also the exit code of the command line.
-/

namespace Specwright

/-- A failed command, by the kind that is reported. -/
inductive Failure where
  /-- The caller asked for something that makes no sense. -/
  | invalidArguments (message : String) (details : Option Json)
  /-- There is no class under test of the name. -/
  | classNotFound (name : String)
  /-- A file is missing or cannot be read as text. -/
  | fileNotFound (path : String)
  /-- A selected method cannot be tested. -/
  | notTestable (type method : String)
  /-- A text could not be written. -/
  | render (message : String)
  /-- The target cannot be generated into. -/
  | target (message target : String)
  /-- The settings could not be loaded. -/
  | config (message : String)
  /-- Something else went wrong. -/
  | internal (message : String)

namespace Failure

/-- The code under which a failure is reported. -/
def code : Failure → Nat
  | .invalidArguments .. => 2
  | .config _ => 2
  | .classNotFound _ => 3
  | .fileNotFound _ => 3
  | .target .. => 4
  | .notTestable .. => 6
  | .render _ => 6
  | .internal _ => 10

/-- The message of a failure. -/
def message : Failure → String
  | .invalidArguments message _ => "invalid arguments: " ++ message
  | .classNotFound name => "class not found: " ++ name
  | .fileNotFound path => "file not found: " ++ path
  | .notTestable type method =>
    "method '" ++ method ++ "' of " ++ type ++ " cannot be tested; generation aborted"
  | .render message => "render error: " ++ message
  | .target message _ => "target error: " ++ message
  | .config message => "config error: " ++ message
  | .internal message => "internal error: " ++ message

/-- What is told about a failure besides its message. -/
def details? : Failure → Option Json
  | .invalidArguments _ details => details
  | .notTestable type method => some (.obj [("class", .str type), ("method", .str method)])
  | .target _ name => some (.obj [("target", .str name)])
  | _ => none

/-- The failure of a search in method bodies. -/
def ofSearch (failure : SearchFailure) : Failure :=
  .internal failure.message

/-- The failure of opening a target. -/
def ofTarget (cause : StoreRefusal) : Failure :=
  .target cause.message cause.target

/-- The failure of filling a shape. -/
def ofShape (cause : ShapeError) : Failure :=
  .render cause.message

/-- The failure of extending a fixture method. -/
def ofFixture (cause : FixtureError) : Failure :=
  .render cause.message

/-- The failure of a request. -/
def ofGeneration : GenerationFailure → Failure
  | .classNotFound name => .classNotFound name
  | .notTestable type method => .notTestable type method
  | .shape cause => .ofShape cause
  | .fixture cause => .ofFixture cause
  | .target cause => .ofTarget cause

end Failure

end Specwright
