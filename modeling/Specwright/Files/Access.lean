/-!
# Access to files

What the commands need of a file system: reading a file as a text and writing one.  Commands take
the access as a parameter, so that they run on files in memory as well as on a disk.
-/

namespace Specwright

/-- What is found under a path. -/
inductive FileContent where
  /-- There is nothing under the path. -/
  | missing
  /-- There is something that is no text: a directory, or bytes that encode none. -/
  | unreadable
  /-- A file with a text. -/
  | text (content : String)
  deriving Repr, DecidableEq, Inhabited

namespace FileContent

/-- The text of a file that has one. -/
def text? : FileContent → Option String
  | .text content => some content
  | _ => none

end FileContent

/-- Reading and writing of files by path, where each step is an action of `m`. -/
structure FileAccess (m : Type → Type) where
  read : String → m FileContent
  /-- Writes a file and tells whether that worked. -/
  write : String → String → m Bool

end Specwright
