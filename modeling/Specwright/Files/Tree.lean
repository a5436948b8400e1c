import Specwright.Files.Access
import Specwright.Text.Split

/-!
# File trees in memory

A tree of directories and files below one root.  A path that does not start with a slash is followed
from the working directory; the directory above the root is the root itself.  Each step of a path
but the last has to arrive at a directory, which is why a path to a file cannot have a slash at its
end.
-/

namespace Specwright

/-- What stands at a location of a tree. -/
inductive FileNode where
  | file (content : ByteArray)
  | directory
  /-- A device that is always empty and takes every text without keeping it. -/
  | sink

namespace FileNode

/-- The node as the content of a path. -/
def content : FileNode → FileContent
  | .file bytes =>
    match String.fromUTF8? bytes with
    | some text => .text text
    | none => .unreadable
  | .directory => .unreadable
  | .sink => .text ""

end FileNode

/-- The names from the directory at the root of a tree to what stands in it. -/
abbrev Location :=
  List String

/-- A tree by its entries and its working directory.  The directories above an entry need no entries
of their own, nor do the working directory and those above it. -/
structure FileTree where
  entries : List (Location × FileNode) := []
  workingDirectory : Location := []

namespace FileTree

/-- The tree without files. -/
def empty : FileTree := {}

/-- The node at a location. -/
def node? (tree : FileTree) (location : Location) : Option FileNode :=
  match tree.entries.lookup location with
  | some node => some node
  | none =>
    if location.isPrefixOf tree.workingDirectory ||
        tree.entries.any fun (other, _) => location.isPrefixOf other
    then some .directory else none

/-- Whether there is a directory at a location. -/
def isDirectory (tree : FileTree) (location : Location) : Bool :=
  match tree.node? location with
  | some .directory => true
  | _ => false

/-- The tree with a node at a location, in the place of one that stands there. -/
def put (tree : FileTree) (location : Location) (node : FileNode) : FileTree :=
  { tree with entries := (location, node) :: tree.entries.filter (·.1 ≠ location) }

/-- Whether a file can have a name: at most 255 bytes, none of them zero. -/
def isName (name : String) : Bool :=
  decide (name.utf8ByteSize ≤ 255) && !name.toList.contains '\x00'

/-- Follows the steps of a path from a location. -/
def follow (tree : FileTree) : List String → Location → Option Location
  | [], location => some location
  | step :: rest, location =>
    if !tree.isDirectory location then none
    else if step = "" ∨ step = "." then follow tree rest location
    else if step = ".." then follow tree rest location.dropLast
    else if isName step then follow tree rest (location ++ [step])
    else none

/-- The steps of a path. -/
def steps (path : String) : List String :=
  (Text.splitAtEach '/' path.toList).map String.ofList

/-- Where the steps of a path start: at the root after a slash, else at the working directory. -/
def start (tree : FileTree) (path : String) : Location :=
  if path.toList.head? == some '/' then [] else tree.workingDirectory

/-- The location of a path.  The empty path and one of more than 4095 bytes have none. -/
def locate? (tree : FileTree) (path : String) : Option Location :=
  if path.isEmpty || decide (4095 < path.utf8ByteSize) then none
  else tree.follow (steps path) (tree.start path)

/-- What is found under a path. -/
def read (tree : FileTree) (path : String) : FileContent :=
  match (tree.locate? path).bind tree.node? with
  | some node => node.content
  | none => .missing

/-- The tree after a text is written under a path, unless there is no directory for it or it would
take the place of one. -/
def write? (tree : FileTree) (path content : String) : Option FileTree := do
  let location ← tree.locate? path
  match tree.node? location with
  | some .directory => none
  | some .sink => pure tree
  | _ => pure (tree.put location (.file content.toUTF8))

/-- Follows the steps of a path from a location in a tree that is changed to admit them: what a step
upwards leaves is made a directory. -/
def descend (tree : FileTree) : List String → Location → FileTree × Location
  | [], location => (tree, location)
  | step :: rest, location =>
    if step = "" ∨ step = "." then descend tree rest location
    else if step = ".." then
      let tree := if tree.isDirectory location then tree else tree.put location .directory
      descend tree rest location.dropLast
    else descend tree rest (location ++ [step])

/-- The tree with a node at the end of a path, and the directories that the path needs. -/
def place (tree : FileTree) (path : String) (node : FileNode) : FileTree :=
  let (tree, location) := tree.descend (steps path) (tree.start path)
  tree.put location node

/-- The tree with nodes at the ends of paths, one after the other. -/
def placeAll (tree : FileTree) (nodes : List (String × FileNode)) : FileTree :=
  nodes.foldl (fun tree (path, node) => tree.place path node) tree

/-- The access to the files of a tree, which changes with what is written. -/
def access : FileAccess (StateM FileTree) where
  read path := do
    pure ((← get).read path)
  write path content := do
    match (← get).write? path content with
    | some tree =>
      set tree
      pure true
    | none => pure false

end FileTree

end Specwright
