import Specwright.Distinct
import Specwright.Host.ClassDecl
import Specwright.Text.Blank

/-!
# Snapshots of host classes

A snapshot holds the classes that a host handed over, one of each name and sorted by name, and says
which views of method bodies the host filled in.  A view that is not filled in is no evidence that
there is nothing to see, so searches in it fail instead of finding nothing.
-/

namespace Specwright

/-- A view of method bodies that a snapshot may or may not have filled in. -/
inductive BodyView where
  | callSites
  | methodReferences
  | references
  | fieldWrites
  deriving DecidableEq, Repr

namespace BodyView

/-- All views, in the order in which they are written. -/
def all : List BodyView :=
  [.callSites, .methodReferences, .references, .fieldWrites]

end BodyView

/-- A set of views. -/
structure BodyViews where
  callSites : Bool
  methodReferences : Bool
  references : Bool
  fieldWrites : Bool
  deriving DecidableEq, Repr

namespace BodyViews

/-- Whether a view belongs to the set. -/
def has (set : BodyViews) : BodyView → Bool
  | .callSites => set.callSites
  | .methodReferences => set.methodReferences
  | .references => set.references
  | .fieldWrites => set.fieldWrites

/-- The set of the views in a list. -/
def ofList (views : List BodyView) : BodyViews where
  callSites := decide (.callSites ∈ views)
  methodReferences := decide (.methodReferences ∈ views)
  references := decide (.references ∈ views)
  fieldWrites := decide (.fieldWrites ∈ views)

/-- The views of the set, in the order in which they are written. -/
def toList (set : BodyViews) : List BodyView :=
  BodyView.all.filter set.has

theorem ofList_toList (set : BodyViews) : ofList set.toList = set := by
  rcases set with ⟨a, b, c, d⟩
  cases a <;> cases b <;> cases c <;> cases d <;> rfl

end BodyViews

/-- The order of classes in a snapshot. -/
def ClassDecl.Before (a b : ClassDecl) : Prop :=
  a.name < b.name

/-- Puts a class in its place by name, where it replaces the class of the same name. -/
def ClassDecl.insertByName (decl : ClassDecl) : List ClassDecl → List ClassDecl
  | [] => [decl]
  | other :: rest =>
    if decl.name < other.name then decl :: other :: rest
    else if decl.name = other.name then decl :: rest
    else other :: insertByName decl rest

theorem ClassDecl.mem_insertByName
    {decl other : ClassDecl} {classes : List ClassDecl}
    (h : other ∈ insertByName decl classes) :
    other = decl ∨ other ∈ classes := by
  induction classes with
  | nil => simpa [insertByName] using h
  | cons first rest ih =>
    rw [insertByName] at h
    split at h
    · simpa using h
    · split at h
      · rcases List.mem_cons.mp h with rfl | h
        · exact .inl rfl
        · exact .inr (List.mem_cons_of_mem _ h)
      · rcases List.mem_cons.mp h with rfl | h
        · exact .inr List.mem_cons_self
        · exact (ih h).imp id (List.mem_cons_of_mem _)

/-- Inserting keeps the order. -/
theorem ClassDecl.pairwise_insertByName
    {decl : ClassDecl} {classes : List ClassDecl}
    (h : classes.Pairwise Before) :
    (insertByName decl classes).Pairwise Before := by
  induction classes with
  | nil => simp [insertByName]
  | cons first rest ih =>
    obtain ⟨hfirst, hrest⟩ := List.pairwise_cons.mp h
    rw [insertByName]
    split
    · next hlt =>
      refine List.pairwise_cons.mpr ⟨fun other hmem => ?_, h⟩
      rcases List.mem_cons.mp hmem with rfl | hmem
      · exact hlt
      · exact String.lt_trans hlt (hfirst other hmem)
    · next hge =>
      split
      · next heq =>
        refine List.pairwise_cons.mpr ⟨fun other hmem => ?_, hrest⟩
        have : first.name < other.name := hfirst other hmem
        show decl.name < other.name
        rwa [heq]
      · next hne =>
        refine List.pairwise_cons.mpr ⟨fun other hmem => ?_, ih hrest⟩
        rcases mem_insertByName hmem with rfl | hmem
        · show first.name < other.name
          have hle : first.name ≤ other.name := String.not_lt.mp hge
          refine Decidable.byContradiction fun hnot => hne ?_
          exact String.le_antisymm (String.not_lt.mp hnot) hle
        · exact hfirst other hmem

/-- A search in method bodies that could not be carried out. -/
structure SearchFailure where
  owner : String
  method : String
  reason : String
  deriving Repr, DecidableEq

namespace SearchFailure

/-- The message of a failed search. -/
def message (failure : SearchFailure) : String :=
  "reference search failed in " ++ failure.owner ++ "." ++ failure.method ++ ": "
    ++ failure.reason

end SearchFailure

/-- The classes that a host handed over and the views of method bodies that it filled in, which are
all of them where it names none. -/
structure Snapshot where
  classes : List ClassDecl
  views : Option BodyViews := none
  sorted : classes.Pairwise ClassDecl.Before

namespace Snapshot

/-- The snapshot without classes. -/
def empty : Snapshot where
  classes := []
  sorted := .nil

instance : Inhabited Snapshot :=
  ⟨empty⟩

/-- Adds a class, which replaces the class of the same name. -/
def insert (snapshot : Snapshot) (decl : ClassDecl) : Snapshot where
  classes := decl.insertByName snapshot.classes
  views := snapshot.views
  sorted := ClassDecl.pairwise_insertByName snapshot.sorted

/-- Adds classes one after the other. -/
def insertAll (snapshot : Snapshot) (classes : List ClassDecl) : Snapshot :=
  classes.foldl insert snapshot

/-- The snapshot of a list of classes, the last of each name. -/
def ofClasses (classes : List ClassDecl) : Snapshot :=
  empty.insertAll classes

/-- The snapshot with other views. -/
def withViews (snapshot : Snapshot) (views : Option BodyViews) : Snapshot :=
  { snapshot with views := views }

/-- The class of a qualified name. -/
def find? (snapshot : Snapshot) (name : String) : Option ClassDecl :=
  snapshot.classes.find? (·.name = name)

/-- The names of the classes, sorted. -/
def names (snapshot : Snapshot) : List String :=
  snapshot.classes.map (·.name)

/-- Whether a view of method bodies is filled in. -/
def fills (snapshot : Snapshot) (view : BodyView) : Bool :=
  snapshot.views.all (·.has view)

/-- A class that was found has the name that was looked for. -/
theorem name_of_find?
    {snapshot : Snapshot} {name : String} {decl : ClassDecl}
    (h : snapshot.find? name = some decl) :
    decl.name = name := by
  simpa using List.find?_some h

/-- The fields that a method of `owner` assigns a parameter to, by name and without repetition:
those with a write whose value is the parameter and nothing else, blanks around it aside. -/
def namesAssignedFrom
    (snapshot : Snapshot) (owner : ClassDecl) (method : MethodDecl)
    (param : String) : Except SearchFailure (List String) :=
  if snapshot.fills .fieldWrites then
    .ok (distinct
      ((method.fieldWrites.filter fun write => Text.trim write.value = param).map (·.field)))
  else .error ⟨owner.name, method.name, "snapshot carries no field writes"⟩

end Snapshot

end Specwright
