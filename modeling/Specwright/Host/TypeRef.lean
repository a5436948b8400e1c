import Specwright.Text.Dotted

/-!
# Type references

A type as it is written at a declaration or a use: a name, type arguments, what the name stands for
and a number of array dimensions.  Its spelling identifies the type for every comparison by
text; substitution replaces type parameters by the types bound to them.
-/

namespace Specwright

/-- What the name of a type reference stands for. -/
inductive TypeSort where
  /-- A class, interface, enum or other reference type. -/
  | reference
  /-- A primitive keyword. -/
  | primitive
  /-- A type parameter that is not yet bound. -/
  | parameter
  /-- The type without values. -/
  | void
  deriving DecidableEq, Repr, Inhabited

/-- A type as written at a declaration or use.

`name` is the erased qualified name of a reference type, the keyword of a primitive type or the
name of a type parameter. -/
structure TypeRef where
  name : String
  args : List TypeRef := []
  kind : TypeSort := .reference
  dims : Nat := 0
  deriving Repr, Inhabited

/-- The types bound to type parameters; of several entries for one name the last counts. -/
structure Bindings where
  pairs : List (String × TypeRef)
  deriving Repr, Inhabited

namespace Bindings

/-- No bindings. -/
def empty : Bindings :=
  ⟨[]⟩

/-- The last type bound to `name` in a list of pairs. -/
def lastBound (name : String) : List (String × TypeRef) → Option TypeRef
  | [] => none
  | (bound, type) :: rest =>
    match lastBound name rest with
    | some type => some type
    | none => if bound = name then some type else none

/-- The type bound to `name`. -/
def get? (bindings : Bindings) (name : String) : Option TypeRef :=
  lastBound name bindings.pairs

end Bindings

namespace TypeRef

/-- A reference type with type arguments. -/
def generic (name : String) (args : List TypeRef) : TypeRef where
  name := name
  args := args

/-- A reference type without type arguments. -/
def named (name : String) : TypeRef :=
  generic name []

/-- A primitive type. -/
def primitive (keyword : String) : TypeRef where
  name := keyword
  kind := .primitive

/-- A type parameter. -/
def parameter (name : String) : TypeRef where
  name := name
  kind := .parameter

/-- The type without values. -/
def void : TypeRef where
  name := "void"
  kind := .void

/-- The type with further array dimensions.  They are counted in a byte, so that the sum wraps
around. -/
def addDims (type : TypeRef) (dims : Nat) : TypeRef :=
  { type with dims := (type.dims + dims) % 256 }

/-- A primitive type that is no array. -/
def isPrimitive (type : TypeRef) : Bool :=
  type.kind = .primitive && type.dims = 0

/-- The type without values, dimensions notwithstanding. -/
def isVoid (type : TypeRef) : Bool :=
  type.kind = .void

/-- A type with array dimensions. -/
def isArray (type : TypeRef) : Bool :=
  0 < type.dims

/-- A type parameter or a reference type, array or not. -/
def isReference (type : TypeRef) : Bool :=
  type.kind = .reference || type.kind = .parameter

/-- The brackets of a number of array dimensions. -/
def dimsText (dims : Nat) : String :=
  String.join (List.replicate dims "[]")

/-- The name with the brackets of the dimensions and without type arguments. -/
def erasure (type : TypeRef) : String :=
  type.name ++ dimsText type.dims

mutual

/-- The name with type arguments and brackets, as in `java.util.List<T>[]`. -/
def spelling : TypeRef → String
  | ⟨name, args, _, dims⟩ =>
    name ++ (if args.isEmpty then "" else "<" ++ ",".intercalate (spellings args) ++ ">")
      ++ dimsText dims

/-- The spellings of a list of types. -/
def spellings : List TypeRef → List String
  | [] => []
  | type :: rest => spelling type :: spellings rest

end

/-- The last segment of the name. -/
def simpleName (type : TypeRef) : String :=
  Text.simpleName type.name

/-- The type of the elements of an array. -/
def element? (type : TypeRef) : Option TypeRef :=
  match type.dims with
  | 0 => none
  | dims + 1 => some { type with dims := dims }

mutual

/-- Whether a type parameter occurs anywhere in the type. -/
def mentionsParameter : TypeRef → Bool
  | ⟨_, args, kind, _⟩ => kind = .parameter || anyMentionsParameter args

/-- Whether a type parameter occurs anywhere in the types. -/
def anyMentionsParameter : List TypeRef → Bool
  | [] => false
  | type :: rest => mentionsParameter type || anyMentionsParameter rest

end

mutual

/-- Replaces each bound type parameter by the type bound to it, which takes the dimensions of the
parameter on top of its own.  A parameter without a binding stays. -/
def substitute (bindings : Bindings) : TypeRef → TypeRef
  | ⟨name, args, kind, dims⟩ =>
    match kind with
    | .parameter =>
      match bindings.get? name with
      | some bound => bound.addDims dims
      | none => ⟨name, args, kind, dims⟩
    | kind => ⟨name, substituteAll bindings args, kind, dims⟩

/-- Substitutes in a list of types. -/
def substituteAll (bindings : Bindings) : List TypeRef → List TypeRef
  | [] => []
  | type :: rest => substitute bindings type :: substituteAll bindings rest

end

/-- The type without type arguments. -/
def withoutArgs (type : TypeRef) : TypeRef :=
  { type with args := [] }

theorem spellings_eq_map (types : List TypeRef) :
    spellings types = types.map spelling := by
  induction types with
  | nil => rfl
  | cons type rest ih => simp [spellings, ih]

theorem substituteAll_eq_map (bindings : Bindings) (types : List TypeRef) :
    substituteAll bindings types = types.map (substitute bindings) := by
  induction types with
  | nil => rfl
  | cons type rest ih => simp [substituteAll, ih]

theorem anyMentionsParameter_eq_any (types : List TypeRef) :
    anyMentionsParameter types = types.any mentionsParameter := by
  induction types with
  | nil => rfl
  | cons type rest ih => simp [anyMentionsParameter, ih]

end TypeRef

end Specwright
