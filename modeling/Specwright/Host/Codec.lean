import Specwright.Host.Snapshot
import Specwright.Json.Record

/-!
# Snapshots as JSON

How type references, declarations and snapshots are written as JSON values and read back.  What a
record leaves out when it is written stands for its default when it is read: type arguments and
array dimensions when there are none, and the optional parts of call sites, methods and snapshots.
Everything else is always written.
-/

namespace Specwright

namespace Json

/-- One of a number of choices by its label, which may also be the only key of an object with the
value null. -/
def choice? {α : Type} (choices : List α) (label : α → String) : Json → Option α
  | .str text => choices.find? fun choice => label choice = text
  | .obj [(key, .null)] => choices.find? fun choice => label choice = key
  | _ => none

/-- A member that is left out when there is no value. -/
def optionalMember (key : String) (value : Option Json) : List (String × Json) :=
  value.toList.map fun value => (key, value)

end Json

open Json

namespace TypeSort

/-- The label of the kind. -/
def label : TypeSort → String
  | .reference => "class"
  | .primitive => "primitive"
  | .parameter => "type_parameter"
  | .void => "void"

/-- Reads a kind by its label. -/
def ofJson? : Json → Option TypeSort :=
  choice? [.reference, .primitive, .parameter, .void] label

end TypeSort

namespace TypeRef

/-- The greatest number of array dimensions that can be read. -/
def dimsLimit : Nat := 255

mutual

/-- The type as a record; arguments and dimensions are left out when there are none. -/
def toJson : TypeRef → Json
  | ⟨name, args, kind, dims⟩ =>
    .obj ([("name", .str name)]
      ++ (if args.isEmpty then [] else [("args", .arr (allToJson args))])
      ++ [("kind", .str kind.label)]
      ++ (if dims = 0 then [] else [("array_dims", .int dims)]))

/-- The types as records. -/
def allToJson : List TypeRef → List Json
  | [] => []
  | type :: rest => toJson type :: allToJson rest

end

/-- Reads a type from a record whose type arguments have been read. -/
def ofRecord? (value : Json) (args : Option (List TypeRef)) : Option TypeRef := do
  let record ← Record.ofJson? ["name", "args", "kind", "array_dims"] value
  let name ← record.required "name" str?
  let args ← args
  let kind ← record.withDefault "kind" TypeSort.ofJson? .reference
  let dims ← record.withDefault "array_dims" (natUpTo? dimsLimit) 0
  pure { name, args, kind, dims }

mutual

/-- Reads a type from a record. -/
def ofJson? : Json → Option TypeRef
  | .obj members => ofRecord? (.obj members) (argsOf? members)
  | .arr items => ofRecord? (.arr items) (argsAt? items)
  | _ => none

/-- Reads the type arguments among the members of a record. -/
def argsOf? : List (String × Json) → Option (List TypeRef)
  | [] => some []
  | (key, value) :: rest => if key = "args" then listOfJson? value else argsOf? rest

/-- Reads the type arguments in their place among the values of a record. -/
def argsAt? : List Json → Option (List TypeRef)
  | _ :: value :: _ => listOfJson? value
  | _ => some []

/-- Reads an array of types. -/
def listOfJson? : Json → Option (List TypeRef)
  | .arr items => allOfJson? items
  | _ => none

/-- Reads each of a list of values as a type. -/
def allOfJson? : List Json → Option (List TypeRef)
  | [] => some []
  | value :: rest => do
    let type ← ofJson? value
    let types ← allOfJson? rest
    pure (type :: types)

end

end TypeRef

namespace Modifier

/-- The keyword of the modifier. -/
def label : Modifier → String
  | .publicAccess => "public"
  | .protectedAccess => "protected"
  | .privateAccess => "private"
  | .static => "static"
  | .abstract => "abstract"
  | .native => "native"
  | .final => "final"

/-- All modifiers. -/
def all : List Modifier :=
  [.publicAccess, .protectedAccess, .privateAccess, .static, .abstract, .native, .final]

/-- Reads a modifier by its keyword. -/
def ofJson? : Json → Option Modifier :=
  choice? all label

/-- The modifiers as an array of keywords. -/
def listToJson (modifiers : List Modifier) : Json :=
  strings (modifiers.map label)

end Modifier

namespace Marker

/-- The label of the marker. -/
def label : Marker → String
  | .synthetic => "synthetic"
  | .dynamicDispatch => "dynamic_dispatch"

/-- Reads a marker by its label. -/
def ofJson? : Json → Option Marker :=
  choice? [.synthetic, .dynamicDispatch] label

end Marker

namespace Access

/-- The label of the access. -/
def label : Access → String
  | .read => "read"
  | .write => "write"

/-- Reads an access by its label. -/
def ofJson? : Json → Option Access :=
  choice? [.read, .write] label

end Access

namespace Language

/-- Reads a language by its name. -/
def ofJson? : Json → Option Language :=
  choice? [.java, .groovy, .scala] label

end Language

namespace BodyView

/-- The label of the view. -/
def label : BodyView → String
  | .callSites => "call_sites"
  | .methodReferences => "method_references"
  | .references => "references"
  | .fieldWrites => "field_writes"

/-- Reads a view by its label. -/
def ofJson? : Json → Option BodyView :=
  choice? all label

end BodyView

namespace BodyViews

/-- The views as an array of labels. -/
def toJson (set : BodyViews) : Json :=
  strings (set.toList.map BodyView.label)

/-- Reads a set of views from an array of labels. -/
def ofJson? (value : Json) : Option BodyViews :=
  (listOf? BodyView.ofJson? value).map ofList

end BodyViews

namespace FieldDecl

/-- The field as a record. -/
def toJson (field : FieldDecl) : Json :=
  .obj [
    ("name", .str field.name),
    ("type", field.type.toJson),
    ("modifiers", Modifier.listToJson field.modifiers)]

/-- Reads a field from a record. -/
def ofJson? (value : Json) : Option FieldDecl := do
  let record ← Record.ofJson? ["name", "type", "modifiers"] value
  let name ← record.required "name" str?
  let type ← record.required "type" TypeRef.ofJson?
  let modifiers ← record.list "modifiers" Modifier.ofJson?
  pure { name, type, modifiers }

end FieldDecl

namespace ParamDecl

/-- The parameter as a record. -/
def toJson (param : ParamDecl) : Json :=
  .obj [("name", .str param.name), ("type", param.type.toJson)]

/-- Reads a parameter from a record. -/
def ofJson? (value : Json) : Option ParamDecl := do
  let record ← Record.ofJson? ["name", "type"] value
  let name ← record.required "name" str?
  let type ← record.required "type" TypeRef.ofJson?
  pure { name, type }

end ParamDecl

namespace MethodSignature

/-- The signature as a record. -/
def toJson (signature : MethodSignature) : Json :=
  .obj [
    ("owner", .str signature.owner),
    ("name", .str signature.name),
    ("param_types", .arr (TypeRef.allToJson signature.paramTypes))]

/-- Reads a signature from a record. -/
def ofJson? (value : Json) : Option MethodSignature := do
  let record ← Record.ofJson? ["owner", "name", "param_types"] value
  let owner ← record.required "owner" str?
  let name ← record.required "name" str?
  let paramTypes ← record.withDefault "param_types" TypeRef.listOfJson? []
  pure { owner, name, paramTypes }

end MethodSignature

namespace CallSite

/-- The call site as a record; the field is left out when there is none. -/
def toJson (site : CallSite) : Json :=
  .obj ([("target", site.target.toJson), ("args", strings site.args)]
    ++ optionalMember "field" (site.field.map .str))

/-- Reads a call site from a record. -/
def ofJson? (value : Json) : Option CallSite := do
  let record ← Record.ofJson? ["target", "args", "field"] value
  let target ← record.required "target" MethodSignature.ofJson?
  let args ← record.list "args" str?
  let field ← record.nullable "field" str?
  pure { target, args, field }

end CallSite

namespace VariableUse

/-- The use as a record. -/
def toJson (use : VariableUse) : Json :=
  .obj [
    ("name", .str use.name),
    ("kind", .str use.access.label),
    ("type", use.type.toJson),
    ("owner", .str use.owner)]

/-- Reads a use from a record. -/
def ofJson? (value : Json) : Option VariableUse := do
  let record ← Record.ofJson? ["name", "kind", "type", "owner"] value
  let name ← record.required "name" str?
  let access ← record.required "kind" Access.ofJson?
  let type ← record.required "type" TypeRef.ofJson?
  let owner ← record.required "owner" str?
  pure { name, access, type, owner }

end VariableUse

namespace FieldAssignment

/-- The write as a record. -/
def toJson (write : FieldAssignment) : Json :=
  .obj [
    ("field", .str write.field),
    ("declaring_type", .str write.declaringType),
    ("value", .str write.value)]

/-- Reads a write from a record. -/
def ofJson? (value : Json) : Option FieldAssignment := do
  let record ← Record.ofJson? ["field", "declaring_type", "value"] value
  let field ← record.required "field" str?
  let declaringType ← record.required "declaring_type" str?
  let value ← record.required "value" str?
  pure { field, declaringType, value }

end FieldAssignment

namespace MethodDecl

/-- The method as a record; the constructor that it delegates to is left out when there is none, and
a missing return type is written as null. -/
def toJson (method : MethodDecl) : Json :=
  .obj ([
    ("name", .str method.name),
    ("modifiers", Modifier.listToJson method.modifiers),
    ("return_type", (method.returnType.map TypeRef.toJson).getD .null),
    ("params", .arr (method.params.map ParamDecl.toJson)),
    ("is_constructor", .bool method.isConstructor),
    ("is_primary_constructor", .bool method.isPrimaryConstructor),
    ("has_body", .bool method.hasBody),
    ("markers", strings (method.markers.map Marker.label)),
    ("call_sites", .arr (method.callSites.map CallSite.toJson)),
    ("method_refs", .arr (method.methodRefs.map MethodSignature.toJson)),
    ("references", .arr (method.variableUses.map VariableUse.toJson)),
    ("field_writes", .arr (method.fieldWrites.map FieldAssignment.toJson))]
    ++ optionalMember "delegates_to" (method.delegatesTo.map MethodSignature.toJson))

/-- Reads a method from a record. -/
def ofJson? (value : Json) : Option MethodDecl := do
  let record ← Record.ofJson?
    ["name", "modifiers", "return_type", "params", "is_constructor", "is_primary_constructor",
      "has_body", "markers", "call_sites", "method_refs", "references", "field_writes",
      "delegates_to"] value
  let name ← record.required "name" str?
  let modifiers ← record.list "modifiers" Modifier.ofJson?
  let returnType ← record.nullable "return_type" TypeRef.ofJson?
  let params ← record.list "params" ParamDecl.ofJson?
  let isConstructor ← record.flag "is_constructor" false
  let isPrimaryConstructor ← record.flag "is_primary_constructor" false
  let hasBody ← record.flag "has_body" true
  let markers ← record.list "markers" Marker.ofJson?
  let callSites ← record.list "call_sites" CallSite.ofJson?
  let methodRefs ← record.list "method_refs" MethodSignature.ofJson?
  let variableUses ← record.list "references" VariableUse.ofJson?
  let fieldWrites ← record.list "field_writes" FieldAssignment.ofJson?
  let delegatesTo ← record.nullable "delegates_to" MethodSignature.ofJson?
  pure {
    name, modifiers, returnType, params, isConstructor, isPrimaryConstructor, hasBody, markers,
    callSites, methodRefs, variableUses, fieldWrites, delegatesTo }

end MethodDecl

namespace ClassDecl

/-- The class as a record. -/
def toJson (decl : ClassDecl) : Json :=
  .obj [
    ("qualified_name", .str decl.name),
    ("language", .str decl.language.label),
    ("is_interface", .bool decl.isInterface),
    ("is_abstract", .bool decl.isAbstract),
    ("is_enum", .bool decl.isEnum),
    ("is_final", .bool decl.isFinal),
    ("type_params", strings decl.typeParams),
    ("supertypes", .arr (TypeRef.allToJson decl.supertypes)),
    ("fields", .arr (decl.fields.map FieldDecl.toJson)),
    ("methods", .arr (decl.methods.map MethodDecl.toJson)),
    ("annotations", strings decl.annotations),
    ("enum_constants", strings decl.enumConstants),
    ("has_default_constructor", .bool decl.hasDefaultConstructor),
    ("in_project", .bool decl.inProject)]

/-- Reads a class from a record. -/
def ofJson? (value : Json) : Option ClassDecl := do
  let record ← Record.ofJson?
    ["qualified_name", "language", "is_interface", "is_abstract", "is_enum", "is_final",
      "type_params", "supertypes", "fields", "methods", "annotations", "enum_constants",
      "has_default_constructor", "in_project"] value
  let name ← record.required "qualified_name" str?
  let language ← record.withDefault "language" Language.ofJson? .java
  let isInterface ← record.flag "is_interface" false
  let isAbstract ← record.flag "is_abstract" false
  let isEnum ← record.flag "is_enum" false
  let isFinal ← record.flag "is_final" false
  let typeParams ← record.list "type_params" str?
  let supertypes ← record.withDefault "supertypes" TypeRef.listOfJson? []
  let fields ← record.list "fields" FieldDecl.ofJson?
  let methods ← record.list "methods" MethodDecl.ofJson?
  let annotations ← record.list "annotations" str?
  let enumConstants ← record.list "enum_constants" str?
  let hasDefaultConstructor ← record.flag "has_default_constructor" true
  let inProject ← record.flag "in_project" true
  pure {
    name, language, isInterface, isAbstract, isEnum, isFinal, typeParams, supertypes, fields,
    methods, annotations, enumConstants, hasDefaultConstructor, inProject }

end ClassDecl

namespace Snapshot

/-- The snapshot as a record; the views are left out when the host names none. -/
def toJson (snapshot : Snapshot) : Json :=
  .obj (optionalMember "capabilities" (snapshot.views.map BodyViews.toJson)
    ++ [("classes", .arr (snapshot.classes.map ClassDecl.toJson))])

/-- Reads a snapshot from a record. -/
def ofJson? (value : Json) : Option Snapshot := do
  let record ← Record.ofJson? ["capabilities", "classes"] value
  let views ← record.nullable "capabilities" BodyViews.ofJson?
  let classes ← record.required "classes" (listOf? ClassDecl.ofJson?)
  pure ((ofClasses classes).withViews views)

end Snapshot

end Specwright
