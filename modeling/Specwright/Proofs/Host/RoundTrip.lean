import Specwright.Proofs.Json.Records

/-!
# Snapshots are read back

A snapshot that is written as a JSON value is read back as it was.  The number of array dimensions
of a type is one byte in the format, so this holds for the types whose dimensions fit in there.
-/

namespace Specwright

open Json

/-! ## Labels -/

namespace TypeSort

@[simp]
theorem ofJson?_label (sort : TypeSort) : ofJson? (.str sort.label) = some sort :=
  choice?_label (by decide) (by cases sort <;> decide)

end TypeSort

namespace Modifier

@[simp]
theorem listOf?_listToJson (modifiers : List Modifier) :
    listOf? ofJson? (listToJson modifiers) = some modifiers :=
  listOf?_strings (fun modifier => choice?_label (by decide) (by cases modifier <;> decide))
    modifiers

end Modifier

namespace Marker

@[simp]
theorem listOf?_labels (markers : List Marker) :
    listOf? ofJson? (strings (markers.map label)) = some markers :=
  listOf?_strings (fun marker => choice?_label (by decide) (by cases marker <;> decide)) markers

end Marker

namespace Access

@[simp]
theorem ofJson?_label (access : Access) : ofJson? (.str access.label) = some access :=
  choice?_label (by decide) (by cases access <;> decide)

end Access

namespace Language

@[simp]
theorem ofJson?_label (language : Language) : ofJson? (.str language.label) = some language :=
  choice?_label (by decide) (by cases language <;> decide)

end Language

namespace BodyViews

theorem ofJson?_toJson (views : BodyViews) : ofJson? views.toJson = some views := by
  have hlabels : listOf? BodyView.ofJson? views.toJson = some views.toList :=
    listOf?_strings (fun view => choice?_label (by decide) (by cases view <;> decide)) views.toList
  rw [ofJson?, hlabels, Option.map_some, ofList_toList]

end BodyViews

/-! ## Types -/

namespace TypeRef

mutual

/-- Whether the format has room for the array dimensions of a type and its arguments. -/
def storable : TypeRef → Bool
  | ⟨_, args, _, dims⟩ => decide (dims ≤ dimsLimit) && allStorable args

/-- Whether the format has room for the array dimensions of all of the types. -/
def allStorable : List TypeRef → Bool
  | [] => true
  | type :: rest => storable type && allStorable rest

end

theorem toJson_ne_null (type : TypeRef) : type.toJson ≠ .null := by
  cases type
  rw [toJson]
  exact Json.noConfusion

mutual

theorem ofJson?_toJson : ∀ type : TypeRef, type.storable = true → ofJson? type.toJson = some type
  | ⟨name, args, kind, dims⟩, h => by
    rw [storable, Bool.and_eq_true, decide_eq_true_iff] at h
    have hargs := allOfJson?_allToJson args h.2
    have hdims : natUpTo? dimsLimit (.int dims) = some dims := by
      simp [natUpTo?, h.1]
    cases args with
    | nil =>
        by_cases hzero : dims = 0
        · simp [toJson, ofJson?, ofRecord?, argsOf?, Record.ofJson?_obj, str?, hzero]
        · simp [toJson, ofJson?, ofRecord?, argsOf?, Record.ofJson?_obj, str?, hzero, hdims]
    | cons arg rest =>
        by_cases hzero : dims = 0
        · simp [toJson, ofJson?, ofRecord?, argsOf?, listOfJson?, Record.ofJson?_obj, str?, hzero,
            hargs]
        · simp [toJson, ofJson?, ofRecord?, argsOf?, listOfJson?, Record.ofJson?_obj, str?, hzero,
            hargs, hdims]

theorem allOfJson?_allToJson :
    ∀ types : List TypeRef, allStorable types = true → allOfJson? (allToJson types) = some types
  | [], _ => rfl
  | type :: rest, h => by
    rw [allStorable, Bool.and_eq_true] at h
    rw [allToJson, allOfJson?, ofJson?_toJson type h.1, allOfJson?_allToJson rest h.2]
    rfl

end

theorem listOfJson?_allToJson {types : List TypeRef} (h : allStorable types = true) :
    listOfJson? (.arr (allToJson types)) = some types :=
  allOfJson?_allToJson types h

end TypeRef

/-! ## Members -/

/-- Whether there is room for the types of a field. -/
def FieldDecl.storable (field : FieldDecl) : Bool :=
  field.type.storable

def ParamDecl.storable (param : ParamDecl) : Bool :=
  param.type.storable

def MethodSignature.storable (signature : MethodSignature) : Bool :=
  TypeRef.allStorable signature.paramTypes

def CallSite.storable (site : CallSite) : Bool :=
  site.target.storable

def VariableUse.storable (use : VariableUse) : Bool :=
  use.type.storable

def MethodDecl.storable (method : MethodDecl) : Bool :=
  method.returnType.all TypeRef.storable && method.params.all ParamDecl.storable &&
    method.callSites.all CallSite.storable && method.methodRefs.all MethodSignature.storable &&
    method.variableUses.all VariableUse.storable && method.delegatesTo.all MethodSignature.storable

def ClassDecl.storable (decl : ClassDecl) : Bool :=
  TypeRef.allStorable decl.supertypes && decl.fields.all FieldDecl.storable &&
    decl.methods.all MethodDecl.storable

theorem FieldDecl.ofJson?_toJson {field : FieldDecl} (h : field.storable = true) :
    ofJson? field.toJson = some field := by
  have htype : TypeRef.ofJson? field.type.toJson = some field.type :=
    TypeRef.ofJson?_toJson field.type h
  simp [ofJson?, toJson, Record.ofJson?_obj, str?, htype]

theorem ParamDecl.ofJson?_toJson {param : ParamDecl} (h : param.storable = true) :
    ofJson? param.toJson = some param := by
  have htype : TypeRef.ofJson? param.type.toJson = some param.type :=
    TypeRef.ofJson?_toJson param.type h
  simp [ofJson?, toJson, Record.ofJson?_obj, str?, htype]

namespace MethodSignature

theorem ofJson?_toJson {signature : MethodSignature} (h : signature.storable = true) :
    ofJson? signature.toJson = some signature := by
  have htypes : TypeRef.listOfJson? (.arr (TypeRef.allToJson signature.paramTypes)) =
      some signature.paramTypes :=
    TypeRef.listOfJson?_allToJson h
  simp [ofJson?, toJson, Record.ofJson?_obj, str?, htypes]

theorem toJson_ne_null (signature : MethodSignature) : signature.toJson ≠ .null :=
  Json.noConfusion

end MethodSignature

theorem CallSite.ofJson?_toJson {site : CallSite} (h : site.storable = true) :
    ofJson? site.toJson = some site := by
  have htarget : MethodSignature.ofJson? site.target.toJson = some site.target :=
    MethodSignature.ofJson?_toJson h
  rcases site with ⟨target, args, field⟩
  cases field with
  | none => simp [ofJson?, toJson, Record.ofJson?_obj, optionalMember, Record.nullable, htarget]
  | some name =>
      simp [ofJson?, toJson, Record.ofJson?_obj, optionalMember, Record.nullable, htarget, str?]

theorem VariableUse.ofJson?_toJson {use : VariableUse} (h : use.storable = true) :
    ofJson? use.toJson = some use := by
  have htype : TypeRef.ofJson? use.type.toJson = some use.type :=
    TypeRef.ofJson?_toJson use.type h
  simp [ofJson?, toJson, Record.ofJson?_obj, str?, htype]

theorem FieldAssignment.ofJson?_toJson (write : FieldAssignment) :
    ofJson? write.toJson = some write := by
  simp [ofJson?, toJson, Record.ofJson?_obj, str?]

theorem MethodDecl.ofJson?_toJson {method : MethodDecl} (h : method.storable = true) :
    ofJson? method.toJson = some method := by
  obtain ⟨_, _, returnType, params, _, _, _, _, sites, refs, uses, writes, delegate⟩ := method
  simp only [storable, Bool.and_eq_true, List.all_eq_true, Option.all_eq_true] at h
  obtain ⟨⟨⟨⟨⟨hreturn, hparams⟩, hsites⟩, hrefs⟩, huses⟩, hdelegate⟩ := h
  have hparams' : listOf? ParamDecl.ofJson? (.arr (params.map ParamDecl.toJson)) = some params :=
    listOf?_map fun param hparam => ParamDecl.ofJson?_toJson (hparams param hparam)
  have hsites' : listOf? CallSite.ofJson? (.arr (sites.map CallSite.toJson)) = some sites :=
    listOf?_map fun site hsite => CallSite.ofJson?_toJson (hsites site hsite)
  have hrefs' : listOf? MethodSignature.ofJson? (.arr (refs.map MethodSignature.toJson)) =
      some refs :=
    listOf?_map fun target htarget => MethodSignature.ofJson?_toJson (hrefs target htarget)
  have huses' : listOf? VariableUse.ofJson? (.arr (uses.map VariableUse.toJson)) = some uses :=
    listOf?_map fun use huse => VariableUse.ofJson?_toJson (huses use huse)
  have hwrites' : listOf? FieldAssignment.ofJson? (.arr (writes.map FieldAssignment.toJson)) =
      some writes :=
    listOf?_map fun write _ => FieldAssignment.ofJson?_toJson write
  have hreturn' (record : Record)
      (hget : record.get? "return_type" = some ((returnType.map TypeRef.toJson).getD .null)) :
      record.nullable "return_type" TypeRef.ofJson? = some returnType :=
    Record.nullable_of_get? (fun type htype => TypeRef.ofJson?_toJson type (hreturn type htype))
      (fun type _ => type.toJson_ne_null) (Or.inr hget)
  have hdelegate' (record : Record)
      (hget : record.get? "delegates_to" = delegate.map MethodSignature.toJson) :
      record.nullable "delegates_to" MethodSignature.ofJson? = some delegate :=
    Record.nullable_of_get?
      (fun target htarget => MethodSignature.ofJson?_toJson (hdelegate target htarget))
      (fun target _ => target.toJson_ne_null) (Or.inl hget)
  have hkeys : (["name", "modifiers", "return_type", "params", "is_constructor",
      "is_primary_constructor", "has_body", "markers", "call_sites", "method_refs", "references",
      "field_writes", "delegates_to"] : List String).Nodup := by
    decide
  have hlast : ((optionalMember "delegates_to" (delegate.map MethodSignature.toJson)).map
      (·.1)).Sublist ["delegates_to"] := by
    cases delegate <;> simp [optionalMember]
  rw [ofJson?, toJson]
  refine Record.read_then (Record.ofJson?_obj ?distinct) ?_
  case distinct =>
    rw [List.map_append]
    exact hkeys.sublist (hlast.append_left _)
  apply Record.read_then rfl
  apply Record.read_then (Modifier.listOf?_listToJson _)
  apply Record.read_then (hreturn' _ rfl)
  apply Record.read_then hparams'
  apply Record.read_then rfl
  apply Record.read_then rfl
  apply Record.read_then rfl
  apply Record.read_then (Marker.listOf?_labels _)
  apply Record.read_then hsites'
  apply Record.read_then hrefs'
  apply Record.read_then huses'
  apply Record.read_then hwrites'
  apply Record.read_then
  · apply hdelegate'
    cases delegate <;> rfl
  · rfl

theorem ClassDecl.ofJson?_toJson {decl : ClassDecl} (h : decl.storable = true) :
    ofJson? decl.toJson = some decl := by
  rw [storable, Bool.and_eq_true, Bool.and_eq_true, List.all_eq_true, List.all_eq_true] at h
  obtain ⟨⟨hsupertypes, hfields⟩, hmethods⟩ := h
  have hsupertypes' := TypeRef.listOfJson?_allToJson hsupertypes
  have hfields' : listOf? FieldDecl.ofJson? (.arr (decl.fields.map FieldDecl.toJson)) =
      some decl.fields :=
    listOf?_map fun field hfield => FieldDecl.ofJson?_toJson (hfields field hfield)
  have hmethods' : listOf? MethodDecl.ofJson? (.arr (decl.methods.map MethodDecl.toJson)) =
      some decl.methods :=
    listOf?_map fun method hmethod => MethodDecl.ofJson?_toJson (hmethods method hmethod)
  have hkeys : (["qualified_name", "language", "is_interface", "is_abstract", "is_enum", "is_final",
      "type_params", "supertypes", "fields", "methods", "annotations", "enum_constants",
      "has_default_constructor", "in_project"] : List String).Nodup := by
    decide
  rw [ofJson?, toJson]
  refine Record.read_then (Record.ofJson?_obj ?distinct) ?_
  case distinct => exact hkeys
  apply Record.read_then rfl
  apply Record.read_then (Language.ofJson?_label _)
  apply Record.read_then rfl
  apply Record.read_then rfl
  apply Record.read_then rfl
  apply Record.read_then rfl
  apply Record.read_then (listOf?_texts _)
  apply Record.read_then hsupertypes'
  apply Record.read_then hfields'
  apply Record.read_then hmethods'
  apply Record.read_then (listOf?_texts _)
  apply Record.read_then (listOf?_texts _)
  apply Record.read_then rfl
  apply Record.read_then rfl
  rfl

/-! ## Snapshots -/

namespace ClassDecl

theorem insertByName_of_forall_before
    {decl : ClassDecl} {classes : List ClassDecl} (h : ∀ other ∈ classes, other.Before decl) :
    insertByName decl classes = classes ++ [decl] := by
  induction classes with
  | nil => rfl
  | cons first rest ih =>
      obtain ⟨hfirst, hrest⟩ := List.forall_mem_cons.mp h
      have hlt : ¬decl.name < first.name := String.lt_asymm hfirst
      have hne : decl.name ≠ first.name := by
        intro heq
        rw [Before, heq] at hfirst
        exact String.lt_irrefl _ hfirst
      rw [insertByName, if_neg hlt, if_neg hne, ih hrest, List.cons_append]

/-- Of the inserted class and those before, the inserted one is found under its name. -/
theorem find?_insertByName (decl : ClassDecl) (classes : List ClassDecl) (name : String) :
    (insertByName decl classes).find? (·.name = name) =
      if decl.name = name then some decl else classes.find? (·.name = name) := by
  have hcons (rest : List ClassDecl) : (decl :: rest).find? (·.name = name) =
      if decl.name = name then some decl else rest.find? (·.name = name) := by
    by_cases h : decl.name = name
    · simp [h]
    · simp [h]
  induction classes with
  | nil => exact hcons []
  | cons first rest ih =>
      rw [insertByName]
      split
      · exact hcons _
      · split
        next heq =>
          rw [hcons, List.find?_cons, ← heq]
          by_cases h : decl.name = name
          · simp [h]
          · simp [h]
        next hne =>
          rw [List.find?_cons, List.find?_cons, ih]
          by_cases hfirst : first.name = name
          · have hother : decl.name ≠ name := fun h => hne (h.trans hfirst.symm)
            simp [hfirst, hother]
          · simp [hfirst]

end ClassDecl

namespace Snapshot

variable {snapshot : Snapshot}

/-- Whether there is room for the types of all classes. -/
def storable (snapshot : Snapshot) : Bool :=
  snapshot.classes.all ClassDecl.storable

theorem eq_of_parts {snapshot other : Snapshot} (hclasses : snapshot.classes = other.classes)
    (hviews : snapshot.views = other.views) : snapshot = other := by
  cases snapshot
  cases other
  cases hclasses
  cases hviews
  rfl

theorem views_insertAll (snapshot : Snapshot) (classes : List ClassDecl) :
    (snapshot.insertAll classes).views = snapshot.views := by
  induction classes generalizing snapshot with
  | nil => rfl
  | cons decl rest ih => exact ih (snapshot.insert decl)

/-- Classes that come in order behind those that are there stay in order. -/
theorem classes_insertAll
    {classes : List ClassDecl} (h : (snapshot.classes ++ classes).Pairwise ClassDecl.Before) :
    (snapshot.insertAll classes).classes = snapshot.classes ++ classes := by
  induction classes generalizing snapshot with
  | nil => exact (List.append_nil _).symm
  | cons decl rest ih =>
      have hbefore : ∀ other ∈ snapshot.classes, other.Before decl := fun other hother =>
        (List.pairwise_append.mp h).2.2 other hother decl List.mem_cons_self
      have hinserted : (snapshot.insert decl).classes = snapshot.classes ++ [decl] :=
        ClassDecl.insertByName_of_forall_before hbefore
      rw [List.append_cons, ← hinserted] at h ⊢
      exact ih h

/-- The last class of a name is found among those that are added, else what was there. -/
theorem find?_insertAll (snapshot : Snapshot) (classes : List ClassDecl) (name : String) :
    (snapshot.insertAll classes).find? name =
      (classes.reverse.find? (·.name = name)).or (snapshot.find? name) := by
  induction classes generalizing snapshot with
  | nil => rfl
  | cons decl rest ih =>
      have hinserted : (snapshot.insert decl).find? name =
          if decl.name = name then some decl else snapshot.find? name :=
        ClassDecl.find?_insertByName decl snapshot.classes name
      have hlast : [decl].find? (·.name = name) =
          if decl.name = name then some decl else none := by
        by_cases h : decl.name = name
        · simp [h]
        · simp [h]
      calc
        _ = (rest.reverse.find? (·.name = name)).or ((snapshot.insert decl).find? name) :=
          ih (snapshot.insert decl)
        _ = _ := by
          rw [hinserted, List.reverse_cons, List.find?_append, hlast, Option.or_assoc]
          split <;> rfl

/-- A snapshot holds the last class of each name. -/
theorem find?_ofClasses (classes : List ClassDecl) (name : String) :
    (ofClasses classes).find? name = classes.reverse.find? (·.name = name) := by
  rw [ofClasses, find?_insertAll]
  exact Option.or_none

theorem withViews_none_ofClasses (classes : List ClassDecl) :
    (ofClasses classes).withViews none = ofClasses classes :=
  eq_of_parts rfl (views_insertAll empty classes).symm

/-- The classes of a snapshot make it up again. -/
theorem ofClasses_classes (snapshot : Snapshot) :
    (ofClasses snapshot.classes).withViews snapshot.views = snapshot := by
  have hclasses : (empty.insertAll snapshot.classes).classes = empty.classes ++ snapshot.classes :=
    classes_insertAll snapshot.sorted
  exact eq_of_parts hclasses rfl

/-- The record of a list of classes is read as the snapshot of the list. -/
theorem ofJson?_of_classes
    {classes : List ClassDecl} (h : classes.all ClassDecl.storable = true)
    (views : Option BodyViews) :
    ofJson? (.obj (optionalMember "capabilities" (views.map BodyViews.toJson) ++
        [("classes", .arr (classes.map ClassDecl.toJson))])) =
      some ((ofClasses classes).withViews views) := by
  have hclasses : listOf? ClassDecl.ofJson? (.arr (classes.map ClassDecl.toJson)) = some classes :=
    listOf?_map fun decl hdecl => ClassDecl.ofJson?_toJson (List.all_eq_true.mp h decl hdecl)
  have hviews (record : Record)
      (hget : record.get? "capabilities" = views.map BodyViews.toJson) :
      record.nullable "capabilities" BodyViews.ofJson? = some views :=
    Record.nullable_of_get? (fun views _ => views.ofJson?_toJson) (fun _ _ => Json.noConfusion)
      (Or.inl hget)
  cases views with
  | none => simp [ofJson?, Record.ofJson?_obj, optionalMember, *]
  | some views => simp [ofJson?, Record.ofJson?_obj, optionalMember, *]

theorem ofJson?_toJson (h : snapshot.storable = true) :
    ofJson? snapshot.toJson = some snapshot := by
  rw [toJson, ofJson?_of_classes h, ofClasses_classes]

end Snapshot

end Specwright
