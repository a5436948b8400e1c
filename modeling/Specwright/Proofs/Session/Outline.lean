import Specwright.Proofs.Session.Subject
import Specwright.Proofs.Session.Transparency

/-!
# What an answer tells about a type

An answer that was looked into agrees to one level with the expansion of its reference by itself,
wherever it comes from.  That fixes its outline: the names, the facts about the class, and of each
method the id, the name and the names of its types.  An outline is read off declarations alone.
-/

namespace Specwright

/-- What is known of a method when its types are not looked into. -/
structure MethodFace where
  id : String
  name : String
  returnType : Option TypeNames
  paramTypes : List TypeNames

/-- What a method shows of itself when its types are not looked into. -/
def MethodModel.face (method : MethodModel) : MethodFace where
  id := method.id
  name := method.name
  returnType := method.returnType.map (·.names)
  paramTypes := method.params.map (·.type.names)

namespace MethodFace

/-- Whether there is a return type with values. -/
def givesValue (face : MethodFace) : Bool :=
  face.returnType.any fun names => !decide (names.kind = .void)

end MethodFace

theorem MethodModel.givesValue_face (method : MethodModel) :
    method.face.givesValue = method.givesValue := by
  rw [MethodFace.givesValue, face, givesValue, Option.any_map]
  simp [TypeModel.isVoid]

/-! ## Cuts keep outlines -/

theorem TypeModel.names_cut (levels : Nat) (type : TypeModel) :
    (type.cut levels).names = type.names := by
  cases type
  cases levels <;> rfl

theorem MethodModel.face_cut (levels : Nat) (method : MethodModel) :
    (method.cut levels).face = method.face := by
  obtain ⟨id, name, owner, returnType, params, traits, property, body⟩ := method
  have hreturn : (TypeModel.cutElement levels returnType).map (·.names) =
      returnType.map (·.names) := by
    cases returnType with
    | none => rfl
    | some type => exact congrArg some (TypeModel.names_cut levels type)
  have hparam (param : ParamModel) : (param.cut levels).type.names = param.type.names := by
    obtain ⟨paramName, type, assignedTo⟩ := param
    exact TypeModel.names_cut levels type
  have hparams : (ParamModel.cutAll levels params).map (·.type.names) =
      params.map (·.type.names) := by
    rw [ParamModel.cutAll_eq_map, List.map_map]
    exact List.map_congr_left fun param _ => hparam param
  simp only [cut, face, hreturn, hparams]

namespace TypeModel.AgreesTo

variable {levels : Nat} {type other : TypeModel}

theorem names_eq (h : type.AgreesTo levels other) : type.names = other.names := by
  rw [← names_cut levels type, ← names_cut levels other, h]

theorem facts_eq (h : type.AgreesTo (levels + 1) other) : type.facts = other.facts := by
  have hfacts := congrArg TypeModel.facts h
  cases type
  cases other
  exact hfacts

theorem isNone_element (h : type.AgreesTo (levels + 1) other) :
    type.element.isNone = other.element.isNone := by
  have helement := congrArg (fun type : TypeModel => type.element.isNone) h
  obtain ⟨names, facts, populated, args, element, fields, methods⟩ := type
  obtain ⟨names', facts', populated', args', element', fields', methods'⟩ := other
  cases element <;> cases element' <;> first | rfl | cases helement

theorem faces_eq (h : type.AgreesTo (levels + 1) other) :
    type.methods.map (·.face) = other.methods.map (·.face) := by
  have hcut (type : TypeModel) :
      (type.cut (levels + 1)).methods.map (·.face) = type.methods.map (·.face) := by
    obtain ⟨names, facts, populated, args, element, fields, methods⟩ := type
    rw [cut, MethodModel.cutAll_eq_map, List.map_map]
    exact List.map_congr_left fun method _ => method.face_cut levels
  rw [← hcut type, ← hcut other, h]

end TypeModel.AgreesTo

/-! ## What names tell -/

namespace TypeRef

/-- A type parameter that is no array. -/
def isTypeParameter (type : TypeRef) : Bool :=
  type.kind = .parameter && type.dims = 0

end TypeRef

namespace TypeModel

variable {ref : TypeRef} {type : TypeModel}

theorem isVoid_eq (hnames : type.names = (nameOnly ref).names) : type.isVoid = ref.isVoid := by
  rw [isVoid, hnames]
  rfl

theorem isArray_eq
    (hnames : type.names = (nameOnly ref).names)
    (hname : ref.dims = 0 → ¬TypeRef.EndsInBrackets ref.name) :
    type.isArray = ref.isArray := by
  have herased : type.erasedName = ref.erasure := by
    rw [erasedName, hnames]
    rfl
  rw [isArray, herased, TypeRef.isSuffixOf_erasure hname]

theorem isTypeParameter_eq
    (hnames : type.names = (nameOnly ref).names)
    (hname : ref.isTypeParameter = true → ¬TypeRef.EndsInBrackets ref.name) :
    type.isTypeParameter = ref.isTypeParameter := by
  have hkind : type.names.kind = ref.kind := by
    rw [hnames]
    rfl
  by_cases hparameter : ref.kind = .parameter
  · have harray : type.isArray = ref.isArray :=
      isArray_eq hnames fun hdims => hname (by simp [TypeRef.isTypeParameter, hparameter, hdims])
    rw [isTypeParameter, hkind, harray, TypeRef.isTypeParameter, TypeRef.isArray]
    cases ref.dims <;> simp
  · simp [isTypeParameter, hkind, TypeRef.isTypeParameter, hparameter]

theorem isPrimitive_eq
    (hnames : type.names = (nameOnly ref).names)
    (helement : ref.dims = 0 → type.element.isNone = true)
    (hname : ref.isPrimitive = true → ¬TypeRef.EndsInBrackets ref.name) :
    type.isPrimitive = ref.isPrimitive := by
  have hkind : type.names.kind = ref.kind := by
    rw [hnames]
    rfl
  by_cases hprimitive : ref.kind = .primitive
  · have harray : type.isArray = ref.isArray :=
      isArray_eq hnames fun hdims => hname (by simp [TypeRef.isPrimitive, hprimitive, hdims])
    rw [isPrimitive, hkind, harray, TypeRef.isPrimitive, TypeRef.isArray]
    by_cases hdims : ref.dims = 0
    · simp [hdims, helement hdims]
    · simp [hdims, Nat.pos_of_ne_zero hdims]
  · simp [isPrimitive, hkind, TypeRef.isPrimitive, hprimitive]

end TypeModel

/-! ## Outlines from declarations -/

namespace Snapshot

/-- The class that a reference without dimensions stands for, if the snapshot holds it. -/
def classOf? (snapshot : Snapshot) (ref : TypeRef) : Option ClassDecl :=
  if ref.kind = .reference ∧ ref.dims = 0 then snapshot.find? ref.name else none

/-- The methods that are listed for a reference: the members of its class. -/
def methodsOf (snapshot : Snapshot) (ref : TypeRef) : List Declaration :=
  match snapshot.classOf? ref with
  | some decl => snapshot.memberMethods decl
  | none => []

variable {snapshot : Snapshot} {ref : TypeRef} {decl : ClassDecl}

theorem find?_of_classOf? (h : snapshot.classOf? ref = some decl) :
    snapshot.find? decl.name = some decl := by
  rw [classOf?] at h
  split at h
  next =>
    rw [name_of_find? h]
    exact h
  next => cases h

/-- No method is listed twice when no class declares two methods with one signature. -/
theorem nodup_signatures_methodsOf
    (hdistinct : ∀ decl ∈ snapshot.classes,
      (decl.methods.map (·.signatureIn decl.name)).Nodup) (ref : TypeRef) :
    ((snapshot.methodsOf ref).map fun declaration =>
      declaration.method.signatureIn declaration.owner.name).Nodup := by
  rw [methodsOf]
  split
  next decl hclass =>
    have hheld := find?_of_classOf? hclass
    refine nodup_map_memberMethods ?_ ?_
    · intro source hsource
      exact hdistinct source (mem_classes_of_mem_memberSources hheld hsource)
    · -- Signatures of different sources differ in the name of the class.
      intro declaration _ other _ heq
      exact congrArg MethodSignature.owner heq
  next => exact List.nodup_nil

end Snapshot

/-- The face of a method as a class sees it. -/
def Scope.faceOf (scope : Scope) (viewer : Option ClassDecl) (declaration : Declaration) :
    MethodFace :=
  let namesOf (type : TypeRef) : TypeNames :=
    (TypeModel.nameOnly
      (type.substitute (scope.bindingsFor declaration.owner viewer declaration.method))).names
  { id := declaration.id
    name := declaration.method.name
    returnType := declaration.method.returnType.map namesOf
    paramTypes := declaration.method.paramTypes.map namesOf }

theorem MethodModel.Shows.face_eq
    {scope : Scope} {answers : TypeRef → TypeModel → Prop} {bodies : Option BodyModel → Prop}
    {viewer : Option ClassDecl} {declaration : Declaration} {method : MethodModel}
    (h : method.Shows scope answers bodies viewer declaration)
    (hnames : ∀ ref type, answers ref type → type.names = (TypeModel.nameOnly ref).names) :
    method.face = scope.faceOf viewer declaration := by
  obtain ⟨returnType, params, body, hreturn, hparams, -, rfl⟩ := h
  have hreturns : returnType.map (·.names) =
      (declaration.method.returnType.map (·.substitute
        (scope.bindingsFor declaration.owner viewer declaration.method))).map
        fun ref => (TypeModel.nameOnly ref).names := by
    generalize declaration.method.returnType.map _ = ref at hreturn ⊢
    cases hreturn with
    | none => rfl
    | some htype => exact congrArg some (hnames _ _ htype)
  have htypes : declaration.method.params.map (fun param => (TypeModel.nameOnly
        (param.type.substitute
          (scope.bindingsFor declaration.owner viewer declaration.method))).names) =
      params.map (·.type.names) := by
    refine map_eq_of_forall₂ hparams ?_
    rintro param _ ⟨type, htype, rfl⟩
    exact (hnames _ _ htype).symm
  simp only [face, ofParts, Scope.faceOf, hreturns, ← htypes, Option.map_map, MethodDecl.paramTypes,
    List.map_map, Function.comp_def]

namespace TypeModel

variable {scope : Scope} {ref : TypeRef} {type : TypeModel}

/-- Whether a type has the outline that the declarations give to a reference. -/
structure Outlines (scope : Scope) (ref : TypeRef) (type : TypeModel) : Prop where
  names : type.names = (nameOnly ref).names
  facts : type.facts = ((scope.snapshot.classOf? ref).map scope.snapshot.factsOf).getD {}
  element : type.element.isNone = decide (ref.dims = 0)
  faces :
    type.methods.map (·.face) =
      (scope.snapshot.methodsOf ref).map (scope.faceOf (scope.snapshot.classOf? ref))

section Expansions

variable {same below : TypeRef → TypeModel → Prop}
variable {bodies : Declaration → Option BodyModel → Prop}

/-- An expansion stands for no class and then says nothing about one, or it shows the methods of the
class that it stands for. -/
theorem Expands.class_cases
    (h : Expands scope same below bodies ref type) :
    (scope.snapshot.classOf? ref = none ∧ type.facts = {} ∧ type.methods = []) ∨
      ∃ decl, scope.snapshot.classOf? ref = some decl ∧
        type.facts = scope.snapshot.factsOf decl ∧
          List.Forall₂
            (fun declaration => MethodModel.Shows scope below
              (if declaration.owner.name = decl.name then bodies declaration else (· = none))
              (some decl) declaration)
            (scope.snapshot.memberMethods decl) type.methods := by
  cases h with
  | array => exact Or.inl ⟨if_neg (by simp), rfl, rfl⟩
  | named hkind => exact Or.inl ⟨if_neg fun href => hkind href.1, rfl, rfl⟩
  | outside hmissing => exact Or.inl ⟨(if_pos ⟨rfl, rfl⟩).trans hmissing, rfl, rfl⟩
  | declared hfound _ _ hmethods =>
      exact Or.inr ⟨_, (if_pos ⟨rfl, rfl⟩).trans hfound, rfl, hmethods⟩

theorem Expands.facts_eq
    (h : Expands scope same below bodies ref type) :
    type.facts = ((scope.snapshot.classOf? ref).map scope.snapshot.factsOf).getD {} := by
  rcases h.class_cases with ⟨hclass, hfacts, -⟩ | ⟨decl, hclass, hfacts, -⟩
  · rw [hclass, hfacts]
    rfl
  · rw [hclass, hfacts]
    rfl

theorem Expands.isNone_element
    (h : Expands scope same below bodies ref type) :
    type.element.isNone = decide (ref.dims = 0) := by
  cases h <;> rfl

/-- An expansion has the outline of its reference when the answers for members have its names. -/
theorem Expands.outlines
    (h : Expands scope same below bodies ref type)
    (hnames : ∀ ref type, below ref type → type.names = (nameOnly ref).names) :
    type.Outlines scope ref := by
  refine ⟨h.names_eq, h.facts_eq, h.isNone_element, ?_⟩
  rw [Snapshot.methodsOf]
  rcases h.class_cases with ⟨hclass, -, hnone⟩ | ⟨decl, hclass, -, hmethods⟩
  · rw [hclass, hnone]
    rfl
  · rw [hclass]
    refine (map_eq_of_forall₂ hmethods ?_).symm
    intro declaration method hshows
    exact (hshows.face_eq hnames).symm

end Expansions

theorem Outlines.of_agreesTo
    {levels : Nat} {other : TypeModel} (h : type.AgreesTo (levels + 1) other)
    (hother : other.Outlines scope ref) :
    type.Outlines scope ref where
  names := h.names_eq.trans hother.names
  facts := h.facts_eq.trans hother.facts
  element := h.isNone_element.trans hother.element
  faces := h.faces_eq.trans hother.faces

/-- An answer that was looked into has the outline of its reference. -/
theorem StandsFor.outlines
    {depth : Nat} (h : type.StandsFor scope (depth + 1) ref) : type.Outlines scope ref := by
  have hagrees : type.AgreesTo 1 (plain scope 1 ref) := h 1 (Nat.le_add_left 1 depth)
  refine Outlines.of_agreesTo hagrees ((plain_expands scope 0 ref).outlines ?_)
  rintro ref _ rfl
  rfl

end TypeModel

/-! ## The fields of the class under test -/

/-- Whether a model of a field has a type with the outline of the declared one. -/
def FieldModel.Outlines
    (scope : Scope) (viewer : Option ClassDecl) (declaration : FieldDeclaration)
    (field : FieldModel) : Prop :=
  ∃ type : TypeModel, type.Outlines scope declaration.field.type ∧
    field = ofType viewer declaration type

namespace Session

variable {scope : Scope} {sortOf : String → TypeSort} {cache : TypeCache}

theorem erasedName_extractSubject (scope : Scope) (cache : TypeCache) :
    ((extractSubject scope).run cache).1.erasedName = scope.subject.name := by
  rw [TypeModel.erasedName, (extractSubject_expands scope cache).names_eq]
  exact String.append_empty

/-- The own fields of the class under test are those that it declares.  Their types are looked into
when the class is expanded to two levels at least. -/
theorem forall₂_ownFields
    (hsnapshot : scope.snapshot.Obeys sortOf) (hcache : cache.Faithful scope sortOf)
    (hdepth : 2 ≤ scope.options.maxDepth) :
    List.Forall₂
      (fun field => FieldModel.Outlines scope (some scope.subject) ⟨scope.subject, field⟩)
      scope.subject.fields
      (((extractSubject scope).run cache).1.fields.filter fun field => !field.inherited) := by
  obtain ⟨below, hbelow⟩ : ∃ below, subjectDepth scope - 1 = below + 1 :=
    ⟨subjectDepth scope - 2, by rw [subjectDepth]; omega⟩
  obtain ⟨hexpands, -⟩ := extractSubject_ensures_standsFor hsnapshot cache hcache
  rw [hbelow] at hexpands
  obtain ⟨hfields, -⟩ := hexpands.members ⟨rfl, rfl⟩ scope.held
  have hkept : ∀ declaration field,
      FieldModel.Shows (fun ref type => type.StandsFor scope (below + 1) ref) (some scope.subject)
          declaration field →
        decide (declaration.owner.name = scope.subject.name) = !field.inherited := by
    rintro declaration _ ⟨type, -, rfl⟩
    simp [FieldModel.ofType, isInheritedBy, eq_comm]
  have hown := forall₂_filter hkept hfields
  rw [Snapshot.filter_own_memberFields scope.held, List.forall₂_map_left_iff] at hown
  refine hown.imp ?_
  rintro field _ ⟨type, hstands, rfl⟩
  exact ⟨type, hstands.outlines, rfl⟩

end Session

end Specwright
