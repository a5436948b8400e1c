import Specwright.Literal.Synthesis
import Specwright.Proofs.Model.Core
import Specwright.Proofs.Pointwise

/-!
# Types that plans cannot tell apart

A plan reads of a type its names, the facts about its class and its literals, and of the type of a
field also the methods with these data of their types.  Types that are alike in this are found by
expansions over scopes with one core, whatever else is read off bodies and however deep the members
were looked into.
-/

namespace Specwright

/-! ## Likeness -/

namespace TypeModel

/-- Whether two types agree in names, facts and all literals. -/
structure Alike (type other : TypeModel) : Prop where
  names : type.names = other.names
  facts : type.facts = other.facts
  element : type.element.isNone = other.element.isNone
  literal : ∀ (tables : ExpressionTables) (label : String) (shapes : ContainerShapes),
    tables.literal label shapes type = tables.literal label shapes other

theorem Alike.refl (type : TypeModel) : type.Alike type :=
  ⟨rfl, rfl, rfl, fun _ _ _ => rfl⟩

theorem Alike.symm {type other : TypeModel} (h : type.Alike other) : other.Alike type :=
  ⟨h.names.symm, h.facts.symm, h.element.symm, fun _ _ _ => (h.literal _ _ _).symm⟩

theorem Alike.trans
    {type other third : TypeModel} (h : type.Alike other) (h' : other.Alike third) :
    type.Alike third :=
  ⟨h.names.trans h'.names, h.facts.trans h'.facts, h.element.trans h'.element,
    fun _ _ _ => (h.literal _ _ _).trans (h'.literal _ _ _)⟩

end TypeModel

/-- Whether two parameters have one name and types that are related. -/
structure ParamModel.AlikeBy
    (related : TypeModel → TypeModel → Prop) (param other : ParamModel) : Prop where
  name : param.name = other.name
  type : related param.type other.type

/-- Whether two fields agree in what is declared of them and have types that are related. -/
structure FieldModel.AlikeBy
    (related : TypeModel → TypeModel → Prop) (field other : FieldModel) : Prop where
  name : field.name = other.name
  isStatic : field.isStatic = other.isStatic
  isFinal : field.isFinal = other.isFinal
  inherited : field.inherited = other.inherited
  type : related field.type other.type

/-- Whether two methods agree in what is declared of them and have types that are related. -/
structure MethodModel.AlikeBy
    (related : TypeModel → TypeModel → Prop) (method other : MethodModel) : Prop where
  id : method.id = other.id
  name : method.name = other.name
  owner : method.owner = other.owner
  traits : method.traits = other.traits
  returnType : Option.Rel related method.returnType other.returnType
  params : List.Forall₂ (ParamModel.AlikeBy related) method.params other.params

/-- Whether two calls have one text and callees with types that are related. -/
structure CallModel.AlikeBy
    (related : TypeModel → TypeModel → Prop) (call other : CallModel) : Prop where
  callee : call.callee.AlikeBy related other.callee
  args : call.args = other.args

/-- Whether two types are alike and so are the types of their methods. -/
structure TypeModel.AlikeInMethods (type other : TypeModel) : Prop extends type.Alike other where
  methods : List.Forall₂ (MethodModel.AlikeBy TypeModel.Alike) type.methods other.methods

/-- Whether two methods are alike and make alike calls. -/
structure MethodModel.AlikeWithCalls (method other : MethodModel) : Prop
    extends method.AlikeBy TypeModel.Alike other where
  calls : List.Forall₂ (CallModel.AlikeBy TypeModel.Alike) method.directCalls other.directCalls

/-- Whether two types agree as classes under test: in the names, in the fields with the methods of
their types, and in the methods with the calls in their bodies. -/
structure TypeModel.AlikeAsSubject (type other : TypeModel) : Prop where
  erasedName : type.erasedName = other.erasedName
  fields : List.Forall₂ (FieldModel.AlikeBy TypeModel.AlikeInMethods) type.fields other.fields
  methods : List.Forall₂ MethodModel.AlikeWithCalls type.methods other.methods

/-! ## Likeness to something in common -/

theorem MethodModel.AlikeBy.of_common
    {related : TypeModel → TypeModel → Prop} {method other common : MethodModel}
    (hrelated : ∀ type other common, related type common → related other common →
      related type other)
    (h : method.AlikeBy related common) (h' : other.AlikeBy related common) :
    method.AlikeBy related other := by
  refine ⟨h.id.trans h'.id.symm, h.name.trans h'.name.symm, h.owner.trans h'.owner.symm,
    h.traits.trans h'.traits.symm, ?_, ?_⟩
  · refine optionRel_comp h.returnType (optionRel_flip h'.returnType) ?_
    intro type common other htype hother
    exact hrelated type other common htype hother
  · refine forall₂_comp h.params h'.params.flip fun param common other hparam hother => ?_
    exact ⟨hparam.name.trans hother.name.symm, hrelated _ _ _ hparam.type hother.type⟩

theorem TypeModel.AlikeInMethods.of_common
    {type other common : TypeModel} (h : type.AlikeInMethods common)
    (h' : other.AlikeInMethods common) :
    type.AlikeInMethods other := by
  refine ⟨h.toAlike.trans h'.toAlike.symm, ?_⟩
  refine forall₂_comp h.methods h'.methods.flip fun method common other hmethod hother => ?_
  exact hmethod.of_common (fun _ _ _ htype hother => htype.trans hother.symm) hother

/-! ## Literals -/

namespace TypeModel

variable {type other : TypeModel}

theorem hasEmptyConstructor_eq
    {related : TypeModel → TypeModel → Prop} (hfacts : type.facts = other.facts)
    (hmethods : List.Forall₂ (MethodModel.AlikeBy related) type.methods other.methods) :
    type.hasEmptyConstructor = other.hasEmptyConstructor := by
  have hconstructors : List.Forall₂ (MethodModel.AlikeBy related) type.constructors
      other.constructors :=
    forall₂_filter (fun method other h => by rw [h.traits]) hmethods
  have hempty : (type.constructors.any fun c => c.traits.accessible && c.params.isEmpty) =
      other.constructors.any fun c => c.traits.accessible && c.params.isEmpty := by
    refine any_eq_of_forall₂ hconstructors fun method other h => ?_
    rw [h.traits, isEmpty_eq_of_forall₂ h.params]
  rw [hasEmptyConstructor, hasEmptyConstructor, hfacts, hempty]

end TypeModel

namespace ExpressionTables

variable {tables : ExpressionTables} {label : String}

theorem literals_eq_of_forall₂
    {types others : List TypeModel} (h : List.Forall₂ TypeModel.Alike types others) :
    tables.literals label types = tables.literals label others := by
  induction h with
  | nil => rfl
  | cons hfirst _ ih => rw [literals, literals, hfirst.literal, ih]

end ExpressionTables

namespace TypeModel

/-- Types that are made of alike parts are alike. -/
theorem Alike.of_parts
    {type other : TypeModel} {related : TypeModel → TypeModel → Prop}
    (hnames : type.names = other.names) (hfacts : type.facts = other.facts)
    (hargs : List.Forall₂ Alike type.args other.args)
    (helement : Option.Rel Alike type.element other.element)
    (hmethods : List.Forall₂ (MethodModel.AlikeBy related) type.methods other.methods) :
    type.Alike other := by
  have hempty := hasEmptyConstructor_eq hfacts hmethods
  have hspellings : type.args.map (·.spelling) = other.args.map (·.spelling) :=
    map_eq_of_forall₂ hargs fun arg arg' h => congrArg TypeNames.spelling h.names
  obtain ⟨names, facts, populated, args, element, fields, methods⟩ := type
  obtain ⟨names', facts', populated', args', element', fields', methods'⟩ := other
  obtain rfl : names = names' := hnames
  obtain rfl : facts = facts' := hfacts
  have hconstructed : constructedLiteral ⟨names, facts, populated, args, element, fields, methods⟩ =
      constructedLiteral ⟨names, facts, populated', args', element', fields', methods'⟩ := by
    simp only [constructedLiteral, hempty, erasedName]
  refine ⟨rfl, rfl, ?_, fun tables label shapes => ?_⟩
  · cases helement <;> rfl
  · unfold ExpressionTables.literal
    cases helement with
    | none =>
        simp only [ExpressionTables.literals_eq_of_forall₂ hargs, hspellings, hconstructed]
    | some h => simp only [h.literal]

end TypeModel

/-! ## Models over scopes with one core -/

section Scopes

variable {scope scope' : Scope} {answers answers' : TypeRef → TypeModel → Prop}
variable {related : TypeModel → TypeModel → Prop}
variable (hcore : scope.core = scope'.core)
variable (hrelated : ∀ ref type type', answers ref type → answers' ref type' → related type type')

include hrelated in
theorem FieldModel.alikeBy_of_shows
    {viewer viewer' : Option ClassDecl} {declaration declaration' : FieldDeclaration}
    {field field' : FieldModel}
    (hviewer : viewer.map ClassDecl.callsOnly = viewer'.map ClassDecl.callsOnly)
    (hdeclaration : declaration.callsOnly = declaration'.callsOnly)
    (h : field.Shows answers viewer declaration)
    (h' : field'.Shows answers' viewer' declaration') :
    field.AlikeBy related field' := by
  have hfield : declaration.field = declaration'.field :=
    congrArg (fun declaration => declaration.field) hdeclaration
  have howner : declaration.owner.name = declaration'.owner.name :=
    congrArg (fun declaration => declaration.owner.name) hdeclaration
  have hinherited (owner : ClassDecl) (viewer : Option ClassDecl) :
      isInheritedBy owner viewer =
        (viewer.map ClassDecl.callsOnly).any fun viewer => viewer.name ≠ owner.name := by
    cases viewer <;> rfl
  obtain ⟨type, htype, rfl⟩ := h
  obtain ⟨type', htype', rfl⟩ := h'
  rw [← hfield] at htype'
  refine ⟨?_, ?_, ?_, ?_, hrelated _ _ _ htype htype'⟩
  · simp only [ofType, hfield]
  · simp only [ofType, hfield]
  · simp only [ofType, hfield]
  · simp only [ofType, hinherited, hviewer, howner]

include hrelated in
theorem ParamModel.forall₂_alikeBy_of_shows
    {bindings : Bindings} {declaration declaration' : Declaration} {params : List ParamDecl}
    {models models' : List ParamModel}
    (h : List.Forall₂ (ParamModel.Shows scope answers bindings declaration) params models)
    (h' : List.Forall₂ (ParamModel.Shows scope' answers' bindings declaration') params models') :
    List.Forall₂ (ParamModel.AlikeBy related) models models' := by
  refine forall₂_comp h.flip h' ?_
  rintro _ param _ ⟨type, htype, rfl⟩ ⟨type', htype', rfl⟩
  exact ⟨rfl, hrelated _ _ _ htype htype'⟩

include hcore hrelated

/-- Models of one method over scopes with one core have related types when the answers for their
types are related. -/
theorem MethodModel.alikeBy_of_shows
    {bodies bodies' : Option BodyModel → Prop} {viewer viewer' : Option ClassDecl}
    {declaration declaration' : Declaration} {method method' : MethodModel}
    (hviewer : viewer.map ClassDecl.callsOnly = viewer'.map ClassDecl.callsOnly)
    (hdeclaration : declaration.callsOnly = declaration'.callsOnly)
    (h : method.Shows scope answers bodies viewer declaration)
    (h' : method'.Shows scope' answers' bodies' viewer' declaration') :
    method.AlikeBy related method' := by
  have hreturnType : declaration.method.returnType = declaration'.method.returnType :=
    congrArg (fun declaration => declaration.method.returnType) hdeclaration
  have hparams : declaration.method.params = declaration'.method.params :=
    congrArg (fun declaration => declaration.method.params) hdeclaration
  have hbindings := Scope.bindingsFor_of_core hcore hdeclaration hviewer
  have htraits := Scope.traitsOf_of_core hcore hdeclaration hviewer
  obtain ⟨returnType, params, body, hreturn, hmodels, -, rfl⟩ := h
  obtain ⟨returnType', params', body', hreturn', hmodels', -, rfl⟩ := h'
  rw [← hbindings, ← hreturnType] at hreturn'
  rw [← hbindings, ← hparams] at hmodels'
  refine ⟨?_, ?_, ?_, htraits, ?_, ParamModel.forall₂_alikeBy_of_shows hrelated hmodels hmodels'⟩
  · exact congrArg (fun declaration => declaration.id) hdeclaration
  · exact congrArg (fun declaration => declaration.method.name) hdeclaration
  · exact congrArg (fun declaration => declaration.owner.name) hdeclaration
  · refine optionRel_comp (optionRel_flip hreturn) hreturn' ?_
    intro type ref type' htype htype'
    exact hrelated ref type type' htype htype'

theorem CallModel.alikeBy_of_shows
    {owner owner' : ClassDecl} {call call' : Declaration × List String}
    {model model' : CallModel}
    (howner : owner.callsOnly = owner'.callsOnly)
    (hcall : (call.1.callsOnly, call.2) = (call'.1.callsOnly, call'.2))
    (h : model.Shows scope answers owner call) (h' : model'.Shows scope' answers' owner' call') :
    model.AlikeBy related model' := by
  obtain ⟨hcallee, hargs⟩ := h
  obtain ⟨hcallee', hargs'⟩ := h'
  obtain ⟨hdeclaration, hsame⟩ := Prod.mk.inj hcall
  have hviewerOf (owner : ClassDecl) (callee : Declaration) :
      (calleeViewer owner callee).map ClassDecl.callsOnly =
        calleeViewer owner.callsOnly callee.callsOnly := by
    rw [calleeViewer, apply_ite (Option.map ClassDecl.callsOnly)]
    rfl
  have hviewer : (calleeViewer owner call.1).map ClassDecl.callsOnly =
      (calleeViewer owner' call'.1).map ClassDecl.callsOnly := by
    rw [hviewerOf, hviewerOf, howner, hdeclaration]
  refine ⟨MethodModel.alikeBy_of_shows hcore hrelated hviewer hdeclaration hcallee hcallee', ?_⟩
  rw [hargs, hargs', hsame]

/-- The calls that are found in bodies do not depend on what else is read off them. -/
theorem BodyModel.forall₂_calls_of_shows
    {declaration declaration' : Declaration} {body body' : BodyModel}
    (hdeclaration : declaration.callsOnly = declaration'.callsOnly)
    (h : body.Shows scope answers declaration) (h' : body'.Shows scope' answers' declaration') :
    List.Forall₂ (CallModel.AlikeBy related) body.calls body'.calls := by
  have howner : declaration.owner.callsOnly = declaration'.owner.callsOnly :=
    congrArg (fun declaration => declaration.owner) hdeclaration
  have hname : declaration.owner.name = declaration'.owner.name :=
    congrArg (fun owner => owner.name) howner
  cases h with
  | root hroot =>
      cases h' with
      | root => exact .nil
      | found hother =>
          rw [hname, hother] at hroot
          cases hroot
  | found hother hcalls =>
      cases h' with
      | root hroot =>
          rw [hname, hroot] at hother
          cases hother
      | found _ hcalls' =>
          have hkeys := Scope.followedCalls_of_core hcore hdeclaration
          refine forall₂_distinctBy ?_ (forall₂_of_map_eq hkeys hcalls hcalls' ?_)
          · intro call other halike
            rw [halike.callee.id, halike.args]
          · intro call call' model model' hkey hmodel hmodel'
            exact CallModel.alikeBy_of_shows hcore hrelated howner hkey hmodel hmodel'

end Scopes

/-! ## Expansions over scopes with one core -/

namespace TypeModel

variable {scope scope' : Scope} {same same' below below' : TypeRef → TypeModel → Prop}
variable {bodies bodies' : Declaration → Option BodyModel → Prop} {ref : TypeRef}
variable {type type' : TypeModel}

theorem Alike.of_forall₂
    {refs : List TypeRef} {types types' : List TypeModel}
    (hsame : ∀ ref type type', same ref type → same' ref type' → type.Alike type')
    (h : List.Forall₂ same refs types) (h' : List.Forall₂ same' refs types') :
    List.Forall₂ Alike types types' := by
  refine forall₂_comp h.flip h' fun type ref type' htype htype' => ?_
  exact hsame ref type type' htype htype'

/-- The parts of two expansions of one reference are related when the answers for them are. -/
theorem Expands.parts_alike
    {related : TypeModel → TypeModel → Prop} (hcore : scope.core = scope'.core)
    (hsame : ∀ ref type type', same ref type → same' ref type' → type.Alike type')
    (hbelow : ∀ ref type type', below ref type → below' ref type' → related type type')
    (h : Expands scope same below bodies ref type)
    (h' : Expands scope' same' below' bodies' ref type') :
    type.facts = type'.facts ∧ List.Forall₂ Alike type.args type'.args ∧
      Option.Rel Alike type.element type'.element ∧
        List.Forall₂ (MethodModel.AlikeBy related) type.methods type'.methods := by
  have hfind := Scope.find?_of_core hcore ref.name
  cases h with
  | array helement =>
      cases h' with
      | array helement' => exact ⟨rfl, .nil, .some (hsame _ _ _ helement helement'), .nil⟩
  | named hkind =>
      cases h' with
      | named => exact ⟨rfl, .nil, .none, .nil⟩
      | outside => exact absurd rfl hkind
      | declared => exact absurd rfl hkind
  | outside hmissing htypes =>
      cases h' with
      | named hkind => exact absurd rfl hkind
      | outside _ htypes' => exact ⟨rfl, Alike.of_forall₂ hsame htypes htypes', .none, .nil⟩
      | declared hfound => simp [hmissing, hfound] at hfind
  | declared hfound htypes _ hmethods =>
      cases h' with
      | named hkind => exact absurd rfl hkind
      | outside hmissing => simp [hmissing, hfound] at hfind
      | declared hfound' htypes' _ hmethods' =>
          rw [hfound, hfound'] at hfind
          have hdecl := Option.some.inj hfind
          have hargs := Alike.of_forall₂ hsame htypes htypes'
          refine ⟨Scope.factsOf_of_core hcore hdecl, hargs, .none, ?_⟩
          -- The members of the class agree in all that their models are made of.
          refine forall₂_of_map_eq (Scope.memberMethods_of_core hcore hdecl) hmethods hmethods' ?_
          intro declaration declaration' method method' hkey hshows hshows'
          exact MethodModel.alikeBy_of_shows hcore hbelow hfind hkey hshows hshows'

/-- Two expansions of one reference are alike when the answers for elements and type arguments
are. -/
theorem Expands.alike
    (hcore : scope.core = scope'.core)
    (hsame : ∀ ref type type', same ref type → same' ref type' → type.Alike type')
    (h : Expands scope same below bodies ref type)
    (h' : Expands scope' same' below' bodies' ref type') :
    type.Alike type' := by
  -- Of the types of members nothing is read, so any relation will do for them.
  have hbelow : ∀ ref type type', below ref type → below' ref type' →
      (fun _ _ => True : TypeModel → TypeModel → Prop) type type' :=
    fun _ _ _ _ _ => trivial
  obtain ⟨hfacts, hargs, helement, hmethods⟩ := h.parts_alike hcore hsame hbelow h'
  exact Alike.of_parts (h.names_eq.trans h'.names_eq.symm) hfacts hargs helement hmethods

/-- Two expansions of one reference are alike in their methods as well when the answers for members
are alike. -/
theorem Expands.alikeInMethods
    (hcore : scope.core = scope'.core)
    (hsame : ∀ ref type type', same ref type → same' ref type' → type.Alike type')
    (hbelow : ∀ ref type type', below ref type → below' ref type' → type.Alike type')
    (h : Expands scope same below bodies ref type)
    (h' : Expands scope' same' below' bodies' ref type') :
    type.AlikeInMethods type' := by
  obtain ⟨-, -, -, hmethods⟩ := h.parts_alike hcore hsame hbelow h'
  exact ⟨h.alike hcore hsame h', hmethods⟩

end TypeModel

end Specwright
