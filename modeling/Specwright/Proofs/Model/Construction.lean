import Mathlib.Tactic.Set
import Specwright.Model.Cache
import Specwright.Proofs.Contract

/-!
# What a construction yields

Fields, parameters, methods, bodies and types are built in any monad that answers for type
references.  Here each construction is described by a relation between a declaration and its model
that leaves open what the answers are: a model *shows* a declaration when its types are answers to
the references that the declaration asks for, and all else in it is read off the declaration.  Every
construction has one theorem, which says that it ends in a model that shows its declaration.
-/

namespace Specwright

namespace FieldModel

/-- The model of a field whose type is known. -/
def ofType (viewer : Option ClassDecl) (declaration : FieldDeclaration) (type : TypeModel) :
    FieldModel where
  name := declaration.field.name
  type := type
  owner := declaration.owner.name
  visibility := declaration.owner.visibilityOf declaration.field.modifiers
  isStatic := declaration.field.has .static
  isFinal := declaration.field.has .final
  inherited := isInheritedBy declaration.owner viewer

/-- The model of a field whose type is not looked into. -/
def ofName (declaration : FieldDeclaration) : FieldModel :=
  ofType none declaration (.nameOnly declaration.field.type)

/-- A field model with an answer for its type. -/
def Shows
    (answers : TypeRef → TypeModel → Prop) (viewer : Option ClassDecl)
    (declaration : FieldDeclaration) (field : FieldModel) : Prop :=
  ∃ type, answers declaration.field.type type ∧ field = ofType viewer declaration type

end FieldModel

namespace ParamModel

/-- The model of a parameter whose type is known. -/
def ofType (scope : Scope) (declaration : Declaration) (param : ParamDecl) (type : TypeModel) :
    ParamModel where
  name := param.name
  type := type
  assignedTo :=
    (scope.snapshot.fieldsAssignedFrom declaration.owner declaration.method param.name).map
      FieldModel.ofName

/-- A parameter model with an answer for its type under bindings. -/
def Shows
    (scope : Scope) (answers : TypeRef → TypeModel → Prop) (bindings : Bindings)
    (declaration : Declaration) (param : ParamDecl) (model : ParamModel) : Prop :=
  ∃ type, answers (param.type.substitute bindings) type ∧
    model = ofType scope declaration param type

end ParamModel

namespace MethodModel

/-- The model of a method whose types and body are known. -/
def ofParts
    (scope : Scope) (viewer : Option ClassDecl) (declaration : Declaration)
    (returnType : Option TypeModel) (params : List ParamModel) (body : Option BodyModel) :
    MethodModel where
  id := declaration.id
  name := declaration.method.name
  owner := declaration.owner.name
  returnType := returnType
  params := params
  traits := scope.traitsOf declaration.owner viewer declaration.method
  property := declaration.method.property?
  body := body

/-- A method model with answers for its types and a body of the given kind. -/
def Shows
    (scope : Scope) (answers : TypeRef → TypeModel → Prop) (bodies : Option BodyModel → Prop)
    (viewer : Option ClassDecl) (declaration : Declaration) (method : MethodModel) : Prop :=
  let bindings := scope.bindingsFor declaration.owner viewer declaration.method
  ∃ returnType params body,
    Option.Rel answers (declaration.method.returnType.map (·.substitute bindings)) returnType ∧
      List.Forall₂ (ParamModel.Shows scope answers bindings declaration)
        declaration.method.params params ∧
      bodies body ∧
      method = ofParts scope viewer declaration returnType params body

end MethodModel

namespace ReferenceModel

/-- The model of a use of a variable whose type is known. -/
def ofType (use : VariableUse) (type : TypeModel) : ReferenceModel where
  name := use.name
  access := use.access
  type := type
  owner := use.owner

/-- The model of a use with an answer for its type. -/
def Shows
    (answers : TypeRef → TypeModel → Prop) (use : VariableUse) (model : ReferenceModel) : Prop :=
  ∃ type, answers use.type type ∧ model = ofType use type

end ReferenceModel

/-- The class from which a method of `owner` sees a callee, if there is one. -/
def calleeViewer (owner : ClassDecl) (callee : Declaration) : Option ClassDecl :=
  if owner.language.keepsCalleeContext then some callee.owner else none

namespace CallModel

/-- The model of a followed call whose callee shows its declaration without a body. -/
def Shows
    (scope : Scope) (answers : TypeRef → TypeModel → Prop) (owner : ClassDecl)
    (call : Declaration × List String) (model : CallModel) : Prop :=
  model.callee.Shows scope answers (· = none) (calleeViewer owner call.1) call.1 ∧
    model.args = call.2

end CallModel

namespace BodyModel

/-- A body of a root class, where nothing is found, or one in which the followed calls and method
references, the visible uses and the fields of the delegate are found, each once. -/
inductive Shows
    (scope : Scope) (answers : TypeRef → TypeModel → Prop) (declaration : Declaration) :
    BodyModel → Prop
  | root : isRootClass declaration.owner.name = true → Shows scope answers declaration empty
  | found {calls : List CallModel} {methodRefs : List MethodModel}
      {references : List ReferenceModel} :
      isRootClass declaration.owner.name = false →
      List.Forall₂ (CallModel.Shows scope answers declaration.owner)
        (scope.followedCalls declaration.method) calls →
      List.Forall₂
        (fun target => MethodModel.Shows scope answers (· = none) (some target.owner) target)
        (scope.followedRefs declaration.method) methodRefs →
      List.Forall₂ (ReferenceModel.Shows answers) (scope.visibleUses declaration.method)
        references →
        Shows scope answers declaration {
          calls := distinctBy (fun call => (call.callee.id, call.args)) calls
          methodRefs := distinctBy (·.id) methodRefs
          references := distinctBy (fun use => (use.name, use.access, use.owner)) references
          affectedFields :=
            (scope.fieldsOfDelegate declaration.owner declaration.method).map FieldModel.ofName }

end BodyModel

namespace TypeModel

/-- What one expansion of a reference may yield.  `same` answers for elements and type arguments,
`below` for the types of members, and `bodies` says how the bodies of own methods are modelled. -/
inductive Expands
    (scope : Scope) (same below : TypeRef → TypeModel → Prop)
    (bodies : Declaration → Option BodyModel → Prop) : TypeRef → TypeModel → Prop
  | array {name : String} {args : List TypeRef} {kind : TypeSort} {dims : Nat}
      {element : TypeModel} :
      same ⟨name, args, kind, dims⟩ element →
        Expands scope same below bodies ⟨name, args, kind, dims + 1⟩
          { nameOnly ⟨name, args, kind, dims + 1⟩ with populated := true, element := some element }
  | named {name : String} {args : List TypeRef} {kind : TypeSort} :
      kind ≠ .reference →
        Expands scope same below bodies ⟨name, args, kind, 0⟩
          { nameOnly ⟨name, args, kind, 0⟩ with populated := true }
  | outside {name : String} {args : List TypeRef} {types : List TypeModel} :
      scope.snapshot.find? name = none →
      List.Forall₂ same args types →
        Expands scope same below bodies ⟨name, args, .reference, 0⟩
          { nameOnly ⟨name, args, .reference, 0⟩ with populated := true, args := types }
  | declared {name : String} {args : List TypeRef} {types : List TypeModel} {decl : ClassDecl}
      {fields : List FieldModel} {methods : List MethodModel} :
      scope.snapshot.find? name = some decl →
      List.Forall₂ same args types →
      List.Forall₂ (FieldModel.Shows below (some decl)) (scope.snapshot.memberFields decl) fields →
      List.Forall₂
        (fun declaration => MethodModel.Shows scope below
          (if declaration.owner.name = decl.name then bodies declaration else (· = none))
          (some decl) declaration)
        (scope.snapshot.memberMethods decl) methods →
        Expands scope same below bodies ⟨name, args, .reference, 0⟩
          { nameOnly ⟨name, args, .reference, 0⟩ with
            populated := true
            args := types
            facts := scope.snapshot.factsOf decl
            fields
            methods }

theorem Expands.names_eq
    {scope : Scope} {same below : TypeRef → TypeModel → Prop}
    {bodies : Declaration → Option BodyModel → Prop} {ref : TypeRef} {type : TypeModel}
    (h : Expands scope same below bodies ref type) :
    type.names = (nameOnly ref).names := by
  cases h <;> rfl

end TypeModel

/-! ## The references that a construction asks for -/

namespace Scope

/-- The references in the signature of a method, as a class sees them. -/
def signatureRefs (scope : Scope) (viewer : Option ClassDecl) (declaration : Declaration) :
    List TypeRef :=
  (declaration.method.returnType.toList ++ declaration.method.paramTypes).map
    (·.substitute (scope.bindingsFor declaration.owner viewer declaration.method))

/-- The references in the members of a class. -/
def memberRefs (scope : Scope) (decl : ClassDecl) : List TypeRef :=
  (scope.snapshot.memberFields decl).map (·.field.type) ++
    (scope.snapshot.memberMethods decl).flatMap (scope.signatureRefs (some decl))

/-- The references in the callees and uses of a body. -/
def bodyRefs (scope : Scope) (declaration : Declaration) : List TypeRef :=
  (scope.followedCalls declaration.method).flatMap
      (fun call => scope.signatureRefs (calleeViewer declaration.owner call.1) call.1) ++
    (scope.followedRefs declaration.method).flatMap
      (fun target => scope.signatureRefs (some target.owner) target) ++
    (scope.visibleUses declaration.method).map (·.type)

variable {scope : Scope} {ref : TypeRef}

theorem mem_memberRefs_iff {decl : ClassDecl} :
    ref ∈ scope.memberRefs decl ↔
      (∃ declaration ∈ scope.snapshot.memberFields decl, declaration.field.type = ref) ∨
        ∃ declaration ∈ scope.snapshot.memberMethods decl,
          ref ∈ scope.signatureRefs (some decl) declaration := by
  rw [memberRefs, List.mem_append, List.mem_map, List.mem_flatMap]

theorem mem_bodyRefs_iff {declaration : Declaration} :
    ref ∈ scope.bodyRefs declaration ↔
      (∃ call ∈ scope.followedCalls declaration.method,
        ref ∈ scope.signatureRefs (calleeViewer declaration.owner call.1) call.1) ∨
      (∃ target ∈ scope.followedRefs declaration.method,
        ref ∈ scope.signatureRefs (some target.owner) target) ∨
      ∃ use ∈ scope.visibleUses declaration.method, use.type = ref := by
  rw [bodyRefs, List.mem_append, List.mem_append, List.mem_flatMap, List.mem_flatMap,
    List.mem_map, or_assoc]

/-- A set of references that holds all that an expansion of one of them asks for. -/
structure Closed (scope : Scope) (within : TypeRef → Prop) : Prop where
  element {name : String} {args : List TypeRef} {kind : TypeSort} {dims : Nat} :
    within ⟨name, args, kind, dims + 1⟩ → within ⟨name, args, kind, dims⟩
  args {name : String} {args : List TypeRef} :
    within ⟨name, args, .reference, 0⟩ → ∀ arg ∈ args, within arg
  members {name : String} {args : List TypeRef} {decl : ClassDecl} :
    within ⟨name, args, .reference, 0⟩ → scope.snapshot.find? name = some decl →
      ∀ ref ∈ scope.memberRefs decl, within ref

end Scope

/-! ## Contracts of the constructions -/

section Ensures

variable {m : Type → Type} [Monad m] {contract : Contract m}
variable {scope : Scope} {resolve leaf : TypeRef → m TypeModel}
variable {answers : TypeRef → TypeModel → Prop}

theorem FieldModel.build_ensures
    {viewer : Option ClassDecl} {declaration : FieldDeclaration}
    (hresolve :
      contract.Ensures (resolve declaration.field.type) (answers declaration.field.type)) :
    contract.Ensures (FieldModel.build resolve viewer declaration)
      (FieldModel.Shows answers viewer declaration) :=
  contract.ensures_bind hresolve fun type htype => contract.ensures_pure ⟨type, htype, rfl⟩

theorem ReferenceModel.build_ensures
    {use : VariableUse} (hresolve : contract.Ensures (resolve use.type) (answers use.type)) :
    contract.Ensures (ReferenceModel.build resolve use) (ReferenceModel.Shows answers use) :=
  contract.ensures_bind hresolve fun type htype => contract.ensures_pure ⟨type, htype, rfl⟩

theorem FieldModel.eq_map_ofName
    {declarations : List FieldDeclaration} {fields : List FieldModel}
    (h : List.Forall₂ (FieldModel.Shows (fun ref type => type = .nameOnly ref) none)
      declarations fields) :
    fields = declarations.map FieldModel.ofName := by
  induction h with
  | nil => rfl
  | cons hfield _ ih =>
      obtain ⟨type, rfl, rfl⟩ := hfield
      rw [ih]
      rfl

variable [LawfulMonad m] (hleaf : ∀ ref, contract.Ensures (leaf ref) (· = .nameOnly ref))

include hleaf

/-- Fields whose types are not looked into are read off their declarations. -/
theorem FieldModel.mapM_build_leaf_ensures
    {declarations : List FieldDeclaration} :
    contract.Ensures (declarations.mapM (FieldModel.build leaf none))
      (· = declarations.map FieldModel.ofName) := by
  have hshows :
      contract.Ensures (declarations.mapM (FieldModel.build leaf none))
        (List.Forall₂ (FieldModel.Shows (fun ref type => type = .nameOnly ref) none)
          declarations) :=
    contract.ensures_mapM fun declaration _ => FieldModel.build_ensures (hleaf _)
  exact contract.ensures_mono hshows fun fields => FieldModel.eq_map_ofName

theorem ParamModel.build_ensures
    {bindings : Bindings} {declaration : Declaration} {param : ParamDecl}
    (hresolve :
      contract.Ensures (resolve (param.type.substitute bindings))
        (answers (param.type.substitute bindings))) :
    contract.Ensures (ParamModel.build scope resolve leaf bindings declaration param)
      (ParamModel.Shows scope answers bindings declaration param) := by
  refine contract.ensures_bind hresolve fun type htype => ?_
  refine contract.ensures_bind (FieldModel.mapM_build_leaf_ensures hleaf) ?_
  rintro _ rfl
  exact contract.ensures_pure ⟨type, htype, rfl⟩

/-- A method is built with answers for its types and the body that it is given. -/
theorem MethodModel.build_ensures
    {body : m (Option BodyModel)} {bodies : Option BodyModel → Prop}
    {viewer : Option ClassDecl} {declaration : Declaration}
    (hresolve :
      ∀ ref ∈ scope.signatureRefs viewer declaration, contract.Ensures (resolve ref) (answers ref))
    (hbody : contract.Ensures body bodies) :
    contract.Ensures (MethodModel.build scope resolve leaf body viewer declaration)
      (MethodModel.Shows scope answers bodies viewer declaration) := by
  set bindings := scope.bindingsFor declaration.owner viewer declaration.method with hbindings
  have hreturn : ∀ ref ∈ declaration.method.returnType.map (·.substitute bindings),
      contract.Ensures (resolve ref) (answers ref) := by
    intro ref href
    obtain ⟨type, htype, rfl⟩ := Option.map_eq_some_iff.mp href
    exact hresolve _ (List.mem_map_of_mem (List.mem_append_left _ (Option.mem_toList.mpr htype)))
  have hparams : ∀ param ∈ declaration.method.params,
      contract.Ensures (ParamModel.build scope resolve leaf bindings declaration param)
        (ParamModel.Shows scope answers bindings declaration param) := by
    intro param hparam
    refine ParamModel.build_ensures hleaf (hresolve _ (List.mem_map_of_mem ?_))
    exact List.mem_append_right _ (List.mem_map_of_mem hparam)
  refine contract.ensures_bind (contract.ensures_optionMapM hreturn) fun returnType hreturn => ?_
  refine contract.ensures_bind (contract.ensures_mapM hparams) fun params hparams => ?_
  refine contract.ensures_bind hbody fun body hbody => ?_
  exact contract.ensures_pure ⟨returnType, params, body, hreturn, hparams, hbody, rfl⟩

theorem MethodModel.ofCallee_ensures
    {viewer : Option ClassDecl} {declaration : Declaration}
    (hresolve :
      ∀ ref ∈ scope.signatureRefs viewer declaration,
        contract.Ensures (resolve ref) (answers ref)) :
    contract.Ensures (MethodModel.ofCallee scope resolve leaf viewer declaration)
      (MethodModel.Shows scope answers (· = none) viewer declaration) :=
  MethodModel.build_ensures hleaf hresolve (contract.ensures_pure rfl)

theorem CallModel.build_ensures
    {owner : ClassDecl} {call : Declaration × List String}
    (hresolve :
      ∀ ref ∈ scope.signatureRefs (calleeViewer owner call.1) call.1,
        contract.Ensures (resolve ref) (answers ref)) :
    contract.Ensures
      (do
        let callee ← MethodModel.ofCallee scope resolve leaf (calleeViewer owner call.1) call.1
        pure { callee, args := call.2 : CallModel })
      (CallModel.Shows scope answers owner call) :=
  contract.ensures_bind (MethodModel.ofCallee_ensures hleaf hresolve) fun _ hcallee =>
    contract.ensures_pure ⟨hcallee, rfl⟩

/-- A body is built from its followed calls and references, visible uses and delegate. -/
theorem BodyModel.build_ensures
    {declaration : Declaration}
    (hresolve :
      ∀ ref ∈ scope.bodyRefs declaration, contract.Ensures (resolve ref) (answers ref)) :
    contract.Ensures (BodyModel.build scope resolve leaf declaration)
      (BodyModel.Shows scope answers declaration) := by
  obtain ⟨owner, method⟩ := declaration
  simp only [BodyModel.build]
  split
  next hroot => exact contract.ensures_pure (.root hroot)
  next hroot =>
    -- Each part of the body asks for some of its references, and these are all of them.
    have hcalls : ∀ call ∈ scope.followedCalls method,
        contract.Ensures
          (do
            let callee ← MethodModel.ofCallee scope resolve leaf (calleeViewer owner call.1) call.1
            pure { callee, args := call.2 : CallModel })
          (CallModel.Shows scope answers owner call) := by
      intro call hcall
      refine CallModel.build_ensures hleaf fun ref href => hresolve ref ?_
      exact Scope.mem_bodyRefs_iff.mpr (Or.inl ⟨call, hcall, href⟩)
    have hrefs : ∀ target ∈ scope.followedRefs method,
        contract.Ensures (MethodModel.ofCallee scope resolve leaf (some target.owner) target)
          (MethodModel.Shows scope answers (· = none) (some target.owner) target) := by
      intro target htarget
      refine MethodModel.ofCallee_ensures hleaf fun ref href => hresolve ref ?_
      exact Scope.mem_bodyRefs_iff.mpr (Or.inr (Or.inl ⟨target, htarget, href⟩))
    have huses : ∀ use ∈ scope.visibleUses method,
        contract.Ensures (ReferenceModel.build resolve use)
          (ReferenceModel.Shows answers use) := by
      intro use huse
      refine ReferenceModel.build_ensures (hresolve use.type ?_)
      exact Scope.mem_bodyRefs_iff.mpr (Or.inr (Or.inr ⟨use, huse, rfl⟩))
    refine contract.ensures_bind (contract.ensures_mapM hcalls) fun calls hcalls => ?_
    refine contract.ensures_bind (contract.ensures_mapM hrefs) fun methodRefs hrefs => ?_
    refine contract.ensures_bind (contract.ensures_mapM huses) fun references huses => ?_
    refine contract.ensures_bind (FieldModel.mapM_build_leaf_ensures hleaf) ?_
    rintro _ rfl
    exact contract.ensures_pure (.found (by simpa using hroot) hcalls hrefs huses)

/-- The type of a class is built from the answers for its members. -/
theorem TypeModel.ofClass_ensures
    {lower : TypeRef → m TypeModel} {bodyOf : Declaration → m (Option BodyModel)}
    {same below : TypeRef → TypeModel → Prop} {bodies : Declaration → Option BodyModel → Prop}
    {name : String} {args : List TypeRef} {types : List TypeModel}
    (hlower :
      ∀ decl, scope.snapshot.find? name = some decl →
        ∀ ref ∈ scope.memberRefs decl, contract.Ensures (lower ref) (below ref))
    (hbody :
      ∀ decl, scope.snapshot.find? name = some decl →
        ∀ declaration ∈ scope.snapshot.memberMethods decl, declaration.owner.name = decl.name →
          contract.Ensures (bodyOf declaration) (bodies declaration))
    (htypes : List.Forall₂ same args types) :
    contract.Ensures (ofClass scope lower leaf bodyOf ⟨name, args, .reference, 0⟩ types)
      (Expands scope same below bodies ⟨name, args, .reference, 0⟩) := by
  simp only [ofClass]
  split
  next hmissing => exact contract.ensures_pure (.outside hmissing htypes)
  next decl hfound =>
    have hfields : ∀ declaration ∈ scope.snapshot.memberFields decl,
        contract.Ensures (FieldModel.build lower (some decl) declaration)
          (FieldModel.Shows below (some decl) declaration) := by
      intro declaration hmem
      refine FieldModel.build_ensures (hlower decl hfound _ ?_)
      exact Scope.mem_memberRefs_iff.mpr (Or.inl ⟨declaration, hmem, rfl⟩)
    have hmethods : ∀ declaration ∈ scope.snapshot.memberMethods decl,
        contract.Ensures
          (MethodModel.build scope lower leaf
            (if declaration.owner.name = decl.name then bodyOf declaration else pure none)
            (some decl) declaration)
          (MethodModel.Shows scope below
            (if declaration.owner.name = decl.name then bodies declaration else (· = none))
            (some decl) declaration) := by
      intro declaration hmem
      refine MethodModel.build_ensures hleaf ?_ ?_
      · intro ref href
        exact hlower decl hfound ref
          (Scope.mem_memberRefs_iff.mpr (Or.inr ⟨declaration, hmem, href⟩))
      · split
        next hown => exact hbody decl hfound declaration hmem hown
        next => exact contract.ensures_pure rfl
    refine contract.ensures_bind (contract.ensures_mapM hfields) fun fields hfields => ?_
    refine contract.ensures_bind (contract.ensures_mapM hmethods) fun methods hmethods => ?_
    exact contract.ensures_pure (.declared hfound htypes hfields hmethods)

end Ensures

/-! ## Expansions -/

section Expansions

variable {m : Type → Type} [Monad m] {contract : Contract m}
variable {scope : Scope} {within : TypeRef → Prop} {lower leaf : TypeRef → m TypeModel}
variable {same below : TypeRef → TypeModel → Prop}

theorem TypeModel.expandAllAt_eq_mapM
    [LawfulMonad m] (serve : TypeRef → m TypeModel → m TypeModel) (refs : List TypeRef) :
    expandAllAt scope serve lower leaf refs = refs.mapM (expandAt scope serve lower leaf) := by
  induction refs with
  | nil => rfl
  | cons ref rest ih => rw [expandAllAt, ih, List.mapM_cons]

section OneDepth

variable {serve : TypeRef → m TypeModel → m TypeModel}
variable (hserve : ∀ ref build, within ref →
  contract.Ensures build (TypeModel.Expands scope same below (fun _ => (· = none)) ref) →
    contract.Ensures (serve ref build) (same ref))
variable (hclosed : scope.Closed within)

include hserve hclosed

/-- Arrays are expanded one dimension after the other. -/
theorem TypeModel.expandArray_ensures
    {name : String} {args : List TypeRef} {kind : TypeSort} {element : m TypeModel}
    (helement :
      within ⟨name, args, kind, 0⟩ → contract.Ensures element (same ⟨name, args, kind, 0⟩))
    (dims : Nat) (hwithin : within ⟨name, args, kind, dims⟩) :
    contract.Ensures (expandArray serve ⟨name, args, kind, 0⟩ element dims)
      (same ⟨name, args, kind, dims⟩) := by
  induction dims with
  | zero => exact helement hwithin
  | succ dims ih =>
      refine hserve _ _ hwithin ?_
      exact contract.ensures_bind (ih (hclosed.element hwithin)) fun type htype =>
        contract.ensures_pure (.array htype)

variable [LawfulMonad m] (hleaf : ∀ ref, contract.Ensures (leaf ref) (· = .nameOnly ref))
variable (hlower : ∀ ref, within ref → contract.Ensures (lower ref) (below ref))

include hleaf hlower

/-- An expansion at one depth ends in an answer of that depth when every service does. -/
theorem TypeModel.expandAt_ensures :
    ∀ ref, within ref → contract.Ensures (expandAt scope serve lower leaf ref) (same ref)
  | ⟨name, args, kind, dims⟩, hwithin => by
    rw [expandAt, expandAllAt_eq_mapM]
    refine TypeModel.expandArray_ensures hserve hclosed (fun hbase => ?_) dims hwithin
    refine hserve _ _ hbase ?_
    split
    next hkind =>
      subst hkind
      -- Type arguments are smaller than their type and are expanded to the same depth.
      have hargs : ∀ arg ∈ args,
          contract.Ensures (expandAt scope serve lower leaf arg) (same arg) :=
        fun arg harg => TypeModel.expandAt_ensures arg (hclosed.args hbase arg harg)
      refine contract.ensures_bind (contract.ensures_mapM hargs) fun types htypes => ?_
      refine TypeModel.ofClass_ensures hleaf ?_ ?_ htypes
      · exact fun decl hfound ref href => hlower ref (hclosed.members hbase hfound ref href)
      · exact fun _ _ _ _ _ => contract.ensures_pure rfl
    next hkind => exact contract.ensures_pure (.named hkind)

end OneDepth

/-- An expansion to any depth ends in an answer of that depth, when bare names are answers of depth
0 and services make answers of each depth from answers of that depth and of the one below. -/
theorem TypeModel.expand_ensures [LawfulMonad m]
    {serve : Nat → TypeRef → m TypeModel → m TypeModel}
    {good : Nat → TypeRef → TypeModel → Prop}
    (hserve :
      ∀ depth ref build, within ref →
        contract.Ensures build
          (Expands scope (good (depth + 1)) (good depth) (fun _ => (· = none)) ref) →
            contract.Ensures (serve (depth + 1) ref build) (good (depth + 1) ref))
    (hclosed : scope.Closed within)
    (hleaf : ∀ ref, contract.Ensures (leaf ref) (· = .nameOnly ref))
    (hbare : ∀ ref, within ref → good 0 ref (.nameOnly ref))
    (depth : Nat) (ref : TypeRef) (hwithin : within ref) :
    contract.Ensures (expand scope serve leaf depth ref) (good depth ref) := by
  induction depth generalizing ref with
  | zero =>
      rw [expand]
      refine contract.ensures_mono (hleaf ref) ?_
      rintro _ rfl
      exact hbare ref hwithin
  | succ depth ih => exact expandAt_ensures (hserve depth) hclosed hleaf ih ref hwithin

end Expansions

end Specwright
