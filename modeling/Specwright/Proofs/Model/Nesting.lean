import Specwright.Proofs.Agreement
import Specwright.Proofs.Model.Construction

/-!
# Requests within requests

A type is built from the answers to further requests: for the elements of an array and for type
arguments at the same depth, for the types in the members of a class one level less deep, and for
those of the fields that parameters are assigned to at depth 0.  The depth does not always go down,
and substitution may make a reference larger before it is asked for.  But where the depth stays,
what is asked for is a part of what it is asked for from, so the depth and the size go down
together, the depth first.
-/

namespace Specwright

/-! ## The size of a reference -/

namespace TypeRef

mutual

/-- The number of names and array dimensions in a reference. -/
def size : TypeRef → Nat
  | ⟨_, args, _, dims⟩ => 1 + dims + listSize args

/-- The number of names and array dimensions in the references of a list. -/
def listSize : List TypeRef → Nat
  | [] => 0
  | type :: rest => size type + listSize rest

end

variable {name : String} {args : List TypeRef} {kind : TypeSort} {dims : Nat}

theorem size_pos (type : TypeRef) : 0 < type.size := by
  obtain ⟨name, args, kind, dims⟩ := type
  rw [size]
  omega

theorem size_element :
    (TypeRef.mk name args kind dims).size < (TypeRef.mk name args kind (dims + 1)).size := by
  rw [size, size]
  omega

theorem size_le_listSize {arg : TypeRef} (h : arg ∈ args) : arg.size ≤ listSize args := by
  induction args with
  | nil => cases h
  | cons first rest ih =>
      rw [listSize]
      rcases List.mem_cons.mp h with rfl | hrest
      · omega
      · have hle := ih hrest
        omega

theorem size_arg {arg : TypeRef} (h : arg ∈ args) :
    arg.size < (TypeRef.mk name args kind dims).size := by
  have hle := size_le_listSize h
  rw [size]
  omega

end TypeRef

namespace TypeModel

/-! ## Building a type from answers -/

section Build

variable {m : Type → Type} [Monad m]

/-- The type of a reference at a positive depth, where `ask` answers for all other types and
`bodyOf` looks into the bodies of own methods. -/
def build
    (scope : Scope) (ask : Nat → TypeRef → m TypeModel)
    (bodyOf : Declaration → m (Option BodyModel)) (depth : Nat) (ref : TypeRef) : m TypeModel :=
  match ref.element? with
  | some element => do
    let type ← ask depth element
    pure { nameOnly ref with populated := true, element := some type }
  | none =>
    if ref.kind = .reference then do
      let types ← ref.args.mapM (ask depth)
      ofClass scope (ask (depth - 1)) (ask 0) bodyOf ref types
    else pure { nameOnly ref with populated := true }

/-- No body is looked into. -/
def withoutBodies (_ : Declaration) : m (Option BodyModel) :=
  pure none

/-- The body of a method of the class under test, where `ask` answers for types. -/
def bodyFrom
    (scope : Scope) (ask : Nat → TypeRef → m TypeModel) (declaration : Declaration) :
    m (Option BodyModel) := do
  let body ← BodyModel.build scope (ask 1) (ask 0) declaration
  pure (some body)

end Build

/-- The requests that may be made to build the type of a reference at a depth, each with its own
depth. -/
inductive Asks (scope : Scope) : Nat → TypeRef → Nat → TypeRef → Prop
  | element {depth : Nat} {name : String} {args : List TypeRef} {kind : TypeSort} {dims : Nat} :
      Asks scope depth ⟨name, args, kind, dims + 1⟩ depth ⟨name, args, kind, dims⟩
  | arg {depth : Nat} {name : String} {args : List TypeRef} {arg : TypeRef} :
      arg ∈ args → Asks scope depth ⟨name, args, .reference, 0⟩ depth arg
  | member {depth : Nat} {name : String} {args : List TypeRef} {decl : ClassDecl}
      {other : TypeRef} :
      scope.snapshot.find? name = some decl → other ∈ scope.memberRefs decl →
        Asks scope depth ⟨name, args, .reference, 0⟩ (depth - 1) other
  /-- The types of assigned fields, which are not looked into. -/
  | assigned {depth : Nat} {ref : TypeRef} (other : TypeRef) : Asks scope depth ref 0 other

/-- The depth and the size of a reference go down from each request to those that are made for it,
the depth first. -/
theorem Asks.decreases
    {scope : Scope} {depth below : Nat} {ref other : TypeRef}
    (h : Asks scope depth ref below other) (hdepth : 0 < depth) :
    Prod.Lex (· < ·) (· < ·) (below, other.size) (depth, ref.size) := by
  cases h with
  | element => exact .right _ TypeRef.size_element
  | arg harg => exact .right _ (TypeRef.size_arg harg)
  | member hfound hmember => exact .left _ _ (by omega)
  | assigned => exact .left _ _ hdepth

end TypeModel

/-! ## Constructions from answers that agree -/

section Agreement

variable {m n : Type → Type} [Monad m] [Monad n] {agreement : Agreement m n} {scope : Scope}
variable {resolve leaf : TypeRef → m TypeModel} {resolve' leaf' : TypeRef → n TypeModel}

theorem FieldModel.build_agrees
    {viewer : Option ClassDecl} {declaration : FieldDeclaration}
    (hresolve :
      agreement.Agree (resolve declaration.field.type) (resolve' declaration.field.type)) :
    agreement.Agree (FieldModel.build resolve viewer declaration)
      (FieldModel.build resolve' viewer declaration) :=
  agreement.agree_bind hresolve fun _ => agreement.agree_pure _

theorem ReferenceModel.build_agrees
    {use : VariableUse} (hresolve : agreement.Agree (resolve use.type) (resolve' use.type)) :
    agreement.Agree (ReferenceModel.build resolve use) (ReferenceModel.build resolve' use) :=
  agreement.agree_bind hresolve fun _ => agreement.agree_pure _

variable [LawfulMonad m] [LawfulMonad n] (hleaf : ∀ ref, agreement.Agree (leaf ref) (leaf' ref))

include hleaf

theorem ParamModel.build_agrees
    {bindings : Bindings} {declaration : Declaration} {param : ParamDecl}
    (hresolve :
      agreement.Agree (resolve (param.type.substitute bindings))
        (resolve' (param.type.substitute bindings))) :
    agreement.Agree (ParamModel.build scope resolve leaf bindings declaration param)
      (ParamModel.build scope resolve' leaf' bindings declaration param) := by
  refine agreement.agree_bind hresolve fun type => ?_
  refine agreement.agree_bind (agreement.agree_mapM fun field _ => ?_) fun fields => ?_
  · exact FieldModel.build_agrees (hleaf _)
  · exact agreement.agree_pure _

theorem MethodModel.build_agrees
    {body : m (Option BodyModel)} {body' : n (Option BodyModel)} {viewer : Option ClassDecl}
    {declaration : Declaration}
    (hresolve :
      ∀ ref ∈ scope.signatureRefs viewer declaration,
        agreement.Agree (resolve ref) (resolve' ref))
    (hbody : agreement.Agree body body') :
    agreement.Agree (MethodModel.build scope resolve leaf body viewer declaration)
      (MethodModel.build scope resolve' leaf' body' viewer declaration) := by
  refine agreement.agree_bind (agreement.agree_optionMapM ?returned) fun returnType => ?_
  case returned =>
    intro ref href
    obtain ⟨type, htype, rfl⟩ := Option.map_eq_some_iff.mp href
    exact hresolve _ (List.mem_map_of_mem (List.mem_append_left _ (Option.mem_toList.mpr htype)))
  refine agreement.agree_bind (agreement.agree_mapM ?params) fun params => ?_
  case params =>
    intro param hparam
    refine ParamModel.build_agrees hleaf (hresolve _ (List.mem_map_of_mem ?_))
    exact List.mem_append_right _ (List.mem_map_of_mem hparam)
  exact agreement.agree_bind hbody fun body => agreement.agree_pure _

theorem BodyModel.build_agrees
    {declaration : Declaration}
    (hresolve :
      ∀ ref ∈ scope.bodyRefs declaration, agreement.Agree (resolve ref) (resolve' ref)) :
    agreement.Agree (BodyModel.build scope resolve leaf declaration)
      (BodyModel.build scope resolve' leaf' declaration) := by
  obtain ⟨owner, method⟩ := declaration
  simp only [BodyModel.build]
  split
  · exact agreement.agree_pure _
  · refine agreement.agree_bind (agreement.agree_mapM ?calls) fun calls => ?_
    case calls =>
      intro call hcall
      have hcallee : ∀ ref ∈ scope.signatureRefs (calleeViewer owner call.1) call.1,
          agreement.Agree (resolve ref) (resolve' ref) :=
        fun ref href => hresolve ref (Scope.mem_bodyRefs_iff.mpr (Or.inl ⟨call, hcall, href⟩))
      exact agreement.agree_bind
        (MethodModel.build_agrees hleaf hcallee (agreement.agree_pure none)) fun callee =>
          agreement.agree_pure _
    refine agreement.agree_bind (agreement.agree_mapM ?methodRefs) fun methodRefs => ?_
    case methodRefs =>
      intro target htarget
      refine MethodModel.build_agrees hleaf (fun ref href => hresolve ref ?_)
        (agreement.agree_pure none)
      exact Scope.mem_bodyRefs_iff.mpr (Or.inr (Or.inl ⟨target, htarget, href⟩))
    refine agreement.agree_bind (agreement.agree_mapM ?uses) fun references => ?_
    case uses =>
      intro use huse
      refine ReferenceModel.build_agrees (hresolve use.type ?_)
      exact Scope.mem_bodyRefs_iff.mpr (Or.inr (Or.inr ⟨use, huse, rfl⟩))
    refine agreement.agree_bind (agreement.agree_mapM ?delegate) fun fields => ?_
    case delegate => exact fun field _ => FieldModel.build_agrees (hleaf _)
    exact agreement.agree_pure _

theorem TypeModel.ofClass_agrees
    {bodyOf : Declaration → m (Option BodyModel)} {bodyOf' : Declaration → n (Option BodyModel)}
    {ref : TypeRef} {types : List TypeModel}
    (hresolve :
      ∀ decl, scope.snapshot.find? ref.name = some decl →
        ∀ other ∈ scope.memberRefs decl, agreement.Agree (resolve other) (resolve' other))
    (hbody :
      ∀ decl, scope.snapshot.find? ref.name = some decl →
        ∀ declaration ∈ scope.snapshot.memberMethods decl, declaration.owner.name = decl.name →
          agreement.Agree (bodyOf declaration) (bodyOf' declaration)) :
    agreement.Agree (ofClass scope resolve leaf bodyOf ref types)
      (ofClass scope resolve' leaf' bodyOf' ref types) := by
  simp only [ofClass]
  split
  · exact agreement.agree_pure _
  next decl hfound =>
    refine agreement.agree_bind (agreement.agree_mapM ?fields) fun fields => ?_
    case fields =>
      intro declaration hmem
      refine FieldModel.build_agrees (hresolve decl hfound _ ?_)
      exact Scope.mem_memberRefs_iff.mpr (Or.inl ⟨declaration, hmem, rfl⟩)
    refine agreement.agree_bind (agreement.agree_mapM ?methods) fun methods => ?_
    case methods =>
      intro declaration hmem
      refine MethodModel.build_agrees hleaf (fun other hother => ?_) ?_
      · exact hresolve decl hfound other
          (Scope.mem_memberRefs_iff.mpr (Or.inr ⟨declaration, hmem, hother⟩))
      · split
        next hown => exact hbody decl hfound declaration hmem hown
        next => exact agreement.agree_pure none
    exact agreement.agree_pure _

end Agreement

/-- A type is built from the answers to the requests that are made for it, and from the bodies of
its own methods. -/
theorem TypeModel.build_agrees
    {m n : Type → Type} [Monad m] [Monad n] [LawfulMonad m] [LawfulMonad n]
    {agreement : Agreement m n} {scope : Scope}
    {ask : Nat → TypeRef → m TypeModel} {ask' : Nat → TypeRef → n TypeModel}
    {bodyOf : Declaration → m (Option BodyModel)} {bodyOf' : Declaration → n (Option BodyModel)}
    {depth : Nat} {ref : TypeRef}
    (hask : ∀ below other, Asks scope depth ref below other →
      agreement.Agree (ask below other) (ask' below other))
    (hbody :
      ∀ decl, scope.snapshot.find? ref.name = some decl →
        ∀ declaration ∈ scope.snapshot.memberMethods decl, declaration.owner.name = decl.name →
          agreement.Agree (bodyOf declaration) (bodyOf' declaration)) :
    agreement.Agree (build scope ask bodyOf depth ref) (build scope ask' bodyOf' depth ref) := by
  obtain ⟨name, args, kind, dims⟩ := ref
  rw [build, build]
  cases dims with
  | succ dims =>
      exact agreement.agree_bind (hask _ _ .element) fun type => agreement.agree_pure _
  | zero =>
      dsimp only [TypeRef.element?]
      split
      next hkind =>
        subst hkind
        refine agreement.agree_bind (agreement.agree_mapM ?args) fun types => ?_
        case args => exact fun arg harg => hask _ _ (.arg harg)
        refine TypeModel.ofClass_agrees (fun other => hask _ _ (.assigned other)) ?_ hbody
        exact fun decl hfound other hother => hask _ _ (.member hfound hother)
      next => exact agreement.agree_pure _

/-- Without bodies, a type that is built is an expansion, whatever the answers are. -/
theorem TypeModel.build_ensures
    {m : Type → Type} [Monad m] [LawfulMonad m] {contract : Contract m} {scope : Scope}
    {ask : Nat → TypeRef → m TypeModel} {depth : Nat} {same below : TypeRef → TypeModel → Prop}
    (hleaf : ∀ ref, contract.Ensures (ask 0 ref) (· = .nameOnly ref))
    (hsame : ∀ ref, contract.Ensures (ask depth ref) (same ref))
    (hbelow : ∀ ref, contract.Ensures (ask (depth - 1) ref) (below ref)) (ref : TypeRef) :
    contract.Ensures (build scope ask withoutBodies depth ref)
      (Expands scope same below (fun _ => (· = none)) ref) := by
  obtain ⟨name, args, kind, dims⟩ := ref
  rw [build]
  cases dims with
  | succ dims =>
      exact contract.ensures_bind (hsame _) fun type htype => contract.ensures_pure (.array htype)
  | zero =>
      dsimp only [TypeRef.element?]
      split
      next hkind =>
        subst hkind
        refine contract.ensures_bind (contract.ensures_mapM fun arg _ => hsame arg)
          fun types htypes => ?_
        refine TypeModel.ofClass_ensures hleaf (fun _ _ other _ => hbelow other) ?_ htypes
        exact fun _ _ _ _ _ => contract.ensures_pure rfl
      next hkind => exact contract.ensures_pure (.named hkind)

end Specwright
