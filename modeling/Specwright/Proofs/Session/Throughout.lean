import Specwright.Proofs.Model.Parts
import Specwright.Proofs.Session.Transparency

/-!
# Properties of all parts of all answers

A property that a scope grants of each part by itself, from the declaration that the part is built
for, holds throughout all answers of a session and throughout all that it remembers.  Methods with
bodies may be left out of that: then it holds as long as the class under test is not extracted.
-/

namespace Specwright

namespace Scope

/-- A set of references that holds all that a session asks for by itself. -/
structure Encloses (scope : Scope) (within : TypeRef → Prop) : Prop
    extends Closed scope within where
  subject : within scope.subject.ownType
  field {declaration : FieldDeclaration} :
    declaration.BelongsTo scope.snapshot → within declaration.field.type
  body {declaration : Declaration} {ref : TypeRef} :
    declaration.BelongsTo scope.snapshot → ref ∈ scope.bodyRefs declaration → within ref

theorem encloses_any (scope : Scope) : scope.Encloses fun _ => True where
  toClosed := Session.closed_any scope
  subject := trivial
  field _ := trivial
  body _ _ := trivial

/-- What passes on and holds of all references in the snapshot holds of all that is asked for. -/
theorem encloses_of_hereditary
    {scope : Scope} {within : TypeRef → Prop} (hhereditary : TypeRef.Hereditary within)
    (h : scope.snapshot.RefsWithin within) :
    scope.Encloses within where
  toClosed := closed_of_hereditary hhereditary h
  subject := h.ownType (Snapshot.mem_of_find? scope.held)
  field hbelongs := h.field hbelongs.1 hbelongs.2
  body hbelongs href := within_of_mem_bodyRefs hhereditary h hbelongs href

/-- Whether a property holds of each part that is built for a reference in a set or a declaration of
the snapshot, except methods with bodies, whatever is inside of it. -/
structure Grants
    (scope : Scope) (within : TypeRef → Prop) (holds : ModelPart → Prop) : Prop where
  bare {ref : TypeRef} : within ref → holds (.type (.nameOnly ref))
  expanded {same below : TypeRef → TypeModel → Prop}
    {bodies : Declaration → Option BodyModel → Prop} {ref : TypeRef} {type : TypeModel} :
    within ref → TypeModel.Expands scope same below bodies ref type → holds (.type type)
  field {viewer : Option ClassDecl} {declaration : FieldDeclaration} {type : TypeModel} :
    declaration.BelongsTo scope.snapshot → holds (.field (.ofType viewer declaration type))
  param {declaration : Declaration} {param : ParamDecl} {type : TypeModel} :
    declaration.BelongsTo scope.snapshot → param ∈ declaration.method.params →
      holds (.param (.ofType scope declaration param type))
  use {use : VariableUse} {type : TypeModel} : holds (.use (.ofType use type))
  method {viewer : Option ClassDecl} {declaration : Declaration} {returnType : Option TypeModel}
    {params : List ParamModel} :
    declaration.BelongsTo scope.snapshot →
      holds (.method (.ofParts scope viewer declaration returnType params none))

/-- Whether a property holds of methods with bodies as well, given what is found in the bodies. -/
structure GrantsBodies
    (scope : Scope) (within : TypeRef → Prop) (holds : ModelPart → Prop) : Prop
    extends Grants scope within holds where
  own {answers : TypeRef → TypeModel → Prop} {viewer : Option ClassDecl}
    {declaration : Declaration} {returnType : Option TypeModel} {params : List ParamModel}
    {body : BodyModel} :
    declaration.BelongsTo scope.snapshot → BodyModel.Shows scope answers declaration body →
      holds (.method (.ofParts scope viewer declaration returnType params (some body)))

end Scope

/-- The methods of an expansion show declarations of the snapshot. -/
theorem TypeModel.Expands.exists_declaration
    {scope : Scope} {same below : TypeRef → TypeModel → Prop}
    {bodies : Declaration → Option BodyModel → Prop} {ref : TypeRef} {type : TypeModel}
    {method : MethodModel} (h : Expands scope same below bodies ref type)
    (hmethod : method ∈ type.methods) :
    ∃ decl declaration, scope.snapshot.find? ref.name = some decl ∧
      declaration.BelongsTo scope.snapshot ∧
      method.Shows scope below
        (if declaration.owner.name = decl.name then bodies declaration else (· = none))
        (some decl) declaration := by
  cases h with
  | array => cases hmethod
  | named => cases hmethod
  | outside => cases hmethod
  | @declared _ _ _ decl _ _ hfound _ _ hmethods =>
      obtain ⟨declaration, hdeclared, hshown⟩ := exists_related_of_mem hmethods.flip hmethod
      have hheld : scope.snapshot.find? decl.name = some decl := by
        rw [Snapshot.name_of_find? hfound, hfound]
      exact ⟨decl, declaration, hfound, Snapshot.belongsTo_of_mem_memberMethods hheld hdeclared,
        hshown⟩

/-! ## From single parts to what is in them -/

namespace Scope.Grants

variable {scope : Scope} {within : TypeRef → Prop} {holds : ModelPart → Prop}
variable {answers : TypeRef → TypeModel → Prop} {viewer : Option ClassDecl}
variable {declaration : Declaration}

variable (hgrants : scope.Grants within holds) (hencloses : scope.Encloses within)

include hgrants

theorem throughout_nameOnly {ref : TypeRef} (hwithin : within ref) :
    (ModelPart.type (.nameOnly ref)).Throughout holds :=
  ModelPart.throughout_of_inside (hgrants.bare hwithin) (ModelPart.inside_nameOnly ref)

section Members

variable (hanswers : ∀ ref type, answers ref type → (ModelPart.type type).Throughout holds)

include hanswers

theorem throughout_field
    {declaration : FieldDeclaration} {field : FieldModel}
    (hshows : field.Shows answers viewer declaration)
    (hbelongs : declaration.BelongsTo scope.snapshot) :
    (ModelPart.field field).Throughout holds := by
  obtain ⟨type, htype, rfl⟩ := hshows
  exact ModelPart.throughout_of_inside (hgrants.field hbelongs)
    (ModelPart.inside_field (hanswers _ type htype))

include hencloses

theorem throughout_param
    {bindings : Bindings} {param : ParamDecl} {model : ParamModel}
    (hshows : model.Shows scope answers bindings declaration param)
    (hbelongs : declaration.BelongsTo scope.snapshot) (hparam : param ∈ declaration.method.params) :
    (ModelPart.param model).Throughout holds := by
  obtain ⟨type, htype, rfl⟩ := hshows
  refine ModelPart.throughout_of_inside (hgrants.param hbelongs hparam) ?_
  refine ModelPart.inside_param (hanswers _ type htype) ?_
  intro field hfield
  obtain ⟨assigned, hassigned, rfl⟩ := List.mem_map.mp hfield
  have hfieldBelongs : assigned.BelongsTo scope.snapshot :=
    Snapshot.belongsTo_of_mem_fieldsAssignedFrom hbelongs.1 hassigned
  have htypeName := hgrants.throughout_nameOnly (hencloses.field hfieldBelongs)
  exact ModelPart.throughout_of_inside (hgrants.field hfieldBelongs)
    (ModelPart.inside_field htypeName)

/-- What is in a method comes from answers for its signature and from its body. -/
theorem inside_method
    {bodies : Option BodyModel → Prop} {method : MethodModel}
    (hshows : method.Shows scope answers bodies viewer declaration)
    (hbelongs : declaration.BelongsTo scope.snapshot)
    (hbody : ∀ body, bodies (some body) → body.Throughout holds) :
    (ModelPart.method method).Inside holds := by
  obtain ⟨returnType, params, body, hreturn, hparams, hbodies, rfl⟩ := hshows
  apply ModelPart.inside_method
  · intro type htype
    obtain rfl : returnType = some type := htype
    generalize declaration.method.returnType.map _ = ref at hreturn
    cases hreturn with
    | some hanswer => exact hanswers _ type hanswer
  · intro param hparam
    obtain ⟨declared, hdeclared, hshown⟩ := exists_related_of_mem hparams.flip hparam
    exact hgrants.throughout_param hencloses hanswers hshown hbelongs hdeclared
  · intro found hfound
    obtain rfl : body = some found := hfound
    exact hbody found hbodies

theorem throughout_callee
    {method : MethodModel} (hshows : method.Shows scope answers (· = none) viewer declaration)
    (hbelongs : declaration.BelongsTo scope.snapshot) :
    (ModelPart.method method).Throughout holds := by
  refine ModelPart.throughout_of_inside ?_ (hgrants.inside_method hencloses hanswers hshows
    hbelongs fun body hbody => by cases hbody)
  obtain ⟨returnType, params, _, -, -, rfl, rfl⟩ := hshows
  exact hgrants.method hbelongs

theorem throughout_body
    {body : BodyModel} (hshows : BodyModel.Shows scope answers declaration body)
    (hbelongs : declaration.BelongsTo scope.snapshot) :
    body.Throughout holds := by
  cases hshows with
  | root => exact ⟨by simp [BodyModel.empty], by simp [BodyModel.empty],
      by simp [BodyModel.empty], by simp [BodyModel.empty]⟩
  | found hroot hcalls hrefs huses =>
      constructor
      · intro call hcall
        obtain ⟨followed, hfollowed, hcallee, -⟩ :=
          exists_related_of_mem hcalls.flip ((distinctBy_sublist _).subset hcall)
        exact hgrants.throughout_callee hencloses hanswers hcallee
          (belongsTo_of_mem_followedCalls hfollowed)
      · intro target htarget
        obtain ⟨followed, hfollowed, hshown⟩ :=
          exists_related_of_mem hrefs.flip ((distinctBy_sublist _).subset htarget)
        exact hgrants.throughout_callee hencloses hanswers hshown
          (belongsTo_of_mem_followedRefs hfollowed)
      · intro use huse
        obtain ⟨_, -, type, htype, rfl⟩ :=
          exists_related_of_mem huses.flip ((distinctBy_sublist _).subset huse)
        exact ModelPart.throughout_of_inside hgrants.use
          (ModelPart.inside_use (hanswers _ type htype))
      · intro field hfield
        obtain ⟨assigned, hassigned, rfl⟩ := List.mem_map.mp hfield
        have hfieldBelongs := belongsTo_of_mem_fieldsOfDelegate hbelongs.1 hassigned
        have htypeName := hgrants.throughout_nameOnly (hencloses.field hfieldBelongs)
        exact ModelPart.throughout_of_inside (hgrants.field hfieldBelongs)
          (ModelPart.inside_field htypeName)

end Members

variable {same below : TypeRef → TypeModel → Prop}
variable {bodies : Declaration → Option BodyModel → Prop} {ref : TypeRef} {type : TypeModel}

/-- The property holds of all that is in an expansion, with the possible exception of the methods of
the type itself. -/
theorem parts_of_expands
    (hencloses : scope.Encloses within)
    (hsame : ∀ ref type, same ref type → (ModelPart.type type).Throughout holds)
    (hbelow : ∀ ref type, below ref type → (ModelPart.type type).Throughout holds)
    (hbodies : ∀ declaration body, declaration.BelongsTo scope.snapshot →
      bodies declaration (some body) → body.Throughout holds)
    (hexpands : TypeModel.Expands scope same below bodies ref type) :
    ∀ part, (ModelPart.type type).Has part →
      part.Inside holds ∧ (holds part ∨ ∃ method ∈ type.methods, part = .method method) := by
  intro part hhas
  have hwhole {part : ModelPart} (h : part.Throughout holds) :
      part.Inside holds ∧ (holds part ∨ ∃ method ∈ type.methods, part = .method method) :=
    ⟨h.inside, Or.inl h.here⟩
  have hargs {args : List TypeRef} {types : List TypeModel}
      (htypes : List.Forall₂ same args types) :
      ∀ arg ∈ types, (ModelPart.type arg).Throughout holds := by
    intro arg harg
    obtain ⟨ref, -, hanswer⟩ := exists_related_of_mem htypes.flip harg
    exact hsame ref arg hanswer
  have hmethod {method : MethodModel} (hmethod : method ∈ type.methods) :
      (ModelPart.method method).Inside holds := by
    obtain ⟨decl, declaration, -, hbelongs, hshown⟩ := hexpands.exists_declaration hmethod
    refine hgrants.inside_method hencloses hbelow hshown hbelongs ?_
    intro body hbody
    split at hbody
    · exact hbodies declaration body hbelongs hbody
    · cases hbody
  cases hhas with
  | method hmem => exact ⟨hmethod hmem, Or.inr ⟨_, hmem, rfl⟩⟩
  | arg harg =>
      cases hexpands with
      | array => cases harg
      | named => cases harg
      | outside _ htypes => exact hwhole (hargs htypes _ harg)
      | declared _ htypes => exact hwhole (hargs htypes _ harg)
  | element helement =>
      cases hexpands with
      | array hanswer =>
          cases helement
          exact hwhole (hsame _ _ hanswer)
      | named => cases helement
      | outside => cases helement
      | declared => cases helement
  | field hfield =>
      cases hexpands with
      | array => cases hfield
      | named => cases hfield
      | outside => cases hfield
      | @declared _ _ _ decl _ _ hfound _ hfields =>
          have hheld : scope.snapshot.find? decl.name = some decl := by
            rw [Snapshot.name_of_find? hfound, hfound]
          obtain ⟨declared, hdeclared, hshown⟩ := exists_related_of_mem hfields.flip hfield
          exact hwhole (hgrants.throughout_field hbelow hshown
            (Snapshot.mem_of_mem_memberFields hheld hdeclared))

/-- The property holds throughout an expansion when it holds of the methods of the type itself. -/
theorem throughout_of_expands
    (hencloses : scope.Encloses within) (hwithin : within ref)
    (hsame : ∀ ref type, same ref type → (ModelPart.type type).Throughout holds)
    (hbelow : ∀ ref type, below ref type → (ModelPart.type type).Throughout holds)
    (hbodies : ∀ declaration body, declaration.BelongsTo scope.snapshot →
      bodies declaration (some body) → body.Throughout holds)
    (hexpands : TypeModel.Expands scope same below bodies ref type)
    (hmethods : ∀ method ∈ type.methods, holds (.method method)) :
    (ModelPart.type type).Throughout holds := by
  refine ModelPart.throughout_of_inside (hgrants.expanded hwithin hexpands) ?_
  refine ModelPart.inside_iff.mpr fun part hhas => ?_
  obtain ⟨hinside, hpart⟩ :=
    hgrants.parts_of_expands hencloses hsame hbelow hbodies hexpands part hhas
  refine ModelPart.throughout_of_inside ?_ hinside
  rcases hpart with hpart | ⟨method, hmethod, rfl⟩
  · exact hpart
  · exact hmethods method hmethod

end Scope.Grants

/-! ## Sessions -/

/-- Whether a property holds throughout all that is remembered. -/
def TypeCache.Throughout (holds : ModelPart → Prop) (cache : TypeCache) : Prop :=
  ∀ entry ∈ cache.entries, (ModelPart.type entry.type).Throughout holds

theorem TypeCache.throughout_empty {holds : ModelPart → Prop} : empty.Throughout holds := by
  intro entry hentry
  cases hentry

namespace Session

variable {scope : Scope} {within : TypeRef → Prop} {holds : ModelPart → Prop}

theorem throughout_discipline
    (hgrants : scope.Grants within holds) (hencloses : scope.Encloses within) :
    ExpansionDiscipline scope within (fun _ _ type => (ModelPart.type type).Throughout holds)
      (·.Throughout holds) where
  counted _ hcache := hcache
  served := by
    intro cache depth ref type hcache _ hlookup
    obtain ⟨entry, hentry, -, -, rfl⟩ := TypeCache.exists_of_lookup? hlookup
    exact hcache entry hentry
  remembered := by
    intro cache depth ref type hcache _ htype entry hentry
    rcases TypeCache.mem_of_mem_remember hentry with rfl | hold
    · exact htype
    · exact hcache entry hold
  bare hwithin := hgrants.throughout_nameOnly hwithin
  expanded := by
    intro depth ref type hwithin hexpands
    refine hgrants.throughout_of_expands hencloses hwithin (fun _ _ htype => htype)
      (fun _ _ htype => htype) (fun _ _ _ hbody => by cases hbody) hexpands ?_
    intro method hmethod
    obtain ⟨decl, declaration, -, hbelongs, hshown⟩ := hexpands.exists_declaration hmethod
    obtain ⟨returnType, params, body, -, -, hbody, rfl⟩ := hshown
    have hnone : body = none := by
      split at hbody
      · exact hbody
      · exact hbody
    rw [hnone]
    exact hgrants.method hbelongs

theorem belongsTo_subject {method : MethodDecl} (h : method ∈ scope.subject.methods) :
    Declaration.BelongsTo ⟨scope.subject, method⟩ scope.snapshot :=
  ⟨Snapshot.mem_of_find? scope.held, h⟩

/-- What is found in the own methods of the class under test has the property throughout. -/
theorem throughout_of_ownBody
    (hgrants : scope.Grants within holds) (hencloses : scope.Encloses within)
    {declaration : Declaration} {body : BodyModel} (hbelongs : declaration.BelongsTo scope.snapshot)
    (h : OwnBody scope (fun _ _ type => (ModelPart.type type).Throughout holds) declaration
      (some body)) :
    body.Throughout holds := by
  obtain ⟨found, hfound, hshows⟩ := h
  cases hfound
  exact hgrants.throughout_body hencloses (fun _ _ htype => htype) hshows hbelongs

/-- Where methods with bodies have the property as well, it holds throughout extractions. -/
theorem extractSubject_throughout
    (hgrants : scope.GrantsBodies within holds) (hencloses : scope.Encloses within) :
    (Contract.keeping (TypeCache.Throughout holds)).Ensures (extractSubject scope)
      fun type => (ModelPart.type type).Throughout holds := by
  have hthroughout (type : TypeModel)
      (hexpands : TypeModel.Expands scope (fun _ type => (ModelPart.type type).Throughout holds)
        (fun _ type => (ModelPart.type type).Throughout holds)
        (OwnBody scope fun _ _ type => (ModelPart.type type).Throughout holds)
        scope.subject.ownType type) : (ModelPart.type type).Throughout holds := by
    refine hgrants.throughout_of_expands hencloses hencloses.subject (fun _ _ htype => htype)
      (fun _ _ htype => htype)
      (fun _ _ => throughout_of_ownBody hgrants.toGrants hencloses) hexpands ?_
    intro method hmethod
    obtain ⟨decl, declaration, -, hbelongs, hshown⟩ := hexpands.exists_declaration hmethod
    obtain ⟨returnType, params, body, -, -, hbody, rfl⟩ := hshown
    split at hbody
    · obtain ⟨found, rfl, hfound⟩ := hbody
      exact hgrants.own hbelongs hfound
    · obtain rfl : body = none := hbody
      exact hgrants.method hbelongs
  have hextract := extractSubject_ensures_of_expansions
    (throughout_discipline hgrants.toGrants hencloses) hencloses.toClosed hencloses.subject
    (fun method hmethod ref href => hencloses.body (belongsTo_subject hmethod) href) hthroughout
  exact Contract.ensures_mono _ hextract hthroughout

/-- Requests for types within the set are answered with types that have the property throughout. -/
theorem typeOf_throughout
    (hgrants : scope.Grants within holds) (hencloses : scope.Encloses within)
    {ref : TypeRef} (hwithin : within ref) (depth : Nat) :
    (Contract.keeping (TypeCache.Throughout holds)).Ensures (typeOf scope depth ref)
      fun type => (ModelPart.type type).Throughout holds :=
  typeOf_ensures_of_expansions (throughout_discipline hgrants hencloses) hencloses.toClosed depth
    ref hwithin

end Session

end Specwright
