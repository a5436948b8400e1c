import Specwright.Proofs.Model.Alike
import Specwright.Proofs.Session.Subject
import Specwright.Proofs.Session.Transparency

/-!
# What plans read of an extraction

A plan looks at the methods of the types of fields, so it reads two levels of members below the
class under test and no more.  An extraction to any depth shows these two levels as expansions by
themselves show them, as far as it goes, and it shows the calls in bodies.  Nothing else that the
session asks for on the way makes a difference.
-/

namespace Specwright

namespace Session

variable {scope scope' : Scope} {sortOf sortOf' : String → TypeSort}

/-! ## Levels that plans read -/

/-- What an answer of a depth shows to plans: looked into at all, it is alike to the first level,
and looked into further, also in its methods to the first two levels. -/
def ShowsLevels (scope : Scope) (depth : Nat) (ref : TypeRef) (type : TypeModel) : Prop :=
  (1 ≤ depth → type.Alike (.plain scope.core 1 ref)) ∧
    (2 ≤ depth → type.AlikeInMethods (.plain scope.core 2 ref))

theorem levels_discipline (scope : Scope) (sortOf : String → TypeSort) :
    CacheDiscipline scope (fun ref => ref.Obeys sortOf) (ShowsLevels scope)
      (TypeCache.Remembers sortOf (ShowsLevels scope)) where
  toCacheMemory := by
    refine TypeCache.remembers_memory fun shallow depth ref type hle hshows => ?_
    exact ⟨fun h => hshows.1 (Nat.le_trans h hle), fun h => hshows.2 (Nat.le_trans h hle)⟩
  bare _ := ⟨fun h => absurd h (by decide), fun h => absurd h (by decide)⟩
  built := by
    intro depth ref type bodies _ hexpands
    constructor
    · intro _
      refine hexpands.alike scope.core_core.symm ?_ (TypeModel.plain_expands scope.core 0 ref)
      rintro ref type _ hshows rfl
      exact hshows.1 (Nat.le_add_left 1 depth)
    · intro hdepth
      refine hexpands.alikeInMethods scope.core_core.symm ?_ ?_
        (TypeModel.plain_expands scope.core 1 ref)
      · rintro ref type _ hshows rfl
        exact (hshows.2 hdepth).toAlike
      · rintro ref type _ hshows rfl
        exact hshows.1 (Nat.le_of_succ_le_succ hdepth)

/-! ## Extractions of two levels -/

/-- Where types are asked for to one level only, all answers are alike to the first level in their
methods as well. -/
def ShowsLevel (scope : Scope) (_ : Nat) (ref : TypeRef) (type : TypeModel) : Prop :=
  type.AlikeInMethods (.plain scope.core 1 ref)

theorem level_memory (scope : Scope) (sortOf : String → TypeSort) :
    CacheMemory (fun ref => ref.Obeys sortOf) (ShowsLevel scope)
      (TypeCache.Remembers sortOf (ShowsLevel scope)) :=
  TypeCache.remembers_memory fun _ _ _ _ _ hshows => hshows

theorem leaf_ensures_remembers
    {good : Nat → TypeRef → TypeModel → Prop} (ref : TypeRef) :
    (Contract.keeping (TypeCache.Remembers sortOf good)).Ensures (leaf ref) (· = .nameOnly ref) :=
  leaf_ensures (fun _ hcache => hcache) ref

/-- As long as types are asked for to one level only, each request is answered by what is alike to
the first level. -/
theorem typeOf_one_ensures
    (hsnapshot : scope.snapshot.Obeys sortOf) {ref : TypeRef} (href : ref.Obeys sortOf) :
    (Contract.keeping (TypeCache.Remembers sortOf (ShowsLevel scope))).Ensures
      (typeOf scope 1 ref) (ShowsLevel scope 1 ref) := by
  have hserve (ref : TypeRef) (build : Session TypeModel) (hobeys : ref.Obeys sortOf)
      (hbuild :
        (Contract.keeping (TypeCache.Remembers sortOf (ShowsLevel scope))).Ensures build
          (TypeModel.Expands scope (ShowsLevel scope 1) (fun ref type => type = .nameOnly ref)
            (fun _ => (· = none)) ref)) :
      (Contract.keeping (TypeCache.Remembers sortOf (ShowsLevel scope))).Ensures
        (serve 1 ref build) (ShowsLevel scope 1 ref) := by
    refine serve_ensures (level_memory scope sortOf) hobeys ?_
    refine Contract.ensures_mono _ hbuild fun type hexpands => ?_
    refine hexpands.alikeInMethods scope.core_core.symm ?_ ?_
      (TypeModel.plain_expands scope.core 0 ref)
    · rintro ref type _ hshows rfl
      exact hshows.toAlike
    · rintro ref _ _ rfl rfl
      exact TypeModel.Alike.refl _
  exact TypeModel.expandAt_ensures hserve (Scope.closed_obeys hsnapshot) leaf_ensures_remembers
    (fun ref _ => leaf_ensures_remembers ref) ref href

/-- A type parameter shows no more at a greater depth. -/
theorem typeOf_parameter_ensures
    {depth : Nat} {name : String} (hobeys : (TypeRef.parameter name).Obeys sortOf) :
    (Contract.keeping (TypeCache.Remembers sortOf (ShowsLevel scope))).Ensures
      (typeOf scope (depth + 1) (.parameter name)) (ShowsLevel scope 1 (.parameter name)) := by
  have hshows : ShowsLevel scope (depth + 1) (.parameter name)
      { TypeModel.nameOnly (.parameter name) with populated := true } :=
    ⟨TypeModel.Alike.refl _, .nil⟩
  exact serve_ensures (level_memory scope sortOf) hobeys (Contract.ensures_pure _ hshows)

/-! ## The class under test -/

/-- How many levels of members below the class under test plans read. -/
def readDepth (scope : Scope) : Nat :=
  min (subjectDepth scope - 1) 2

/-- Whether a type is the class under test as it shows itself to plans. -/
def ShowsSubject (scope : Scope) : TypeModel → Prop :=
  TypeModel.Expands scope anyAnswer
    (fun ref type => type.AlikeInMethods (.plain scope.core (readDepth scope) ref))
    (OwnBody scope fun _ ref type => type.Alike (.plain scope.core 1 ref)) scope.subject.ownType

/-- The extracted class under test shows itself to plans when the answers for its members, bodies
and type parameters do. -/
theorem showsSubject_of_ensures
    {good : Nat → TypeRef → TypeModel → Prop}
    (hargs : ∀ arg ∈ scope.subject.ownType.args,
      (Contract.keeping (TypeCache.Remembers sortOf good)).Ensures
        (typeOf scope (subjectDepth scope - 1 + 1) arg) (anyAnswer arg))
    (hmembers : ∀ ref ∈ scope.memberRefs scope.subject,
      (Contract.keeping (TypeCache.Remembers sortOf good)).Ensures
        (typeOf scope (subjectDepth scope - 1) ref)
        (·.AlikeInMethods (.plain scope.core (readDepth scope) ref)))
    (hbodies : ∀ method ∈ scope.subject.methods, ∀ ref ∈ scope.bodyRefs ⟨scope.subject, method⟩,
      (Contract.keeping (TypeCache.Remembers sortOf good)).Ensures
        (typeOf scope 1 ref) (·.Alike (.plain scope.core 1 ref))) :
    ShowsSubject scope ((extractSubject scope).run .empty).1 := by
  have hsubject := TypeModel.ofSubject_ensures leaf_ensures_remembers hargs hmembers hbodies
  have hcounted : TypeCache.empty.countMiss.Remembers sortOf good := TypeCache.remembers_empty
  rw [extractSubject_eq]
  exact (hsubject _ hcounted).1

/-- In every snapshot that obeys, the extracted class under test shows itself to plans. -/
theorem extractSubject_shows (hsnapshot : scope.snapshot.Obeys sortOf) :
    ShowsSubject scope ((extractSubject scope).run .empty).1 := by
  have hheld := Snapshot.mem_of_find? scope.held
  have hclosed := Scope.closed_obeys hsnapshot
  have hown := hsnapshot.ownType hheld
  have hargs : ∀ arg ∈ scope.subject.ownType.args, arg.Obeys sortOf := fun _ => hown.arg
  have hmembers : ∀ ref ∈ scope.memberRefs scope.subject, ref.Obeys sortOf :=
    hclosed.members hown scope.held
  have hbodies : ∀ method ∈ scope.subject.methods,
      ∀ ref ∈ scope.bodyRefs ⟨scope.subject, method⟩, ref.Obeys sortOf :=
    fun method hmethod ref href => Scope.obeys_of_mem_bodyRefs hsnapshot ⟨hheld, hmethod⟩ href
  have hlevels (depth : Nat) (ref : TypeRef) (href : ref.Obeys sortOf) :
      (Contract.keeping (TypeCache.Remembers sortOf (ShowsLevels scope))).Ensures
        (typeOf scope depth ref) (ShowsLevels scope depth ref) :=
    typeOf_ensures (levels_discipline scope sortOf) hclosed depth ref href
  by_cases hone : subjectDepth scope - 1 = 1
  · -- Everything is asked for to one level, so nothing deeper is remembered.
    have hread : readDepth scope = 1 := by rw [readDepth, hone]; rfl
    refine @showsSubject_of_ensures scope sortOf (ShowsLevel scope) ?_ ?_ ?_
    · intro arg harg
      obtain ⟨name, -, rfl⟩ := List.mem_map.mp harg
      exact Contract.ensures_mono _ (typeOf_parameter_ensures (hargs _ harg)) fun _ _ => trivial
    · intro ref href
      rw [hone, hread]
      exact typeOf_one_ensures hsnapshot (hmembers ref href)
    · intro method hmethod ref href
      have hanswer := typeOf_one_ensures hsnapshot (hbodies method hmethod ref href)
      exact Contract.ensures_mono _ hanswer fun type hshows => hshows.toAlike
  · -- Members are not looked into at all, or far enough for both levels that plans read.
    refine @showsSubject_of_ensures scope sortOf (ShowsLevels scope) ?_ ?_ ?_
    · intro arg harg
      exact Contract.ensures_mono _ (hlevels _ arg (hargs arg harg)) fun _ _ => trivial
    · intro ref href
      cases hdepth : subjectDepth scope - 1 with
      | zero =>
          rw [readDepth, hdepth]
          refine Contract.ensures_mono _ (leaf_ensures_remembers ref) ?_
          rintro _ rfl
          exact ⟨TypeModel.Alike.refl _, .nil⟩
      | succ depth =>
          have hread : readDepth scope = 2 := by rw [readDepth, hdepth]; omega
          rw [hread]
          exact Contract.ensures_mono _ (hlevels _ ref (hmembers ref href)) fun type hshows =>
            hshows.2 (by omega)
    · intro method hmethod ref href
      exact Contract.ensures_mono _ (hlevels 1 ref (hbodies method hmethod ref href))
        fun type hshows => hshows.1 (Nat.le_refl 1)

/-! ## Two extractions -/

section Scopes

variable (hcore : scope.core = scope'.core)

include hcore

/-- Own bodies over scopes with one core have the same calls up to likeness. -/
theorem forall₂_directCalls
    {answers answers' : TypeRef → TypeModel → Prop}
    {declaration declaration' : Declaration} {method method' : MethodModel}
    (hanswers : ∀ ref type type', answers ref type → answers' ref type' → type.Alike type')
    (hdeclaration : declaration.callsOnly = declaration'.callsOnly)
    (hsubject : scope.subject.callsOnly = scope'.subject.callsOnly)
    (hbody :
      (if declaration.owner.name = scope.subject.name then
        OwnBody scope (fun _ => answers) declaration
      else (· = none)) method.body)
    (hbody' :
      (if declaration'.owner.name = scope'.subject.name then
        OwnBody scope' (fun _ => answers') declaration'
      else (· = none)) method'.body) :
    List.Forall₂ (CallModel.AlikeBy TypeModel.Alike) method.directCalls method'.directCalls := by
  have hnames : declaration.owner.name = declaration'.owner.name :=
    congrArg (fun declaration => declaration.owner.name) hdeclaration
  have hsubjects : scope.subject.name = scope'.subject.name :=
    congrArg (fun decl => decl.name) hsubject
  rw [← hnames, ← hsubjects] at hbody'
  split at hbody
  next hown =>
    rw [if_pos hown] at hbody'
    obtain ⟨found, hfound, hshows⟩ := hbody
    obtain ⟨found', hfound', hshows'⟩ := hbody'
    rw [MethodModel.directCalls, MethodModel.directCalls, hfound, hfound']
    exact BodyModel.forall₂_calls_of_shows hcore hanswers hdeclaration hshows hshows'
  next hown =>
    rw [if_neg hown] at hbody'
    rw [MethodModel.directCalls, MethodModel.directCalls, hbody, hbody']
    exact .nil

/-- Classes under test that show themselves to plans are alike over scopes with one core when the
same levels are read. -/
theorem alikeAsSubject_of_shows
    {type type' : TypeModel} (hread : readDepth scope = readDepth scope')
    (h : ShowsSubject scope type) (h' : ShowsSubject scope' type') :
    type.AlikeAsSubject type' := by
  have hsubject : scope.subject.callsOnly = scope'.subject.callsOnly :=
    congrArg (fun scope => scope.subject) hcore
  have hown : scope.subject.ownType = scope'.subject.ownType :=
    congrArg (fun decl => decl.ownType) hsubject
  have hviewer : (some scope.subject).map ClassDecl.callsOnly =
      (some scope'.subject).map ClassDecl.callsOnly :=
    congrArg some hsubject
  have hbelow (ref : TypeRef) (type type' : TypeModel)
      (htype : type.AlikeInMethods (.plain scope.core (readDepth scope) ref))
      (htype' : type'.AlikeInMethods (.plain scope'.core (readDepth scope') ref)) :
      type.AlikeInMethods type' := by
    rw [← hread, ← hcore] at htype'
    exact htype.of_common htype'
  have hanswers (ref : TypeRef) (type type' : TypeModel)
      (htype : type.Alike (.plain scope.core 1 ref))
      (htype' : type'.Alike (.plain scope'.core 1 ref)) :
      type.Alike type' := by
    rw [← hcore] at htype'
    exact htype.trans htype'.symm
  obtain ⟨hfields, hmethods⟩ := h.members ⟨rfl, rfl⟩ scope.held
  obtain ⟨hfields', hmethods'⟩ := h'.members ⟨rfl, rfl⟩ scope'.held
  refine ⟨?_, ?_, ?_⟩
  · rw [TypeModel.erasedName, TypeModel.erasedName, h.names_eq, h'.names_eq, hown]
  · refine forall₂_of_map_eq (Scope.memberFields_of_core hcore hsubject) hfields hfields' ?_
    intro declaration declaration' field field' hdeclaration hshows hshows'
    exact FieldModel.alikeBy_of_shows hbelow hviewer hdeclaration hshows hshows'
  · refine forall₂_of_map_eq (Scope.memberMethods_of_core hcore hsubject) hmethods hmethods' ?_
    intro declaration declaration' method method' hdeclaration hshows hshows'
    constructor
    · exact MethodModel.alikeBy_of_shows hcore (fun ref type type' htype htype' =>
        (hbelow ref type type' htype htype').toAlike) hviewer hdeclaration hshows hshows'
    · exact forall₂_directCalls hcore hanswers hdeclaration hsubject hshows.body_holds
        hshows'.body_holds

end Scopes

end Session

end Specwright
