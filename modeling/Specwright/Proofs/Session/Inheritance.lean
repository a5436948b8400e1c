import Specwright.Proofs.Model.References
import Specwright.Proofs.Session.Replacement

/-!
# Inherited methods as a subtype sees them

A class sees the methods of an ancestor under the bindings that its linearization lists for the
ancestor.  In the type that a session builds for the class, an inherited method that is tested has
types that are spelled like the declared ones under these bindings, whatever the session has
remembered by then: what is remembered under a spelling has that spelling.
-/

namespace Specwright

/-! ## What substitution leaves alone -/

/-- Only type parameters are replaced, and these are found in references and type arguments. -/
theorem TypeRef.substitute_of_not_isReference
    {type : TypeRef} (hkeyword : type.isReference = false) (hbare : type.args = [])
    (bindings : Bindings) :
    type.substitute bindings = type := by
  obtain ⟨name, args, kind, dims⟩ := type
  obtain rfl : args = [] := hbare
  cases kind with
  | reference => cases hkeyword
  | primitive => rfl
  | parameter => cases hkeyword
  | void => rfl

/-- Whether no primitive type and no type without values has type arguments. -/
def Snapshot.BareKeywords (snapshot : Snapshot) : Prop :=
  ∀ ref ∈ snapshot.typeRefs, ref.isReference = false → ref.args = []

instance {snapshot : Snapshot} : Decidable snapshot.BareKeywords :=
  inferInstanceAs
    (Decidable (∀ ref ∈ snapshot.typeRefs, ref.isReference = false → ref.args = []))

/-- The types in the signature of a method that may not depend on type parameters are what they are
under all bindings. -/
theorem Snapshot.BareKeywords.substitute_eq
    {snapshot : Snapshot} {declaration : Declaration} {type : TypeRef}
    (h : snapshot.BareKeywords) (hbelongs : declaration.BelongsTo snapshot)
    (hgate : declaration.method.mayDependOnParameters = false)
    (htype : type ∈ declaration.method.returnType.toList ++ declaration.method.paramTypes)
    (bindings : Bindings) :
    type.substitute bindings = type := by
  have hkeyword : type.isReference = false := by
    rw [MethodDecl.mayDependOnParameters, Bool.or_eq_false_iff, List.any_eq_false] at hgate
    rcases List.mem_append.mp htype with hreturn | hparam
    · rw [Option.mem_toList] at hreturn
      simpa [hreturn] using hgate.2
    · simpa using hgate.1 type hparam
  refine TypeRef.substitute_of_not_isReference hkeyword (h type ?_ hkeyword) bindings
  refine List.mem_flatMap.mpr ⟨declaration.owner, hbelongs.1, List.mem_append_right _ ?_⟩
  exact List.mem_flatMap.mpr ⟨declaration.method, hbelongs.2, List.mem_append_left _ htype⟩

namespace Scope

variable {scope : Scope} {viewer : ClassDecl} {declaration : Declaration} {entry : LineageEntry}

/-- A class sees a method of an ancestor under the bindings that its linearization lists for the
ancestor, although the ancestor is looked for among all methods of the name. -/
theorem bindingsSeenBy?_of_mem_lineage
    (hentry : entry ∈ scope.snapshot.lineage viewer.name)
    (hfound : scope.snapshot.find? entry.name = some declaration.owner)
    (hmethod : declaration.method ∈ declaration.owner.methods) :
    scope.bindingsSeenBy? viewer declaration.owner declaration.method = some entry.bindings := by
  have hvisible : ⟨declaration, entry.bindings⟩ ∈
      scope.snapshot.visibleMethods viewer.name declaration.method.name :=
    Snapshot.mem_visibleMethods_iff.mpr ⟨entry, hentry, hfound, hmethod, rfl, rfl⟩
  rw [bindingsSeenBy?, Option.map_eq_some_iff]
  cases hseen : (scope.snapshot.visibleMethods viewer.name declaration.method.name).find?
      fun visible => visible.owner.name = declaration.owner.name &&
        (declaration.method.signatureIn declaration.owner.name).matchesDecl visible.method with
  | none =>
      have hmissed := List.find?_eq_none.mp hseen _ hvisible
      simp [MethodSignature.matchesDecl, MethodDecl.signatureIn, MethodSignature.paramSpellings,
        MethodDecl.paramSpellings] at hmissed
  | some visible =>
      -- The one that is found may be an overload with the same spellings, but not of another class.
      have howner : visible.owner.name = declaration.owner.name := by
        have hmatches := List.find?_some hseen
        rw [Bool.and_eq_true, decide_eq_true_eq] at hmatches
        exact hmatches.1
      obtain ⟨other, hother, hbindings⟩ :=
        Snapshot.find?_lineage_of_mem_visibleMethods (List.mem_of_find?_eq_some hseen)
      rw [howner, Snapshot.name_of_find? hfound, Snapshot.find?_lineage hentry] at hother
      obtain rfl : entry = other := Option.some.inj hother
      exact ⟨visible, rfl, hbindings.symm⟩

/-- Whether the model of a method has the types that the method shows under the bindings of an
ancestor, with what it takes for that: the bindings are found, and where none are looked for,
none are missed. -/
structure SeenThrough
    (scope : Scope) (viewer : ClassDecl) (entry : LineageEntry) (declaration : Declaration)
    (model : MethodModel) : Prop where
  lookup :
    scope.bindingsSeenBy? viewer declaration.owner declaration.method = some entry.bindings
  gate :
    declaration.method.mayDependOnParameters = false →
      ∀ type ∈ declaration.method.returnType.toList ++ declaration.method.paramTypes,
        type.substitute entry.bindings = type
  returnType :
    model.returnType.map (·.spelling) =
      declaration.method.returnType.map fun type => (type.substitute entry.bindings).spelling
  params :
    model.params.map (·.type.spelling) = declaration.method.paramSpellingsUnder entry.bindings

/-- The types of an inherited method that is tested are what they are under the bindings of its
class, whether these are looked for or not. -/
theorem substitute_bindingsFor
    {type : TypeRef} (hbare : scope.snapshot.BareKeywords)
    (hbelongs : declaration.BelongsTo scope.snapshot)
    (hlookup :
      scope.bindingsSeenBy? viewer declaration.owner declaration.method = some entry.bindings)
    (hinherited :
      (scope.traitsOf declaration.owner (some viewer) declaration.method).inherited = true)
    (htested :
      (scope.traitsOf declaration.owner (some viewer) declaration.method).isTestedIn
        declaration.owner.name = true)
    (htype : type ∈ declaration.method.returnType.toList ++ declaration.method.paramTypes) :
    type.substitute (scope.bindingsFor declaration.owner (some viewer) declaration.method) =
      type.substitute entry.bindings := by
  by_cases hgate : declaration.method.mayDependOnParameters = true
  · have hbindings :
        scope.bindingsFor declaration.owner (some viewer) declaration.method = entry.bindings := by
      simp [bindingsFor, hinherited, htested, hgate, hlookup]
    rw [hbindings]
  · have hfixed := hbare.substitute_eq hbelongs (Bool.not_eq_true _ ▸ hgate) htype
    rw [hfixed, hfixed]

/-- The model of an inherited method that is tested has the types that the method shows under the
bindings of its class, when answers are spelled like the references that are asked for. -/
theorem seenThrough_of_shows
    {bodies : Option BodyModel → Prop} {model : MethodModel}
    (hbare : scope.snapshot.BareKeywords)
    (hentry : entry ∈ scope.snapshot.lineage viewer.name)
    (hfound : scope.snapshot.find? entry.name = some declaration.owner)
    (hmethod : declaration.method ∈ declaration.owner.methods)
    (hshows :
      model.Shows scope (fun ref type => type.spelling = ref.spelling) bodies (some viewer)
        declaration)
    (hinherited : model.traits.inherited = true) (htested : model.isTested = true) :
    scope.SeenThrough viewer entry declaration model := by
  have hbelongs : declaration.BelongsTo scope.snapshot :=
    ⟨Snapshot.mem_of_find? hfound, hmethod⟩
  have hlookup := bindingsSeenBy?_of_mem_lineage hentry hfound hmethod
  rw [MethodModel.isTested, hshows.traits_eq, hshows.owner_eq] at htested
  rw [hshows.traits_eq] at hinherited
  have hsubstitute (type : TypeRef)
      (htype : type ∈ declaration.method.returnType.toList ++ declaration.method.paramTypes) :
      type.substitute (scope.bindingsFor declaration.owner (some viewer) declaration.method) =
        type.substitute entry.bindings :=
    substitute_bindingsFor hbare hbelongs hlookup hinherited htested htype
  refine ⟨hlookup, fun hgate type htype => hbare.substitute_eq hbelongs hgate htype _, ?_, ?_⟩
  · obtain ⟨returnType, _, _, hreturn, -, -, rfl⟩ := hshows
    have hspelled : returnType.map (·.spelling) =
        (declaration.method.returnType.map (·.substitute
          (scope.bindingsFor declaration.owner (some viewer) declaration.method))).map
            (·.spelling) := by
      generalize declaration.method.returnType.map _ = ref at hreturn
      cases hreturn with
      | none => rfl
      | some htype => exact congrArg some htype
    rw [MethodModel.ofParts, hspelled, Option.map_map]
    refine Option.map_congr fun type htype => ?_
    rw [Function.comp_apply, hsubstitute type]
    exact List.mem_append_left _ (Option.mem_toList.mpr htype)
  · obtain ⟨_, params, _, -, hparams, -, rfl⟩ := hshows
    have hspelled : declaration.method.paramSpellingsUnder
          (scope.bindingsFor declaration.owner (some viewer) declaration.method) =
        params.map (·.type.spelling) := by
      rw [MethodDecl.paramSpellingsUnder, MethodDecl.paramTypes, List.map_map]
      refine map_eq_of_forall₂ hparams ?_
      rintro param _ ⟨type, htype, rfl⟩
      exact htype.symm
    rw [MethodModel.ofParts, ← hspelled]
    refine List.map_congr_left fun type htype => ?_
    rw [hsubstitute type (List.mem_append_right _ htype)]

end Scope

/-! ## Types that a session builds -/

/-- Whether every remembered type is spelled as its key. -/
def TypeCache.Keyed (cache : TypeCache) : Prop :=
  ∀ entry ∈ cache.entries, entry.type.spelling = entry.key

namespace Session

variable {scope : Scope} {decl : ClassDecl} {type : TypeModel}

theorem keyed_discipline (scope : Scope) :
    CacheDiscipline scope (fun _ => True) (fun _ ref type => type.spelling = ref.spelling)
      TypeCache.Keyed where
  counted _ hcache := hcache
  served := by
    intro cache depth ref type hcache _ hlookup
    obtain ⟨entry, hentry, hkey, -, rfl⟩ := TypeCache.exists_of_lookup? hlookup
    exact (hcache entry hentry).trans hkey
  remembered := by
    intro cache depth ref type hcache _ hspelling entry hentry
    rcases TypeCache.mem_of_mem_remember hentry with rfl | hold
    · exact hspelling
    · exact hcache entry hold
  bare _ := rfl
  built _ hexpands := congrArg TypeNames.spelling hexpands.names_eq

theorem Passes.keyed {cache : TypeCache} (h : Passes scope cache) : cache.Keyed :=
  h.keeps (keyed_discipline scope) fun _ hentry => absurd hentry List.not_mem_nil

/-- Whether a type is built for a class from a memory that a session passes through. -/
def Builds (scope : Scope) : ClassDecl → TypeModel → Prop :=
  scope.BuildsFrom (Passes scope)

/-- The methods of a type that a session builds show the members of its class with types that are
spelled as they are asked for. -/
theorem Builds.forall₂_spelled (h : Builds scope decl type) :
    ∃ bodies : Declaration → Option BodyModel → Prop,
      List.Forall₂
        (fun declaration =>
          MethodModel.Shows scope (fun ref type => type.spelling = ref.spelling)
            (bodies declaration) (some decl) declaration)
        (scope.snapshot.memberMethods decl) type.methods := by
  have hclosed := closed_any scope
  cases h with
  | subject _ hpasses =>
      have hextract := extractSubject_ensures (keyed_discipline scope) hclosed trivial
        fun _ _ _ _ => trivial
      obtain ⟨hexpands, -⟩ := hextract _ hpasses.keyed
      exact ⟨_, (hexpands.members ⟨rfl, rfl⟩ scope.held).2⟩
  | requested hpasses hfound hmiss =>
      have hexpands :=
        typeOf_ensures_of_miss (keyed_discipline scope) hclosed trivial hpasses.keyed hmiss
      exact ⟨_, (hexpands.members ⟨rfl, rfl⟩ hfound).2⟩

/-- Inherited methods are seen through the subtype: in every type that a session builds for a class,
an inherited method that is tested has types that are spelled like the declared ones under the
bindings that the linearization of the class lists for the class of the method. -/
theorem inherited_seen_through
    (hbare : scope.snapshot.BareKeywords) (hacyclic : scope.snapshot.Acyclic decl.name)
    (hbuilds : Builds scope decl type) :
    ∃ chain, scope.snapshot.linearize decl.name = .ok chain ∧
      List.Forall₂
        (fun declaration model =>
          model.id = declaration.id ∧
            (model.traits.inherited = true → model.isTested = true →
              ∃ entry, chain.find? (·.name = declaration.owner.name) = some entry ∧
                scope.SeenThrough decl entry declaration model))
        (scope.snapshot.memberMethods decl) type.methods := by
  obtain ⟨chain, hchain⟩ := hacyclic.exists_linearize
  obtain ⟨bodies, hshows⟩ := hbuilds.forall₂_spelled
  have hlineage : scope.snapshot.lineage decl.name = chain := by
    rw [Snapshot.lineage, hchain]
  have hlisted : ∀ declaration ∈ scope.snapshot.memberMethods decl,
      ∃ entry ∈ scope.snapshot.lineage decl.name,
        scope.snapshot.find? entry.name = some declaration.owner ∧
          declaration.method ∈ declaration.owner.methods := by
    intro declaration hmember
    obtain ⟨-, bindings, hvisible⟩ := hacyclic.mem_memberMethods_iff.mp hmember
    obtain ⟨entry, hentry, hfound, hmethod, -, -⟩ := Snapshot.mem_visibleMethods_iff.mp hvisible
    exact ⟨entry, hentry, hfound, hmethod⟩
  refine ⟨chain, hchain, ((List.forall₂_and_left _ _).mpr ⟨hlisted, hshows⟩).imp ?_⟩
  rintro declaration model ⟨⟨entry, hentry, hfound, hmethod⟩, hmodel⟩
  refine ⟨hmodel.id_eq, fun hinherited htested => ⟨entry, ?_, ?_⟩⟩
  · rw [← hlineage, Snapshot.name_of_find? hfound]
    exact Snapshot.find?_lineage hentry
  · exact Scope.seenThrough_of_shows hbare hentry hfound hmethod hmodel hinherited htested

/-- The room sees how things are kept with books in the place of things. -/
theorem inherited_seen_through_room :
    libraryScope.snapshot.BareKeywords ∧ libraryScope.snapshot.Acyclic "stock.Room" ∧
      ∃ type, Builds libraryScope roomClass type ∧
        ∃ model ∈ type.methods, model.id = "stock.Keeper.keep(T)" ∧
          model.params.map (·.type.spelling) = ["stock.Book"] := by
  have hbare : libraryScope.snapshot.BareKeywords := by
    decide +kernel
  have hacyclic : libraryScope.snapshot.Acyclic "stock.Room" := Snapshot.acyclic_of_linearize rfl
  have hbuilds : Builds libraryScope roomClass
      ((typeOf libraryScope 1 (.named "stock.Room")).run
        ((extractSubject libraryScope).run .empty).2).1 :=
    .requested (.extracted .start) rfl rfl
  have htested : ∀ model ∈ ((typeOf libraryScope 1 (.named "stock.Room")).run
      ((extractSubject libraryScope).run .empty).2).1.methods,
        model.traits.inherited = true ∧ model.isTested = true := by
    decide +kernel
  obtain ⟨chain, hchain, hmodels⟩ := inherited_seen_through hbare hacyclic hbuilds
  obtain ⟨model, hmodel, hid, hseen⟩ := exists_related_of_mem hmodels (List.Mem.head _)
  obtain ⟨hinherited, htest⟩ := htested model hmodel
  obtain ⟨entry, hentry, hthrough⟩ := hseen hinherited htest
  obtain rfl : _ = chain := Except.ok.inj hchain
  obtain rfl : _ = entry := Option.some.inj hentry
  exact ⟨hbare, hacyclic, _, hbuilds, model, hmodel, hid, hthrough.params⟩

end Session

end Specwright
