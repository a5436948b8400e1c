import Specwright.Model.Body
import Specwright.Model.Expansion
import Specwright.Proofs.Lineage.Walk

/-!
# Which declarations are found

The declarations that a class has as members and those that calls resolve to are declarations of
classes of the snapshot.  A class is the first source of its own members and the only one of its
name, so its own methods are among its members as they are declared.
-/

namespace Specwright

/-- Whether a declaration is one of a class of the snapshot. -/
def Declaration.BelongsTo (declaration : Declaration) (snapshot : Snapshot) : Prop :=
  declaration.owner ∈ snapshot.classes ∧ declaration.method ∈ declaration.owner.methods

/-- Whether a field is one of a class of the snapshot. -/
def FieldDeclaration.BelongsTo (declaration : FieldDeclaration) (snapshot : Snapshot) : Prop :=
  declaration.owner ∈ snapshot.classes ∧ declaration.field ∈ declaration.owner.fields

namespace Snapshot

variable {snapshot : Snapshot}

/-! ## The sources of members -/

/-- A class has members from itself and from the known classes above it. -/
theorem memberSources_eq
    {decl : ClassDecl} (h : snapshot.find? decl.name = some decl) :
    snapshot.memberSources decl =
      decl :: (snapshot.namesAbove decl.name).filterMap snapshot.find? := by
  rw [memberSources, namesAbove, lineage]
  cases hchain : snapshot.linearize decl.name with
  | error cause => rfl
  | ok chain =>
      obtain ⟨above, rfl⟩ := linearize_eq_cons hchain
      rw [List.tail_cons, List.filterMap_map]
      exact List.filterMap_cons_some h

/-- The sources of members have distinct names. -/
theorem nodup_names_memberSources (snapshot : Snapshot) (decl : ClassDecl) :
    ((snapshot.memberSources decl).map (·.name)).Nodup := by
  rw [memberSources]
  split
  next chain hchain =>
    refine (nodup_names_linearize hchain).sublist ?_
    clear hchain
    induction chain with
    | nil => exact .slnil
    | cons entry rest ih =>
        cases hfound : snapshot.find? entry.name with
        | none =>
            simp only [List.filterMap_cons, hfound, List.map_cons]
            exact ih.cons _
        | some source =>
            simp only [List.filterMap_cons, hfound, List.map_cons, name_of_find? hfound]
            exact ih.cons_cons _
  next => exact List.nodup_singleton _

/-- A class is the first source of its members; all other sources belong to the snapshot and have
other names. -/
theorem memberSources_eq_cons
    {decl : ClassDecl} (h : snapshot.find? decl.name = some decl) :
    ∃ others, snapshot.memberSources decl = decl :: others ∧
      ∀ other ∈ others, other ∈ snapshot.classes ∧ other.name ≠ decl.name := by
  have hsources := memberSources_eq h
  have hdistinct := nodup_names_memberSources snapshot decl
  rw [hsources, List.map_cons, List.nodup_cons] at hdistinct
  refine ⟨_, hsources, fun other hother => ⟨?_, ?_⟩⟩
  · obtain ⟨name, -, hfound⟩ := List.mem_filterMap.mp hother
    exact mem_of_find? hfound
  · exact fun hname => hdistinct.1 (List.mem_map.mpr ⟨other, hother, hname⟩)

theorem mem_classes_of_mem_memberSources
    {decl source : ClassDecl} (h : snapshot.find? decl.name = some decl)
    (hsource : source ∈ snapshot.memberSources decl) :
    source ∈ snapshot.classes := by
  obtain ⟨others, heq, hothers⟩ := memberSources_eq_cons h
  rw [heq] at hsource
  rcases List.mem_cons.mp hsource with rfl | hother
  · exact mem_of_find? h
  · exact (hothers source hother).1

/-- The fields that a class has from itself are all that it declares, in their order. -/
theorem filter_own_memberFields
    {decl : ClassDecl} (h : snapshot.find? decl.name = some decl) :
    (snapshot.memberFields decl).filter (·.owner.name = decl.name) =
      decl.fields.map fun field => ⟨decl, field⟩ := by
  obtain ⟨others, heq, hothers⟩ := memberSources_eq_cons h
  rw [memberFields, heq, List.flatMap_cons, List.filter_append]
  rw [List.filter_eq_self.mpr, List.filter_eq_nil_iff.mpr, List.append_nil]
  · intro declaration hmem
    obtain ⟨other, hother, hdeclaration⟩ := List.mem_flatMap.mp hmem
    obtain ⟨field, -, rfl⟩ := List.mem_map.mp hdeclaration
    simpa using (hothers other hother).2
  · simp

/-- A class has all methods that it declares and, from the other sources, those that are no
constructors. -/
theorem memberMethods_eq
    {decl : ClassDecl} {others : List ClassDecl}
    (h : snapshot.memberSources decl = decl :: others) :
    snapshot.memberMethods decl =
      (decl.methods.map fun method => ⟨decl, method⟩) ++
        others.flatMap fun owner =>
          (owner.methods.filter fun method => !method.isConstructor).map
            fun method => ⟨owner, method⟩ := by
  have hdistinct := nodup_names_memberSources snapshot decl
  rw [h, List.map_cons, List.nodup_cons] at hdistinct
  rw [memberMethods, h, List.flatMap_cons]
  congr 1
  · simp
  · refine List.flatMap_congr fun owner howner => ?_
    have hne : owner.name ≠ decl.name :=
      fun hname => hdistinct.1 (List.mem_map.mpr ⟨owner, howner, hname⟩)
    simp [hne]

/-- The methods that a class has from itself are all that it declares, in their order. -/
theorem filter_own_memberMethods
    {decl : ClassDecl} (h : snapshot.find? decl.name = some decl) :
    (snapshot.memberMethods decl).filter (·.owner.name = decl.name) =
      decl.methods.map fun method => ⟨decl, method⟩ := by
  obtain ⟨others, heq, hothers⟩ := memberSources_eq_cons h
  rw [memberMethods_eq heq, List.filter_append, List.filter_eq_self.mpr,
    List.filter_eq_nil_iff.mpr, List.append_nil]
  · intro declaration hmem
    obtain ⟨other, hother, hdeclaration⟩ := List.mem_flatMap.mp hmem
    obtain ⟨method, -, rfl⟩ := List.mem_map.mp hdeclaration
    simpa using (hothers other hother).2
  · simp

/-- A method that a class has from itself is one that it declares. -/
theorem eq_own_of_mem_memberMethods
    {decl : ClassDecl} {declaration : Declaration}
    (h : snapshot.find? decl.name = some decl)
    (hmem : declaration ∈ snapshot.memberMethods decl)
    (hname : declaration.owner.name = decl.name) :
    ∃ method ∈ decl.methods, declaration = ⟨decl, method⟩ := by
  have hown : declaration ∈ (snapshot.memberMethods decl).filter (·.owner.name = decl.name) :=
    List.mem_filter.mpr ⟨hmem, by simpa using hname⟩
  rw [filter_own_memberMethods h] at hown
  obtain ⟨method, hmethod, rfl⟩ := List.mem_map.mp hown
  exact ⟨method, hmethod, rfl⟩

/-- The members of a class are told apart by what tells the methods of each source apart and the
sources from each other. -/
theorem nodup_map_memberMethods
    {α : Type} {decl : ClassDecl} {key : Declaration → α}
    (hmethods : ∀ owner ∈ snapshot.memberSources decl,
      (owner.methods.map fun method => key ⟨owner, method⟩).Nodup)
    (howners : ∀ declaration ∈ snapshot.memberMethods decl,
      ∀ other ∈ snapshot.memberMethods decl, key declaration = key other →
        declaration.owner.name = other.owner.name) :
    ((snapshot.memberMethods decl).map key).Nodup := by
  rw [memberMethods, List.map_flatMap, List.nodup_flatMap]
  constructor
  · intro owner howner
    rw [List.map_map]
    exact (hmethods owner howner).sublist (List.filter_sublist.map _)
  · have hdistinct := List.pairwise_map.mp (nodup_names_memberSources snapshot decl)
    refine hdistinct.imp_of_mem fun {owner other} howner hother hne value hvalue hvalue' => ?_
    obtain ⟨declaration, hdeclaration, rfl⟩ := List.mem_map.mp hvalue
    obtain ⟨declaration', hdeclaration', hkey⟩ := List.mem_map.mp hvalue'
    have hname := howners declaration' (List.mem_flatMap.mpr ⟨other, hother, hdeclaration'⟩)
      declaration (List.mem_flatMap.mpr ⟨owner, howner, hdeclaration⟩) hkey
    obtain ⟨method, -, rfl⟩ := List.mem_map.mp hdeclaration
    obtain ⟨method', -, rfl⟩ := List.mem_map.mp hdeclaration'
    exact hne hname.symm

theorem mem_of_mem_memberFields
    {decl : ClassDecl} {declaration : FieldDeclaration}
    (h : snapshot.find? decl.name = some decl)
    (hmem : declaration ∈ snapshot.memberFields decl) :
    declaration.BelongsTo snapshot := by
  obtain ⟨owner, howner, hown⟩ := List.mem_flatMap.mp hmem
  obtain ⟨field, hfield, rfl⟩ := List.mem_map.mp hown
  exact ⟨mem_classes_of_mem_memberSources h howner, hfield⟩

theorem belongsTo_of_mem_memberMethods
    {decl : ClassDecl} {declaration : Declaration}
    (h : snapshot.find? decl.name = some decl)
    (hmem : declaration ∈ snapshot.memberMethods decl) :
    declaration.BelongsTo snapshot := by
  obtain ⟨owner, howner, hown⟩ := List.mem_flatMap.mp hmem
  obtain ⟨method, hmethod, rfl⟩ := List.mem_map.mp hown
  exact ⟨mem_classes_of_mem_memberSources h howner, (List.mem_filter.mp hmethod).1⟩

/-! ## Fields by name -/

/-- The field that is found under a name is the first one of the name among the fields that a class
has. -/
theorem findField?_eq_find?
    {decl : ClassDecl} (h : snapshot.find? decl.name = some decl) (name : String) :
    snapshot.findField? decl name = (snapshot.memberFields decl).find? (·.field.name = name) := by
  have hdeclared (owner : ClassDecl) :
      ((owner.fields.map fun field => (⟨owner, field⟩ : FieldDeclaration)).find?
        (·.field.name = name)) = owner.declaration? name := by
    rw [List.find?_map]
    rfl
  have habove :
      ((snapshot.namesAbove decl.name).filterMap snapshot.find?).findSome? (·.declaration? name) =
        (snapshot.namesAbove decl.name).findSome? fun ancestor =>
          (snapshot.find? ancestor).bind (·.declaration? name) := by
    rw [← List.head?_filterMap, List.filterMap_filterMap, List.head?_filterMap]
  rw [memberFields, List.find?_flatMap, memberSources_eq h, findField?]
  simp only [hdeclared, List.findSome?_cons, habove]
  cases decl.declaration? name <;> rfl

theorem belongsTo_of_findField?
    {owner : ClassDecl} {name : String} {declaration : FieldDeclaration}
    (howner : owner ∈ snapshot.classes) (h : snapshot.findField? owner name = some declaration) :
    declaration.BelongsTo snapshot := by
  have hheld := find?_of_mem howner
  rw [findField?_eq_find? hheld] at h
  exact mem_of_mem_memberFields hheld (List.mem_of_find?_eq_some h)

theorem belongsTo_of_mem_fieldsAssignedFrom
    {owner : ClassDecl} {method : MethodDecl} {param : String} {declaration : FieldDeclaration}
    (howner : owner ∈ snapshot.classes)
    (h : declaration ∈ snapshot.fieldsAssignedFrom owner method param) :
    declaration.BelongsTo snapshot := by
  rw [fieldsAssignedFrom] at h
  split at h
  · cases h
  · split at h
    · obtain ⟨name, -, hfound⟩ := List.mem_filterMap.mp h
      exact belongsTo_of_findField? howner hfound
    · cases h

/-! ## Resolved calls -/

theorem belongsTo_of_resolve?
    {signature : MethodSignature} {declaration : Declaration}
    (h : snapshot.resolve? signature = some declaration) :
    declaration.BelongsTo snapshot := by
  rw [resolve?] at h
  split at h
  · cases h
  next owner howner =>
    split at h
    next method hmethod =>
      cases h
      exact ⟨mem_of_find? howner, List.mem_of_find?_eq_some hmethod⟩
    next =>
      obtain ⟨ancestor, -, hfound⟩ := List.exists_of_findSome?_eq_some h
      split at hfound
      next decl hdecl =>
        obtain ⟨method, hmethod, rfl⟩ := Option.map_eq_some_iff.mp hfound
        exact ⟨mem_of_find? hdecl, List.mem_of_find?_eq_some hmethod⟩
      next => cases hfound

end Snapshot

namespace Scope

variable {scope : Scope} {method : MethodDecl}

theorem belongsTo_of_followed?
    {signature : MethodSignature} {declaration : Declaration}
    (h : scope.followed? signature = some declaration) :
    declaration.BelongsTo scope.snapshot :=
  Snapshot.belongsTo_of_resolve? (Option.filter_eq_some_iff.mp h).1

theorem belongsTo_of_mem_followedCalls
    {call : Declaration × List String} (h : call ∈ scope.followedCalls method) :
    call.1.BelongsTo scope.snapshot := by
  rw [followedCalls] at h
  split at h
  · obtain ⟨site, -, hfollowed⟩ := List.mem_filterMap.mp h
    obtain ⟨callee, hcallee, rfl⟩ := Option.map_eq_some_iff.mp hfollowed
    exact belongsTo_of_followed? hcallee
  · cases h

theorem belongsTo_of_mem_followedRefs
    {target : Declaration} (h : target ∈ scope.followedRefs method) :
    target.BelongsTo scope.snapshot := by
  rw [followedRefs] at h
  split at h
  · obtain ⟨signature, -, hfollowed⟩ := List.mem_filterMap.mp h
    exact belongsTo_of_followed? hfollowed
  · cases h

theorem belongsTo_of_mem_fieldsOfDelegate
    {owner : ClassDecl} {declaration : FieldDeclaration} (howner : owner ∈ scope.snapshot.classes)
    (h : declaration ∈ scope.fieldsOfDelegate owner method) :
    declaration.BelongsTo scope.snapshot := by
  rw [fieldsOfDelegate] at h
  split at h
  · split at h
    · obtain ⟨name, -, hfound⟩ := List.mem_filterMap.mp h
      exact Snapshot.belongsTo_of_findField? howner hfound
    · cases h
  · cases h

theorem mem_of_mem_visibleUses {use : VariableUse} (h : use ∈ scope.visibleUses method) :
    use ∈ method.variableUses := by
  rw [visibleUses] at h
  split at h
  · exact h
  · cases h

end Scope

end Specwright
