import Mathlib.Data.List.Basic
import Specwright.Proofs.Host.Spelling

/-!
# Substituting twice

Substituting in the types of bindings first, or in the result later, comes to the same: a bound type
parameter loses its own arguments, and its dimensions are added to those of the type bound to it, in
whatever order this happens.  A type parameter without a binding keeps its arguments as they stand,
so the type parameters of a type are counted with those in the arguments of others.
-/

namespace Specwright

namespace TypeRef

/-- What holds of a type when it holds of its arguments holds of every type. -/
@[elab_as_elim]
theorem induction
    {holds : TypeRef → Prop}
    (step : ∀ name args kind dims, (∀ arg ∈ args, holds arg) → holds ⟨name, args, kind, dims⟩)
    (type : TypeRef) :
    holds type :=
  TypeRef.rec (motive_2 := fun args => ∀ arg ∈ args, holds arg) step (by simp)
    (fun _ _ hfirst hrest => List.forall_mem_cons.mpr ⟨hfirst, hrest⟩) type

/-! ## The type parameters of a type -/

mutual

/-- The type parameters that occur in a type. -/
def parameters : TypeRef → List String
  | ⟨name, args, kind, _⟩ =>
    if kind = .parameter then name :: listParameters args else listParameters args

/-- The type parameters that occur in the types of a list. -/
def listParameters : List TypeRef → List String
  | [] => []
  | type :: rest => parameters type ++ listParameters rest

end

variable {name param : String} {args : List TypeRef} {kind : TypeSort} {dims : Nat}

theorem mem_listParameters_iff {types : List TypeRef} :
    param ∈ listParameters types ↔ ∃ type ∈ types, param ∈ type.parameters := by
  induction types with
  | nil => simp [listParameters]
  | cons type rest ih => simp [listParameters, ih]

theorem mem_parameters_iff :
    param ∈ (TypeRef.mk name args kind dims).parameters ↔
      kind = .parameter ∧ param = name ∨ ∃ arg ∈ args, param ∈ arg.parameters := by
  rw [parameters, ← mem_listParameters_iff]
  split <;> simp_all

theorem parameters_addDims (type : TypeRef) (dims : Nat) :
    (type.addDims dims).parameters = type.parameters := by
  obtain ⟨name, args, kind, own⟩ := type
  rw [addDims, parameters, parameters]

theorem mentionsParameter_eq_false_iff {type : TypeRef} :
    type.mentionsParameter = false ↔ type.parameters = [] := by
  induction type using TypeRef.induction with
  | step name args kind dims ih =>
      rw [mentionsParameter, anyMentionsParameter_eq_any, Bool.or_eq_false_iff, List.any_eq_false,
        decide_eq_false_iff_not, List.eq_nil_iff_forall_not_mem]
      constructor
      · rintro ⟨hkind, hargs⟩ param hparam
        rcases mem_parameters_iff.mp hparam with ⟨hkind', -⟩ | ⟨arg, harg, hparam⟩
        · exact hkind hkind'
        · have hnone := (ih arg harg).mp (Bool.not_eq_true _ ▸ hargs arg harg)
          rw [hnone] at hparam
          cases hparam
      · intro hnone
        refine ⟨fun hkind => hnone name (mem_parameters_iff.mpr (.inl ⟨hkind, rfl⟩)), ?_⟩
        intro arg harg
        rw [Bool.not_eq_true, ih arg harg, List.eq_nil_iff_forall_not_mem]
        intro param hparam
        exact hnone param (mem_parameters_iff.mpr (.inr ⟨arg, harg, hparam⟩))

/-! ## Equations of substitution -/

variable {bindings : Bindings}

/-- What is no type parameter is substituted in its arguments. -/
theorem substitute_of_ne (hkind : kind ≠ .parameter) :
    (TypeRef.mk name args kind dims).substitute bindings =
      ⟨name, args.map (·.substitute bindings), kind, dims⟩ := by
  rw [substitute.eq_2 _ _ _ _ _ hkind, substituteAll_eq_map]

/-- A type parameter is replaced by the type bound to it, if there is one. -/
theorem substitute_parameter :
    (TypeRef.mk name args .parameter dims).substitute bindings =
      ((bindings.get? name).map (·.addDims dims)).getD ⟨name, args, .parameter, dims⟩ := by
  rw [substitute]
  cases bindings.get? name <;> rfl

theorem substitute_addDims (type : TypeRef) (dims : Nat) (bindings : Bindings) :
    (type.addDims dims).substitute bindings = (type.substitute bindings).addDims dims := by
  obtain ⟨name, args, kind, own⟩ := type
  by_cases hkind : kind = .parameter
  · subst hkind
    rw [addDims, substitute_parameter, substitute_parameter]
    cases bindings.get? name with
    | none => rfl
    | some bound => simp [addDims, Nat.add_assoc]
  · rw [addDims, substitute_of_ne hkind, substitute_of_ne hkind]
    rfl

theorem substitute_empty (type : TypeRef) : type.substitute .empty = type := by
  induction type using TypeRef.induction with
  | step name args kind dims ih =>
      by_cases hkind : kind = .parameter
      · subst hkind
        rw [substitute_parameter]
        rfl
      · rw [substitute_of_ne hkind, List.map_congr_left ih, List.map_id']

/-- Substituting twice is substituting once in which each type parameter is bound to what the two
make of it. -/
theorem substitute_substitute
    {inner outer both : Bindings} {type : TypeRef}
    (h : ∀ param ∈ type.parameters,
      both.get? param = ((inner.get? param).map (·.substitute outer)).or (outer.get? param)) :
    (type.substitute inner).substitute outer = type.substitute both := by
  induction type using TypeRef.induction with
  | step name args kind dims ih =>
      by_cases hkind : kind = .parameter
      · subst hkind
        have hboth := h name (mem_parameters_iff.mpr (.inl ⟨rfl, rfl⟩))
        rw [substitute_parameter, substitute_parameter, hboth]
        cases inner.get? name with
        | none => exact substitute_parameter
        | some bound => exact substitute_addDims bound dims outer
      · rw [substitute_of_ne hkind, substitute_of_ne hkind, substitute_of_ne hkind, List.map_map]
        refine congrArg (TypeRef.mk name · kind dims) (List.map_congr_left ?_)
        intro arg harg
        apply ih arg harg
        intro param hparam
        exact h param (mem_parameters_iff.mpr (.inr ⟨arg, harg, hparam⟩))

end TypeRef

namespace Bindings

/-! ## Bindings seen through others -/

/-- The type parameters that are bound. -/
def names (bindings : Bindings) : List String :=
  bindings.pairs.map (·.1)

/-- The bindings with others substituted in the types that type parameters are bound to. -/
def under (bindings outer : Bindings) : Bindings :=
  ⟨bindings.pairs.map fun pair => (pair.1, pair.2.substitute outer)⟩

variable {bindings outer : Bindings} {name : String}

theorem lastBound_under (name : String) (pairs : List (String × TypeRef)) :
    lastBound name (pairs.map fun pair => (pair.1, pair.2.substitute outer)) =
      (lastBound name pairs).map (·.substitute outer) := by
  induction pairs with
  | nil => rfl
  | cons pair rest ih =>
      obtain ⟨bound, own⟩ := pair
      rw [List.map_cons, lastBound, lastBound, ih]
      cases lastBound name rest with
      | some later => rfl
      | none => by_cases heq : bound = name <;> simp [heq]

theorem get?_under (name : String) :
    (bindings.under outer).get? name = (bindings.get? name).map (·.substitute outer) :=
  lastBound_under name bindings.pairs

theorem isSome_lastBound {pairs : List (String × TypeRef)} (h : name ∈ pairs.map (·.1)) :
    (lastBound name pairs).isSome = true := by
  induction pairs with
  | nil => cases h
  | cons pair rest ih =>
      obtain ⟨bound, own⟩ := pair
      rw [lastBound]
      split
      next => rfl
      next hnone =>
        rcases List.mem_cons.mp h with rfl | hrest
        · rw [if_pos rfl, Option.isSome_some]
        · have hsome := ih hrest
          rw [hnone] at hsome
          cases hsome

/-- A type parameter that is bound has a type, which is one of those in the bindings. -/
theorem exists_get?_of_mem_names (h : name ∈ bindings.names) :
    ∃ pair ∈ bindings.pairs, bindings.get? name = some pair.2 := by
  obtain ⟨type, htype⟩ := Option.isSome_iff_exists.mp (isSome_lastBound h)
  obtain ⟨pair, hpair, rfl⟩ := mem_of_lastBound htype
  exact ⟨pair, hpair, htype⟩

/-! ## Bindings one after the other -/

theorem lastBound_append (name : String) (pairs later : List (String × TypeRef)) :
    lastBound name (pairs ++ later) = (lastBound name later).or (lastBound name pairs) := by
  induction pairs with
  | nil => simp [lastBound]
  | cons pair rest ih =>
      obtain ⟨bound, own⟩ := pair
      rw [List.cons_append, lastBound, lastBound, ih]
      cases lastBound name later <;> rfl

/-- The bindings that come to the same as two one after the other: what the first bind is seen
through the second, which bind the rest. -/
def andThen (first second : Bindings) : Bindings :=
  ⟨second.pairs ++ (first.under second).pairs⟩

theorem get?_andThen (first second : Bindings) (name : String) :
    (first.andThen second).get? name =
      ((first.get? name).map (·.substitute second)).or (second.get? name) := by
  rw [← get?_under]
  exact lastBound_append name second.pairs (first.under second).pairs

end Bindings

namespace TypeRef

variable {inner outer : Bindings} {type : TypeRef}

/-- Where all type parameters of a type are bound, substituting twice is substituting once with the
bindings seen through the others. -/
theorem substitute_under (h : type.parameters ⊆ inner.names) :
    (type.substitute inner).substitute outer = type.substitute (inner.under outer) := by
  apply substitute_substitute
  intro param hparam
  obtain ⟨pair, -, hbound⟩ := Bindings.exists_get?_of_mem_names (h hparam)
  rw [Bindings.get?_under, hbound]
  rfl

/-- Where all type parameters of a type are bound, those that are left come from the types that they
are bound to. -/
theorem exists_bound_of_mem_parameters_substitute
    {param : String} (h : ∀ name ∈ type.parameters, (inner.get? name).isSome = true)
    (hparam : param ∈ (type.substitute inner).parameters) :
    ∃ name ∈ type.parameters, ∃ bound, inner.get? name = some bound ∧ param ∈ bound.parameters := by
  induction type using TypeRef.induction with
  | step name args kind dims ih =>
      by_cases hkind : kind = .parameter
      · subst hkind
        have hname : name ∈ (TypeRef.mk name args .parameter dims).parameters :=
          mem_parameters_iff.mpr (.inl ⟨rfl, rfl⟩)
        obtain ⟨bound, hbound⟩ := Option.isSome_iff_exists.mp (h name hname)
        rw [substitute_parameter, hbound, Option.map_some, Option.getD_some,
          parameters_addDims] at hparam
        exact ⟨name, hname, bound, hbound, hparam⟩
      · rw [substitute_of_ne hkind] at hparam
        obtain ⟨_, hparam⟩ | ⟨substituted, hmem, hparam⟩ := mem_parameters_iff.mp hparam
        · contradiction
        · obtain ⟨arg, harg, rfl⟩ := List.mem_map.mp hmem
          have hargs : arg.parameters ⊆ (TypeRef.mk name args kind dims).parameters :=
            fun other hother => mem_parameters_iff.mpr (.inr ⟨arg, harg, hother⟩)
          obtain ⟨other, hother, hbound⟩ :=
            ih arg harg (fun other hother => h other (hargs hother)) hparam
          exact ⟨other, hargs hother, hbound⟩

theorem parameters_substitute_of_bound
    {param : String} (h : type.parameters ⊆ inner.names)
    (hparam : param ∈ (type.substitute inner).parameters) :
    ∃ pair ∈ inner.pairs, param ∈ pair.2.parameters := by
  have hbound : ∀ name ∈ type.parameters, (inner.get? name).isSome = true :=
    fun _ hname => Bindings.isSome_lastBound (h hname)
  obtain ⟨name, -, bound, hget, hmem⟩ := exists_bound_of_mem_parameters_substitute hbound hparam
  obtain ⟨pair, hpair, rfl⟩ := Bindings.mem_of_lastBound hget
  exact ⟨pair, hpair, hmem⟩

/-- Substitutions compose: substituting in a type and then in the result is substituting once, where
a type parameter is bound to what the first bindings bind it to, seen through the second, and where
they do not bind it, to what the second bind it to.  So where every type parameter of a type is
bound to a type without any, none is left. -/
theorem substitutions_compose (type : TypeRef) (first second : Bindings) :
    (∀ param, (first.andThen second).get? param =
      ((first.get? param).map (·.substitute second)).or (second.get? param)) ∧
    (type.substitute first).substitute second = type.substitute (first.andThen second) ∧
    ((∀ param ∈ type.parameters,
        ∃ bound, first.get? param = some bound ∧ bound.mentionsParameter = false) →
      (type.substitute first).mentionsParameter = false) := by
  have hget := first.get?_andThen second
  refine ⟨hget, substitute_substitute fun param _ => hget param, fun hbound => ?_⟩
  rw [mentionsParameter_eq_false_iff, List.eq_nil_iff_forall_not_mem]
  intro param hparam
  have hsome : ∀ name ∈ type.parameters, (first.get? name).isSome = true := by
    intro name hname
    obtain ⟨bound, hget, -⟩ := hbound name hname
    rw [hget, Option.isSome_some]
  obtain ⟨name, hname, bound, hget, hmem⟩ :=
    exists_bound_of_mem_parameters_substitute hsome hparam
  obtain ⟨other, hother, hnone⟩ := hbound name hname
  obtain rfl : other = bound := Option.some.inj (hother.symm.trans hget)
  rw [mentionsParameter_eq_false_iff.mp hnone] at hmem
  cases hmem

end TypeRef

/-! ## Type parameters that are exchanged -/

/-- A map from arrays of `K` to lists of `V`. -/
def keyedListsType : TypeRef :=
  .generic "java.util.Map" [
    .addDims (.parameter "K") 1,
    .generic "java.util.List" [.parameter "V"]]

/-- Bindings that exchange two type parameters, one of them for an array of the other. -/
def exchangingBindings : Bindings :=
  ⟨[("K", .parameter "V"), ("V", .addDims (.parameter "K") 1)]⟩

/-- Bindings to types without type parameters. -/
def groundBindings : Bindings :=
  ⟨[("K", .named "java.lang.String"), ("V", .primitive "int")]⟩

namespace TypeRef

/-- Type parameters that are exchanged and then bound are bound at once, and none is left. -/
theorem substitutions_compose_keyedLists :
    (∀ param ∈ keyedListsType.parameters,
        ∃ bound, (exchangingBindings.andThen groundBindings).get? param = some bound ∧
          bound.mentionsParameter = false) ∧
      ((keyedListsType.substitute exchangingBindings).substitute groundBindings).mentionsParameter =
        false ∧
      ((keyedListsType.substitute exchangingBindings).substitute groundBindings).spelling =
        "java.util.Map<int[],java.util.List<java.lang.String[]>>" := by
  have hbound : ∀ param ∈ keyedListsType.parameters,
      ∃ bound, (exchangingBindings.andThen groundBindings).get? param = some bound ∧
        bound.mentionsParameter = false := by
    intro param hparam
    obtain rfl | rfl : param = "K" ∨ param = "V" := by
      simpa [keyedListsType, generic, addDims, parameter, parameters, listParameters] using hparam
    · exact ⟨_, rfl, rfl⟩
    · exact ⟨_, rfl, rfl⟩
  obtain ⟨-, hcompose, -⟩ := substitutions_compose keyedListsType exchangingBindings groundBindings
  obtain ⟨-, -, hnone⟩ :=
    substitutions_compose keyedListsType (exchangingBindings.andThen groundBindings) .empty
  rw [hcompose]
  exact ⟨hbound, hnone hbound, by decide⟩

end TypeRef

end Specwright
