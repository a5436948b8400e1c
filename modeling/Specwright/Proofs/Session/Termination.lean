import Specwright.Proofs.Model.Nesting
import Specwright.Proofs.Session.Bodies

/-!
# Requests come to an end

A request is answered from memory, or the type is built from the answers to further requests, which
are answered in the same way.  Run with a limit on how deep requests may nest, this recursion breaks
off where the limit is reached, and a limit that depends on the snapshot alone is never reached: no
cycle among the classes or in the types of their members matters, and neither does what is
remembered.  Bodies are looked into by an extraction only, and their callees no further, so the
requests for them start one nesting anew, not one after the other.
-/

namespace Specwright

/-! ## Requests as a recursion -/

namespace TypeCache

variable {m : Type → Type} [Monad m] [MonadStateOf TypeCache m]

/-- The answer to a request, where `build` makes the type if it is not remembered. -/
def answer (build : Nat → TypeRef → m TypeModel) : Nat → TypeRef → m TypeModel
  | 0, ref => do
    modify TypeCache.countLeaf
    pure (.nameOnly ref)
  | depth + 1, ref => do
    match (← get).lookup? ref.spelling (depth + 1) with
    | some type =>
      modify TypeCache.countHit
      pure type
    | none =>
      modify TypeCache.countMiss
      let type ← build (depth + 1) ref
      modify (·.remember ref.spelling (depth + 1) type)
      pure type

/-- The class under test with the bodies of its own methods, where `ask` answers for types. -/
def extract (scope : Scope) (ask : Nat → TypeRef → m TypeModel) : m TypeModel := do
  let ref := scope.subject.ownType
  let depth := Session.subjectDepth scope
  modify TypeCache.countMiss
  let type ← TypeModel.build scope ask (TypeModel.bodyFrom scope ask) depth ref
  modify (·.remember ref.spelling depth type)
  pure type

end TypeCache

namespace Session

variable {scope : Scope}

/-- A request is answered from memory, or from the answers to the requests that are made for it. -/
theorem typeOf_eq_answer (scope : Scope) (depth : Nat) (ref : TypeRef) :
    typeOf scope depth ref =
      TypeCache.answer (TypeModel.build scope (typeOf scope) TypeModel.withoutBodies) depth
        ref := by
  cases depth with
  | zero => rfl
  | succ depth =>
      obtain ⟨name, args, kind, dims⟩ := ref
      cases dims with
      | succ dims => rfl
      | zero =>
          have hserve :
              typeOf scope (depth + 1) ⟨name, args, kind, 0⟩ =
                serve (depth + 1) ⟨name, args, kind, 0⟩
                  (TypeModel.build scope (typeOf scope) TypeModel.withoutBodies (depth + 1)
                    ⟨name, args, kind, 0⟩) := by
            rw [typeOf, TypeModel.expand, TypeModel.expandAt, TypeModel.expandAllAt_eq_mapM]
            rfl
          exact hserve

theorem extractSubject_eq_extract (scope : Scope) :
    extractSubject scope = TypeCache.extract scope (typeOf scope) := by
  rw [extractSubject, TypeCache.extract]
  have hbuild :
      TypeModel.build scope (typeOf scope) (TypeModel.bodyFrom scope (typeOf scope))
          (subjectDepth scope) scope.subject.ownType =
        (do
          let types ← scope.subject.ownType.args.mapM (typeOf scope (subjectDepth scope))
          TypeModel.ofClass scope (typeOf scope (subjectDepth scope - 1)) leaf
            (TypeModel.bodyFrom scope (typeOf scope)) scope.subject.ownType types) := rfl
  rw [hbuild]
  simp only [bind_assoc]
  rfl

/-! ## A limit on nesting -/

/-- The answer to a request where requests nest at most `calls` deep.  Where they would nest deeper,
there is none. -/
def typeOfWithin (scope : Scope) : Nat → Nat → TypeRef → StateT TypeCache Option TypeModel
  | 0, _, _ => failure
  | calls + 1, depth, ref =>
    TypeCache.answer (TypeModel.build scope (typeOfWithin scope calls) TypeModel.withoutBodies)
      depth ref

end Session

/-- The sizes of all references that the members of classes and the bodies of the class under test
ask for. -/
def Scope.weight (scope : Scope) : Nat :=
  ((scope.snapshot.classes.flatMap scope.memberRefs ++
      scope.subject.methods.flatMap fun method => scope.bodyRefs ⟨scope.subject, method⟩).map
    TypeRef.size).sum

/-- How deep the requests that are made for a reference to a depth nest at most. -/
def Scope.nesting (scope : Scope) : Nat → TypeRef → Nat
  | 0, _ => 0
  | depth + 1, ref => ref.size + depth * scope.weight

namespace Scope

variable {scope : Scope} {ref other : TypeRef} {depth below : Nat}

theorem size_le_weight_of_member
    {name : String} {decl : ClassDecl} (hfound : scope.snapshot.find? name = some decl)
    (href : ref ∈ scope.memberRefs decl) :
    ref.size ≤ scope.weight := by
  refine List.le_sum_of_mem (List.mem_map_of_mem (List.mem_append_left _ ?_))
  exact List.mem_flatMap.mpr ⟨decl, Snapshot.mem_of_find? hfound, href⟩

theorem size_le_weight_of_body
    {method : MethodDecl} (hmethod : method ∈ scope.subject.methods)
    (href : ref ∈ scope.bodyRefs ⟨scope.subject, method⟩) :
    ref.size ≤ scope.weight := by
  refine List.le_sum_of_mem (List.mem_map_of_mem (List.mem_append_right _ ?_))
  exact List.mem_flatMap.mpr ⟨method, hmethod, href⟩

/-- References that members and bodies ask for nest no deeper than their depth allows. -/
theorem nesting_le_of_size_le (h : ref.size ≤ scope.weight) :
    scope.nesting depth ref ≤ depth * scope.weight := by
  cases depth with
  | zero => exact Nat.zero_le _
  | succ depth =>
      rw [nesting, Nat.succ_mul]
      omega

/-- A request that is made for another one nests less deep. -/
theorem nesting_lt_of_asks
    (hdepth : 0 < depth) (h : TypeModel.Asks scope depth ref below other) :
    scope.nesting below other < scope.nesting depth ref := by
  obtain ⟨above, rfl⟩ : ∃ above, depth = above + 1 := ⟨depth - 1, by omega⟩
  have hpos := ref.size_pos
  rw [nesting]
  cases h with
  | element => exact Nat.add_lt_add_right TypeRef.size_element _
  | arg harg => exact Nat.add_lt_add_right (TypeRef.size_arg harg) _
  | member hfound hmember =>
      have hle : scope.nesting above other ≤ above * scope.weight :=
        nesting_le_of_size_le (size_le_weight_of_member hfound hmember)
      exact Nat.lt_of_le_of_lt hle (Nat.lt_add_of_pos_left hpos)
  | assigned => exact Nat.lt_of_lt_of_le hpos (Nat.le_add_right _ _)

theorem nesting_le_succ : scope.nesting depth ref ≤ scope.nesting (depth + 1) ref := by
  cases depth with
  | zero => exact Nat.zero_le _
  | succ depth =>
      rw [nesting, nesting, Nat.succ_mul]
      omega

end Scope

namespace Session

variable {calls depth : Nat} {ref : TypeRef}

theorem answer_returns
    {build : Nat → TypeRef → StateT TypeCache Option TypeModel}
    {build' : Nat → TypeRef → Session TypeModel}
    (h : 0 < depth →
      (Agreement.returning TypeCache).Agree (build depth ref) (build' depth ref)) :
    (Agreement.returning TypeCache).Agree (TypeCache.answer build depth ref)
      (TypeCache.answer build' depth ref) := by
  cases depth with
  | zero => exact fun _ => rfl
  | succ depth =>
      refine Agreement.agree_bind _ (fun _ => rfl) fun cache => ?_
      split
      · exact fun _ => rfl
      · refine Agreement.agree_bind _ (fun _ => rfl) fun _ => ?_
        refine Agreement.agree_bind _ (h (Nat.succ_pos depth)) fun type => ?_
        exact fun _ => rfl

/-- A limit that is greater than the nesting of a request is not reached. -/
theorem typeOfWithin_returns (h : scope.nesting depth ref < calls) :
    (Agreement.returning TypeCache).Agree (typeOfWithin scope calls depth ref)
      (typeOf scope depth ref) := by
  induction calls generalizing depth ref with
  | zero => exact absurd h (Nat.not_lt_zero _)
  | succ calls ih =>
      rw [typeOfWithin, typeOf_eq_answer]
      refine answer_returns fun hdepth => TypeModel.build_agrees ?_ fun _ _ _ _ _ => ?_
      · intro below other hasks
        have hless := Scope.nesting_lt_of_asks hdepth hasks
        exact ih (by omega)
      · exact Agreement.agree_pure _ none

theorem extract_returns
    (h : scope.nesting (subjectDepth scope + 1) scope.subject.ownType < calls) :
    (Agreement.returning TypeCache).Agree (TypeCache.extract scope (typeOfWithin scope calls))
      (extractSubject scope) := by
  have hdepth : 0 < subjectDepth scope := Nat.lt_of_lt_of_le Nat.one_pos (Nat.le_max_right _ _)
  have hreturns (below : Nat) (other : TypeRef)
      (hle : scope.nesting below other ≤
        scope.nesting (subjectDepth scope + 1) scope.subject.ownType) :
      (Agreement.returning TypeCache).Agree (typeOfWithin scope calls below other)
        (typeOf scope below other) :=
    typeOfWithin_returns (by omega)
  rw [extractSubject_eq_extract]
  refine Agreement.agree_bind _ (fun _ => rfl) fun _ => ?_
  refine Agreement.agree_bind _ (TypeModel.build_agrees ?asked ?bodies) fun type => fun _ => rfl
  case asked =>
    intro below other hasks
    have hless := Scope.nesting_lt_of_asks hdepth hasks
    exact hreturns below other (Nat.le_trans hless.le Scope.nesting_le_succ)
  case bodies =>
    intro decl hfound declaration hmem hname
    obtain rfl : scope.subject = decl := Option.some.inj (scope.held.symm.trans hfound)
    obtain ⟨method, hmethod, rfl⟩ := Snapshot.eq_own_of_mem_memberMethods scope.held hmem hname
    refine Agreement.agree_bind _ (BodyModel.build_agrees ?_ ?_) fun body =>
      Agreement.agree_pure _ _
    · exact fun ref => hreturns 0 ref (Nat.zero_le _)
    · intro ref href
      -- Bodies ask at depth 1, and the extraction itself is at least as deep.
      have hle : scope.nesting 1 ref ≤ 1 * scope.weight :=
        Scope.nesting_le_of_size_le (Scope.size_le_weight_of_body hmethod href)
      have hroom : 1 * scope.weight ≤ subjectDepth scope * scope.weight :=
        Nat.mul_le_mul_right _ hdepth
      exact hreturns 1 ref (Nat.le_trans (Nat.le_trans hle hroom) (Nat.le_add_left _ _))

/-- No method of a type that is built for a request is looked into. -/
theorem bodiless_of_build
    (cache : TypeCache) (depth : Nat) (ref : TypeRef) {method : MethodModel}
    (hmethod : method ∈ ((TypeModel.build scope (typeOf scope) TypeModel.withoutBodies depth
      ref).run cache).1.methods) :
    method.Bodiless := by
  have hexpands :
      (Contract.keeping fun _ => True).Ensures
        (TypeModel.build scope (typeOf scope) TypeModel.withoutBodies depth ref)
        (TypeModel.Expands scope anyAnswer anyAnswer (fun _ => (· = none)) ref) :=
    TypeModel.build_ensures (leaf_ensures fun _ _ => trivial)
      (fun _ _ _ => ⟨trivial, trivial⟩) (fun _ _ _ => ⟨trivial, trivial⟩) ref
  obtain ⟨_, _, -, -, hshown⟩ := (hexpands cache trivial).1.exists_declaration hmethod
  have hbody := hshown.body_holds
  rw [ite_self] at hbody
  exact MethodModel.bodiless_of_body hbody

/-- Nothing that a method of the extracted class calls or refers to is looked into. -/
theorem callsBodiless_of_extractSubject
    (cache : TypeCache) {method : MethodModel}
    (hmethod : method ∈ ((extractSubject scope).run cache).1.methods) :
    method.CallsBodiless := by
  obtain ⟨_, _, -, -, hshown⟩ := (extractSubject_expands scope cache).exists_declaration hmethod
  have hbody := hshown.body_holds
  split at hbody
  next =>
    obtain ⟨body, hsome, hshows⟩ := hbody
    exact MethodModel.callsBodiless_of_body hsome hshows
  next => exact (MethodModel.bodiless_of_body hbody).callsBodiless

end Session

namespace CacheRequest

/-- Puts a request to a session in which the requests that are made for it nest at most `calls`
deep. -/
def performWithin (scope : Scope) (calls : Nat) :
    CacheRequest → StateT TypeCache Option TypeModel
  | .type ref depth keepArgs bindings =>
    Session.typeOfWithin scope calls depth (Session.requested ref keepArgs bindings)
  | .subject => TypeCache.extract scope (Session.typeOfWithin scope calls)

/-- How deep the requests that are made for a request nest at most. -/
def nesting (scope : Scope) (request : CacheRequest) : Nat :=
  scope.nesting (request.depth scope + 1) (request.target scope)

theorem performWithin_returns
    {scope : Scope} {calls : Nat} {request : CacheRequest} (h : request.nesting scope < calls) :
    (Agreement.returning TypeCache).Agree (request.performWithin scope calls)
      (request.perform scope) := by
  cases request with
  | type ref depth keepArgs bindings =>
      exact Session.typeOfWithin_returns (Nat.lt_of_le_of_lt Scope.nesting_le_succ h)
  | subject => exact Session.extract_returns h

end CacheRequest

namespace Session

/-- Every request comes to an end.  A request is answered from memory or from the answers to further
requests, and these are all smaller: the depth goes down or, while it stays, the size of the
reference.  No body is looked into for them; an extraction looks into bodies, but into none that
they lead to.  So requests nest no deeper than a bound that depends on the snapshot, the depth and
the reference, and with room for that every request returns, in any state of the cache. -/
theorem requests_come_to_an_end (scope : Scope) :
    ((∀ depth ref,
        typeOf scope depth ref =
          TypeCache.answer (TypeModel.build scope (typeOf scope) TypeModel.withoutBodies) depth
            ref) ∧
      extractSubject scope = TypeCache.extract scope (typeOf scope)) ∧
    (∀ (depth : Nat) (ref : TypeRef) (ask ask' : Nat → TypeRef → Session TypeModel), 0 < depth →
      (∀ below other, Prod.Lex (· < ·) (· < ·) (below, other.size) (depth, ref.size) →
        ask below other = ask' below other) →
      TypeModel.build scope ask TypeModel.withoutBodies depth ref =
        TypeModel.build scope ask' TypeModel.withoutBodies depth ref) ∧
    (∀ cache,
      (∀ depth ref,
        ∀ method ∈ ((TypeModel.build scope (typeOf scope) TypeModel.withoutBodies depth ref).run
          cache).1.methods, method.Bodiless) ∧
      ∀ method ∈ ((extractSubject scope).run cache).1.methods, method.CallsBodiless) ∧
    ∀ (request : CacheRequest) (calls : Nat), request.nesting scope < calls →
      ∀ cache, (request.performWithin scope calls).run cache =
        some ((request.perform scope).run cache) := by
  refine ⟨⟨typeOf_eq_answer scope, extractSubject_eq_extract scope⟩, ?smaller, ?bodies, ?returns⟩
  case smaller =>
    intro depth ref ask ask' hdepth hsame
    have hasked (below : Nat) (other : TypeRef)
        (hasks : TypeModel.Asks scope depth ref below other) :
        (Agreement.equal Session).Agree (ask below other) (ask' below other) :=
      hsame below other (hasks.decreases hdepth)
    exact TypeModel.build_agrees hasked fun _ _ _ _ _ => rfl
  case bodies =>
    exact fun cache => ⟨fun depth ref _ => bodiless_of_build cache depth ref,
      fun _ => callsBodiless_of_extractSubject cache⟩
  case returns => exact fun request calls h => CacheRequest.performWithin_returns h

/-- A node leads to itself, and its method calls itself.  Still the extraction of nodes returns
where requests may nest eleven deep; where they may nest two deep only, it breaks off. -/
theorem requests_come_to_an_end_nodeScope :
    CacheRequest.subject.nesting nodeScope < 11 ∧
      ((CacheRequest.subject.performWithin nodeScope 11).run .empty).isSome = true ∧
        ((CacheRequest.subject.performWithin nodeScope 2).run .empty).isSome = false := by
  have hnesting : CacheRequest.subject.nesting nodeScope < 11 := by decide +kernel
  obtain ⟨-, -, -, hreturns⟩ := requests_come_to_an_end nodeScope
  refine ⟨hnesting, ?returned, ?broken⟩
  case returned =>
    rw [hreturns .subject 11 hnesting .empty]
    rfl
  case broken => decide +kernel

end Session

end Specwright
