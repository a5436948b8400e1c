import Specwright.Proofs.Session.Outline

/-!
# The kind of an answer

A session tells references apart by their spellings, and a spelling does not say what the names in
it stand for.  Whatever is remembered was built for some reference that could be asked for, so an
answer is of the kind of the requested reference when no other reference of its spelling is of
another kind.
-/

namespace Specwright

namespace TypeModel

variable {scope : Scope} {ref other : TypeRef} {type : TypeModel}

/-- Whether a type is of the kind of a reference: it has its names, and is known and has elements
as an expansion of the reference does. -/
structure OfKind (scope : Scope) (ref : TypeRef) (type : TypeModel) : Prop where
  names : type.names = (nameOnly ref).names
  known : type.facts.known = (scope.snapshot.classOf? ref).isSome
  element : type.element.isNone = decide (ref.dims = 0)

theorem Expands.ofKind
    {same below : TypeRef → TypeModel → Prop} {bodies : Declaration → Option BodyModel → Prop}
    (h : Expands scope same below bodies ref type) :
    type.OfKind scope ref := by
  refine ⟨h.names_eq, ?_, h.isNone_element⟩
  rw [h.facts_eq]
  cases scope.snapshot.classOf? ref <;> rfl

end TypeModel

/-! ## What requests can ask for -/

namespace Session

/-- The references that requests can ask for: those that they are about, those in the bodies of the
class under test when that is requested, and in turn all that the expansion of one of them can ask
for. -/
inductive Asked (scope : Scope) (requests : List CacheRequest) : TypeRef → Prop
  | requested {request : CacheRequest} :
      request ∈ requests → Asked scope requests (request.target scope)
  | body {method : MethodDecl} {ref : TypeRef} :
      .subject ∈ requests → method ∈ scope.subject.methods →
        ref ∈ scope.bodyRefs ⟨scope.subject, method⟩ → Asked scope requests ref
  | element {name : String} {args : List TypeRef} {kind : TypeSort} {dims : Nat} :
      Asked scope requests ⟨name, args, kind, dims + 1⟩ →
        Asked scope requests ⟨name, args, kind, dims⟩
  | arg {name : String} {args : List TypeRef} {arg : TypeRef} :
      Asked scope requests ⟨name, args, .reference, 0⟩ → arg ∈ args → Asked scope requests arg
  | member {name : String} {args : List TypeRef} {decl : ClassDecl} {ref : TypeRef} :
      Asked scope requests ⟨name, args, .reference, 0⟩ →
        scope.snapshot.find? name = some decl → ref ∈ scope.memberRefs decl →
          Asked scope requests ref

variable {scope : Scope} {requests : List CacheRequest}

theorem closed_asked (scope : Scope) (requests : List CacheRequest) :
    scope.Closed (Asked scope requests) where
  element := .element
  args hasked _ := .arg hasked
  members hasked hfound _ := .member hasked hfound

/-- Where the snapshot and the requests obey an assignment of sorts to names, so does all that can
be asked for. -/
theorem Asked.obeys
    {sortOf : String → TypeSort} {ref : TypeRef} (hsnapshot : scope.snapshot.Obeys sortOf)
    (hrequests : ∀ request ∈ requests, (request.target scope).Obeys sortOf)
    (h : Asked scope requests ref) :
    ref.Obeys sortOf := by
  have hclosed := Scope.closed_obeys hsnapshot
  induction h with
  | requested hmem => exact hrequests _ hmem
  | body _ hmethod href =>
      exact Scope.obeys_of_mem_bodyRefs hsnapshot ⟨Snapshot.mem_of_find? scope.held, hmethod⟩ href
  | element _ ih => exact hclosed.element ih
  | arg _ hmem ih => exact hclosed.args ih _ hmem
  | member _ hfound href ih => exact hclosed.members ih hfound _ href

/-! ## Where answers come from -/

/-- Whether a type that was looked into is of the kind of some reference that can be asked for and
has the spelling of the requested one. -/
def Traced
    (scope : Scope) (requests : List CacheRequest) (depth : Nat) (spelling : String)
    (type : TypeModel) : Prop :=
  0 < depth →
    ∃ origin, Asked scope requests origin ∧ origin.spelling = spelling ∧ type.OfKind scope origin

/-- Whether every remembered type is of the kind of some reference that can be asked for and is
spelled as its key. -/
def TracedCache (scope : Scope) (requests : List CacheRequest) (cache : TypeCache) : Prop :=
  ∀ entry ∈ cache.entries, Traced scope requests entry.depth entry.key entry.type

theorem traced_discipline (scope : Scope) (requests : List CacheRequest) :
    CacheDiscipline scope (Asked scope requests)
      (fun depth ref => Traced scope requests depth ref.spelling)
      (TracedCache scope requests) where
  counted _ hcache := hcache
  served := by
    intro cache depth ref type hcache _ hlookup hdepth
    obtain ⟨entry, hentry, hkey, hdeep, rfl⟩ := TypeCache.exists_of_lookup? hlookup
    obtain ⟨origin, hasked, hspelling, hkind⟩ :=
      hcache entry hentry (Nat.lt_of_lt_of_le hdepth hdeep)
    exact ⟨origin, hasked, hspelling.trans hkey, hkind⟩
  remembered := by
    intro cache depth ref type hcache _ htraced entry hentry
    rcases TypeCache.mem_of_mem_remember hentry with rfl | hold
    · exact htraced
    · exact hcache entry hold
  bare _ hdepth := absurd hdepth (Nat.lt_irrefl 0)
  built hasked hexpands _ := ⟨_, hasked, rfl, hexpands.ofKind⟩

end Session

/-! ## Answers of the requested kind -/

namespace CacheRequest

/-- Whether an answer is of the kind of the requested reference: it is primitive, without values or
a type parameter like the reference, and when it was looked into it is known exactly if the
reference is no array and names a class of the snapshot. -/
structure KeepsKind (scope : Scope) (request : CacheRequest) (answer : TypeModel) : Prop where
  isPrimitive : answer.isPrimitive = (request.target scope).isPrimitive
  isVoid : answer.isVoid = (request.target scope).isVoid
  isTypeParameter : answer.isTypeParameter = (request.target scope).isTypeParameter
  known :
    0 < request.depth scope →
      (answer.facts.known = true ↔
        (request.target scope).kind = .reference ∧ (request.target scope).dims = 0 ∧
          (scope.snapshot.find? (request.target scope).name).isSome = true)

/-- Whether the spelling of the reference that a request is about settles its kind: all that
requests can ask for under this spelling has the same name, sort and dimensions, and the name of a
primitive type or a type parameter brings no brackets of its own. -/
def Settled (scope : Scope) (requests : List CacheRequest) : CacheRequest → Prop
  | .type ref depth keepArgs bindings =>
    let node := Session.requested ref keepArgs bindings
    (0 < depth → ∀ other, Session.Asked scope requests other → other.spelling = node.spelling →
      other.name = node.name ∧ other.kind = node.kind ∧ other.dims = node.dims) ∧
    (node.isPrimitive = true ∨ node.isTypeParameter = true → ¬TypeRef.EndsInBrackets node.name)
  | .subject => True

variable {scope : Scope} {requests : List CacheRequest} {request : CacheRequest}
variable {answer : TypeModel}

/-- A bare name is of the kind of its reference as far as it goes. -/
theorem keepsKind_nameOnly
    (hdepth : request.depth scope = 0)
    (hbrackets :
      (request.target scope).isPrimitive = true ∨ (request.target scope).isTypeParameter = true →
        ¬TypeRef.EndsInBrackets (request.target scope).name) :
    request.KeepsKind scope (.nameOnly (request.target scope)) where
  isPrimitive := TypeModel.isPrimitive_eq rfl (fun _ => rfl) fun h => hbrackets (Or.inl h)
  isVoid := TypeModel.isVoid_eq rfl
  isTypeParameter := TypeModel.isTypeParameter_eq rfl fun h => hbrackets (Or.inr h)
  known hpositive := absurd hdepth (Nat.ne_of_gt hpositive)

/-- A type of the kind of a reference is of the kind of every other one with the same name, sort and
dimensions. -/
theorem keepsKind_of_ofKind
    {origin : TypeRef} (h : answer.OfKind scope origin)
    (hname : origin.name = (request.target scope).name)
    (hsort : origin.kind = (request.target scope).kind)
    (hdims : origin.dims = (request.target scope).dims)
    (hbrackets :
      (request.target scope).isPrimitive = true ∨ (request.target scope).isTypeParameter = true →
        ¬TypeRef.EndsInBrackets (request.target scope).name) :
    request.KeepsKind scope answer := by
  have hprimitive : origin.isPrimitive = (request.target scope).isPrimitive := by
    rw [TypeRef.isPrimitive, TypeRef.isPrimitive, hsort, hdims]
  have hparameter : origin.isTypeParameter = (request.target scope).isTypeParameter := by
    rw [TypeRef.isTypeParameter, TypeRef.isTypeParameter, hsort, hdims]
  have hvoid : origin.isVoid = (request.target scope).isVoid := by
    rw [TypeRef.isVoid, TypeRef.isVoid, hsort]
  rw [← hprimitive, ← hparameter, ← hname] at hbrackets
  refine ⟨?_, ?_, ?_, fun _ => ?_⟩
  · rw [← hprimitive]
    refine TypeModel.isPrimitive_eq h.names ?_ fun horigin => hbrackets (Or.inl horigin)
    intro hflat
    rw [h.element, decide_eq_true hflat]
  · rw [← hvoid]
    exact TypeModel.isVoid_eq h.names
  · rw [← hparameter]
    exact TypeModel.isTypeParameter_eq h.names fun horigin => hbrackets (Or.inr horigin)
  · rw [h.known, Snapshot.classOf?, hsort, hdims, hname]
    split
    next hclass => simp [hclass]
    next hclass => simpa using fun hkind hflat => absurd ⟨hkind, hflat⟩ hclass

/-- Where the snapshot and the requests obey an assignment of sorts to names, every request is
settled by its spelling. -/
theorem settled_of_obeys
    {sortOf : String → TypeSort} (hsnapshot : scope.snapshot.Obeys sortOf)
    (hrequests : ∀ request ∈ requests, (request.target scope).Obeys sortOf)
    (hmem : request ∈ requests) :
    request.Settled scope requests := by
  have hobeys := hrequests request hmem
  cases request with
  | subject => trivial
  | type ref depth keepArgs bindings =>
      refine ⟨fun _ other hasked hspelling => ?_, fun _ => hobeys.unmarked.not_endsInBrackets⟩
      obtain rfl := TypeRef.eq_of_spelling_eq (hasked.obeys hsnapshot hrequests) hobeys hspelling
      exact ⟨rfl, rfl, rfl⟩

end CacheRequest

namespace Session

variable {scope : Scope} {requests : List CacheRequest} {request : CacheRequest}

/-- One request leaves the cache traced, and its answer is of the requested kind when that is
settled. -/
theorem perform_ensures_keepsKind
    (hmem : request ∈ requests) (hsettled : request.Settled scope requests) :
    (Contract.keeping (TracedCache scope requests)).Ensures (request.perform scope)
      (request.KeepsKind scope) := by
  have hdiscipline := traced_discipline scope requests
  have hclosed := closed_asked scope requests
  have hasked : Asked scope requests (request.target scope) := .requested hmem
  cases request with
  | type ref depth keepArgs bindings =>
      obtain ⟨hspelling, hbrackets⟩ := hsettled
      cases depth with
      | zero =>
          have hleaf :
              (Contract.keeping (TracedCache scope requests)).Ensures
                (leaf (requested ref keepArgs bindings))
                (· = .nameOnly (requested ref keepArgs bindings)) :=
            leaf_ensures (fun _ hcache => hdiscipline.counted _ hcache) _
          refine Contract.ensures_mono _ hleaf ?_
          rintro _ rfl
          exact CacheRequest.keepsKind_nameOnly rfl hbrackets
      | succ depth =>
          have htypeOf := typeOf_ensures hdiscipline hclosed (depth + 1) _ hasked
          refine Contract.ensures_mono _ htypeOf fun answer htraced => ?_
          obtain ⟨origin, horigin, hsame, hkind⟩ := htraced (Nat.succ_pos depth)
          obtain ⟨hname, hsort, hdims⟩ := hspelling (Nat.succ_pos depth) origin horigin hsame
          exact CacheRequest.keepsKind_of_ofKind hkind hname hsort hdims hbrackets
  | subject =>
      have hextract := extractSubject_ensures hdiscipline hclosed hasked
        fun method hmethod ref href => .body hmem hmethod href
      refine Contract.ensures_mono _ hextract fun answer hexpands => ?_
      refine CacheRequest.keepsKind_of_ofKind hexpands.ofKind rfl rfl rfl ?_
      rintro (hprimitive | hparameter)
      · cases hprimitive
      · cases hparameter

/-- Whatever is requested of a session in whatever order, every answer is of the kind of the
requested reference, provided that the spellings of the requested references settle their kinds. -/
theorem answers_keep_kind
    (hsettled : ∀ request ∈ requests, request.Settled scope requests) :
    List.Forall₂ (CacheRequest.KeepsKind scope) requests (answers scope requests) := by
  have hrun := Contract.ensures_mapM (Contract.keeping (TracedCache scope requests))
    fun request hmem => perform_ensures_keepsKind hmem (hsettled request hmem)
  obtain ⟨hanswers, -⟩ := hrun .empty fun _ hentry => absurd hentry List.not_mem_nil
  exact hanswers

theorem answers_keep_kind_namesRequests :
    (∀ request ∈ namesRequests, request.Settled namesScope namesRequests) ∧
      List.Forall₂ (CacheRequest.KeepsKind namesScope) namesRequests
        (answers namesScope namesRequests) := by
  have hsnapshot : namesScope.snapshot.Obeys namesSort := by
    decide +kernel
  have hrequests : ∀ request ∈ namesRequests, (request.target namesScope).Obeys namesSort := by
    decide +kernel
  have hsettled : ∀ request ∈ namesRequests, request.Settled namesScope namesRequests :=
    fun _ => CacheRequest.settled_of_obeys hsnapshot hrequests
  exact ⟨hsettled, answers_keep_kind hsettled⟩

/-- A class that is spelled like a type parameter which was requested before is answered by a type
parameter that is not known, and a primitive type whose name brings brackets by none. -/
theorem answers_change_kind :
    ¬List.Forall₂ (CacheRequest.KeepsKind namesScope)
        [.type (.parameter "shop.Chain") 1 true .empty, .type (.named "shop.Chain") 1 true .empty]
        (answers namesScope
          [.type (.parameter "shop.Chain") 1 true .empty,
            .type (.named "shop.Chain") 1 true .empty]) ∧
      ¬List.Forall₂ (CacheRequest.KeepsKind namesScope)
        [.type (.primitive "int[]") 1 true .empty]
        (answers namesScope [.type (.primitive "int[]") 1 true .empty]) := by
  constructor
  · -- The class is served what was remembered for the parameter.
    intro h
    have hsecond := (List.forall₂_cons.mp (List.forall₂_cons.mp h).2).1
    have hunknown : false = true :=
      (hsecond.known (Nat.succ_pos 0)).mpr ⟨rfl, rfl, rfl⟩
    cases hunknown
  · -- The brackets of the name are taken for those of an array.
    intro h
    have hfirst := (List.forall₂_cons.mp h).1
    have hbrackets : false = true := hfirst.isPrimitive
    cases hbrackets

end Session

end Specwright
