import Specwright.Proofs.Session.Subject

/-!
# Which calls a method is found to make

The calls in the model of a method are the call sites of its declaration that lead to a relevant
declaration.  Classes at the root of every hierarchy are never relevant; what lies outside the
project, or is reached dynamically, is only where its id starts with an admitted prefix.  So more
prefixes never take a call away.
-/

namespace Specwright

/-! ## Relevant declarations -/

/-- Whether a declaration is of a Groovy class and either marked as dynamic or reached like a
dynamic accessor. -/
def Declaration.IsDynamic (declaration : Declaration) : Prop :=
  declaration.owner.language = .groovy ∧
    (declaration.method.isMarked .dynamicDispatch = true ∨
      ∃ accessor ∈ Language.dynamicAccessors, accessor.toList <:+ declaration.id.toList)

theorem Declaration.isDispatchHelper_iff {declaration : Declaration} :
    declaration.owner.language.isDispatchHelper declaration.method declaration.id = true ↔
      declaration.IsDynamic := by
  rw [IsDynamic]
  cases declaration.owner.language with
  | groovy => simp [Language.isDispatchHelper]
  | java => simp [Language.isDispatchHelper]
  | scala => simp [Language.isDispatchHelper]

namespace Scope

/-- Whether the id of a callee starts with an admitted prefix. -/
def Admits (scope : Scope) (id : String) : Prop :=
  ∃ start ∈ scope.options.admittedPrefixes, start.toList <+: id.toList

/-- What calls of a declaration are counted for. -/
structure Relevant (scope : Scope) (declaration : Declaration) : Prop where
  notRoot : declaration.owner.name ∉ rootClasses
  admitted : declaration.owner.inProject = false ∨ declaration.IsDynamic →
    scope.Admits declaration.id

variable {scope : Scope} {declaration : Declaration}

theorem follows_iff : scope.follows declaration = true ↔ scope.Relevant declaration := by
  have hadmits : (scope.options.admittedPrefixes.any fun start =>
      start.toList.isPrefixOf declaration.id.toList) = true ↔ scope.Admits declaration.id := by
    simp [Admits]
  rw [follows, Bool.and_eq_true, Bool.or_eq_true, Bool.and_eq_true, hadmits, Bool.not_eq_true',
    Bool.not_eq_true', ← Bool.not_eq_true, ← Bool.not_eq_true, Declaration.isDispatchHelper_iff,
    isRootClass, decide_eq_true_iff]
  constructor
  · rintro ⟨hroot, hplain | hadmitted⟩
    · refine ⟨hroot, ?_⟩
      rintro (houtside | hdynamic)
      · rw [houtside] at hplain
        cases hplain.2
      · exact absurd hdynamic hplain.1
    · exact ⟨hroot, fun _ => hadmitted⟩
  · rintro ⟨hroot, hadmitted⟩
    refine ⟨hroot, ?_⟩
    by_cases hplain : declaration.owner.inProject = false ∨ declaration.IsDynamic
    · exact Or.inr (hadmitted hplain)
    · obtain ⟨hinside, hplain⟩ := not_or.mp hplain
      exact Or.inl ⟨hplain, by simpa using hinside⟩

instance : DecidablePred scope.Relevant :=
  fun _ => decidable_of_iff _ follows_iff

/-- The relevant declaration that a signature resolves to. -/
def relevant? (scope : Scope) (signature : MethodSignature) : Option Declaration :=
  (scope.snapshot.resolve? signature).filter fun callee => scope.Relevant callee

theorem followed?_eq_relevant? (signature : MethodSignature) :
    scope.followed? signature = scope.relevant? signature := by
  rw [followed?, relevant?]
  congr 1
  funext callee
  rw [Bool.eq_iff_iff, follows_iff, decide_eq_true_iff]

theorem relevant_of_followed?
    {signature : MethodSignature} (h : scope.followed? signature = some declaration) :
    scope.Relevant declaration :=
  follows_iff.mp (Option.filter_eq_some_iff.mp h).2

/-! ## The calls of a declaration -/

/-- The calls of a method: for each call site that leads to a relevant declaration its id and the
arguments, each such pair once. -/
def callGraph (scope : Scope) (method : MethodDecl) : List (String × List String) :=
  if scope.snapshot.fills .callSites then
    (method.callSites.filterMap fun site =>
      (scope.relevant? site.target).map fun callee => (callee.id, site.args)).eraseDups
  else []

/-- The method references of a method: the ids of the relevant declarations that they lead to, each
once. -/
def refGraph (scope : Scope) (method : MethodDecl) : List String :=
  if scope.snapshot.fills .methodReferences then
    (method.methodRefs.filterMap fun target =>
      (scope.relevant? target).map (·.id)).eraseDups
  else []

theorem mem_callGraph_iff {method : MethodDecl} {call : String × List String} :
    call ∈ scope.callGraph method ↔
      scope.snapshot.fills .callSites = true ∧ ∃ site ∈ method.callSites,
        ∃ callee, scope.relevant? site.target = some callee ∧ (callee.id, site.args) = call := by
  rw [callGraph]
  split
  next hfills => simp [hfills, List.mem_eraseDups, List.mem_filterMap]
  next hfills => simp [hfills]

theorem mem_refGraph_iff {method : MethodDecl} {id : String} :
    id ∈ scope.refGraph method ↔
      scope.snapshot.fills .methodReferences = true ∧ ∃ target ∈ method.methodRefs,
        ∃ callee, scope.relevant? target = some callee ∧ callee.id = id := by
  rw [refGraph]
  split
  next hfills => simp [hfills, List.mem_eraseDups, List.mem_filterMap]
  next hfills => simp [hfills]

theorem eraseDups_followedCalls (scope : Scope) (method : MethodDecl) :
    ((scope.followedCalls method).map fun call => (call.1.id, call.2)).eraseDups =
      scope.callGraph method := by
  rw [followedCalls, callGraph]
  split
  · simp only [List.map_filterMap, Option.map_map, followed?_eq_relevant?]
    rfl
  · rfl

theorem eraseDups_followedRefs (scope : Scope) (method : MethodDecl) :
    ((scope.followedRefs method).map (·.id)).eraseDups = scope.refGraph method := by
  rw [followedRefs, refGraph]
  split
  · simp only [List.map_filterMap, followed?_eq_relevant?]
  · rfl

theorem relevant_of_mem_followedCalls
    {method : MethodDecl} {call : Declaration × List String}
    (h : call ∈ scope.followedCalls method) :
    scope.Relevant call.1 := by
  rw [followedCalls] at h
  split at h
  · obtain ⟨site, -, hsite⟩ := List.mem_filterMap.mp h
    obtain ⟨callee, hcallee, rfl⟩ := Option.map_eq_some_iff.mp hsite
    exact relevant_of_followed? hcallee
  · cases h

theorem relevant_of_mem_followedRefs
    {method : MethodDecl} {target : Declaration} (h : target ∈ scope.followedRefs method) :
    scope.Relevant target := by
  rw [followedRefs] at h
  split at h
  · obtain ⟨signature, -, hfollowed⟩ := List.mem_filterMap.mp h
    exact relevant_of_followed? hfollowed
  · cases h

/-! ## More prefixes -/

section Wider

variable {wider : ModelOptions}

/-- The scope with other options. -/
def under (scope : Scope) (options : ModelOptions) : Scope :=
  { scope with options }

theorem Relevant.under
    (hprefixes : scope.options.admittedPrefixes ⊆ wider.admittedPrefixes)
    (h : scope.Relevant declaration) : (scope.under wider).Relevant declaration := by
  refine ⟨h.notRoot, fun hneeds => ?_⟩
  obtain ⟨start, hstart, hprefix⟩ := h.admitted hneeds
  exact ⟨start, hprefixes hstart, hprefix⟩

theorem relevant?_under
    (hprefixes : scope.options.admittedPrefixes ⊆ wider.admittedPrefixes)
    {signature : MethodSignature} (h : scope.relevant? signature = some declaration) :
    (scope.under wider).relevant? signature = some declaration := by
  obtain ⟨hresolved, hrelevant⟩ := Option.filter_eq_some_iff.mp h
  refine Option.filter_eq_some_iff.mpr ⟨hresolved, ?_⟩
  exact decide_eq_true ((of_decide_eq_true hrelevant).under hprefixes)

theorem callGraph_subset_under
    (hprefixes : scope.options.admittedPrefixes ⊆ wider.admittedPrefixes) (method : MethodDecl) :
    scope.callGraph method ⊆ (scope.under wider).callGraph method := by
  intro call hcall
  obtain ⟨hfills, site, hsite, callee, hcallee, heq⟩ := mem_callGraph_iff.mp hcall
  exact mem_callGraph_iff.mpr
    ⟨hfills, site, hsite, callee, relevant?_under hprefixes hcallee, heq⟩

theorem refGraph_subset_under
    (hprefixes : scope.options.admittedPrefixes ⊆ wider.admittedPrefixes) (method : MethodDecl) :
    scope.refGraph method ⊆ (scope.under wider).refGraph method := by
  intro id hid
  obtain ⟨hfills, target, htarget, callee, hcallee, heq⟩ := mem_refGraph_iff.mp hid
  exact mem_refGraph_iff.mpr
    ⟨hfills, target, htarget, callee, relevant?_under hprefixes hcallee, heq⟩

end Wider

end Scope

/-! ## The calls in a model -/

namespace MethodModel

/-- The calls as pairs of the id of the callee and the arguments. -/
def callPairs (calls : List CallModel) : List (String × List String) :=
  calls.map fun call => (call.callee.id, call.args)

/-- A callee that models a relevant declaration of the snapshot. -/
def IsRelevantIn (callee : MethodModel) (scope : Scope) : Prop :=
  ∃ declaration, declaration.BelongsTo scope.snapshot ∧ scope.Relevant declaration ∧
    callee.id = declaration.id ∧ callee.owner = declaration.owner.name

/-- The model of a method in which its calls and method references are found, and nothing else. -/
structure ShowsCalls (scope : Scope) (method : MethodDecl) (model : MethodModel) : Prop where
  id_eq : model.id = method.idIn scope.subject.name
  directCalls : callPairs model.directCalls = scope.callGraph method
  stubCalls : model.stubCalls = model.directCalls
  spyCalls : model.spyCalls = model.directCalls
  methodRefs : model.methodRefs.map (·.id) = scope.refGraph method
  callees : ∀ call ∈ model.directCalls, call.callee.IsRelevantIn scope
  targets : ∀ target ∈ model.methodRefs, target.IsRelevantIn scope

variable {scope : Scope} {answers : TypeRef → TypeModel → Prop}

theorem Shows.isRelevantIn
    {bodies : Option BodyModel → Prop} {viewer : Option ClassDecl} {declaration : Declaration}
    {callee : MethodModel} (h : callee.Shows scope answers bodies viewer declaration)
    (hbelongs : declaration.BelongsTo scope.snapshot) (hrelevant : scope.Relevant declaration) :
    callee.IsRelevantIn scope :=
  ⟨declaration, hbelongs, hrelevant, h.id_eq, h.owner_eq⟩

/-- A method of the class under test whose body is looked into shows its calls, unless the class is
at the root of every hierarchy. -/
theorem showsCalls_of_ownBody
    {method : MethodDecl} {model : MethodModel} {viewer : Option ClassDecl}
    (hroot : scope.subject.name ∉ rootClasses)
    (hshows : model.Shows scope anyAnswer
      (Session.OwnBody scope (fun _ => anyAnswer) ⟨scope.subject, method⟩) viewer
      ⟨scope.subject, method⟩) :
    ShowsCalls scope method model := by
  obtain ⟨body, hmodel, hbody⟩ := hshows.body_holds
  have hdirect : model.directCalls = body.calls := by rw [directCalls, hmodel]; rfl
  have hmethodRefs : model.methodRefs = body.methodRefs := by rw [methodRefs, hmodel]; rfl
  cases hbody with
  | root hisRoot => exact absurd (of_decide_eq_true hisRoot) hroot
  | found _ hcalls hrefs _ =>
      have hpairs : (scope.followedCalls method).map (fun call => (call.1.id, call.2)) = _ :=
        map_eq_of_forall₂ hcalls fun call found hcall => by
          show _ = (found.callee.id, found.args)
          rw [hcall.1.id_eq, hcall.2]
      have hids : (scope.followedRefs method).map (·.id) = _ :=
        map_eq_of_forall₂ hrefs fun target found htarget => htarget.id_eq.symm
      refine ⟨hshows.id_eq, ?_, rfl, rfl, ?_, ?_, ?_⟩
      · rw [hdirect, callPairs, map_distinctBy, ← hpairs, Scope.eraseDups_followedCalls]
      · rw [hmethodRefs, map_distinctBy, ← hids, Scope.eraseDups_followedRefs]
      · intro call hcall
        rw [hdirect] at hcall
        obtain ⟨followed, hfollowed, hcallee⟩ :=
          exists_related_of_mem hcalls.flip ((distinctBy_sublist _).subset hcall)
        exact Shows.isRelevantIn hcallee.1 (Scope.belongsTo_of_mem_followedCalls hfollowed)
          (Scope.relevant_of_mem_followedCalls hfollowed)
      · intro target htarget
        rw [hmethodRefs] at htarget
        obtain ⟨followed, hfollowed, hcallee⟩ :=
          exists_related_of_mem hrefs.flip ((distinctBy_sublist _).subset htarget)
        exact Shows.isRelevantIn hcallee (Scope.belongsTo_of_mem_followedRefs hfollowed)
          (Scope.relevant_of_mem_followedRefs hfollowed)

/-- Two models of one method of which the second has at least the calls and method references of the
first. -/
structure HasCallsOf (other model : MethodModel) : Prop where
  id_eq : model.id = other.id
  calls : callPairs model.directCalls ⊆ callPairs other.directCalls
  methodRefs : model.methodRefs.map (·.id) ⊆ other.methodRefs.map (·.id)

end MethodModel

namespace Session

theorem forall₂_showsCalls
    (scope : Scope) (hroot : scope.subject.name ∉ rootClasses) (cache : TypeCache) :
    List.Forall₂ (MethodModel.ShowsCalls scope) scope.subject.methods
      ((extractSubject scope).run cache).1.ownMethods :=
  (forall₂_ownMethods scope cache).imp fun _ _ => MethodModel.showsCalls_of_ownBody hroot

/-- In every session the own methods of the class under test show their calls, and with more
prefixes they show at least the same. -/
theorem extractSubject_callGraph
    {scope : Scope} (hroot : scope.subject.name ∉ rootClasses) (cache : TypeCache) :
    List.Forall₂ (MethodModel.ShowsCalls scope) scope.subject.methods
        ((extractSubject scope).run cache).1.ownMethods ∧
      ∀ (wider : ModelOptions) (cache' : TypeCache),
        scope.options.admittedPrefixes ⊆ wider.admittedPrefixes →
          List.Forall₂ (fun model other => other.HasCallsOf model)
            ((extractSubject scope).run cache).1.ownMethods
            ((extractSubject (scope.under wider)).run cache').1.ownMethods := by
  refine ⟨forall₂_showsCalls scope hroot cache, fun wider cache' hprefixes => ?_⟩
  refine forall₂_comp (forall₂_showsCalls scope hroot cache).flip
    (forall₂_showsCalls (scope.under wider) hroot cache') ?_
  intro model method other hmodel hother
  refine ⟨hmodel.id_eq.trans hother.id_eq.symm, ?_, ?_⟩
  · rw [hmodel.directCalls, hother.directCalls]
    exact scope.callGraph_subset_under hprefixes method
  · rw [hmodel.methodRefs, hother.methodRefs]
    exact scope.refGraph_subset_under hprefixes method

end Session

/-! ## Letters that are sent -/

def mailerClass : ClassDecl where
  name := "post.Mailer"
  methods := [{ name := "deliver", params := [⟨"letter", .named "lib.Letter"⟩] }]

/-- A class outside the project. -/
def letterClass : ClassDecl where
  name := "lib.Letter"
  inProject := false
  methods := [{ name := "seal" }]

/-- A class that seals a letter, asks for its hash and delivers it, and then again. -/
def senderClass : ClassDecl where
  name := "post.Sender"
  methods := [
    { name := "send"
      params := [⟨"letter", .named "lib.Letter"⟩]
      callSites := [
        { target := ⟨"lib.Letter", "seal", []⟩ },
        { target := ⟨"java.lang.Object", "hashCode", []⟩ },
        { target := ⟨"post.Mailer", "deliver", [.named "lib.Letter"]⟩, args := ["letter"] },
        { target := ⟨"post.Mailer", "deliver", [.named "lib.Letter"]⟩, args := ["letter"] }] }]

def senderScope : Scope where
  snapshot := .ofClasses [senderClass, mailerClass, letterClass,
    { name := "java.lang.Object", methods := [{ name := "hashCode" }] }]
  subject := senderClass
  options := ⟨2, []⟩
  held := rfl

namespace Session

/-- The delivery is found once.  With a prefix for the library the letter is seen to be sealed, and
with one for everything else its hash is still not asked for. -/
theorem extractSubject_callGraph_sender :
    senderScope.subject.name ∉ rootClasses ∧
      senderScope.options.admittedPrefixes ⊆ ["lib.", "java."] ∧
      ∃ model ∈ ((extractSubject senderScope).run .empty).1.ownMethods,
        MethodModel.callPairs model.directCalls =
            [("post.Mailer.deliver(lib.Letter)", ["letter"])] ∧
          ∃ other ∈ ((extractSubject (senderScope.under ⟨2, ["lib.", "java."]⟩)).run
              .empty).1.ownMethods,
            other.HasCallsOf model ∧
              MethodModel.callPairs other.directCalls =
                [("lib.Letter.seal()", []), ("post.Mailer.deliver(lib.Letter)", ["letter"])] := by
  have hroot : senderScope.subject.name ∉ rootClasses := by decide
  have hprefixes : senderScope.options.admittedPrefixes ⊆ ["lib.", "java."] := by decide
  obtain ⟨hcalls, hwider⟩ := extractSubject_callGraph hroot .empty
  obtain ⟨model, hmodel, hshows⟩ := exists_related_of_mem hcalls List.mem_cons_self
  obtain ⟨other, hother, hmore⟩ :=
    exists_related_of_mem (hwider ⟨2, ["lib.", "java."]⟩ .empty hprefixes) hmodel
  obtain ⟨method, hmethod, hothers⟩ := exists_related_of_mem
    (forall₂_showsCalls (senderScope.under ⟨2, ["lib.", "java."]⟩) hroot .empty).flip hother
  obtain rfl := List.mem_singleton.mp hmethod
  refine ⟨hroot, hprefixes, model, hmodel, ?_, other, hother, hmore, ?_⟩
  · rw [hshows.directCalls]
    decide
  · rw [hothers.directCalls]
    decide

end Session

end Specwright
