import Specwright.Proofs.Host.Substitution
import Specwright.Proofs.Lineage.Overriding

/-!
# The declaration that a call resolves to

A call is looked up in its owner first and then above it.  Without a cycle above the owner this is a
search through all methods of the name that the owner sees, nearest first: the owner sees its own
methods without bindings, so these need no rule of their own.
-/

namespace Specwright

/-- Whether a method has the parameter types of a signature, taken as declared or under the bindings
of its class. -/
def VisibleMethod.answers (visible : VisibleMethod) (signature : MethodSignature) : Bool :=
  visible.method.paramSpellings = signature.paramSpellings ||
    visible.method.paramSpellingsUnder visible.bindings = signature.paramSpellings

namespace MethodDecl

@[simp] theorem paramSpellingsUnder_empty (method : MethodDecl) :
    method.paramSpellingsUnder .empty = method.paramSpellings := by
  simp only [paramSpellingsUnder, paramSpellings, TypeRef.substitute_empty]

end MethodDecl

namespace MethodSignature

theorem answeredBy_empty (signature : MethodSignature) :
    signature.answeredBy .empty = signature.matchesDecl := by
  funext method
  rw [answeredBy, matchesDecl, MethodDecl.paramSpellingsUnder_empty]
  by_cases hname : method.name = signature.name <;> simp [hname]

end MethodSignature

namespace Snapshot

variable {snapshot : Snapshot} {signature : MethodSignature} {name : String}

theorem lineage_of_unknown (h : snapshot.find? name = none) :
    snapshot.lineage name = [⟨name, .empty, false⟩] := by
  have hlinearize : snapshot.linearize name = .ok [⟨name, .empty, false⟩] := by
    rw [linearize, extendLineage, h]
    simp
  rw [lineage, hlinearize]

theorem Acyclic.lineage_eq_cons (h : snapshot.Acyclic name) :
    ∃ above, snapshot.lineage name = ⟨name, .empty, (snapshot.find? name).isSome⟩ :: above := by
  obtain ⟨chain, hchain⟩ := h.exists_linearize
  obtain ⟨above, rfl⟩ := linearize_eq_cons hchain
  exact ⟨above, by rw [lineage, hchain]⟩

/-- The first method that a class in a linearization declares and that answers a signature. -/
def answerOf? (snapshot : Snapshot) (signature : MethodSignature) (entry : LineageEntry) :
    Option VisibleMethod :=
  (snapshot.methodsOfAncestor signature.name entry).find? (·.answers signature)

theorem answerOf?_eq
    {decl : ClassDecl} {entry : LineageEntry} (h : snapshot.find? entry.name = some decl) :
    snapshot.answerOf? signature entry =
      (decl.methods.find? (signature.answeredBy entry.bindings)).map fun method =>
        ⟨⟨decl, method⟩, entry.bindings⟩ := by
  rw [answerOf?, methodsOfAncestor, h, List.find?_map, List.find?_filter]
  congr 2
  funext method
  rw [MethodSignature.answeredBy, MethodSignature.matchesDecl]
  by_cases hname : method.name = signature.name <;> simp [hname, VisibleMethod.answers]

theorem resolveAmong?_eq_findSome? (signature : MethodSignature) (chain : List LineageEntry) :
    snapshot.resolveAmong? signature chain =
      (chain.findSome? (snapshot.answerOf? signature)).map (·.toDeclaration) := by
  rw [resolveAmong?, List.map_findSome?]
  congr 1
  funext entry
  cases hfound : snapshot.find? entry.name with
  | none => simp [answerOf?, methodsOfAncestor, hfound]
  | some decl =>
    rw [Function.comp_apply, answerOf?_eq hfound, Option.map_map]
    rfl

/-- The owner of a signature is searched like the classes above it. -/
theorem Acyclic.resolve?_eq (h : snapshot.Acyclic signature.owner) :
    snapshot.resolve? signature =
      ((snapshot.lineage signature.owner).findSome? (snapshot.answerOf? signature)).map
        (·.toDeclaration) := by
  obtain ⟨above, habove⟩ := h.lineage_eq_cons
  rw [resolve?, resolveAmong?_eq_findSome?]
  cases howner : snapshot.find? signature.owner with
  | none => simp [lineage_of_unknown howner, answerOf?, methodsOfAncestor, howner]
  | some owner =>
      rw [habove, List.tail_cons, List.findSome?_cons, answerOf?_eq howner,
        MethodSignature.answeredBy_empty]
      dsimp only
      cases owner.methods.find? signature.matchesDecl <;> rfl

theorem Acyclic.resolve?_eq_find? (h : snapshot.Acyclic signature.owner) :
    snapshot.resolve? signature =
      ((snapshot.visibleMethods signature.owner signature.name).find?
        (·.answers signature)).map (·.toDeclaration) := by
  rw [h.resolve?_eq, visibleMethods, List.find?_flatMap]
  rfl

theorem resolve?_of_unknown (h : signature.owner ∉ snapshot.names) :
    snapshot.resolve? signature = none := by
  rw [← isSome_find?_iff, Option.not_isSome_iff_eq_none] at h
  rw [resolve?, h]

/-- A class finds a method of its own under the signature of the method, whatever lies above the
class. -/
theorem exists_resolve?_signatureIn
    {decl : ClassDecl} {method : MethodDecl} (hdecl : decl ∈ snapshot.classes)
    (hmethod : method ∈ decl.methods) :
    ∃ found ∈ decl.methods,
      snapshot.resolve? (method.signatureIn decl.name) = some ⟨decl, found⟩ ∧
        found.idIn decl.name = method.idIn decl.name := by
  have hself : (method.signatureIn decl.name).matchesDecl method = true := by
    simp [MethodSignature.matchesDecl, MethodDecl.signatureIn, MethodSignature.paramSpellings,
      MethodDecl.paramSpellings]
  have hsome : (decl.methods.find? (method.signatureIn decl.name).matchesDecl).isSome = true :=
    List.find?_isSome.mpr ⟨method, hmethod, hself⟩
  obtain ⟨found, hfound⟩ := Option.isSome_iff_exists.mp hsome
  have howner : snapshot.find? (method.signatureIn decl.name).owner = some decl :=
    find?_of_mem hdecl
  refine ⟨found, List.mem_of_find?_eq_some hfound, ?_, ?_⟩
  · rw [resolve?, howner]
    dsimp only
    rw [hfound]
  · have hmatches := List.find?_some hfound
    rw [MethodSignature.matchesDecl, Bool.and_eq_true, decide_eq_true_iff,
      decide_eq_true_iff] at hmatches
    obtain ⟨hname, hspellings⟩ := hmatches
    rw [MethodDecl.idIn, MethodDecl.idIn, hname, hspellings]
    rfl

/-- Resolving a call is searching through the methods of its name that its owner sees, the nearest
first, for one with its parameter types; and a class finds its own methods whatever lies above it.
-/
theorem resolve?_exact (snapshot : Snapshot) :
    (∀ signature, snapshot.Acyclic signature.owner →
      snapshot.resolve? signature =
          ((snapshot.visibleMethods signature.owner signature.name).find?
            (·.answers signature)).map (·.toDeclaration) ∧
        (snapshot.resolve? signature = none ↔
          signature.owner ∉ snapshot.names ∨
            ∀ visible ∈ snapshot.visibleMethods signature.owner signature.name,
              visible.answers signature = false)) ∧
    ∀ decl ∈ snapshot.classes, ∀ method ∈ decl.methods,
      ∃ found ∈ decl.methods,
        snapshot.resolve? (method.signatureIn decl.name) = some ⟨decl, found⟩ ∧
          found.idIn decl.name = method.idIn decl.name := by
  refine ⟨?_, fun decl hdecl method hmethod => exists_resolve?_signatureIn hdecl hmethod⟩
  intro signature hacyclic
  have hsearch := hacyclic.resolve?_eq_find?
  refine ⟨hsearch, ?_⟩
  constructor
  · intro hnone
    rw [hsearch, Option.map_eq_none_iff, List.find?_eq_none] at hnone
    refine Or.inr fun visible hvisible => ?_
    simpa using hnone visible hvisible
  · rintro (hunknown | hnone)
    · exact resolve?_of_unknown hunknown
    · rw [hsearch, Option.map_eq_none_iff, List.find?_eq_none]
      intro visible hvisible
      simp [hnone visible hvisible]

/-! ## Resolution and overriding -/

/-- Whether the linearization of a class lists one class behind another. -/
def ListsBehind (snapshot : Snapshot) (source upper lower : String) : Prop :=
  ∃ ahead behind, snapshot.lineageNames source = ahead ++ upper :: behind ∧ lower ∈ behind

variable {source : String} {visible winner : VisibleMethod} {declaration : Declaration}

theorem find?_of_mem_methodsOfAncestor
    {entry : LineageEntry} (h : visible ∈ snapshot.methodsOfAncestor name entry) :
    snapshot.find? entry.name = some visible.owner := by
  rw [methodsOfAncestor] at h
  split at h
  next decl hdecl =>
    obtain ⟨method, -, rfl⟩ := List.mem_map.mp h
    exact hdecl
  next => cases h

/-- A call resolves to a method of a class such that no method of a class listed ahead of it answers
the call. -/
theorem Acyclic.exists_split_of_resolve?
    (h : snapshot.Acyclic signature.owner)
    (hresolve : snapshot.resolve? signature = some declaration) :
    ∃ visible ahead entry behind,
      visible.toDeclaration = declaration ∧
        snapshot.lineage signature.owner = ahead ++ entry :: behind ∧
          visible ∈ snapshot.methodsOfAncestor signature.name entry ∧
            ∀ other ∈ ahead, ∀ earlier ∈ snapshot.methodsOfAncestor signature.name other,
              earlier.answers signature = false := by
  rw [h.resolve?_eq, Option.map_eq_some_iff] at hresolve
  obtain ⟨visible, hfirst, hvisible⟩ := hresolve
  obtain ⟨ahead, entry, behind, hsplit, hanswer, hnone⟩ := List.findSome?_eq_some_iff.mp hfirst
  refine ⟨visible, ahead, entry, behind, hvisible, hsplit, List.mem_of_find?_eq_some hanswer, ?_⟩
  intro other hother earlier hearlier
  simpa using List.find?_eq_none.mp (hnone other hother) earlier hearlier

/-- A method that replaces the one that a call resolves to, and that answers the call itself, is
declared on a class listed behind. -/
theorem listsBehind_of_isReplacedBy
    {ahead behind : List LineageEntry} {entry : LineageEntry}
    (hsplit : snapshot.lineage signature.owner = ahead ++ entry :: behind)
    (hvisible : visible ∈ snapshot.methodsOfAncestor signature.name entry)
    (hahead : ∀ other ∈ ahead, ∀ earlier ∈ snapshot.methodsOfAncestor signature.name other,
      earlier.answers signature = false)
    (hname : visible.method.name = signature.name)
    (htexts : visible.method.paramSpellingsUnder visible.bindings = signature.paramSpellings)
    (h : snapshot.IsReplacedBy signature.owner visible winner) :
    snapshot.ListsBehind signature.owner visible.owner.name winner.owner.name := by
  obtain ⟨hwinner, hne, -⟩ := h
  obtain ⟨hseen, -, hsame⟩ := mem_concreteMethods_iff.mp hwinner
  rw [hname] at hseen
  obtain ⟨place, hplace, hdeclared⟩ := List.mem_flatMap.mp hseen
  have howner := name_of_find? (find?_of_mem_methodsOfAncestor hvisible)
  have hplaceName := name_of_find? (find?_of_mem_methodsOfAncestor hdeclared)
  rw [hsplit, List.mem_append, List.mem_cons] at hplace
  rcases hplace with hearly | rfl | hlate
  · have hmissed := hahead place hearly winner hdeclared
    rw [VisibleMethod.answers, hsame, htexts] at hmissed
    simp at hmissed
  · exact absurd (hplaceName.trans howner.symm) hne
  · refine ⟨ahead.map (·.name), behind.map (·.name), ?_, ?_⟩
    · rw [lineageNames, hsplit, List.map_append, List.map_cons, howner]
    · rw [hplaceName]
      exact List.mem_map_of_mem hlate

/-- A call is attributed to a declaration that is overridden as seen from the owner in two cases
alone: the class that overrides it is listed behind, or the declaration answers the call with its
declared parameter types and not with those that the owner sees. -/
theorem Acyclic.overridden_resolution_iff
    (hacyclic : snapshot.Acyclic signature.owner)
    (h : snapshot.resolve? signature = some declaration) :
    ∃ visible ∈ snapshot.visibleMethods signature.owner signature.name,
      visible.toDeclaration = declaration ∧
        (snapshot.isOverriddenFrom signature.owner declaration.owner.name declaration.method =
            true ↔
          ∃ winner, snapshot.IsReplacedBy signature.owner visible winner ∧
            (snapshot.ListsBehind signature.owner declaration.owner.name winner.owner.name ∨
              declaration.method.paramSpellingsUnder visible.bindings ≠
                signature.paramSpellings)) ∧
        (declaration.method.paramSpellingsUnder visible.bindings = signature.paramSpellings →
          (∀ lower, snapshot.ListsBehind signature.owner declaration.owner.name lower →
            snapshot.liesUnder lower declaration.owner.name = false) →
          snapshot.isOverriddenFrom signature.owner declaration.owner.name declaration.method =
            false) := by
  obtain ⟨visible, ahead, entry, behind, rfl, hsplit, hdeclared, hahead⟩ :=
    hacyclic.exists_split_of_resolve? h
  have hvisible : visible ∈ snapshot.visibleMethods signature.owner signature.name := by
    refine List.mem_flatMap.mpr ⟨entry, ?_, hdeclared⟩
    rw [hsplit]
    simp
  obtain ⟨-, -, -, -, hname, -⟩ := mem_visibleMethods_iff.mp hvisible
  have hoverridden : snapshot.isOverriddenFrom signature.owner visible.owner.name visible.method =
        true ↔
      ∃ winner, snapshot.IsReplacedBy signature.owner visible winner ∧
        (snapshot.ListsBehind signature.owner visible.owner.name winner.owner.name ∨
          visible.method.paramSpellingsUnder visible.bindings ≠ signature.paramSpellings) := by
    rw [hacyclic.isOverriddenFrom_iff (by rwa [hname]), IsReplacedFrom]
    refine exists_congr fun winner => (and_iff_left_of_imp ?_).symm
    intro hreplaced
    by_cases htexts :
        visible.method.paramSpellingsUnder visible.bindings = signature.paramSpellings
    · exact Or.inl (listsBehind_of_isReplacedBy hsplit hdeclared hahead hname htexts hreplaced)
    · exact Or.inr htexts
  refine ⟨visible, hvisible, rfl, hoverridden, ?_⟩
  intro htexts hbehind
  rw [← Bool.not_eq_true, hoverridden]
  rintro ⟨winner, ⟨-, -, hunder⟩, hlisted | hdiffers⟩
  · rw [hbehind _ hlisted] at hunder
    cases hunder
  · exact hdiffers htexts

end Snapshot

/-! ## An interface listed before one below it -/

/-- Prints a thing of some type. -/
def genericPrint : MethodDecl where
  name := "print"
  modifiers := [.publicAccess, .abstract]
  params := [⟨"item", .parameter "T"⟩]
  hasBody := false

def printerClass : ClassDecl :=
  { ClassDecl.interface "desk.Printer" with
    typeParams := ["T"]
    methods := [genericPrint] }

/-- Prints a page. -/
def pagePrint : MethodDecl where
  name := "print"
  modifiers := [.publicAccess]
  params := [⟨"item", .named "desk.Page"⟩]

def pagePrinterClass : ClassDecl :=
  { ClassDecl.interface "desk.PagePrinter" with
    supertypes := [.generic "desk.Printer" [.named "desk.Page"]]
    methods := [pagePrint] }

/-- Lists the printers of all sorts before those of pages. -/
def officeClass : ClassDecl where
  name := "desk.Office"
  supertypes := [.generic "desk.Printer" [.named "desk.Page"], .named "desk.PagePrinter"]

def deskSnapshot : Snapshot :=
  .ofClasses [printerClass, pagePrinterClass, officeClass]

/-- Asks the office to print a page. -/
def officeCall : MethodSignature where
  owner := "desk.Office"
  name := "print"
  paramTypes := [.named "desk.Page"]

/-- Asks the printer of pages by the parameter type that the printers of all sorts declare. -/
def genericCall : MethodSignature where
  owner := "desk.PagePrinter"
  name := "print"
  paramTypes := [.parameter "T"]

namespace Snapshot

/-- The office prints a page by the interface that it lists first, although the one listed behind it
replaces the method. -/
theorem overridden_resolution_iff_office :
    deskSnapshot.Acyclic officeCall.owner ∧
      deskSnapshot.resolve? officeCall = some ⟨printerClass, genericPrint⟩ ∧
        ∃ winner,
          deskSnapshot.IsReplacedBy "desk.Office"
              ⟨⟨printerClass, genericPrint⟩, ⟨[("T", .named "desk.Page")]⟩⟩ winner ∧
            deskSnapshot.ListsBehind "desk.Office" "desk.Printer" winner.owner.name := by
  have hacyclic : deskSnapshot.Acyclic officeCall.owner := acyclic_of_linearize rfl
  have hresolve : deskSnapshot.resolve? officeCall = some ⟨printerClass, genericPrint⟩ := rfl
  refine ⟨hacyclic, hresolve, ?_⟩
  obtain ⟨visible, hvisible, hdeclared, hoverridden, -⟩ :=
    hacyclic.overridden_resolution_iff hresolve
  have hseen : visible ∈ [⟨⟨printerClass, genericPrint⟩, ⟨[("T", .named "desk.Page")]⟩⟩,
      ⟨⟨pagePrinterClass, pagePrint⟩, .empty⟩] := hvisible
  obtain rfl | rfl := List.mem_pair.mp hseen
  · obtain ⟨winner, hreplaced, hlisted | hdiffers⟩ := hoverridden.mp (by decide +kernel)
    · exact ⟨winner, hreplaced, hlisted⟩
    · exact absurd (by decide +kernel) hdiffers
  · exact absurd (congrArg (·.owner.name) hdeclared) (by decide)

/-- A call may be attributed to a declaration that is overridden as seen from the owner of the call:
the office meets the replaced declaration first, and the printer of pages answers with it by its
declared parameter type, which the method of its own does not have. -/
theorem resolves_to_overridden :
    (deskSnapshot.Acyclic officeCall.owner ∧
      deskSnapshot.resolve? officeCall = some ⟨printerClass, genericPrint⟩ ∧
        deskSnapshot.isOverriddenFrom officeCall.owner printerClass.name genericPrint = true) ∧
      deskSnapshot.Acyclic genericCall.owner ∧
        deskSnapshot.resolve? genericCall = some ⟨printerClass, genericPrint⟩ ∧
          deskSnapshot.isOverriddenFrom genericCall.owner printerClass.name genericPrint = true :=
  ⟨⟨acyclic_of_linearize rfl, rfl, by decide +kernel⟩,
    acyclic_of_linearize rfl, rfl, by decide +kernel⟩

end Snapshot

end Specwright
