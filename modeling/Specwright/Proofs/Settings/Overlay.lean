import Specwright.Proofs.Json.Removal
import Specwright.Settings.Codec

/-!
# Settings files overlay the standard settings

Settings are read back from the document that they are written as.  When keys of settings are taken
out of the document, the settings at these keys and in the sections that are gone are the standard
ones, and all others stay as they were written.  The keys of a document stand in one another at most
three deep, below which come the entries of the tables, which are no settings of their own.
-/

namespace Specwright

open Json

/-! ## Tables -/

namespace SortedMap

variable {α : Type}

theorem eq_of_entries {map other : SortedMap α} (h : map.entries = other.entries) :
    map = other := by
  cases map
  cases other
  cases h
  rfl

theorem insertEntry_of_forall_lt
    {key : String} {value : α} {entries : List (String × α)}
    (h : ∀ entry ∈ entries, entry.1 < key) :
    insertEntry key value entries = entries ++ [(key, value)] := by
  induction entries with
  | nil => rfl
  | cons first rest ih =>
      obtain ⟨hfirst, hrest⟩ := List.forall_mem_cons.mp h
      have hlt : ¬key < first.1 := String.lt_asymm hfirst
      have hne : key ≠ first.1 := by
        rintro rfl
        exact String.lt_irrefl _ hfirst
      rw [insertEntry, if_neg hlt, if_neg hne, ih hrest, List.cons_append]

/-- Entries that come in order behind those of a map stay in order. -/
theorem entries_foldl_insert
    {map : SortedMap α} {entries : List (String × α)}
    (h : (map.entries ++ entries).Pairwise fun a b => a.1 < b.1) :
    (entries.foldl (fun map entry => map.insert entry.1 entry.2) map).entries =
      map.entries ++ entries := by
  induction entries generalizing map with
  | nil => exact (List.append_nil _).symm
  | cons first rest ih =>
      have hbefore : ∀ entry ∈ map.entries, entry.1 < first.1 := fun entry hentry =>
        (List.pairwise_append.mp h).2.2 entry hentry first List.mem_cons_self
      have hinserted : (map.insert first.1 first.2).entries = map.entries ++ [first] :=
        insertEntry_of_forall_lt hbefore
      rw [List.append_cons, ← hinserted] at h ⊢
      exact ih h

/-- The entries of a map make it up again. -/
theorem ofList_entries (map : SortedMap α) : ofList map.entries = map :=
  eq_of_entries (entries_foldl_insert map.sorted)

theorem ofJson?_toJson
    {write : α → Json} {read : Json → Option α} (h : ∀ value, read (write value) = some value)
    (map : SortedMap α) :
    ofJson? read (map.toJson write) = some map := by
  have hentry : ∀ entry : String × α, (read (write entry.2)).map (entry.1, ·) = some entry := by
    intro entry
    rw [h, Option.map_some]
  rw [ofJson?, toJson]
  apply Record.read_then rfl
  apply Record.read_then (mapM_map_eq_some fun entry _ => hentry entry)
  rw [ofList_entries]
  rfl

theorem ofJson?_texts (map : SortedMap String) : ofJson? str? (map.toJson .str) = some map := by
  have htext : ∀ text, str? (.str text) = some text := fun _ => rfl
  exact ofJson?_toJson htext map

end SortedMap

theorem ContainerShape.ofJson?_toJson (entry : ContainerShape) :
    ofJson? entry.toJson = some entry := by
  simp [ofJson?, toJson, Record.ofOpenJson?_obj, str?]

theorem ContainerShapes.ofJson?_toJson (table : ContainerShapes) :
    ofJson? table.toJson = some table := by
  have hentries :
      listOf? ContainerShape.ofJson? (.arr (table.entries.map ContainerShape.toJson)) =
        some table.entries :=
    listOf?_map fun entry _ => entry.ofJson?_toJson
  rw [ofJson?, toJson, hentries, Option.map_some]

theorem DefaultLiterals.ofJson?_toJson (literals : DefaultLiterals) :
    ofJson? (toJson literals) = some literals :=
  SortedMap.ofJson?_texts literals

theorem Matchers.ofJson?_toJson (table : Matchers) : ofJson? (toJson table) = some table :=
  SortedMap.ofJson?_toJson SortedMap.ofJson?_texts table

theorem FactoryRule.ofJson?_toJson (rule : FactoryRule) : ofJson? rule.toJson = some rule := by
  simp [ofJson?, toJson, Record.ofOpenJson?_obj, str?]

/-! ## Sections -/

variable {removed : KeyPaths}

/-- The names, with those of `standard` at the removed keys. -/
def Naming.resetAt (removed : KeyPaths) (naming standard : Naming) : Naming where
  superclass := removed.pick "superclass" standard.superclass naming.superclass
  targetSuffix := removed.pick "target_suffix" standard.targetSuffix naming.targetSuffix
  subjectName := removed.pick "subject_name" standard.subjectName naming.subjectName
  fixtureName := removed.pick "fixture_name" standard.fixtureName naming.fixtureName
  testNameSuffix := removed.pick "test_name_suffix" standard.testNameSuffix naming.testNameSuffix
  unrollMarker := removed.pick "unroll_annotation" standard.unrollMarker naming.unrollMarker
  spyName := removed.pick "spy_name" standard.spyName naming.spyName
  resultName := removed.pick "result_name" standard.resultName naming.resultName
  expectedColumn := removed.pick "expected_column" standard.expectedColumn naming.expectedColumn

/-- The labels, with those of `standard` at the removed keys. -/
def Labels.resetAt (removed : KeyPaths) (labels standard : Labels) : Labels where
  given := removed.pick "given" standard.given labels.given
  stubs := removed.pick "stubs" standard.stubs labels.stubs
  spies := removed.pick "spies" standard.spies labels.spies
  outcome := removed.pick "then" standard.outcome labels.outcome
  scenarios := removed.pick "scenarios" standard.scenarios labels.scenarios

/-- The policy, with what `standard` says at the removed keys. -/
def DoublePolicy.resetAt (removed : KeyPaths) (policy standard : DoublePolicy) : DoublePolicy where
  excludedTypes := removed.pick "excluded_types" standard.excludedTypes policy.excludedTypes
  mockFinal := removed.pick "mock_final" standard.mockFinal policy.mockFinal
  mockEnums := removed.pick "mock_enums" standard.mockEnums policy.mockEnums
  mockArrays := removed.pick "mock_arrays" standard.mockArrays policy.mockArrays
  factories := removed.pick "substitutions" standard.factories policy.factories

/-- The tables, with those of `standard` at the removed keys. -/
def ExpressionTables.resetAt
    (removed : KeyPaths) (tables standard : ExpressionTables) : ExpressionTables where
  shapes := removed.pick "shapes" standard.shapes tables.shapes
  nestedShapes := removed.pick "nested_shapes" standard.nestedShapes tables.nestedShapes
  defaults := removed.pick "defaults" standard.defaults tables.defaults
  matchers := removed.pick "matchers" standard.matchers tables.matchers

theorem Naming.ofJson?_without (naming : Naming) :
    ofJson? (naming.toJson.without removed) =
      some (naming.resetAt removed Settings.standard.naming) := by
  have hkeys : (["superclass", "target_suffix", "subject_name", "fixture_name", "test_name_suffix",
      "unroll_annotation", "spy_name", "result_name", "expected_column"] : List String).Nodup := by
    decide
  rw [ofJson?, toJson]
  refine Record.read_then (Record.ofOpenJson?_without hkeys) ?_
  iterate 9 refine Record.read_then (Record.withDefault_without rfl fun _ => rfl) ?_
  rfl

theorem Labels.ofJson?_without (labels : Labels) :
    ofJson? (labels.toJson.without removed) =
      some (labels.resetAt removed Settings.standard.labels) := by
  have hkeys : (["given", "stubs", "spies", "then", "scenarios"] : List String).Nodup := by decide
  rw [ofJson?, toJson]
  refine Record.read_then (Record.ofOpenJson?_without hkeys) ?_
  iterate 5 refine Record.read_then (Record.withDefault_without rfl fun _ => rfl) ?_
  rfl

theorem DoublePolicy.ofJson?_without (policy : DoublePolicy) :
    ofJson? (policy.toJson.without removed) =
      some (policy.resetAt removed Settings.standard.doublePolicy) := by
  have hkeys : (["excluded_types", "mock_final", "mock_enums", "mock_arrays",
      "substitutions"] : List String).Nodup := by
    decide
  have hfactories : listOf? FactoryRule.ofJson? (.arr (policy.factories.map FactoryRule.toJson)) =
      some policy.factories :=
    listOf?_map fun rule _ => rule.ofJson?_toJson
  rw [ofJson?, toJson]
  refine Record.read_then (Record.ofOpenJson?_without hkeys) ?_
  refine Record.read_then (Record.withDefault_without rfl fun _ => listOf?_texts _) ?_
  iterate 3 refine Record.read_then (Record.withDefault_without rfl fun _ => rfl) ?_
  refine Record.read_then (Record.withDefault_without rfl fun _ => hfactories) ?_
  rfl

/-- The entries of a table are no keys of settings, so that a table that stays is complete. -/
theorem ExpressionTables.ofJson?_without (h : removed.Within 1) (tables : ExpressionTables) :
    ofJson? (tables.toJson.without removed) =
      some (tables.resetAt removed Settings.standard.tables) := by
  have hkeys : (["shapes", "nested_shapes", "defaults", "matchers"] : List String).Nodup := by
    decide
  have hshapes (table : ContainerShapes) (key : String) :
      ContainerShapes.ofJson? (table.toJson.without (removed.below key)) = some table :=
    table.ofJson?_toJson
  have hdefaults (hkept : removed.has "defaults" = false) :
      DefaultLiterals.ofJson?
          ((DefaultLiterals.toJson tables.defaults).without (removed.below "defaults")) =
        some tables.defaults := by
    rw [h.below_eq_none hkept, without_none, DefaultLiterals.ofJson?_toJson]
  have hmatchers (hkept : removed.has "matchers" = false) :
      Matchers.ofJson? ((Matchers.toJson tables.matchers).without (removed.below "matchers")) =
        some tables.matchers := by
    rw [h.below_eq_none hkept, without_none, Matchers.ofJson?_toJson]
  rw [ofJson?, toJson]
  refine Record.read_then (Record.ofOpenJson?_without hkeys) ?_
  refine Record.read_then (Record.withDefault_without rfl fun _ => hshapes _ _) ?_
  refine Record.read_then (Record.withDefault_without rfl fun _ => hshapes _ _) ?_
  refine Record.read_then (Record.withDefault_without rfl hdefaults) ?_
  refine Record.read_then (Record.withDefault_without rfl hmatchers) ?_
  rfl

/-! ## Documents -/

namespace Settings

/-- The settings, with those of `standard` at the removed keys and in the removed sections. -/
def resetAt (removed : KeyPaths) (settings standard : Settings) : Settings where
  maxDepth := removed.pick "max_recursion_depth" standard.maxDepth settings.maxDepth
  admittedText := removed.pick "generate_pojo_prefix" standard.admittedText settings.admittedText
  spySelfCalls := removed.pick "spy_self_calls" standard.spySelfCalls settings.spySelfCalls
  matcherDialect := removed.pick "matcher_dialect" standard.matcherDialect settings.matcherDialect
  naming :=
    removed.pick "naming" standard.naming
      (settings.naming.resetAt (removed.below "naming") standard.naming)
  labels :=
    removed.pick "labels" standard.labels
      (settings.labels.resetAt (removed.below "labels") standard.labels)
  doublePolicy :=
    removed.pick "mock_policy" standard.doublePolicy
      (settings.doublePolicy.resetAt (removed.below "mock_policy") standard.doublePolicy)
  tables :=
    removed.pick "tables" standard.tables
      (settings.tables.resetAt (removed.below "tables") standard.tables)

/-- The settings, with the standard ones at the removed keys of a document. -/
def overlay (removed : KeyPaths) (settings : Settings) : Settings :=
  removed.pick "generator" standard (settings.resetAt (removed.below "generator") standard)

variable {settings : Settings}

theorem overlay_none (settings : Settings) : settings.overlay .none = settings :=
  rfl

theorem ofJson?_without (hdepth : settings.maxDepth ≤ depthLimit) (h : removed.Within 2) :
    ofJson? (settings.toJson.without removed) = some (settings.resetAt removed standard) := by
  have hkeys : (["max_recursion_depth", "generate_pojo_prefix", "spy_self_calls", "matcher_dialect",
      "naming", "labels", "mock_policy", "tables"] : List String).Nodup := by
    decide
  have hmaxDepth : natUpTo? depthLimit (.int settings.maxDepth) = some settings.maxDepth := by
    simp [natUpTo?, hdepth]
  rw [ofJson?, toJson]
  refine Record.read_then (Record.ofOpenJson?_without hkeys) ?_
  refine Record.read_then (Record.withDefault_without rfl fun _ => hmaxDepth) ?_
  iterate 3 refine Record.read_then (Record.withDefault_without rfl fun _ => rfl) ?_
  refine Record.read_then (Record.withDefault_without rfl fun _ => Naming.ofJson?_without _) ?_
  refine Record.read_then (Record.withDefault_without rfl fun _ => Labels.ofJson?_without _) ?_
  refine Record.read_then
    (Record.withDefault_without rfl fun _ => DoublePolicy.ofJson?_without _) ?_
  refine Record.read_then
    (Record.withDefault_without rfl fun _ => ExpressionTables.ofJson?_without (h.below _) _) ?_
  rfl

/-- The document without some of its keys has the settings that it was written from, but for those
that are gone with their keys or with the sections around them. -/
theorem ofDocument?_without (hdepth : settings.maxDepth ≤ depthLimit) (h : removed.Within 3) :
    ofDocument? (settings.toDocument.without removed) = some (settings.overlay removed) := by
  have hkeys : (["generator"] : List String).Nodup := by decide
  rw [ofDocument?, toDocument]
  refine Record.read_then (Record.ofOpenJson?_without hkeys) ?_
  exact Record.withDefault_without rfl fun _ => ofJson?_without hdepth (h.below "generator")

/-- Settings are read back from their document.  Whatever sections and settings are taken out of it,
reading succeeds: those have their standard values, and all others are as they were.  The depth is a
number of 64 bits in the format. -/
theorem documents_overlay_standard (settings : Settings) (hdepth : settings.maxDepth ≤ depthLimit) :
    ofDocument? settings.toDocument = some settings ∧
      ∀ removed : KeyPaths, removed.Within 3 →
        ofDocument? (settings.toDocument.without removed) = some (settings.overlay removed) := by
  refine ⟨?_, fun removed => ofDocument?_without hdepth⟩
  have hnone : KeyPaths.none.Within 3 := fun _ hpath => absurd hpath Bool.false_ne_true
  have hread := ofDocument?_without hdepth hnone
  rwa [without_none, overlay_none] at hread

end Settings

/-! ## Settings of a shop -/

/-- Settings with something set in each section but the labels. -/
def shopSettings : Settings where
  maxDepth := 2
  naming := { subjectName := "subject", fixtureName := "prepare" }
  doublePolicy := { excludedTypes := ["shop.Money"], mockFinal := true }
  tables := { shapes := ⟨[]⟩, defaults := .ofList [("shop.Money", "shop.Money.ZERO")] }

/-- A scalar, a name, a section with one of its keys, and a table. -/
def droppedKeys : KeyPaths :=
  .ofList [
    ["generator", "max_recursion_depth"],
    ["generator", "naming", "fixture_name"],
    ["generator", "mock_policy"],
    ["generator", "mock_policy", "mock_final"],
    ["generator", "tables", "defaults"]]

namespace Settings

/-- The name of the subject and the shapes stay as they are set. -/
theorem documents_overlay_standard_shop :
    shopSettings.maxDepth ≤ depthLimit ∧
      ofDocument? shopSettings.toDocument = some shopSettings ∧
      droppedKeys.Within 3 ∧
      ofDocument? (shopSettings.toDocument.without droppedKeys) =
        some { naming := { subjectName := "subject" }, tables := { shapes := ⟨[]⟩ } } := by
  have hdepth : shopSettings.maxDepth ≤ depthLimit := by decide
  have hkeys : droppedKeys.Within 3 := KeyPaths.within_ofList (by decide)
  obtain ⟨hread, hremoved⟩ := documents_overlay_standard shopSettings hdepth
  exact ⟨hdepth, hread, hkeys, hremoved droppedKeys hkeys⟩

end Settings

end Specwright
