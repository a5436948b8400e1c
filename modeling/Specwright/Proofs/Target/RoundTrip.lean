import Specwright.Proofs.Host.RoundTrip
import Specwright.Proofs.Target.Regeneration
import Specwright.Target.Codec

/-!
# Saved data is read back

Test classes are read back from what they are written as, and so are snapshots.  A list of classes
that is saved as it was handed over is read as the snapshot of the list.
-/

namespace Specwright

open Json

theorem Member.ofJson?_toJson (member : Member) : ofJson? member.toJson = some member := by
  simp [ofJson?, toJson, Record.ofJson?_obj, str?]

theorem TestClass.ofJson?_toJson (testClass : TestClass) :
    ofJson? testClass.toJson = some testClass := by
  have hmembers (members : List Member) :
      listOf? Member.ofJson? (.arr (members.map Member.toJson)) = some members :=
    listOf?_map fun member _ => member.ofJson?_toJson
  have hsuperclass (record : Record)
      (hget : record.get? "superclass" =
        some ((testClass.superclass.map Json.str).getD .null)) :
      record.nullable "superclass" str? = some testClass.superclass :=
    Record.nullable_of_get? (fun _ _ => rfl) (fun _ _ => Json.noConfusion) (Or.inr hget)
  simp [ofJson?, toJson, Record.ofJson?_obj, str?, bool?, hmembers, hsuperclass]

/-- Snapshots and test classes are read back as they were saved.  A saved list of classes is read as
the snapshot of the list, which holds the last class of each name. -/
theorem saved_data_reads_back :
    (∀ snapshot : Snapshot, snapshot.storable = true →
        Snapshot.ofJson? snapshot.toJson = some snapshot) ∧
      (∀ testClass : TestClass, TestClass.ofJson? testClass.toJson = some testClass) ∧
      ∀ classes : List ClassDecl, classes.all ClassDecl.storable = true →
        Snapshot.ofJson? (.obj [("classes", .arr (classes.map ClassDecl.toJson))]) =
            some (.ofClasses classes) ∧
          ∀ name, (Snapshot.ofClasses classes).find? name =
            classes.reverse.find? (·.name = name) := by
  refine ⟨fun _ => Snapshot.ofJson?_toJson, TestClass.ofJson?_toJson, fun classes hclasses => ?_⟩
  refine ⟨?_, Snapshot.find?_ofClasses classes⟩
  rw [← Snapshot.withViews_none_ofClasses classes]
  exact Snapshot.ofJson?_of_classes hclasses none

theorem saved_data_reads_back_order :
    orderSnapshot.storable = true ∧
      Snapshot.ofJson? orderSnapshot.toJson = some orderSnapshot ∧
      TestClass.ofJson? (TestClass.ofName "shop.OrderTest").toJson =
        some (TestClass.ofName "shop.OrderTest") ∧
      [ClassDecl.plain "shop.Order", .interface "shop.Order"].all ClassDecl.storable = true ∧
      Snapshot.ofJson? (.obj [("classes",
          .arr ([ClassDecl.plain "shop.Order", .interface "shop.Order"].map ClassDecl.toJson))]) =
        some (.ofClasses [.plain "shop.Order", .interface "shop.Order"]) ∧
      (Snapshot.ofClasses [.plain "shop.Order", .interface "shop.Order"]).find? "shop.Order" =
        some (.interface "shop.Order") := by
  obtain ⟨hsnapshot, htestClass, hclasses⟩ := saved_data_reads_back
  have horder : orderSnapshot.storable = true := by decide
  have hlist : [ClassDecl.plain "shop.Order", .interface "shop.Order"].all ClassDecl.storable =
      true := by
    decide
  obtain ⟨hread, hfind⟩ := hclasses _ hlist
  exact ⟨horder, hsnapshot _ horder, htestClass _, hlist, hread, (hfind "shop.Order").trans rfl⟩

end Specwright
