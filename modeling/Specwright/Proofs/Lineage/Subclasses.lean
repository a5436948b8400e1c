import Specwright.Proofs.Lineage.Cycles
import Specwright.Proofs.Lineage.Overriding

/-!
# Subclasses

A class that reaches no cycle lies under the classes that it reaches, and any other class lies under
itself alone.  What is seen above a class is therefore free of cycles, so that lying under a class
is a partial order on all names, whether the snapshot holds their classes or not.
-/

namespace Specwright

namespace Snapshot

variable {snapshot : Snapshot} {lower middle upper : String}

/-- A class lies under a different one exactly when it reaches that one and has no cycle above. -/
theorem liesUnder_iff :
    snapshot.liesUnder lower upper = true ↔
      lower = upper ∨ snapshot.Acyclic lower ∧ snapshot.Reaches lower upper := by
  by_cases hacyclic : snapshot.Acyclic lower
  · rw [hacyclic.liesUnder_iff]
    constructor
    · intro hreaches
      exact Or.inr ⟨hacyclic, hreaches⟩
    · rintro (rfl | ⟨-, hreaches⟩)
      · exact Relation.ReflTransGen.refl
      · exact hreaches
  · -- Below a cycle nothing is seen above the class, whatever it reaches.
    have hcycle : ∃ other, snapshot.Reaches lower other ∧ snapshot.OnCycle other := by
      simpa [Acyclic] using hacyclic
    have halone : snapshot.StandsAlone lower := Or.inl (lineage_of_cycle hcycle)
    rw [halone.liesUnder_eq, decide_eq_true_iff]
    constructor
    · exact Or.inl
    · rintro (heq | ⟨habsurd, -⟩)
      · exact heq
      · exact absurd habsurd hacyclic

theorem liesUnder_refl (snapshot : Snapshot) (name : String) :
    snapshot.liesUnder name name = true :=
  liesUnder_iff.mpr (Or.inl rfl)

/-- Whatever is above a class without cycles above it has none above itself. -/
theorem liesUnder_trans
    (hlower : snapshot.liesUnder lower middle = true)
    (hupper : snapshot.liesUnder middle upper = true) :
    snapshot.liesUnder lower upper = true := by
  rcases liesUnder_iff.mp hlower with rfl | ⟨hacyclic, hreaches⟩
  · exact hupper
  · rcases liesUnder_iff.mp hupper with rfl | ⟨-, habove⟩
    · exact hlower
    · exact liesUnder_iff.mpr (Or.inr ⟨hacyclic, hreaches.trans habove⟩)

/-- Two classes that lie under each other would be on one cycle, which neither of them sees. -/
theorem liesUnder_antisymm
    (hup : snapshot.liesUnder lower upper = true)
    (hdown : snapshot.liesUnder upper lower = true) :
    lower = upper := by
  rcases liesUnder_iff.mp hup with heq | ⟨hacyclic, hreaches⟩
  · exact heq
  · rcases liesUnder_iff.mp hdown with heq | ⟨-, hback⟩
    · exact heq.symm
    · exact hacyclic.eq_of_reaches hreaches hback

/-- Lying under a class is reflexive, transitive and antisymmetric, whatever the snapshot lists.  It
relates different classes exactly where the upper one is reached and nothing on a cycle is. -/
theorem liesUnder_partialOrder (snapshot : Snapshot) :
    (∀ name, snapshot.liesUnder name name = true) ∧
      (∀ lower middle upper,
        snapshot.liesUnder lower middle = true → snapshot.liesUnder middle upper = true →
          snapshot.liesUnder lower upper = true) ∧
      (∀ lower upper,
        snapshot.liesUnder lower upper = true → snapshot.liesUnder upper lower = true →
          lower = upper) ∧
      ∀ lower upper,
        snapshot.liesUnder lower upper = true ↔
          lower = upper ∨ snapshot.Acyclic lower ∧ snapshot.Reaches lower upper := by
  refine ⟨snapshot.liesUnder_refl, ?_, ?_, ?_⟩
  · intro lower middle upper
    exact liesUnder_trans
  · intro lower upper
    exact liesUnder_antisymm
  · intro lower upper
    exact liesUnder_iff

end Snapshot

/-! ## Ducks beside the farm -/

/-- A bird that swims. -/
def duckClass : ClassDecl where
  name := "farm.Duck"
  supertypes := [.named "farm.Bird", .named "farm.Swimmer"]

/-- Lists a class that the snapshot does not hold. -/
def birdClass : ClassDecl where
  name := "farm.Bird"
  supertypes := [.named "farm.Animal"]

/-- The ducks with the chick and the cycle above it. -/
def poultrySnapshot : Snapshot :=
  .ofClasses [chickClass, henClass, eggClass, duckClass, birdClass]

namespace Snapshot

/-- A duck lies under the animals, as it is a bird, and no bird is a duck.  The chick lies under
itself and not under the hen, which it lists. -/
theorem liesUnder_partialOrder_poultry :
    poultrySnapshot.liesUnder "farm.Duck" "farm.Bird" = true ∧
      poultrySnapshot.liesUnder "farm.Bird" "farm.Animal" = true ∧
      poultrySnapshot.liesUnder "farm.Duck" "farm.Animal" = true ∧
      poultrySnapshot.liesUnder "farm.Bird" "farm.Duck" ≠ true ∧
      poultrySnapshot.liesUnder "farm.Chick" "farm.Chick" = true ∧
      poultrySnapshot.liesUnder "farm.Chick" "farm.Hen" = false := by
  obtain ⟨hrefl, htrans, hantisymm, -⟩ := liesUnder_partialOrder poultrySnapshot
  have hduck : poultrySnapshot.liesUnder "farm.Duck" "farm.Bird" = true := rfl
  have hbird : poultrySnapshot.liesUnder "farm.Bird" "farm.Animal" = true := rfl
  refine ⟨hduck, hbird, htrans _ _ _ hduck hbird, ?_, hrefl _, rfl⟩
  intro hback
  exact absurd (hantisymm _ _ hduck hback) (by decide)

end Snapshot

end Specwright
