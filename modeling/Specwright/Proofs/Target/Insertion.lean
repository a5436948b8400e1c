import Mathlib.Data.List.Nodup
import Specwright.Distinct
import Specwright.Proofs.Target.Merging

/-!
# What goes into a class

A class takes those of a list of members whose names are new, and statements go into the first
method of a name.  Both are described here by what is added and what stays: the members taken are a
plain filter of the list, the members taken and left over make up the list, and the text of the
method is cut at its last brace only.
-/

namespace Specwright

/-! ## New members -/

/-- Whether a list is made up of two others, each in its order. -/
inductive Interleaves {α : Type} : List α → List α → List α → Prop
  | nil : Interleaves [] [] []
  | left {item : α} {first second whole : List α} :
      Interleaves first second whole → Interleaves (item :: first) second (item :: whole)
  | right {item : α} {first second whole : List α} :
      Interleaves first second whole → Interleaves first (item :: second) (item :: whole)

namespace Interleaves

variable {α β : Type} {first second whole : List α}

theorem map (view : α → β) (h : Interleaves first second whole) :
    Interleaves (first.map view) (second.map view) (whole.map view) := by
  induction h with
  | nil => exact .nil
  | left _ ih => exact .left ih
  | right _ ih => exact .right ih

theorem sublist_left (h : Interleaves first second whole) : first.Sublist whole := by
  induction h with
  | nil => exact .slnil
  | left _ ih => exact ih.cons_cons _
  | right _ ih => exact ih.cons _

end Interleaves

namespace Member

variable {taken : List String} {members : List Member}

theorem interleaves_sift (taken : List String) (members : List Member) :
    Interleaves (sift taken members).1 (sift taken members).2 members := by
  induction members generalizing taken with
  | nil => exact .nil
  | cons first rest ih =>
      rw [sift]
      split
      · exact .right (ih taken)
      · exact .left (ih (first.name :: taken))

theorem mem_of_mem_admitted {member : Member} (h : member ∈ (sift taken members).1) :
    member ∈ members :=
  (interleaves_sift taken members).sublist_left.subset h

/-- The members that are taken: those with new names, the first of each name. -/
theorem admitted_eq_distinctBy (taken : List String) (members : List Member) :
    (sift taken members).1 = distinctBy (·.name) (members.filter (·.name ∉ taken)) := by
  induction members generalizing taken with
  | nil => rfl
  | cons first rest ih =>
      rw [sift]
      by_cases htaken : first.name ∈ taken
      · simp only [htaken, if_true, not_true_eq_false, decide_false, Bool.false_eq_true,
          not_false_eq_true, List.filter_cons_of_neg]
        exact ih taken
      · -- One more name is taken for the rest, which drops the repetitions of the first member.
        have hdrop :
            (rest.filter (·.name ∉ taken)).filter (fun member => member.name ≠ first.name) =
              rest.filter (·.name ∉ first.name :: taken) := by
          rw [List.filter_filter]
          congr 1
          funext member
          simp [List.mem_cons, not_or]
        simp only [htaken, if_false, not_false_eq_true, decide_true, List.filter_cons_of_pos,
          distinctBy]
        rw [ih, ← hdrop]
        congr 1
        exact (filter_distinctBy (fun name => decide (name ≠ first.name)) _).symm

theorem admitted_congr
    {other : List String} (h : ∀ name, name ∈ taken ↔ name ∈ other) :
    (sift taken members).1 = (sift other members).1 := by
  simp only [admitted_eq_distinctBy, h]

theorem nodup_names_admitted (taken : List String) (members : List Member) :
    ((sift taken members).1.map (·.name)).Nodup := by
  rw [admitted_eq_distinctBy]
  exact List.pairwise_map.mpr (pairwise_distinctBy _)

/-- The members taken have new names, and no two have the same. -/
theorem nodup_append_admitted (htaken : taken.Nodup) :
    (taken ++ (sift taken members).1.map (·.name)).Nodup := by
  refine List.Nodup.append htaken (nodup_names_admitted taken members) ?_
  intro name hold hnew
  obtain ⟨member, hmember, rfl⟩ := List.mem_map.mp hnew
  rw [admitted_eq_distinctBy] at hmember
  have hkept := (distinctBy_sublist _).subset hmember
  have hfresh : member.name ∉ taken := by simpa using (List.mem_filter.mp hkept).2
  exact hfresh hold

end Member

/-! ## New doubles -/

namespace TestClass

variable {testClass : TestClass} {settings : Settings} {plan : TestPlan}

theorem mem_names_addFields_singleton
    {field : Member} {name : String} :
    name ∈ (testClass.addFields [field]).fields.map (·.name) ↔
      name ∈ testClass.fields.map (·.name) ∨ name = field.name := by
  constructor
  · intro hname
    rw [addFields, List.map_append, List.mem_append] at hname
    rcases hname with hold | hadmitted
    · exact Or.inl hold
    · obtain ⟨member, hmember, rfl⟩ := List.mem_map.mp hadmitted
      have hfield := List.mem_singleton.mp (Member.mem_of_mem_admitted hmember)
      exact Or.inr (congrArg Member.name hfield)
  · rintro (hold | rfl)
    · rw [addFields, List.map_append, List.mem_append]
      exact Or.inl hold
    · exact name_mem_addFields (List.mem_singleton.mpr rfl)

/-- No statement is wanted in the fixture method exactly when every double has the name of a field
or that of the subject. -/
theorem newAssignments_eq_nil_iff :
    testClass.newAssignments settings plan = [] ↔
      ∀ double ∈ plan.doubles,
        double.name ∈ testClass.fields.map (·.name) ∨ double.name = plan.subject.name := by
  rw [newAssignments, List.map_eq_nil_iff, newDoubles, newFields, Member.admitted_eq_nil_iff,
    TestPlan.doubleFields, List.forall_mem_map]
  simp only [mem_names_addFields_singleton, TestPlan.subjectField]

end TestClass

/-! ## Lines in a text -/

/-- What is put in behind a text for statements: their lines four spaces deep, each with its line
feed, and a line feed in front of them if the text does not end in one. -/
def insertion (front : String) (statements : List String) : String :=
  (if front.toList.getLast? = some '\n' then "" else "\n") ++
    String.join (statements.map fun statement => "    " ++ statement ++ "\n")

/-- Whether a text is another one with lines put in before its last brace. -/
def ExtendedBy (lines : List String) (old new : String) : Prop :=
  ∃ before after : String,
    '\x7d' ∉ after.toList ∧ old = before ++ "\x7d" ++ after ∧
      new = before ++ insertion before lines ++ "\x7d" ++ after

/-- Whether members are others with lines put into the first one of a name. -/
def FirstExtendedBy (name : String) (lines : List String) (old new : List Member) : Prop :=
  ∃ (before after : List Member) (first : Member) (text : String),
    (∀ member ∈ before, member.name ≠ name) ∧ first.name = name ∧
      ExtendedBy lines first.text text ∧
        old = before ++ first :: after ∧ new = before ++ { first with text } :: after

theorem insertion_eq (front : String) (statements : List String) :
    insertion front statements =
      (if front.toList.getLast? = some '\n' then "" else "\n") ++ indentedLines statements :=
  rfl

theorem Naming.fixture_eq (naming : Naming) (statements : List String) :
    naming.fixture statements =
      "def " ++ naming.fixtureName ++ "()\x7b\n" ++
        String.join (statements.map fun statement => "    " ++ statement ++ "\n") ++ "\x7d" := by
  have hopen : ("()\x7b\n" : String) = "()" ++ "\x7b\n" := rfl
  rw [fixture, methodText, hopen, ← String.append_assoc]
  rfl

namespace TestClass

variable {statements : List String}

theorem extendText?_eq_none_iff
    {text : String} : extendText? text statements = none ↔ '\x7d' ∉ text.toList := by
  rw [extendText?, Option.map_eq_none_iff, Text.splitAtLast_eq_none_iff]

/-- Statements go in right before the last brace. -/
theorem extendText?_of_last_brace
    (front : String) {after : String} (h : '\x7d' ∉ after.toList) (statements : List String) :
    extendText? (front ++ "\x7d" ++ after) statements =
      some (front ++ insertion front statements ++ "\x7d" ++ after) := by
  have hchars : (front ++ "\x7d" ++ after).toList = front.toList ++ '\x7d' :: after.toList := by
    simp
  rw [extendText?, hchars, Text.splitAtLast_append h, Option.map_some]
  apply congrArg some
  apply String.toList_injective
  simp [insertion_eq]

theorem exists_last_brace {text : String} (h : '\x7d' ∈ text.toList) :
    ∃ front after : String, '\x7d' ∉ after.toList ∧ text = front ++ "\x7d" ++ after := by
  cases hsplit : Text.splitAtLast '\x7d' text.toList with
  | none => exact absurd h (Text.splitAtLast_eq_none_iff.mp hsplit)
  | some parts =>
      obtain ⟨before, after⟩ := parts
      refine ⟨.ofList before, .ofList after, ?_, ?_⟩
      · rw [String.toList_ofList]
        exact Text.not_mem_of_splitAtLast hsplit
      · apply String.toList_injective
        rw [Text.append_of_splitAtLast hsplit]
        simp

theorem extendedBy_of_extendText?
    {text extended : String} (h : extendText? text statements = some extended) :
    ExtendedBy statements text extended := by
  have hbrace : '\x7d' ∈ text.toList := by
    by_contra hnone
    rw [extendText?_eq_none_iff.mpr hnone] at h
    cases h
  obtain ⟨front, after, hafter, rfl⟩ := exists_last_brace hbrace
  rw [extendText?_of_last_brace front hafter] at h
  cases h
  exact ⟨front, after, hafter, rfl, rfl⟩

theorem firstExtendedBy_of_extendFirst
    {name : String} {members extended : List Member}
    (h : extendFirst name statements members = .ok (some extended)) :
    FirstExtendedBy name statements members extended := by
  induction members generalizing extended with
  | nil => simp [extendFirst] at h
  | cons member rest ih =>
      rw [extendFirst] at h
      split at h
      next heq =>
        split at h
        next text htext =>
          cases h
          exact ⟨[], rest, member, text, by simp, heq, extendedBy_of_extendText? htext, rfl, rfl⟩
        next => cases h
      next hne =>
        split at h
        next found hfound =>
          obtain ⟨rest', rfl, rfl⟩ : ∃ rest', found = some rest' ∧ member :: rest' = extended := by
            simpa using h
          obtain ⟨before, after, first, text, hbefore, hname, htext, rfl, rfl⟩ := ih hfound
          refine ⟨member :: before, after, first, text, ?_, hname, htext, rfl, rfl⟩
          exact List.forall_mem_cons.mpr ⟨hne, hbefore⟩
        next => cases h

/-- A method cannot be extended exactly when the first one of the name has no brace. -/
theorem extendFirst_eq_error_iff
    {name : String} {members : List Member} {cause : FixtureError} :
    extendFirst name statements members = .error cause ↔
      cause = ⟨name⟩ ∧
        ∃ first, members.find? (·.name = name) = some first ∧ '\x7d' ∉ first.text.toList := by
  induction members with
  | nil => simp [extendFirst]
  | cons member rest ih =>
      rw [extendFirst]
      by_cases heq : member.name = name
      · have hfind : (member :: rest).find? (·.name = name) = some member := by simp [heq]
        rw [if_pos heq, hfind]
        cases htext : extendText? member.text statements with
        | none =>
            have hbrace := extendText?_eq_none_iff.mp htext
            simp [hbrace, eq_comm]
        | some text =>
            have hbrace : '\x7d' ∈ member.text.toList := by
              by_contra hnone
              rw [extendText?_eq_none_iff.mpr hnone] at htext
              cases htext
            simp [hbrace]
      · have hfind : (member :: rest).find? (·.name = name) = rest.find? (·.name = name) := by
          simp [heq]
        rw [if_neg heq, hfind, ← ih]
        split
        next hfound => simp [hfound]
        next hfound => simp [hfound]

/-- The fixture method stands in the way of a merge exactly when statements are wanted and it cannot
be extended. -/
theorem withFixture_eq_error_iff
    {testClass : TestClass} {naming : Naming} {cause : FixtureError} :
    testClass.withFixture naming statements = .error cause ↔
      statements ≠ [] ∧ cause = ⟨naming.fixtureName⟩ ∧
        ∃ fixture, testClass.methods.find? (·.name = naming.fixtureName) = some fixture ∧
          '\x7d' ∉ fixture.text.toList := by
  have hextend : extendFirst naming.fixtureName statements testClass.methods = .error cause ↔ _ :=
    extendFirst_eq_error_iff
  rw [← hextend]
  by_cases hnone : statements = []
  · subst hnone
    simp [withFixture]
  · simp only [withFixture, List.isEmpty_iff, hnone, if_false, extendMethod]
    cases extendFirst naming.fixtureName statements testClass.methods with
    | error other => simp [hnone]
    | ok found => cases found <;> simp

end TestClass

end Specwright
