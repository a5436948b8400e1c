import Specwright.Proofs.Target.Insertion

/-!
# Extending a method in steps

Statements that are put into a method come behind those that were put in before, since each step
leaves the last brace where it is and a line feed in front of it.  So it makes no difference in how
many steps a method is extended, and a method that is written with statements in it is one without
any that was extended by them.
-/

namespace Specwright

/-! ## What is put in -/

theorem indentedLines_append (lines others : List String) :
    indentedLines (lines ++ others) = indentedLines lines ++ indentedLines others := by
  simp [indentedLines, String.join_append]

/-- Behind what is put in, statements need no further line feed. -/
theorem getLast?_append_insertion (front : String) (statements : List String) :
    (front ++ insertion front statements).toList.getLast? = some '\n' := by
  rw [insertion_eq]
  rcases List.eq_nil_or_concat statements with rfl | ⟨rest, last, rfl⟩
  · split
    next hfeed => simpa [indentedLines] using hfeed
    next => simp [indentedLines]
  · have hlast : indentedLines [last] = lineIndent ++ last ++ "\n" := by
      simp [indentedLines, indentedLine]
    rw [List.concat_eq_append, indentedLines_append, hlast]
    simp [List.getLast?_append]

/-- What is put in for two lists of statements is what is put in for the first and, behind that, for
the second. -/
theorem insertion_append (front : String) (statements others : List String) :
    insertion front (statements ++ others) =
      insertion front statements ++ insertion (front ++ insertion front statements) others := by
  have hbehind : insertion (front ++ insertion front statements) others = indentedLines others := by
    rw [insertion_eq, if_pos (getLast?_append_insertion front statements), String.empty_append]
  rw [hbehind, insertion_eq, insertion_eq, indentedLines_append, String.append_assoc]

namespace TestClass

variable {testClass : TestClass} {name old text : String} {statements : List String}
variable {before after : List Member} {method : Member}

/-! ## Texts of methods -/

theorem exists_extendText?
    {text : String} (h : '\x7d' ∈ text.toList) (statements : List String) :
    ∃ extended, extendText? text statements = some extended := by
  obtain ⟨front, after, hafter, rfl⟩ := exists_last_brace h
  exact ⟨_, extendText?_of_last_brace front hafter statements⟩

/-- A text that is extended twice is extended by the statements of both times. -/
theorem bind_extendText? (text : String) (statements others : List String) :
    (extendText? text statements).bind (extendText? · others) =
      extendText? text (statements ++ others) := by
  by_cases hbrace : '\x7d' ∈ text.toList
  · obtain ⟨front, after, hafter, rfl⟩ := exists_last_brace hbrace
    rw [extendText?_of_last_brace front hafter, extendText?_of_last_brace front hafter,
      Option.bind_some, extendText?_of_last_brace _ hafter, insertion_append]
    simp only [String.append_assoc]
  · rw [extendText?_eq_none_iff.mpr hbrace, extendText?_eq_none_iff.mpr hbrace]
    rfl

/-- A method that is written is one without lines, extended by its lines. -/
theorem extendText?_header (header : String) (lines : List String) :
    extendText? (header ++ "\x7b" ++ "\x7d") lines = some (methodText header lines) := by
  have hnone : '\x7d' ∉ "".toList := by simp
  have hopen : ("\x7b\n" : String) = "\x7b" ++ "\n" := rfl
  have hfeed : ¬(header ++ "\x7b").toList.getLast? = some '\n' := by simp
  have hextend := extendText?_of_last_brace (header ++ "\x7b") hnone lines
  rw [String.append_empty, String.append_empty] at hextend
  rw [hextend, methodText, insertion_eq, if_neg hfeed, hopen]
  simp only [String.append_assoc]

theorem extendText?_methodText (header : String) (lines others : List String) :
    extendText? (methodText header lines) others = some (methodText header (lines ++ others)) := by
  have hboth := bind_extendText? (header ++ "\x7b" ++ "\x7d") lines others
  rwa [extendText?_header, extendText?_header, Option.bind_some] at hboth

/-! ## Methods of classes -/

theorem extendFirst_of_first
    (hbefore : ∀ member ∈ before, member.name ≠ name)
    (htext : extendText? old statements = some text) :
    extendFirst name statements (before ++ ⟨name, old⟩ :: after) =
      .ok (some (before ++ ⟨name, text⟩ :: after)) := by
  induction before with
  | nil => simp [extendFirst, htext]
  | cons member rest ih =>
      obtain ⟨hfirst, hrest⟩ := List.forall_mem_cons.mp hbefore
      rw [List.cons_append, extendFirst, if_neg hfirst, ih hrest]
      rfl

/-- What is left of a class, and what is answered, when statements are put at the end of the first
method of a name: whether there is such a method, or why it cannot be extended. -/
def appendTo (testClass : TestClass) (name : String) (statements : List String) :
    TestClass × Except FixtureError Bool :=
  match testClass.extendMethod name statements with
  | .ok (some extended) => (extended, .ok true)
  | .ok none => (testClass, .ok false)
  | .error cause => (testClass, .error cause)

theorem appendTo_of_first
    (hmethods : testClass.methods = before ++ ⟨name, old⟩ :: after)
    (hbefore : ∀ member ∈ before, member.name ≠ name)
    (htext : extendText? old statements = some text) :
    testClass.appendTo name statements =
      ({ testClass with methods := before ++ ⟨name, text⟩ :: after }, .ok true) := by
  rw [appendTo, extendMethod, hmethods, extendFirst_of_first hbefore htext]
  rfl

theorem appendTo_of_missing (h : name ∉ testClass.methodNames) (statements : List String) :
    testClass.appendTo name statements = (testClass, .ok false) := by
  have hmissing : extendFirst name statements testClass.methods = .ok none :=
    extendFirst_eq_none_iff.mpr h
  rw [appendTo, extendMethod, hmissing]
  rfl

theorem appendTo_of_malformed
    (hfind : testClass.methods.find? (·.name = name) = some method)
    (hbrace : '\x7d' ∉ method.text.toList) (statements : List String) :
    testClass.appendTo name statements = (testClass, .error ⟨name⟩) := by
  have herror : extendFirst name statements testClass.methods = .error ⟨name⟩ :=
    extendFirst_eq_error_iff.mpr ⟨rfl, method, hfind, hbrace⟩
  rw [appendTo, extendMethod, herror]

/-- How putting statements at the end of the first method of a name can end: only the text of this
method is another one, or nothing is. -/
inductive Appends (testClass : TestClass) (name : String) (statements : List String) :
    TestClass × Except FixtureError Bool → Prop
  | extended {methods : List Member} :
      FirstExtendedBy name statements testClass.methods methods →
        Appends testClass name statements ({ testClass with methods }, .ok true)
  | missing :
      name ∉ testClass.methodNames → Appends testClass name statements (testClass, .ok false)
  | malformed {method : Member} :
      testClass.methods.find? (·.name = name) = some method → '\x7d' ∉ method.text.toList →
        Appends testClass name statements (testClass, .error ⟨name⟩)

theorem appends_appendTo (testClass : TestClass) (name : String) (statements : List String) :
    testClass.Appends name statements (testClass.appendTo name statements) := by
  rw [appendTo, extendMethod]
  cases hextend : extendFirst name statements testClass.methods with
  | error cause =>
      obtain ⟨rfl, method, hfind, hbrace⟩ := extendFirst_eq_error_iff.mp hextend
      exact .malformed hfind hbrace
  | ok found =>
      cases found with
      | none => exact .missing (extendFirst_eq_none_iff.mp hextend)
      | some methods => exact .extended (firstExtendedBy_of_extendFirst hextend)

/-- Whether a method can be extended is decided by the method alone, so two steps and one step have
one answer. -/
theorem appendTo_appendTo
    (testClass : TestClass) (name : String) (statements others : List String) :
    (testClass.appendTo name statements).1.appendTo name others =
        testClass.appendTo name (statements ++ others) ∧
      (testClass.appendTo name statements).2 =
        (testClass.appendTo name (statements ++ others)).2 := by
  cases hfind : testClass.methods.find? (·.name = name) with
  | none =>
      have hmissing : name ∉ testClass.methodNames := by
        simpa [methodNames] using hfind
      simp only [appendTo_of_missing hmissing, and_self]
  | some method =>
      by_cases hbrace : '\x7d' ∈ method.text.toList
      · obtain ⟨hname, before, after, hmethods, hbefore⟩ :=
          List.find?_eq_some_iff_append.mp hfind
        obtain rfl : method.name = name := by simpa using hname
        have hothers : ∀ member ∈ before, member.name ≠ method.name := by simpa using hbefore
        obtain ⟨text, htext⟩ := exists_extendText? hbrace statements
        obtain ⟨longer, hlonger⟩ := exists_extendText? hbrace (statements ++ others)
        have hagain : extendText? text others = some longer := by
          rw [← hlonger, ← bind_extendText?, htext, Option.bind_some]
        rw [appendTo_of_first hmethods hothers htext, appendTo_of_first hmethods hothers hlonger]
        exact ⟨appendTo_of_first rfl hothers hagain, rfl⟩
      · simp only [appendTo_of_malformed hfind hbrace, and_self]

/-- Extending a method in two steps comes to the same as in one, with the same answers.  Nothing but
the text of the first method of the name changes, and nothing at all where there is no such method
or no brace in it.  And a fixture method that is written with some statements and extended by others
is the fixture method with all of them. -/
theorem extends_in_steps
    (testClass : TestClass) (name : String) (statements others : List String) :
    ((testClass.appendTo name statements).1.appendTo name others =
        testClass.appendTo name (statements ++ others) ∧
      (testClass.appendTo name statements).2 =
        (testClass.appendTo name (statements ++ others)).2) ∧
    testClass.Appends name statements (testClass.appendTo name statements) ∧
    ∀ (naming : Naming) (before after : List Member),
      (∀ member ∈ before, member.name ≠ name) →
      testClass.methods = before ++ ⟨name, naming.fixture statements⟩ :: after →
        testClass.appendTo name others =
          ({ testClass with
              methods := before ++ ⟨name, naming.fixture (statements ++ others)⟩ :: after },
            .ok true) := by
  refine ⟨appendTo_appendTo testClass name statements others,
    appends_appendTo testClass name statements, ?_⟩
  intro naming before after hbefore hmethods
  exact appendTo_of_first hmethods hbefore (extendText?_methodText _ statements others)

end TestClass

/-! ## A fixture method behind another method -/

/-- A class with a fixture method that assigns one double. -/
def deskTestClass : TestClass where
  name := "DeskTest"
  methods := [
    ⟨"cleanup", "def cleanup()"⟩,
    ⟨"setup", ({} : Naming).fixture ["testObj.lamp = lamp"]⟩]

namespace TestClass

/-- The fixture method is extended by a statement with braces in it and then by no statement. -/
theorem extends_in_steps_deskTest :
    (∀ member ∈ [(⟨"cleanup", "def cleanup()"⟩ : Member)], member.name ≠ "setup") ∧
      deskTestClass.methods =
        [⟨"cleanup", "def cleanup()"⟩] ++
          ⟨"setup", ({} : Naming).fixture ["testObj.lamp = lamp"]⟩ :: [] ∧
      ((deskTestClass.appendTo "setup" ["lamp.each \x7b it \x7d"]).1.appendTo "setup"
          []).1.methods =
        [⟨"cleanup", "def cleanup()"⟩,
          ⟨"setup",
            "def setup()\x7b\n    testObj.lamp = lamp\n    lamp.each \x7b it \x7d\n\x7d"⟩] := by
  have hbefore : ∀ member ∈ [(⟨"cleanup", "def cleanup()"⟩ : Member)], member.name ≠ "setup" := by
    decide
  have hmethods : deskTestClass.methods =
      [⟨"cleanup", "def cleanup()"⟩] ++
        ⟨"setup", ({} : Naming).fixture ["testObj.lamp = lamp"]⟩ :: [] := rfl
  obtain ⟨⟨hsteps, -⟩, -⟩ :=
    extends_in_steps deskTestClass "setup" ["lamp.each \x7b it \x7d"] []
  obtain ⟨-, -, hfixture⟩ :=
    extends_in_steps deskTestClass "setup" ["testObj.lamp = lamp"] ["lamp.each \x7b it \x7d"]
  refine ⟨hbefore, hmethods, ?_⟩
  rw [hsteps, List.append_nil, hfixture {} _ [] hbefore hmethods]
  decide

end TestClass

end Specwright
