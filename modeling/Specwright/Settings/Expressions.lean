import Specwright.SortedMap

/-!
# Tables of literals and matchers

Which literal stands for a value of a type, and which argument matcher for a parameter.  Container
types have shapes, texts with placeholders for the values and types inside; the order of the shapes
decides when several apply to one class.
-/

namespace Specwright

/-- The literal shape of a container type. -/
structure ContainerShape where
  type : String
  shape : String
  deriving Repr, DecidableEq, Inhabited

/-- The shapes of container types; the first that applies counts. -/
structure ContainerShapes where
  entries : List ContainerShape
  deriving Repr, DecidableEq, Inhabited

namespace ContainerShapes

/-- The shape of exactly the given type. -/
def shapeOf? (table : ContainerShapes) (type : String) : Option String :=
  (table.entries.find? (·.type = type)).map (·.shape)

/-- The first shape whose type is among the given ones. -/
def firstAmong? (table : ContainerShapes) (types : List String) : Option ContainerShape :=
  table.entries.find? fun entry => decide (entry.type ∈ types)

/-- The shapes of the collections of the Java library in Groovy. -/
def standard : ContainerShapes where
  entries := [
    ⟨"java.util.Collection", "[<VAL>]"⟩,
    ⟨"java.util.Deque", "new LinkedList([<VAL>])"⟩,
    ⟨"java.util.List", "[<VAL>]"⟩,
    ⟨"java.util.Map", "[<VAL>:<VAL>]"⟩,
    ⟨"java.util.NavigableMap", "new java.util.TreeMap([<VAL>:<VAL>])"⟩,
    ⟨"java.util.NavigableSet", "new java.util.TreeSet([<VAL>])"⟩,
    ⟨"java.util.Queue", "new java.util.LinkedList<TYPES>([<VAL>])"⟩,
    ⟨"java.util.RandomAccess", "new java.util.Vector([<VAL>])"⟩,
    ⟨"java.util.Set", "[<VAL>] as java.util.Set<TYPES>"⟩,
    ⟨"java.util.SortedSet", "[<VAL>] as java.util.SortedSet<TYPES>"⟩,
    ⟨"java.util.LinkedList", "new java.util.LinkedList<TYPES>([<VAL>])"⟩,
    ⟨"java.util.ArrayList", "[<VAL>]"⟩,
    ⟨"java.util.HashMap", "[<VAL>:<VAL>]"⟩,
    ⟨"java.util.TreeMap", "new java.util.TreeMap<TYPES>([<VAL>:<VAL>])"⟩,
    ⟨"java.util.Vector", "new java.util.Vector([<VAL>])"⟩,
    ⟨"java.util.HashSet", "[<VAL>] as java.util.HashSet"⟩,
    ⟨"java.util.Stack", "new java.util.Stack<TYPES>()\x7b\x7bpush(<VAL>)\x7d\x7d"⟩,
    ⟨"java.util.LinkedHashMap", "[<VAL>:<VAL>]"⟩,
    ⟨"java.util.TreeSet", "[<VAL>] as java.util.TreeSet"⟩]

end ContainerShapes

/-- Default literals by erased name, which come before all shapes. -/
abbrev DefaultLiterals :=
  SortedMap String

namespace DefaultLiterals

/-- The literals of primitive types, their wrappers, and common classes of the Java library. -/
def standard : DefaultLiterals :=
  .ofList [
    ("byte", "(byte)0"),
    ("short", "(short)0"),
    ("int", "0"),
    ("long", "0L"),
    ("float", "0F"),
    ("double", "0D"),
    ("char", "(char)'a'"),
    ("boolean", "true"),
    ("java.lang.Byte", "java.lang.Byte.parseByte(\"0\")"),
    ("java.lang.Short", "(short)0"),
    ("java.lang.Integer", "0"),
    ("java.lang.Long", "1L"),
    ("java.lang.Float", "1.1F"),
    ("java.lang.Double", "0d"),
    ("java.lang.Character", "'a' as Character"),
    ("java.lang.Boolean", "Boolean.TRUE"),
    ("java.math.BigDecimal", "java.math.BigDecimal.ZERO"),
    ("java.math.BigInteger", "0g"),
    ("java.util.Date", "new java.util.Date()"),
    ("java.util.Calendar", "java.util.Calendar.getInstance()"),
    ("java.sql.Timestamp", "new java.sql.Timestamp(java.lang.System.currentTimeMillis())"),
    ("java.time.LocalDate", "java.time.LocalDate.now()"),
    ("java.time.LocalDateTime", "java.time.LocalDateTime.now()"),
    ("java.time.LocalTime", "java.time.LocalTime.now()"),
    ("java.time.Instant", "java.time.LocalDateTime.now().toInstant(java.time.ZoneOffset.UTC)"),
    ("java.lang.Class", "Class.forName(\"\")"),
    ("java.lang.Number", "0"),
    ("java.util.UUID", "java.util.UUID.randomUUID()")]

end DefaultLiterals

/-- Argument matchers by dialect and type. -/
abbrev Matchers :=
  SortedMap (SortedMap String)

namespace Matchers

/-- The key of the matcher for all types of a dialect without one of their own. -/
def wildcard : String := "*"

/-- A placeholder for every argument in Groovy, and matchers by type in Java. -/
def standard : Matchers :=
  .ofList [
    ("groovy", .ofList [(wildcard, "_")]),
    ("java", .ofList [
      (wildcard, "any()"),
      ("byte", "anyByte()"),
      ("short", "anyShort()"),
      ("int", "anyInt()"),
      ("long", "anyLong()"),
      ("float", "anyFloat()"),
      ("double", "anyDouble()"),
      ("char", "anyChar()"),
      ("boolean", "anyBoolean()"),
      ("java.lang.String", "anyString()")])]

/-- The matcher of a type in a dialect, whose name may be in capitals of ASCII. -/
def matcher? (table : Matchers) (dialect type : String) : Option String := do
  let matchers ← table.get? dialect.toLower
  (matchers.get? type).or (matchers.get? wildcard)

end Matchers

/-- The tables from which literals and matchers are taken. -/
structure ExpressionTables where
  /-- The shapes of parameters and responses. -/
  shapes : ContainerShapes := .standard
  /-- The shapes of the values inside a shape. -/
  nestedShapes : ContainerShapes := .standard
  defaults : DefaultLiterals := .standard
  matchers : Matchers := .standard
  deriving Inhabited

end Specwright
