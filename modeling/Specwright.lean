import Specwright.Command.Basic
import Specwright.Command.Line
import Specwright.Distinct
import Specwright.Feature.Double
import Specwright.Feature.Rendering
import Specwright.Feature.Selection
import Specwright.Feature.Spy
import Specwright.Feature.TestPlan
import Specwright.Files.Access
import Specwright.Files.Tree
import Specwright.Host.ClassDecl
import Specwright.Host.Codec
import Specwright.Host.LanguageRules
import Specwright.Host.Member
import Specwright.Host.Snapshot
import Specwright.Host.TypeRef
import Specwright.Json.Basic
import Specwright.Json.Parser
import Specwright.Json.Printer
import Specwright.Json.Record
import Specwright.Lineage.Fields
import Specwright.Lineage.Linearization
import Specwright.Lineage.Lookup
import Specwright.Lineage.Override
import Specwright.Literal.DataTable
import Specwright.Literal.Shape
import Specwright.Literal.Synthesis
import Specwright.Main
import Specwright.Model.Basic
import Specwright.Model.Body
import Specwright.Model.Cache
import Specwright.Model.Expansion
import Specwright.Model.Member
import Specwright.Model.Scope
import Specwright.Report.Failure
import Specwright.Report.Response
import Specwright.Settings.Basic
import Specwright.Settings.Codec
import Specwright.Settings.Expressions
import Specwright.SortedMap
import Specwright.Target.Codec
import Specwright.Target.Generation
import Specwright.Target.Merge
import Specwright.Target.Store
import Specwright.Target.TestClass
import Specwright.Text.Accessor
import Specwright.Text.Blank
import Specwright.Text.Dotted
import Specwright.Text.Lowercase
import Specwright.Text.Split
import Specwright.Text.Uppercase
import Specwright.Text.WordChar
import Specwright.Toml.DateTime
import Specwright.Toml.Number
import Specwright.Toml.Parser
import Specwright.Toml.Quoted
import Specwright.Toml.Table
import Specwright.Proofs.Contract
import Specwright.Proofs.Feature.Collaborators
import Specwright.Proofs.Feature.Likeness
import Specwright.Proofs.Feature.Planning
import Specwright.Proofs.Feature.Responses
import Specwright.Proofs.Feature.Selections
import Specwright.Proofs.Feature.SelfCalls
import Specwright.Proofs.Host.Spelling
import Specwright.Proofs.Lineage.CallsOnly
import Specwright.Proofs.Lineage.Declarations
import Specwright.Proofs.Lineage.Order
import Specwright.Proofs.Lineage.Overriding
import Specwright.Proofs.Lineage.Reachability
import Specwright.Proofs.Model.Alike
import Specwright.Proofs.Model.Construction
import Specwright.Proofs.Model.Core
import Specwright.Proofs.Model.References
import Specwright.Proofs.Model.Truncation
import Specwright.Proofs.Session.Extraction
import Specwright.Proofs.Session.Inheritance
import Specwright.Proofs.Session.Kinds
import Specwright.Proofs.Session.Outline
import Specwright.Proofs.Session.Reading
import Specwright.Proofs.Session.Replacement
import Specwright.Proofs.Session.Subject
import Specwright.Proofs.Session.Transparency
import Specwright.Proofs.Target.Coverage
import Specwright.Proofs.Target.Dependence
import Specwright.Proofs.Target.Difference
import Specwright.Proofs.Target.Failure
import Specwright.Proofs.Target.Increments
import Specwright.Proofs.Target.Insertion
import Specwright.Proofs.Target.Merging
import Specwright.Proofs.Target.Regeneration
import Specwright.Proofs.Target.Repetition
import Specwright.Proofs.Target.Runs
import Specwright.Proofs.Session.Growth
import Specwright.Proofs.Session.Bounds
import Specwright.Proofs.Feature.Brackets
import Specwright.Proofs.Feature.Refusals
import Specwright.Proofs.Session.Bodies
import Specwright.Proofs.Target.Brackets
import Specwright.Proofs.Session.CallGraph
import Specwright.Proofs.Literal.Filling
import Specwright.Proofs.Host.RoundTrip
import Specwright.Proofs.Target.RoundTrip
import Specwright.Proofs.Session.Texts
import Specwright.Proofs.Literal.Texts
import Specwright.Proofs.Feature.Texts
import Specwright.Proofs.Literal.Lines
import Specwright.Proofs.Feature.Blocks
import Specwright.Proofs.Host.Substitution
import Specwright.Proofs.Lineage.Bindings
import Specwright.Proofs.Lineage.Resolution
import Specwright.Proofs.Model.Implementations
import Specwright.Proofs.Lineage.Cycles
import Specwright.Proofs.Model.Assignments
import Specwright.Proofs.Model.MethodIds
import Specwright.Proofs.Session.Termination
import Specwright.Proofs.Target.Extension
import Specwright.Proofs.Session.Members
import Specwright.Proofs.Lineage.Subclasses
import Specwright.Proofs.Settings.Overlay
