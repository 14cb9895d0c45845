import BMethod.Check.Command
import BMethod.Check.Component
import BMethod.Check.Config
import BMethod.Check.Disk
import BMethod.Check.FileList
import BMethod.Check.FileMap
import BMethod.Check.FileSystem
import BMethod.Check.Flag
import BMethod.Check.Memory
import BMethod.Check.Run
import BMethod.Check.Schedule
import BMethod.Check.Summary
import BMethod.Complaint
import BMethod.Document
import BMethod.Element.Basic
import BMethod.Element.Decode
import BMethod.Element.Parts
import BMethod.Element.Printer
import BMethod.Element.Store
import BMethod.Expr.Basic
import BMethod.Expr.Read
import BMethod.Expr.Write
import BMethod.Fault
import BMethod.Formula.Connective
import BMethod.Formula.Typing
import BMethod.Formula.Write
import BMethod.Goal.Basic
import BMethod.Goal.Read
import BMethod.Goal.Write
import BMethod.Main
import BMethod.Obligation.Basic
import BMethod.Obligation.Read
import BMethod.Obligation.Write
import BMethod.Operator
import BMethod.Path
import BMethod.Proofs.Ty.Order
import BMethod.Search
import BMethod.Subst.Basic
import BMethod.Subst.Read
import BMethod.Subst.Write
import BMethod.Text.Blank
import BMethod.Text.Decimal
import BMethod.Text.Fold
import BMethod.Text.Integer
import BMethod.Text.Printable
import BMethod.Text.Quoted
import BMethod.Text.Range
import BMethod.Text.Scalar
import BMethod.Text.Split
import BMethod.Ty.Basic
import BMethod.Ty.Declaration
import BMethod.Ty.Pool
import BMethod.Variable
import BMethod.Xml.Aside
import BMethod.Xml.CharData
import BMethod.Xml.Character
import BMethod.Xml.Name
import BMethod.Xml.NameTable
import BMethod.Xml.Place
import BMethod.Xml.Problem
import BMethod.Xml.Tag
import BMethod.Xml.Token
import BMethod.Yaml.Number
import BMethod.Yaml.Scalar
import BMethod.Yaml.Token
import BMethod.Yaml.Value
import BMethod.Proofs.Ty.Pool
import BMethod.Proofs.Element.Parts
import BMethod.Proofs.Operator
import BMethod.Proofs.Text.Spelling
import BMethod.Proofs.Formula.Writing
import BMethod.Proofs.Formula.Typing
import BMethod.Proofs.Ty.Label
import BMethod.Proofs.Formula.Connective
import BMethod.Proofs.Expr.Reading
import BMethod.Proofs.Expr.Normal
import BMethod.Proofs.Expr.RoundTrip
import BMethod.Proofs.Subst.Reading
import BMethod.Proofs.Subst.Normal
import BMethod.Proofs.Subst.RoundTrip
import BMethod.Proofs.Goal.Reading
import BMethod.Proofs.Goal.RoundTrip
import BMethod.Proofs.Xml.Spelling
import BMethod.Proofs.Xml.Tag
import BMethod.Proofs.Element.Printing
import BMethod.Proofs.Element.Clean
import BMethod.Proofs.Element.Agreement
import BMethod.Proofs.Formula.Agreement
import BMethod.Proofs.Expr.Image
import BMethod.Proofs.Ty.Declaration
import BMethod.Proofs.Goal.Image
import BMethod.Proofs.Formula.Printing
import BMethod.Proofs.Expr.Printing
import BMethod.Proofs.Subst.Printing
import BMethod.Proofs.Goal.Printing
import BMethod.Proofs.Item
import BMethod.Proofs.Document
import BMethod.Proofs.Ty.Calls
import BMethod.Proofs.Text.Bytes
import BMethod.Proofs.Element.Encoding
import BMethod.Proofs.Ty.Table
import BMethod.Proofs.Obligation.References
import BMethod.Proofs.Obligation.Reading
import BMethod.Proofs.Obligation.RoundTrip
import BMethod.Proofs.Goal.Lift
import BMethod.Proofs.Fault.Blame
import BMethod.Proofs.Fault.Expr
import BMethod.Proofs.Fault.Subst
import BMethod.Proofs.Fault.Document
import BMethod.Proofs.Path
import BMethod.Proofs.Check.Run
import BMethod.Proofs.Check.Schedule
import BMethod.Proofs.Check.FileMap
import BMethod.Proofs.Element.Siblings
import BMethod.Proofs.Element.Navigation
import BMethod.Proofs.Element.Embedding
import BMethod.Proofs.Element.Cloning
import BMethod.Proofs.Element.Decoding
import BMethod.Proofs.Element.Reencoding
import BMethod.Proofs.Formula.Numbering
import BMethod.Proofs.Expr.Numbering
import BMethod.Proofs.Obligation.Numbering
import BMethod.Proofs.Obligation.Renumbering
import BMethod.Proofs.Formula.Outcome
import BMethod.Proofs.Expr.Outcome
import BMethod.Proofs.Subst.Outcome
import BMethod.Proofs.Goal.Outcome
import BMethod.Proofs.Writing
import BMethod.Proofs.Formula.Acceptance
import BMethod.Proofs.Expr.Acceptance
import BMethod.Proofs.Subst.Acceptance
import BMethod.Proofs.Goal.Acceptance
import BMethod.Proofs.Acceptance
import BMethod.Proofs.Subst.Suffix
import BMethod.Proofs.Element.Rearrangement
import BMethod.Proofs.Text.Order
import BMethod.Proofs.Formula.Sorted
import BMethod.Proofs.Reordering
import BMethod.Proofs.Check.Aggregation
import BMethod.Proofs.Element.Nesting
import BMethod.Proofs.Xml.Line
import BMethod.Proofs.Element.Lines
import BMethod.Proofs.Ty.Field
import BMethod.Proofs.Check.FileList
import BMethod.Proofs.Check.Merging
