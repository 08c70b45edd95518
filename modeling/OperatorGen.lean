import OperatorGen.CommandLine.Run
import OperatorGen.CommandLine.Usage
import OperatorGen.Config
import OperatorGen.Definition.Node
import OperatorGen.Definition.Package
import OperatorGen.Definition.Reading
import OperatorGen.Definition.Rule
import OperatorGen.Definition.Writing
import OperatorGen.Document
import OperatorGen.Emission.Access
import OperatorGen.Emission.Body
import OperatorGen.Emission.Check
import OperatorGen.Emission.DataIds
import OperatorGen.Emission.File
import OperatorGen.Emission.Setup
import OperatorGen.Error
import OperatorGen.FileTree
import OperatorGen.Generation
import OperatorGen.Ident
import OperatorGen.Json.DecodeError
import OperatorGen.Json.Decoder
import OperatorGen.Json.Fault
import OperatorGen.Json.Number
import OperatorGen.Json.Record
import OperatorGen.Json.Source
import OperatorGen.Json.Text
import OperatorGen.Json.Token
import OperatorGen.Json.Tree
import OperatorGen.Json.Value
import OperatorGen.Main
import OperatorGen.Number.Binary64
import OperatorGen.Number.Decimal
import OperatorGen.Number.Shortest
import OperatorGen.Outline
import OperatorGen.Text.Diagnostic
import OperatorGen.Text.Lines
import OperatorGen.Text.Path
import OperatorGen.Unicode.GraphemeExtend
import OperatorGen.Unicode.IdentifierContinue
import OperatorGen.Unicode.IdentifierStart
import OperatorGen.Unicode.Property
import OperatorGen.Unicode.Unprintable
import OperatorGen.Validation
import OperatorGen.Walk
import OperatorGen.Proofs.FirstError
import OperatorGen.Proofs.Success
import OperatorGen.Proofs.Emission.DataIds
import OperatorGen.Proofs.Emission.Options
import OperatorGen.Proofs.Emission.Visitors
import OperatorGen.Proofs.Emission.Acceptance
import OperatorGen.Proofs.Emission.Sections
import OperatorGen.Proofs.Emission.Connectors
import OperatorGen.Proofs.Emission.Uniqueness
import OperatorGen.Proofs.Json.Lexemes
import OperatorGen.Proofs.Json.Lexing
import OperatorGen.Proofs.Json.Units
import OperatorGen.Proofs.Json.Closed
import OperatorGen.Proofs.Json.Datum
import OperatorGen.Proofs.Json.Number
import OperatorGen.Proofs.Json.Text
import OperatorGen.Proofs.Json.Value
import OperatorGen.Proofs.Json.Written
import OperatorGen.Proofs.Json.Reading
import OperatorGen.Proofs.Json.Source
import OperatorGen.Proofs.Json.Record
import OperatorGen.Proofs.Json.Sameness
import OperatorGen.Proofs.Json.Agreement
import OperatorGen.Proofs.Definition.Nodes
import OperatorGen.Proofs.Definition.Packages
import OperatorGen.Proofs.Definition.RoundTrip
import OperatorGen.Proofs.Definition.Meaning
import OperatorGen.Proofs.Definition.Items
import OperatorGen.Proofs.Validation.Validity
import OperatorGen.Proofs.CommandLine.MethodFiles
import OperatorGen.Proofs.Emission.FirstSeen
import OperatorGen.Proofs.Emission.Listing
import OperatorGen.Proofs.Emission.Bodies
import OperatorGen.Proofs.Emission.Variables
import OperatorGen.Proofs.Ident
import OperatorGen.Proofs.Emission.DefinedBeforeUse
import OperatorGen.Proofs.Emission.Parameters
import OperatorGen.Proofs.Emission.Selection
import OperatorGen.Proofs.Walk
import OperatorGen.Proofs.Emission.Nesting
import OperatorGen.Proofs.Emission.Layout
import OperatorGen.Proofs.CommandLine.Confinement
import OperatorGen.Proofs.Emission.DataFlow
import OperatorGen.Proofs.Emission.OptionLabels
import OperatorGen.Proofs.Emission.Qualification
import OperatorGen.Proofs.FileTree.Storing
import OperatorGen.Proofs.CommandLine.Order
import OperatorGen.Proofs.Emission.BodyText
import OperatorGen.Proofs.Emission.RuleChain
import OperatorGen.Proofs.Emission.Literals
import OperatorGen.Proofs.Emission.EnumIndices
import OperatorGen.Proofs.Emission.Quotation
import OperatorGen.Proofs.Emission.Header
import OperatorGen.Proofs.Emission.Descriptions
import OperatorGen.Proofs.Ident.Enumerator
import OperatorGen.Proofs.Ident.Validity
import OperatorGen.Proofs.Ident.Separators
import OperatorGen.Proofs.Validation.CamelCase
import OperatorGen.Proofs.Emission.Names
import OperatorGen.Proofs.Definition.References
import OperatorGen.Proofs.Outline
import OperatorGen.Proofs.Number.Decimal
import OperatorGen.Proofs.Number.Literal
import OperatorGen.Proofs.Validation.Bounds
import OperatorGen.Proofs.Document.Scopes
import OperatorGen.Proofs.Document.Indentation
import OperatorGen.Proofs.Emission.SizeType
