import CallContract.CommandLine.Arguments
import CallContract.CommandLine.Command
import CallContract.CommandLine.Files
import CallContract.CommandLine.Glob
import CallContract.CommandLine.Run
import CallContract.Decimal.Binary64
import CallContract.Decimal.Numeral
import CallContract.Decimal.Shortest
import CallContract.Declaration.Basic
import CallContract.Declaration.Registry
import CallContract.Descriptor.Basic
import CallContract.Descriptor.Describe
import CallContract.Descriptor.Document
import CallContract.Descriptor.Equality
import CallContract.Descriptor.Literal
import CallContract.Descriptor.Text
import CallContract.Document.Reading
import CallContract.Document.Slots
import CallContract.Error
import CallContract.FileData.Basic
import CallContract.FileData.Fields
import CallContract.Json.Basic
import CallContract.Json.Equality
import CallContract.Json.Literal
import CallContract.Json.Outline
import CallContract.Json.Pointer
import CallContract.Json.Printer
import CallContract.Keyed
import CallContract.Main
import CallContract.Proofs.Agreement
import CallContract.Proofs.AnnotationTrees
import CallContract.Proofs.ArmOrder
import CallContract.Proofs.Coercion
import CallContract.Proofs.Cycle
import CallContract.Proofs.DeclarationOrder
import CallContract.Proofs.Decoding
import CallContract.Proofs.DecodingPlaces
import CallContract.Proofs.Defaults
import CallContract.Proofs.Encodability
import CallContract.Proofs.Encoding
import CallContract.Proofs.EqualValues
import CallContract.Proofs.ExactIntegers
import CallContract.Proofs.Extension
import CallContract.Proofs.FileRecords
import CallContract.Proofs.Fitting
import CallContract.Proofs.Grammar
import CallContract.Proofs.GrammarDecoding
import CallContract.Proofs.Idempotence
import CallContract.Proofs.Interchange
import CallContract.Proofs.KeyedLists
import CallContract.Proofs.Lexemes
import CallContract.Proofs.Literals
import CallContract.Proofs.ManifestTexts
import CallContract.Proofs.MappingKeys
import CallContract.Proofs.NestedUnions
import CallContract.Proofs.Normal
import CallContract.Proofs.NullValues
import CallContract.Proofs.Outlines
import CallContract.Proofs.ParameterRecords
import CallContract.Proofs.ParsedForms
import CallContract.Proofs.Parsing
import CallContract.Proofs.PayloadPlaces
import CallContract.Proofs.QuoteStyles
import CallContract.Proofs.Quoting
import CallContract.Proofs.Reading
import CallContract.Proofs.ReadingBack
import CallContract.Proofs.Records
import CallContract.Proofs.References
import CallContract.Proofs.Registration
import CallContract.Proofs.Rendering
import CallContract.Proofs.Requests
import CallContract.Proofs.RequiredProperties
import CallContract.Proofs.Resolution
import CallContract.Proofs.RoundTrip
import CallContract.Proofs.Scanning
import CallContract.Proofs.Schemas
import CallContract.Proofs.SideChannel
import CallContract.Proofs.Skeletons
import CallContract.Proofs.Spelling
import CallContract.Proofs.StructuralEquality
import CallContract.Proofs.Traversal
import CallContract.Proofs.TypeNames
import CallContract.Proofs.TypeTexts
import CallContract.Proofs.Unions
import CallContract.Proofs.Validation
import CallContract.Schema.Decode
import CallContract.Schema.Encode
import CallContract.Schema.Grammar
import CallContract.Schema.Node
import CallContract.Signature.Basic
import CallContract.Signature.Coerce
import CallContract.Signature.Document
import CallContract.Signature.Schema
import CallContract.Text.Blank
import CallContract.Text.Hidden
import CallContract.Text.Quoted
import CallContract.TypeExpr.Basic
import CallContract.TypeExpr.Parser
import CallContract.TypeExpr.Token
import CallContract.Value.Basic
import CallContract.Value.Error
import CallContract.Value.Key
import CallContract.Value.Validate
