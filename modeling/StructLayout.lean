import StructLayout.Main
import StructLayout.Report.Reorder
import StructLayout.Proofs.Layout.FixedPoint
import StructLayout.Proofs.Layout.LeastSize
import StructLayout.Proofs.Source.Compaction
import StructLayout.Proofs.Source.FieldEntry
import StructLayout.Proofs.Source.NestedText
import StructLayout.Proofs.Sizing.Derivation
import StructLayout.Proofs.Sizing.TypeSyntax
import StructLayout.Proofs.Sizing.WrittenTypes
import StructLayout.Proofs.Source.WrittenLine
import StructLayout.Proofs.Source.WrittenBody
import StructLayout.Proofs.Source.WrittenFile
import StructLayout.Proofs.Layout.ExactSlots
import StructLayout.Proofs.Report.SavedBytes
import StructLayout.Proofs.Report.PoolSchedule
import StructLayout.Proofs.Sizing.ByValue
import StructLayout.Proofs.Sizing.Settling
import StructLayout.Proofs.Sizing.RememberedDepth
import StructLayout.Proofs.Sizing.History
import StructLayout.Proofs.Analysis.StructOrder
import StructLayout.Proofs.Analysis.ReportDocuments
import StructLayout.Proofs.Json.RoundTrip
import StructLayout.Proofs.Report.TypedDocument
import StructLayout.Proofs.Output.CheckViews
import StructLayout.Proofs.Layout.EmptyFields
import StructLayout.Proofs.Sizing.ArrayElements
import StructLayout.Proofs.Sizing.Coherence
import StructLayout.Proofs.Sizing.RegularFields
import StructLayout.Proofs.Output.NameLimit
import StructLayout.Proofs.Output.NamedCheck
import StructLayout.Proofs.Sizing.Descending
import StructLayout.Proofs.Sizing.StructTexts
import StructLayout.Proofs.Analysis.NestedStructs
import StructLayout.Proofs.Report.Rereading
import StructLayout.Proofs.Source.MarkedStructs
import StructLayout.Proofs.Source.GenericStructs
import StructLayout.Proofs.Sizing.DeclaredNames
import StructLayout.Proofs.Layout.UniformFields
import StructLayout.Proofs.Analysis.DescribedReports
import StructLayout.Proofs.Sizing.TypeParameters
import StructLayout.Proofs.Layout.KeptOrder
import StructLayout.Proofs.Layout.LeastPlacement
import StructLayout.Proofs.Sizing.NameGuard
import StructLayout.Proofs.Source.DeclaredTypes
import StructLayout.Proofs.Source.RawLiterals
import StructLayout.Proofs.Sizing.AlikeScopes
import StructLayout.Proofs.Analysis.FileOrder
import StructLayout.Proofs.Analysis.PlatformNames
import StructLayout.Proofs.Settings.DeclaredKinds
import StructLayout.Proofs.Packages.FileSets
import StructLayout.Proofs.Output.ByteMaps
import StructLayout.Proofs.Source.LineOrder
import StructLayout.Proofs.Source.LineReading
import StructLayout.Proofs.Source.BlankedComments
import StructLayout.Proofs.Source.TopLevel
import StructLayout.Proofs.Source.ClosingBrackets
