import SqlWeave.Arg.Text
import SqlWeave.Arg.Writing
import SqlWeave.Inline
import SqlWeave.Session
import SqlWeave.Trace.Tracer
import SqlWeave.Scripted
import SqlWeave.Trace.History
import SqlWeave.Proofs.Wire
import SqlWeave.Proofs.Noninterference
import SqlWeave.Proofs.Portable
import SqlWeave.Proofs.Failure
import SqlWeave.Proofs.Reporting
import SqlWeave.Proofs.Inlining.OnePass
import SqlWeave.Proofs.Lifecycle
import SqlWeave.Proofs.Derivation
import SqlWeave.Proofs.Ordinals
import SqlWeave.Proofs.LateBinding
import SqlWeave.Proofs.NameReading
import SqlWeave.Proofs.SpanTable
import SqlWeave.Proofs.Inheritance
import SqlWeave.Proofs.ConditionStructure
import SqlWeave.Proofs.LiteralReading
import SqlWeave.Proofs.PairedColumns
import SqlWeave.Proofs.FiltersKept
import SqlWeave.Proofs.ClauseOrder
import SqlWeave.Proofs.InsertedRows
import SqlWeave.Proofs.Membership
import SqlWeave.Proofs.Inlining.Bytewise
import SqlWeave.Proofs.Inlining.Refilled
import SqlWeave.Proofs.Inlining.MarkerLoops
import SqlWeave.Proofs.Loading
import SqlWeave.Proofs.MomentRounding
import SqlWeave.Proofs.EmbeddedLiterals
import SqlWeave.Proofs.EscapeStrings
import SqlWeave.Proofs.Shortening
import SqlWeave.Proofs.Inlining.Dashes
import SqlWeave.Proofs.TemplateParts
import SqlWeave.Proofs.Integers
