import DtdConformance.Main
import DtdConformance.Proofs.ContentModel.Recognition
import DtdConformance.Proofs.ContentModel.Refusal
import DtdConformance.Proofs.Correlation.Fidelity
import DtdConformance.Proofs.Dtd.Redeclaration
import DtdConformance.Proofs.Conformance.Isolation
import DtdConformance.Proofs.Run.ErrorText
import DtdConformance.Proofs.Run.LineEnding
import DtdConformance.Proofs.Run.Order
import DtdConformance.Proofs.Run.Outcome
import DtdConformance.Proofs.Run.Line
import DtdConformance.Proofs.Run.History
import DtdConformance.Proofs.ContentModel.Trim
import DtdConformance.Proofs.ContentModel.Tokenization
import DtdConformance.Proofs.Markup.Mask
import DtdConformance.Proofs.Correlation.Greedy
import DtdConformance.Proofs.Run.Accounting
import DtdConformance.Proofs.Run.Batch
import DtdConformance.Proofs.Markup.Occurrence
import DtdConformance.Proofs.Conformance.Stability
import DtdConformance.Proofs.Text.LineStart
import DtdConformance.Proofs.Conformance.MixedContent
import DtdConformance.Proofs.Conformance.Expectation
import DtdConformance.Proofs.Settings.Operation
import DtdConformance.Proofs.Settings.Coercion
import DtdConformance.Proofs.Settings.Refusal
import DtdConformance.Proofs.Settings.Override
import DtdConformance.Proofs.Cli.Configuration
import DtdConformance.Proofs.Cli.Outcome
import DtdConformance.Proofs.Dtd.Tolerance
import DtdConformance.Proofs.Run.ResultText
import DtdConformance.Proofs.ContentModel.Tables
import DtdConformance.Proofs.Dtd.Integrity
import DtdConformance.Proofs.Cli.Validation
