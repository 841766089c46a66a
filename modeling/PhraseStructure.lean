import PhraseStructure.Chart.Basic
import PhraseStructure.Chart.BottomUp
import PhraseStructure.Embed.Arguments
import PhraseStructure.Embed.AttributeList
import PhraseStructure.Embed.Code
import PhraseStructure.Embed.Files
import PhraseStructure.Embed.Piece
import PhraseStructure.Embed.Source
import PhraseStructure.Error
import PhraseStructure.Fault
import PhraseStructure.Grammar.Basic
import PhraseStructure.Grammar.Derivation
import PhraseStructure.Grammar.Kind
import PhraseStructure.Grammar.Nullable
import PhraseStructure.Partition.Count
import PhraseStructure.Partition.Dividers
import PhraseStructure.Partition.Splits
import PhraseStructure.Phrase
import PhraseStructure.Rule
import PhraseStructure.Samples
import PhraseStructure.Script.Basic
import PhraseStructure.Script.Meaning
import PhraseStructure.Script.Printer
import PhraseStructure.Script.Reader
import PhraseStructure.SortTable
import PhraseStructure.Text.Blank
import PhraseStructure.Text.Extending
import PhraseStructure.Text.Literal
import PhraseStructure.Text.Ranges
import PhraseStructure.Text.Unassigned
import PhraseStructure.Token
import PhraseStructure.TopDown
import PhraseStructure.Proofs.Partition.Enumeration
import PhraseStructure.Proofs.Grammar.Nullable
import PhraseStructure.Proofs.TopDown.Rejection
import PhraseStructure.Proofs.TopDown.Search
import PhraseStructure.Proofs.TopDown.Recognition
import PhraseStructure.Proofs.Chart.Fitting
import PhraseStructure.Proofs.Chart.Filling
import PhraseStructure.Proofs.Chart.Recognition
import PhraseStructure.Proofs.Agreement
import PhraseStructure.Proofs.Script.Written
import PhraseStructure.Proofs.Grammar.Construction
import PhraseStructure.Proofs.Script.Classification
import PhraseStructure.Proofs.Script.Reading
import PhraseStructure.Proofs.Script.RoundTrip
import PhraseStructure.Proofs.Partition.Counting
import PhraseStructure.Proofs.Partition.Listing
import PhraseStructure.Proofs.TopDown.Nesting
import PhraseStructure.Proofs.Script.Lexeme
import PhraseStructure.Proofs.Script.Parsing
import PhraseStructure.Proofs.Phrase
import PhraseStructure.Proofs.Embed.Rebuilding
import PhraseStructure.Proofs.Grammar.Sameness
import PhraseStructure.Proofs.Chart.Comparison
import PhraseStructure.Proofs.Interchange
import PhraseStructure.Proofs.Words
import PhraseStructure.Proofs.Safety
import PhraseStructure.Proofs.Grammar.Merging
import PhraseStructure.Proofs.Grammar.Productions
import PhraseStructure.Proofs.Script.Interpretation
import PhraseStructure.Proofs.Script.NormalForm
import PhraseStructure.Proofs.Grammar.Hierarchy
import PhraseStructure.Proofs.Grammar.NullableSearch
import PhraseStructure.Proofs.Grammar.Languages
import PhraseStructure.Proofs.Grammar.Outline
import PhraseStructure.Proofs.Partition.ClosedForm
import PhraseStructure.Proofs.Samples
import PhraseStructure.Proofs.Samples.Rewriting
import PhraseStructure.Proofs.Script.Unread
import PhraseStructure.Proofs.Script.Directive
import PhraseStructure.Proofs.Script.Spacing
import PhraseStructure.Proofs.Partition.Cutting
import PhraseStructure.Proofs.Partition.InPlace
import PhraseStructure.Proofs.Chart.Marking
import PhraseStructure.Proofs.TopDown.Trial
import PhraseStructure.Proofs.SortTable.Runs
import PhraseStructure.Proofs.SortTable.Listed
import PhraseStructure.Proofs.Phrase.Runs
import PhraseStructure.Proofs.Phrase.Reading
