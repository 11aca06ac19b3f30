import ChartParsing.Action.Catalogue
import ChartParsing.Main
import ChartParsing.Proofs.Agreement.Strategies
import ChartParsing.Proofs.Chart.Repetition
import ChartParsing.Proofs.Chart.Representatives
import ChartParsing.Proofs.Chart.Tables
import ChartParsing.Proofs.Forest.Memory
import ChartParsing.Proofs.Forest.Stack
import ChartParsing.Proofs.Gaps.Failures
import ChartParsing.Proofs.Grammar.Duplicates
import ChartParsing.Proofs.Grammar.Lookups
import ChartParsing.Proofs.Grammar.Progress
import ChartParsing.Proofs.Interpretation.Covering
import ChartParsing.Proofs.Interpretation.Outermost
import ChartParsing.Proofs.Interpretation.TopDown
import ChartParsing.Proofs.Lexicon.Folding
import ChartParsing.Proofs.Lexicon.Longest
import ChartParsing.Proofs.Operators.Grouping
import ChartParsing.Proofs.Parsing.Slices
import ChartParsing.Proofs.Reordering.Charts
import ChartParsing.Proofs.Terminal.Sweeping
