import LesTokens.Main
import LesTokens.Cursor
import LesTokens.Floating.Bits
import LesTokens.Symbol.Interning
import LesTokens.Proofs.Tiling
import LesTokens.Proofs.LineContainment
import LesTokens.Proofs.StablePrefix
import LesTokens.Proofs.Relexing
import LesTokens.Proofs.Forms
import LesTokens.Proofs.Defects
import LesTokens.Proofs.Restart
import LesTokens.Proofs.ReportOrder
import LesTokens.Proofs.NumberParts
import LesTokens.Proofs.Separators
import LesTokens.Proofs.Pointing
import LesTokens.Proofs.QuotedRoundTrip
import LesTokens.Proofs.NumberRoundTrip
import LesTokens.Proofs.Interning
import LesTokens.Proofs.OperatorNames
import LesTokens.Proofs.DecimalValues
import LesTokens.Proofs.BestEffort
import LesTokens.Proofs.DecimalRounding
import LesTokens.Proofs.FloatRounding
import LesTokens.Proofs.FiniteFloats
import LesTokens.Proofs.ShortestDigits
import LesTokens.Proofs.DecimalSpellings
import LesTokens.CommandLine.Parallel
import LesTokens.Proofs.ParallelChecks
import LesTokens.Proofs.IntegerWidths
import LesTokens.Proofs.FractionZeros
import LesTokens.Proofs.SmallNumbers
import LesTokens.Proofs.DigitBoundaries
import LesTokens.Proofs.OverflowTargets
import LesTokens.Proofs.NegativeNumbers
import LesTokens.Proofs.SeparatorInsertion
import LesTokens.Proofs.Bytes
import LesTokens.Proofs.QuoteSkipping
import LesTokens.Escape.Pass
import LesTokens.Proofs.EscapeGrammar
import LesTokens.Proofs.EscapePass
import LesTokens.Proofs.FirstClosers
import LesTokens.Proofs.MaximalRuns
import LesTokens.Proofs.NewlineRuns
import LesTokens.Proofs.Positions
import LesTokens.Proofs.BitPatterns
import LesTokens.Proofs.TwoRoundings
