import Formulary.Comparison
import Formulary.Formula.Error
import Formulary.Formula.Expression
import Formulary.Formula.Parser
import Formulary.Formula.Token
import Formulary.Json.Decoding
import Formulary.Json.Reader
import Formulary.Json.Value
import Formulary.Ledger
import Formulary.Log
import Formulary.Name.Candidate
import Formulary.Name.Identifier
import Formulary.Name.Registry
import Formulary.Name.Substitution
import Formulary.Name.Tier
import Formulary.Name.WholeWord
import Formulary.Number.Arithmetic
import Formulary.Number.Binary
import Formulary.Number.Decimal
import Formulary.Number.Finite
import Formulary.Number.FixedPlaces
import Formulary.Number.Numeral
import Formulary.Number.Power
import Formulary.Number.Shortest
import Formulary.Percentage
import Formulary.Preview
import Formulary.Proofs.Comparison.ComparedResults
import Formulary.Proofs.Comparison.MetricTitle
import Formulary.Proofs.Evaluation.AgreeingLedgers
import Formulary.Proofs.Evaluation.DetachedNames
import Formulary.Proofs.Evaluation.EvaluationByLookup
import Formulary.Proofs.Evaluation.Literals
import Formulary.Proofs.Evaluation.SubstitutedFormula
import Formulary.Proofs.Evaluation.SubstitutedPower
import Formulary.Proofs.Evaluation.UnusedName
import Formulary.Proofs.Evaluation.UnvaluedName
import Formulary.Proofs.Evaluation.ValueIndependence
import Formulary.Proofs.Formula.Gaps
import Formulary.Proofs.Formula.Grammar
import Formulary.Proofs.Formula.Lexing
import Formulary.Proofs.Formula.LexingErrors
import Formulary.Proofs.Formula.LongestNumeral
import Formulary.Proofs.Formula.Names
import Formulary.Proofs.Formula.OperandName
import Formulary.Proofs.Formula.ParserCompleteness
import Formulary.Proofs.Formula.ParserLookahead
import Formulary.Proofs.Formula.ParserSoundness
import Formulary.Proofs.Formula.TokenTiling
import Formulary.Proofs.Formula.TreeHeight
import Formulary.Proofs.Formula.ValuedExpression
import Formulary.Proofs.Formula.VaryingNumbers
import Formulary.Proofs.Formula.ViablePrefix
import Formulary.Proofs.Ledger.Frame
import Formulary.Proofs.Ledger.Interleaving
import Formulary.Proofs.Ledger.Keys
import Formulary.Proofs.Ledger.ReplacedNames
import Formulary.Proofs.Ledger.Rules
import Formulary.Proofs.Ledger.Run
import Formulary.Proofs.Name.CandidateRuns
import Formulary.Proofs.Name.CoveredLetters
import Formulary.Proofs.Name.FormulaCandidates
import Formulary.Proofs.Name.IdentifierText
import Formulary.Proofs.Name.LetterCase
import Formulary.Proofs.Name.LoweredSeparators
import Formulary.Proofs.Name.PlainAlias
import Formulary.Proofs.Name.PlainName
import Formulary.Proofs.Name.ResolvedIdentifier
import Formulary.Proofs.Name.Segments
import Formulary.Proofs.Name.TierUnion
import Formulary.Proofs.Number.DoubleSign
import Formulary.Proofs.Number.NearestDouble
import Formulary.Proofs.Number.NumeralLanguage
import Formulary.Proofs.Number.NumeralText
import Formulary.Proofs.Number.PlainNumeral
import Formulary.Proofs.Number.RoundedMagnitude
import Formulary.Proofs.Number.ShortestDecimal
import Formulary.Proofs.Number.ShortestText
import Formulary.Proofs.Recalculation.FixedPoint
import Formulary.Proofs.Recalculation.OrderIndependence
import Formulary.Proofs.Recalculation.PlainSolution
import Formulary.Proofs.Recalculation.RenewedOutcome
import Formulary.Proofs.Recalculation.ResultsAt
import Formulary.Proofs.Recalculation.Run
import Formulary.Proofs.References.Condensation
import Formulary.Proofs.References.DepthFirst
import Formulary.Proofs.References.EvaluationOrder
import Formulary.Proofs.References.FurtherParameters
import Formulary.Proofs.References.ParameterUse
import Formulary.Proofs.References.UsedParameter
import Formulary.Proofs.Registry.RewrittenFormula
import Formulary.Proofs.Registry.Rules
import Formulary.Proofs.Registry.Run
import Formulary.Proofs.Registry.RunwiseRewriting
import Formulary.Proofs.Request.BuiltRequest
import Formulary.Proofs.Request.ClosedRequest
import Formulary.Proofs.Request.CollidingNames
import Formulary.Proofs.Request.Nodes
import Formulary.Proofs.Request.PositionalReply
import Formulary.Proofs.Request.SharedValues
import Formulary.Proofs.Request.TableOrder
import Formulary.Proofs.Request.TargetedRequest
import Formulary.Proofs.Review.ReportedNames
import Formulary.Proofs.Review.Rules
import Formulary.Proofs.Review.WellFormedSolution
import Formulary.Proofs.Selection.KeylessOption
import Formulary.Proofs.Selection.SelectedOption
import Formulary.Proofs.Solution.MigratedCalculation
import Formulary.Proofs.Solution.ReadBack
import Formulary.Proofs.Solution.WrittenFields
import Formulary.Proofs.Substitution.LeftmostLongest
import Formulary.Proofs.Substitution.LeftoverName
import Formulary.Proofs.Substitution.OverlappingWords
import Formulary.Proofs.Substitution.Replacement
import Formulary.Proofs.Substitution.VanishingName
import Formulary.Proofs.Substitution.WholeWordReplacement
import Formulary.Proofs.Substitution.WholeWords
import Formulary.Proofs.Text.CharacterClass
import Formulary.Proofs.Text.CharacterLanguage
import Formulary.Proofs.Text.Passages
import Formulary.Recalculation
import Formulary.References.Graph
import Formulary.References.Order
import Formulary.Request.Basic
import Formulary.Request.Build
import Formulary.Request.Error
import Formulary.Request.Json
import Formulary.Response
import Formulary.Review
import Formulary.Selection
import Formulary.Session
import Formulary.Settings.Basic
import Formulary.Settings.Json
import Formulary.Settings.Toml
import Formulary.Solution.Basic
import Formulary.Solution.Calculation
import Formulary.Solution.Category
import Formulary.Solution.Decoding
import Formulary.Solution.Encoding
import Formulary.Solution.Parameter
import Formulary.Solution.Quantity
import Formulary.Table
import Formulary.Text.Alphabetic
import Formulary.Text.Arranged
import Formulary.Text.Case
import Formulary.Text.CodePointRange
import Formulary.Text.LowerCase
import Formulary.Text.Mark
import Formulary.Text.Newcomer
import Formulary.Text.Numeric
import Formulary.Text.Quoted
import Formulary.Text.Search
import Formulary.Text.Unprintable
import Formulary.Text.WhiteSpace
import Formulary.Text.WordCharacter
import Formulary.Toml.Reader
import Formulary.Toml.Scalar
import Formulary.Toml.Text
import Formulary.Toml.Value
import Formulary.Usage
