import Bindlang.Main
import Bindlang.Proofs.Accessor.CallFreeReading
import Bindlang.Proofs.Accessor.CallLog
import Bindlang.Proofs.Accessor.CallOrder
import Bindlang.Proofs.Accessor.DataReading
import Bindlang.Proofs.Accessor.FreshContainers
import Bindlang.Proofs.Accessor.Hosts
import Bindlang.Proofs.Accessor.NonObjectExtra
import Bindlang.Proofs.Accessor.Shadowing
import Bindlang.Proofs.Accessor.SharedContainers
import Bindlang.Proofs.Accessor.WrappedBindings
import Bindlang.Proofs.Command.EvaluationReport
import Bindlang.Proofs.Command.ExitCodes
import Bindlang.Proofs.Data.Collections
import Bindlang.Proofs.Data.Except
import Bindlang.Proofs.Data.KeyedLists
import Bindlang.Proofs.Decimal.Binary64
import Bindlang.Proofs.Decimal.ExactReading
import Bindlang.Proofs.Decimal.NumberGrammar
import Bindlang.Proofs.Decimal.WrittenNumbers
import Bindlang.Proofs.Json.CanonicalForm
import Bindlang.Proofs.Json.ReadAsExpression
import Bindlang.Proofs.Json.ValueConversion
import Bindlang.Proofs.Parser.Completeness
import Bindlang.Proofs.Parser.Concatenation
import Bindlang.Proofs.Parser.DuplicatePolicies
import Bindlang.Proofs.Parser.ErrorCauses
import Bindlang.Proofs.Parser.FirstError
import Bindlang.Proofs.Parser.Grammar
import Bindlang.Proofs.Parser.MovedText
import Bindlang.Proofs.Parser.NestingLimit
import Bindlang.Proofs.Parser.NumberLiterals
import Bindlang.Proofs.Parser.Positions
import Bindlang.Proofs.Parser.Soundness
import Bindlang.Proofs.Parser.WellFormedness
import Bindlang.Proofs.Path.ArrayIndices
import Bindlang.Proofs.Path.Concatenation
import Bindlang.Proofs.Path.Plucking
import Bindlang.Proofs.Path.Text
import Bindlang.Proofs.Printer.AcceptedRoundTrip
import Bindlang.Proofs.Printer.RoundTrip
import Bindlang.Proofs.Printer.TreeExpressions
import Bindlang.Proofs.Printer.ValueRoundTrip
import Bindlang.Proofs.Store.Acyclicity
import Bindlang.Proofs.Store.ClosedStores
import Bindlang.Proofs.Store.TreeBuilding
import Bindlang.Proofs.Store.TreeEquality
import Bindlang.Proofs.Store.Trees
import Bindlang.Proofs.Store.ValueEquality
import Bindlang.Proofs.Token.ExactErrors
import Bindlang.Proofs.Token.Layout
import Bindlang.Proofs.Token.Locality
import Bindlang.Proofs.Token.LongestMatch
import Bindlang.Proofs.Token.Lookahead
import Bindlang.Proofs.Token.Soundness
import Bindlang.Proofs.Token.SpacedTokens
import Bindlang.Proofs.Token.Spelling
import Bindlang.Proofs.Token.WhitespaceSeparation
