import Verdict.FactSet.Members
import Verdict.Formula.Label
import Verdict.Report
import Verdict.Session
import Verdict.Untyped
import Verdict.Proofs.Justification
import Verdict.Proofs.RoundTrip
import Verdict.Proofs.ShortCircuit
import Verdict.Proofs.Beginnings
import Verdict.Proofs.Continuation
import Verdict.Proofs.FirstError
import Verdict.Proofs.SoundStore
import Verdict.Proofs.Transparency
import Verdict.Proofs.Compilation
import Verdict.Proofs.Words
import Verdict.Proofs.Parentheses
import Verdict.Proofs.Progress
import Verdict.Proofs.ErrorReports
import Verdict.Proofs.Json.Lexing
import Verdict.Proofs.Json.RoundTrip
import Verdict.Proofs.RuleDocuments
import Verdict.Proofs.Requests
import Verdict.Proofs.StoreAccounts
import Verdict.Proofs.SharedObjects
import Verdict.Proofs.RefusedRules
import Verdict.Proofs.Codes
import Verdict.Proofs.FewestParentheses
import Verdict.Proofs.Alternatives
import Verdict.Proofs.OccurringFacts
import Verdict.Proofs.MinimalEvidence
import Verdict.Proofs.Relocation
import Verdict.Proofs.WrittenNumbers
import Verdict.Proofs.ReductionOrder
import Verdict.Proofs.Interchange
import Verdict.Proofs.Answers
import Verdict.Proofs.RuleIndex
import Verdict.Proofs.RuleOrder
import Verdict.Proofs.AscendingMembers
import Verdict.Proofs.PossibleExits
import Verdict.Proofs.UntypedCalls
import Verdict.Proofs.RulePresentations
import Verdict.Proofs.NumberRuns
import Verdict.Proofs.StructuralWalks
