import FuzzyCalc.Decimal.Digits.Lemmas
import FuzzyCalc.Grammar
import FuzzyCalc.Main
import FuzzyCalc.Offer
import FuzzyCalc.Session
import FuzzyCalc.Proofs.Pushing
import FuzzyCalc.Proofs.Shape
import FuzzyCalc.Proofs.Reachable
import FuzzyCalc.Proofs.Isolation
import FuzzyCalc.Proofs.Reduction
import FuzzyCalc.Proofs.ViablePrefix
import FuzzyCalc.Proofs.Evaluation
import FuzzyCalc.Proofs.Independence
import FuzzyCalc.Proofs.Assignment
import FuzzyCalc.Proofs.Diagnosis
import FuzzyCalc.Proofs.Finality
import FuzzyCalc.Proofs.Numerals
import FuzzyCalc.Proofs.MaximalMunch
import FuzzyCalc.Proofs.Concatenation
import FuzzyCalc.Proofs.Rounding
import FuzzyCalc.Proofs.ExactValue
import FuzzyCalc.Proofs.Rendering
import FuzzyCalc.Proofs.RoundedValue
import FuzzyCalc.Proofs.ValueArithmetic
import FuzzyCalc.Proofs.Exactness
import FuzzyCalc.Proofs.Quotients
import FuzzyCalc.Proofs.Sign
import FuzzyCalc.Proofs.Agreement
import FuzzyCalc.Proofs.OperatorValues
import FuzzyCalc.Proofs.Comparison
import FuzzyCalc.Proofs.SameValues
import FuzzyCalc.Proofs.Symmetry
import FuzzyCalc.Proofs.UnitInterval
import FuzzyCalc.Proofs.Disjunction
import FuzzyCalc.Proofs.Average
import FuzzyCalc.Proofs.Complement
import FuzzyCalc.Proofs.Underflow
import FuzzyCalc.Proofs.Spelling
import FuzzyCalc.Proofs.Domain
import FuzzyCalc.Proofs.Values
import FuzzyCalc.Proofs.Provenance
import FuzzyCalc.Proofs.FuzzyValues
import FuzzyCalc.Proofs.Substitution
import FuzzyCalc.Proofs.SessionValues
import FuzzyCalc.Proofs.Tracing
import FuzzyCalc.Proofs.WriteLog
import FuzzyCalc.Proofs.Retyping
import FuzzyCalc.Proofs.Typing
import FuzzyCalc.Proofs.Continuation
import FuzzyCalc.Proofs.Modes
