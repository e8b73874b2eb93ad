import FuzzyCalc.InternalFault
import FuzzyCalc.Stack

/-!
# Offering anything to a stack

A caller may hand the stack something that is no token at all, or start from a stack that no
sequence of pushes gives. Both end in an internal fault, which unlike a complaint does not restore
the stack.
-/

namespace FuzzyCalc

/-- What may be offered to a stack. -/
inductive Offer where
  /-- A token. -/
  | token (token : Token)
  /-- Something else. -/
  | foreign (thing : Foreign)
  deriving DecidableEq, Repr, Inhabited

/-- What came of an offer. -/
inductive OfferResult where
  /-- It was taken. -/
  | taken
  /-- It was refused and the stack restored. -/
  | refused (cause : Cause)
  /-- An internal fault stopped it halfway. -/
  | faulted (fault : InternalFault)
  deriving DecidableEq, Repr, Inhabited

namespace Stack

/-- Offer something to a stack: the stack afterwards, and what came of it. -/
def offer (p : Precision) (stack : Stack) : Offer → Stack × OfferResult
  | .foreign thing => (stack, .faulted (.notAToken thing))
  | .token token =>
    match stack.push p token with
    | .ok next => (next, .taken)
    | .error (.fault cause) => (stack, .refused cause)
    | .error (.breach rest) => (rest, .faulted .missingOperand)

/-- Offer one thing after the other: the stack and the result after each. -/
def offerAll (p : Precision) (stack : Stack) : List Offer → List (Stack × OfferResult)
  | [] => []
  | x :: rest =>
    let step := stack.offer p x
    step :: offerAll p step.1 rest

end Stack

end FuzzyCalc
