import BMethod.Fault

/-!
# Complaints

What the readers of type tables, formulas, substitutions and proof obligations find wrong with an
element, each with its category and its wording.
-/

namespace BMethod

/-- Something wrong with an element. -/
inductive Complaint where
  -- Type tables.
  | noDeclaration
  | noId (place : Nat)
  | idNotInteger (value : String)
  | idOutOfOrder (expected : Nat) (got : Int)
  | typeTerm (tag : String)
  | typeOperator (wanted got : String)
  | suffixedSet (name : String)
  -- References to types.
  | noTypeRef
  | typeRefNotInteger (value : String)
  | typeRefOutOfRange (ref : Int) (size : Nat)
  -- Attributes.
  | noAttribute (name : String)
  | notInteger (name value : String)
  | negativeSuffix (suffix : Int)
  | booleanLiteral (value : String)
  | overflowMark (value : String)
  | repeatedLabel (label : String)
  -- Tags.
  | notVariable (tag : String)
  | notExpression (tag : String)
  | notPredicate (tag : String)
  | notSubstitution (tag : String)
  | notWitnesses (tag : String)
  | notEquality (tag : String)
  | notIdentifier (tag : String)
  | notObligations (wanted got : String)
  -- Operators.
  | expressionOperator (symbol tag : String)
  | binaryConnective (symbol : String)
  | comparison (symbol : String)
  | quantifier (symbol : String)
  | unaryConnective (symbol : String)
  | naryConnective (symbol : String)
  | witnessConnective (symbol : String)
  | witnessComparison (symbol : String)
  -- Goals and assignments.
  | noCalculus
  | noCalculusSubstitution
  | noInnerNegation
  | noNegatedPredicate
  | unequalAssignment (vars values : Nat)
  -- Proof obligations.
  | noHeading (name : String)
  | badNumber (value : String)

namespace Complaint

def category : Complaint → Category
  | noDeclaration | noId _ | idNotInteger _ | idOutOfOrder _ _ => .malformedIndex
  | typeTerm _ | typeOperator _ _ => .malformedTypeTerm
  | suffixedSet _ => .unsupportedSetQualifier
  | noTypeRef | typeRefNotInteger _ | typeRefOutOfRange _ _ => .invalidTypeRef
  | noAttribute _ | noHeading _ => .missingAttribute
  | notInteger _ _ | negativeSuffix _ | booleanLiteral _ | overflowMark _ | badNumber _ =>
    .invalidAttribute
  | repeatedLabel _ => .duplicateLabel
  | notVariable _ | notExpression _ | notPredicate _ | notSubstitution _ | notWitnesses _
  | notEquality _ | notIdentifier _ | notObligations _ _ => .unknownTag
  | expressionOperator _ _ | binaryConnective _ | comparison _ | quantifier _ | unaryConnective _
  | naryConnective _ | witnessConnective _ | witnessComparison _ => .unknownOperator
  | noCalculus | noCalculusSubstitution | noInnerNegation | noNegatedPredicate => .malformedGoal
  | unequalAssignment _ _ => .arityMismatch

/-- The wording of a complaint, apart from its category. -/
def text : Complaint → String
  | noDeclaration => "expected <Type> element"
  | noId place => "missing id at position " ++ toString place
  | idNotInteger value => "id " ++ Text.quote value ++ " is not an integer"
  | idOutOfOrder expected got =>
    "expected id " ++ toString expected ++ " but got " ++ toString got
  | typeTerm tag => "unexpected type term <" ++ tag ++ ">"
  | typeOperator wanted got =>
    "expected operator " ++ Text.quote wanted ++ " but got " ++ Text.quote got
  | suffixedSet name => "set " ++ name ++ " has a suffix"
  | noTypeRef => "no typref attribute"
  | typeRefNotInteger value => "typref " ++ Text.quote value ++ " is not an integer"
  | typeRefOutOfRange ref size =>
    "typref " ++ toString ref ++ " out of range [0, " ++ toString size ++ ")"
  | noAttribute name => "attribute " ++ Text.quote name
  | notInteger name value =>
    "attribute " ++ name ++ "=" ++ Text.quote value ++ " is not an integer"
  | negativeSuffix suffix => "negative suffix " ++ toString suffix
  | booleanLiteral value => "unknown boolean literal " ++ Text.quote value
  | overflowMark value => "overflow=" ++ Text.quote value
  | repeatedLabel label => "label " ++ Text.quote label
  | notVariable tag => "expected <Id> or <Fresh_Id> but got <" ++ tag ++ ">"
  | notExpression tag => "unexpected expression <" ++ tag ++ ">"
  | notPredicate tag => "unexpected predicate <" ++ tag ++ ">"
  | notSubstitution tag => "unexpected substitution <" ++ tag ++ ">"
  | notWitnesses tag => "expected <Exp_Comparison> or <Nary_Pred> but got <" ++ tag ++ ">"
  | notEquality tag => "expected <Exp_Comparison> but got <" ++ tag ++ ">"
  | notIdentifier tag => "expected <Id> but got <" ++ tag ++ ">"
  | notObligations wanted got => "expected <" ++ wanted ++ "> but got <" ++ got ++ ">"
  | expressionOperator symbol tag => "operator " ++ Text.quote symbol ++ " in <" ++ tag ++ ">"
  | binaryConnective symbol => "binary predicate operator " ++ Text.quote symbol
  | comparison symbol => "comparison operator " ++ Text.quote symbol
  | quantifier symbol => "quantifier " ++ Text.quote symbol
  | unaryConnective symbol => "unary predicate operator " ++ Text.quote symbol
  | naryConnective symbol => "n-ary predicate operator " ++ Text.quote symbol
  | witnessConnective symbol =>
    "expected a conjunction of witnesses but got operator " ++ Text.quote symbol
  | witnessComparison symbol => "expected witness operator \"=\" but got " ++ Text.quote symbol
  | noCalculus => "expected <Sub_Calculus> in <Not>"
  | noCalculusSubstitution => "expected a substitution in <Sub_Calculus>"
  | noInnerNegation => "expected <Not> after the substitution in <Sub_Calculus>"
  | noNegatedPredicate => "expected a predicate in <Not>"
  | unequalAssignment vars values =>
    toString vars ++ " variable(s) assigned " ++ toString values ++ " value(s)"
  | noHeading name => name
  | badNumber value => "num=" ++ Text.quote value

/-- The fault of a complaint that is not tied to an element. -/
def fault (c : Complaint) : Fault :=
  .explained c.text (.category c.category)

end Complaint

end BMethod
