import BMethod.Xml.Problem

/-!
# Faults

What a reader reports when it refuses a document. A fault has a cause, usually one of twelve
categories, and may carry notes and the position of the element it was found at. The innermost
position is the most precise one, so a fault that has a position keeps it.
-/

namespace BMethod

/-- The kinds of faults that readers tell apart. -/
inductive Category where
  | malformedIndex
  | malformedTypeTerm
  | invalidTypeRef
  | unsupportedSetQualifier
  | unknownTag
  | unknownOperator
  | missingChild
  | arityMismatch
  | malformedGoal
  | missingAttribute
  | invalidAttribute
  | duplicateLabel
deriving DecidableEq

def Category.text : Category → String
  | malformedIndex => "malformed type index"
  | malformedTypeTerm => "malformed type term"
  | invalidTypeRef => "missing or invalid typref"
  | unsupportedSetQualifier => "unsupported set qualifier"
  | unknownTag => "unknown node tag"
  | unknownOperator => "unknown operator"
  | missingChild => "missing required child"
  | arityMismatch => "arity mismatch"
  | malformedGoal => "malformed goal shape"
  | missingAttribute => "missing attribute"
  | invalidAttribute => "invalid attribute"
  | duplicateLabel => "duplicate label"

/-- The parameters that an operation declares and those that a call gives it. -/
structure Arity where
  callee : String
  formalInputs : Int
  inputs : Int
  formalOutputs : Int
  outputs : Int
deriving DecidableEq

/-- Whether a call gives as many inputs and outputs as the operation declares. -/
def Arity.Agrees (a : Arity) : Prop :=
  a.formalInputs = a.inputs ∧ a.formalOutputs = a.outputs

instance (a : Arity) : Decidable a.Agrees :=
  inferInstanceAs (Decidable (_ ∧ _))

/-- The wording of a call with the wrong number of parameters. -/
def Arity.text (a : Arity) : String :=
  "wrong number of parameters in call to operation " ++ a.callee ++
    " (inputs: formal " ++ toString a.formalInputs ++ ", effective " ++ toString a.inputs ++
    "; outputs: formal " ++ toString a.formalOutputs ++ ", effective " ++ toString a.outputs ++
    "): " ++ Category.arityMismatch.text

/-- Where a fault was found: an element of a document. -/
structure Position where
  line : Int
  tag : String
deriving DecidableEq

/-- The wording of a position; the parts that are not known are left out. -/
def Position.text (p : Position) : String :=
  if p.line > 0 then
    if p.tag = "" then "line " ++ toString p.line ++ ":"
    else "line " ++ toString p.line ++ ": <" ++ p.tag ++ ">:"
  else if p.tag = "" then ""
  else "<" ++ p.tag ++ ">:"

/-- A refusal of a document. -/
inductive Fault where
  /-- A category and nothing more. -/
  | category (c : Category)
  /-- A failure outside of the categories, known by its wording only. -/
  | foreign (text : String)
  /-- A text that is not XML, refused when it had been read up to a line. -/
  | markup (line : Nat) (problem : Xml.Problem)
  /-- An element without a child that it must have. -/
  | missing (child within : String)
  /-- A call with the wrong number of parameters. -/
  | arity (a : Arity)
  /-- What is wrong, before the category it belongs to. -/
  | explained (note : String) (cause : Fault)
  /-- A note on where a fault comes from, before the fault itself. -/
  | labelled (note : String) (cause : Fault)
  /-- A fault at an element. -/
  | located (position : Position) (cause : Fault)
deriving DecidableEq

namespace Fault

def message : Fault → String
  | category c => c.text
  | foreign text => text
  | markup line problem => problem.message line
  | missing child within =>
    "missing child " ++ Text.quote child ++ " in " ++ Text.quote within ++ " element: " ++
      Category.missingChild.text
  | arity a => a.text
  | explained note cause => note ++ ": " ++ cause.message
  | labelled note cause => note ++ ": " ++ cause.message
  | located position cause =>
    if position.text = "" then cause.message else position.text ++ " " ++ cause.message

def category? : Fault → Option Category
  | category c => some c
  | foreign _ => none
  | markup _ _ => none
  | missing _ _ => some .missingChild
  | arity _ => some .arityMismatch
  | explained _ cause => cause.category?
  | labelled _ cause => cause.category?
  | located _ cause => cause.category?

def position? : Fault → Option Position
  | explained _ cause => cause.position?
  | labelled _ cause => cause.position?
  | located position _ => some position
  | _ => none

/-- The absent child and its parent, for a fault about one. -/
def missing? : Fault → Option (String × String)
  | missing child within => some (child, within)
  | explained _ cause => cause.missing?
  | labelled _ cause => cause.missing?
  | located _ cause => cause.missing?
  | _ => none

def arity? : Fault → Option Arity
  | arity a => some a
  | explained _ cause => cause.arity?
  | labelled _ cause => cause.arity?
  | located _ cause => cause.arity?
  | _ => none

def isMalformedXml : Fault → Bool
  | markup _ problem => problem.isMalformed
  | explained _ cause => cause.isMalformedXml
  | labelled _ cause => cause.isMalformedXml
  | located _ cause => cause.isMalformedXml
  | _ => false

/-- Whether a record of the place in the program that raised the fault goes with it. Faults from
outside have none. -/
def isTraced : Fault → Bool
  | foreign _ => false
  | markup _ _ => false
  | labelled _ cause => cause.isTraced
  | located _ cause => cause.isTraced
  | _ => true

/-- The fault in quotes. A label shows the fault behind it as it is. -/
def quoted : Fault → String
  | f@(labelled _ _) => f.message
  | f => Text.quote f.message

/-- Puts a fault at a position, unless it has one. -/
def locate (p : Position) (f : Fault) : Fault :=
  if f.position?.isSome then f else located p f

def raise (p : Position) (c : Category) (note : String) : Fault :=
  locate p (explained note (category c))

def messages (fs : List Fault) : String :=
  "; ".intercalate (fs.map message)

end Fault

/-- The fault of a call whose parameters do not agree with those of the operation. -/
def Arity.check (a : Arity) : Except Fault Unit :=
  if a.Agrees then pure () else throw (.arity a)

end BMethod
