import BMethod.Formula.Typing

/-!
# Connectives

Predicates and goals are built with the same connectives. A connective is recognised before the
formulas that it connects are read, so both grammars can share it.
-/

namespace BMethod

/-- A connective of an element, with the elements of the formulas and expressions inside it. The
members of a conjunction or disjunction are all the children. -/
inductive Connective (e : Element) where
  | implies (x y : e.Inside)
  | equiv (x y : e.Inside)
  | compare (op : Comparison) (negated : Bool) (x y : e.Inside)
  | not (x : e.Inside)
  | and
  | or
  | forAll (vars : List TypedVar) (body : e.Inside)
  | forSome (vars : List TypedVar) (body : e.Inside)

namespace Connective

def readBinary (e : Element) : Except Fault (Connective e) := do
  let op ← e.needAttr "op"
  if op = "=>" then
    let xs ← e.needTwo
    pure (.implies xs.1 xs.2)
  else if op = "<=>" then
    let xs ← e.needTwo
    pure (.equiv xs.1 xs.2)
  else e.complain (.binaryConnective op)

def readComparison (e : Element) : Except Fault (Connective e) := do
  let symbol ← e.needAttr "op"
  match Comparison.ofSymbol? symbol with
  | none => e.complain (.comparison symbol)
  | some (op, negated) =>
    let xs ← e.needTwo
    pure (.compare op negated xs.1 xs.2)

def readQuantified (t : Table) (e : Element) : Except Fault (Connective e) := do
  let kind ← e.needAttr "type"
  if kind = "!" then
    let vars ← TypedVar.readIn t e "Variables"
    let body ← e.needInner "Body"
    pure (.forAll vars body)
  else if kind = "#" then
    let vars ← TypedVar.readIn t e "Variables"
    let body ← e.needInner "Body"
    pure (.forSome vars body)
  else e.complain (.quantifier kind)

def readNegation (e : Element) : Except Fault (Connective e) := do
  let op ← e.needAttr "op"
  if op = "not" then
    let x ← e.needOne
    pure (.not x)
  else e.complain (.unaryConnective op)

def readNary (e : Element) : Except Fault (Connective e) := do
  let op ← e.needAttr "op"
  if op = "&" then pure .and
  else if op = "or" then pure .or
  else e.complain (.naryConnective op)

/-- Reads the connective of an element, unless its tag is not that of one. -/
def read? (t : Table) (e : Element) : Except Fault (Option (Connective e)) :=
  match e.tag with
  | "Binary_Pred" => some <$> readBinary e
  | "Exp_Comparison" => some <$> readComparison e
  | "Quantified_Pred" => some <$> readQuantified t e
  | "Unary_Pred" => some <$> readNegation e
  | "Nary_Pred" => some <$> readNary e
  | _ => pure none

end Connective

end BMethod
