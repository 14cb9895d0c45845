import BMethod.Operator
import BMethod.Variable

/-!
# Expressions and predicates

Expressions carry their type and the tags that say where they come from. Expressions and predicates
contain each other. Where a tree has a place without anything in it, the place is `absent`; such a
tree cannot be written.
-/

namespace BMethod

/-- What every expression carries. -/
structure Info where
  ty : Ty
  tags : List String

mutual
inductive Expr where
  | absent
  | constant (info : Info) (kind : Constant)
  | ident (info : Info) (name : VarName)
  | integer (info : Info) (digits : String)
  | string (info : Info) (value : String)
  | real (info : Info) (whole fraction : String)
  | unary (info : Info) (op : UnaryOp) (x : Expr)
  | binary (info : Info) (op : BinaryOp) (x y : Expr)
  | ternary (info : Info) (op : TernaryOp) (x y z : Expr)
  | nary (info : Info) (op : NaryOp) (xs : List Expr)
  | bool (info : Info) (p : Pred)
  | struct (info : Info) (items : List (String × Expr))
  | record (info : Info) (items : List (String × Expr))
  | quantified (info : Info) (op : QuantifiedOp) (vars : List TypedVar) (guard : Pred) (body : Expr)
  | comprehension (info : Info) (vars : List TypedVar) (body : Pred)
  | field (info : Info) (label : String) (x : Expr)
  | update (info : Info) (label : String) (x value : Expr)

inductive Pred where
  | absent
  | truth
  | falsity
  | implies (p q : Pred)
  | equiv (p q : Pred)
  | compare (op : Comparison) (x y : Expr)
  | not (p : Pred)
  | and (ps : List Pred)
  | or (ps : List Pred)
  | forAll (vars : List TypedVar) (body : Pred)
  | forSome (vars : List TypedVar) (body : Pred)
end

namespace Expr

def info? : Expr → Option Info
  | absent => none
  | constant info _ | ident info _ | integer info _ | string info _ | real info _ _
  | unary info _ _ | binary info _ _ _ | ternary info _ _ _ _ | nary info _ _ | bool info _
  | struct info _ | record info _ | quantified info _ _ _ _ | comprehension info _ _
  | field info _ _ | update info _ _ _ => some info

/-- The whole part and the fraction of a real literal, divided by its first point. -/
def splitReal (text : String) : String × String :=
  let cs := text.toList
  (String.ofList (cs.takeWhile (· != '.')), String.ofList ((cs.dropWhile (· != '.')).drop 1))

def ofRealText (info : Info) (text : String) : Expr :=
  .real info (splitReal text).1 (splitReal text).2

/-- The text of a real literal. Without a fraction it has no point. -/
def realText (whole fraction : String) : String :=
  if fraction = "" then whole else whole ++ "." ++ fraction

/-- The set of records with given fields, in any order. -/
def ofStructItems (info : Info) (items : List (String × Expr)) : Expr :=
  .struct info (sortByLabel items)

def ofRecordItems (info : Info) (items : List (String × Expr)) : Expr :=
  .record info (sortByLabel items)

end Expr

end BMethod
