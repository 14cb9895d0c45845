import BMethod.Formula.Write

/-!
# Writing expressions and predicates

The type of an expression is met before its parts, and the parts from left to right. The items of a
record are written in the order of their labels.
-/

namespace BMethod

mutual
def Expr.write : Expr → Write Element
  | .absent => throw .absentExpression
  | .constant info kind => Write.constant info kind
  | .ident info name => Write.ident info name
  | .integer info digits => Write.leaf "Integer_Literal" info [⟨"value", digits⟩]
  | .string info value => Write.leaf "STRING_Literal" info [⟨"value", value⟩]
  | .real info whole fraction =>
    Write.leaf "Real_Literal" info [⟨"value", Expr.realText whole fraction⟩]
  | .unary info op x => do
    let attrs ← Write.infoAttrs info [⟨"op", op.symbol⟩]
    let x ← x.write
    pure (.node "Unary_Exp" attrs [x])
  | .binary info op x y => do
    let attrs ← Write.infoAttrs info [⟨"op", op.symbol⟩]
    let x ← x.write
    let y ← y.write
    pure (.node "Binary_Exp" attrs [x, y])
  | .ternary info op x y z => do
    let attrs ← Write.infoAttrs info [⟨"op", op.symbol⟩]
    let x ← x.write
    let y ← y.write
    let z ← z.write
    pure (.node "Ternary_Exp" attrs [x, y, z])
  | .nary info op xs => do
    let attrs ← Write.infoAttrs info [⟨"op", op.symbol⟩]
    let xs ← Write.all (Expr.writers xs)
    pure (.node "Nary_Exp" attrs xs)
  | .bool info p => do
    let attrs ← Write.infoAttrs info []
    let p ← p.write
    pure (.node "Boolean_Exp" attrs [p])
  | .struct info items => do
    let attrs ← Write.infoAttrs info []
    let items ← Write.byLabel (Expr.itemWriters items)
    pure (.node "Struct" attrs items)
  | .record info items => do
    let attrs ← Write.infoAttrs info []
    let items ← Write.byLabel (Expr.itemWriters items)
    pure (.node "Record" attrs items)
  | .quantified info op vars guard body => do
    let attrs ← Write.infoAttrs info [⟨"type", op.symbol⟩]
    let vars ← Write.typedVars "Variables" vars
    let guard ← guard.write
    let body ← body.write
    pure (.node "Quantified_Exp" attrs [vars, .wrap "Pred" [guard], .wrap "Body" [body]])
  | .comprehension info vars body => do
    let attrs ← Write.infoAttrs info []
    let vars ← Write.typedVars "Variables" vars
    let body ← body.write
    pure (.node "Quantified_Set" attrs [vars, .wrap "Body" [body]])
  | .field info label x => do
    let attrs ← Write.infoAttrs info [⟨"label", label⟩]
    let x ← x.write
    pure (.node "Record_Field_Access" attrs [x])
  | .update info label x value => do
    let attrs ← Write.infoAttrs info [⟨"label", label⟩]
    let x ← x.write
    let value ← value.write
    pure (.node "Record_Update" attrs [x, value])

def Expr.writers : List Expr → List (Write Element)
  | [] => []
  | x :: xs => x.write :: Expr.writers xs

/-- The actions that write the items of a record, with their labels. -/
def Expr.itemWriters : List (String × Expr) → List (String × Write Element)
  | [] => []
  | (label, x) :: items =>
    (label, do
      let x ← x.write
      pure (.node "Record_Item" [⟨"label", label⟩] [x])) :: Expr.itemWriters items

def Pred.write : Pred → Write Element
  | .absent => throw .absentFormula
  | .truth => pure (.node "Nary_Pred" [⟨"op", "&"⟩] [])
  | .falsity => pure (.node "Nary_Pred" [⟨"op", "or"⟩] [])
  | .implies p q => do
    let p ← p.write
    let q ← q.write
    pure (.node "Binary_Pred" [⟨"op", "=>"⟩] [p, q])
  | .equiv p q => do
    let p ← p.write
    let q ← q.write
    pure (.node "Binary_Pred" [⟨"op", "<=>"⟩] [p, q])
  | .compare op x y => do
    let x ← x.write
    let y ← y.write
    pure (.node "Exp_Comparison" [⟨"op", op.symbol⟩] [x, y])
  | .not (.compare op x y) => do
    let negated ← Write.negatedSymbol? op
    let x ← x.write
    let y ← y.write
    pure (Write.negation op negated x y)
  | .not p => do
    let p ← p.write
    pure (.node "Unary_Pred" [⟨"op", "not"⟩] [p])
  | .and ps => do
    let ps ← Write.all (Pred.writers ps)
    pure (.node "Nary_Pred" [⟨"op", "&"⟩] ps)
  | .or ps => do
    let ps ← Write.all (Pred.writers ps)
    pure (.node "Nary_Pred" [⟨"op", "or"⟩] ps)
  | .forAll vars body => do
    let vars ← Write.typedVars "Variables" vars
    let body ← body.write
    pure (.node "Quantified_Pred" [⟨"type", "!"⟩] [vars, .wrap "Body" [body]])
  | .forSome vars body => do
    let vars ← Write.typedVars "Variables" vars
    let body ← body.write
    pure (.node "Quantified_Pred" [⟨"type", "#"⟩] [vars, .wrap "Body" [body]])

def Pred.writers : List Pred → List (Write Element)
  | [] => []
  | p :: ps => p.write :: Pred.writers ps
end

end BMethod
