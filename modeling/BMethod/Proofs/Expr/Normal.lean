import Mathlib
import BMethod.Expr.Write
import BMethod.Proofs.Formula.Typing
import BMethod.Proofs.Ty.Label

/-!
# Well-formed expressions and predicates

Which expressions and predicates a document can hold, what they become when they are written and
read again, and the types that are met while they are written.
-/

namespace BMethod

/-! ## Well-formedness -/

mutual
/-- An expression without absent parts, made with declared operators, writable names and tags, and
different labels. A variable is not named like a constant, unless it is fresh, and the whole part of
a real literal has no point. -/
def Expr.WellFormed : Expr → Prop
  | .absent => False
  | .constant info kind => info.WellFormed ∧ kind.Declared
  | .ident info name =>
    info.WellFormed ∧ name.WellFormed ∧ (name.kind ≠ .fresh → Constant.ofName? name.stem = none)
  | .integer info _ => info.WellFormed
  | .string info _ => info.WellFormed
  | .real info whole _ => info.WellFormed ∧ '.' ∉ whole.toList
  | .unary info op x => info.WellFormed ∧ op.Declared ∧ x.WellFormed
  | .binary info op x y => info.WellFormed ∧ op.Declared ∧ x.WellFormed ∧ y.WellFormed
  | .ternary info op x y z =>
    info.WellFormed ∧ op.Declared ∧ x.WellFormed ∧ y.WellFormed ∧ z.WellFormed
  | .nary info op xs => info.WellFormed ∧ op.Declared ∧ Expr.AllWellFormed xs
  | .bool info p => info.WellFormed ∧ p.WellFormed
  | .struct info items =>
    info.WellFormed ∧ (items.map (·.1)).Nodup ∧ Expr.ItemsWellFormed items
  | .record info items =>
    info.WellFormed ∧ (items.map (·.1)).Nodup ∧ Expr.ItemsWellFormed items
  | .quantified info op vars guard body =>
    info.WellFormed ∧ op.Declared ∧ TypedVar.AllWellFormed vars ∧ guard.WellFormed ∧ body.WellFormed
  | .comprehension info vars body =>
    info.WellFormed ∧ TypedVar.AllWellFormed vars ∧ body.WellFormed
  | .field info _ x => info.WellFormed ∧ x.WellFormed
  | .update info _ x value => info.WellFormed ∧ x.WellFormed ∧ value.WellFormed

def Expr.AllWellFormed : List Expr → Prop
  | [] => True
  | x :: xs => x.WellFormed ∧ Expr.AllWellFormed xs

def Expr.ItemsWellFormed : List (String × Expr) → Prop
  | [] => True
  | (_, x) :: items => x.WellFormed ∧ Expr.ItemsWellFormed items

/-- A predicate without absent parts, made with declared comparisons and writable names from
well-formed expressions. -/
def Pred.WellFormed : Pred → Prop
  | .absent => False
  | .truth => True
  | .falsity => True
  | .implies p q => p.WellFormed ∧ q.WellFormed
  | .equiv p q => p.WellFormed ∧ q.WellFormed
  | .compare op x y => op.Declared ∧ x.WellFormed ∧ y.WellFormed
  | .not p => p.WellFormed
  | .and ps => Pred.AllWellFormed ps
  | .or ps => Pred.AllWellFormed ps
  | .forAll vars body => TypedVar.AllWellFormed vars ∧ body.WellFormed
  | .forSome vars body => TypedVar.AllWellFormed vars ∧ body.WellFormed

def Pred.AllWellFormed : List Pred → Prop
  | [] => True
  | p :: ps => p.WellFormed ∧ Pred.AllWellFormed ps
end

/-! ## Normal forms -/

mutual
/-- The expression with the items of records and record sets sorted by label, and with predicates
in normal form. -/
def Expr.norm : Expr → Expr
  | .absent => .absent
  | .constant info kind => .constant info kind
  | .ident info name => .ident info name
  | .integer info digits => .integer info digits
  | .string info value => .string info value
  | .real info whole fraction => .real info whole fraction
  | .unary info op x => .unary info op x.norm
  | .binary info op x y => .binary info op x.norm y.norm
  | .ternary info op x y z => .ternary info op x.norm y.norm z.norm
  | .nary info op xs => .nary info op (Expr.normAll xs)
  | .bool info p => .bool info p.norm
  | .struct info items => .struct info (sortByLabel (Expr.normItems items))
  | .record info items => .record info (sortByLabel (Expr.normItems items))
  | .quantified info op vars guard body => .quantified info op vars guard.norm body.norm
  | .comprehension info vars body => .comprehension info vars body.norm
  | .field info label x => .field info label x.norm
  | .update info label x value => .update info label x.norm value.norm

def Expr.normAll : List Expr → List Expr
  | [] => []
  | x :: xs => x.norm :: Expr.normAll xs

def Expr.normItems : List (String × Expr) → List (String × Expr)
  | [] => []
  | (label, x) :: items => (label, x.norm) :: Expr.normItems items

/-- The predicate with truth for an empty conjunction and falsity for an empty disjunction, and with
expressions in normal form. -/
def Pred.norm : Pred → Pred
  | .absent => .absent
  | .truth => .truth
  | .falsity => .falsity
  | .implies p q => .implies p.norm q.norm
  | .equiv p q => .equiv p.norm q.norm
  | .compare op x y => .compare op x.norm y.norm
  | .not p => .not p.norm
  | .and ps => if ps.isEmpty then .truth else .and (Pred.normAll ps)
  | .or ps => if ps.isEmpty then .falsity else .or (Pred.normAll ps)
  | .forAll vars body => .forAll vars body.norm
  | .forSome vars body => .forSome vars body.norm

def Pred.normAll : List Pred → List Pred
  | [] => []
  | p :: ps => p.norm :: Pred.normAll ps
end

/-! ## Types -/

mutual
/-- The types of an expression and of all that is in it, in the order in which they are met. -/
def Expr.types : Expr → List Ty
  | .absent => []
  | .constant info _ => [info.ty]
  | .ident info _ => [info.ty]
  | .integer info _ => [info.ty]
  | .string info _ => [info.ty]
  | .real info _ _ => [info.ty]
  | .unary info _ x => [info.ty] ++ x.types
  | .binary info _ x y => [info.ty] ++ (x.types ++ y.types)
  | .ternary info _ x y z => [info.ty] ++ (x.types ++ (y.types ++ z.types))
  | .nary info _ xs => [info.ty] ++ Expr.typesAll xs
  | .bool info p => [info.ty] ++ p.types
  | .struct info items => [info.ty] ++ (sortByLabel (Expr.itemTypes items)).flatMap (·.2)
  | .record info items => [info.ty] ++ (sortByLabel (Expr.itemTypes items)).flatMap (·.2)
  | .quantified info _ vars guard body =>
    [info.ty] ++ (vars.map (·.ty) ++ (guard.types ++ body.types))
  | .comprehension info vars body => [info.ty] ++ (vars.map (·.ty) ++ body.types)
  | .field info _ x => [info.ty] ++ x.types
  | .update info _ x value => [info.ty] ++ (x.types ++ value.types)

def Expr.typesAll : List Expr → List Ty
  | [] => []
  | x :: xs => x.types ++ Expr.typesAll xs

def Expr.itemTypes : List (String × Expr) → List (String × List Ty)
  | [] => []
  | (label, x) :: items => (label, x.types) :: Expr.itemTypes items

/-- The types in a predicate, in the order in which they are met. -/
def Pred.types : Pred → List Ty
  | .absent => []
  | .truth => []
  | .falsity => []
  | .implies p q => p.types ++ q.types
  | .equiv p q => p.types ++ q.types
  | .compare _ x y => x.types ++ y.types
  | .not p => p.types
  | .and ps => Pred.typesAll ps
  | .or ps => Pred.typesAll ps
  | .forAll vars body => vars.map (·.ty) ++ body.types
  | .forSome vars body => vars.map (·.ty) ++ body.types

def Pred.typesAll : List Pred → List Ty
  | [] => []
  | p :: ps => p.types ++ Pred.typesAll ps
end

/-! ## Lists -/

theorem Expr.itemsWellFormed_iff {items : List (String × Expr)} :
    Expr.ItemsWellFormed items ↔ ∀ i ∈ items, i.2.WellFormed := by
  induction items with
  | nil => simp [Expr.ItemsWellFormed]
  | cons i items ih => simp [Expr.ItemsWellFormed, ih]

theorem Expr.normAll_eq_map (xs : List Expr) : Expr.normAll xs = xs.map Expr.norm := by
  induction xs with
  | nil => rfl
  | cons x xs ih => simp [Expr.normAll, ih]

theorem Expr.normItems_eq_map (items : List (String × Expr)) :
    Expr.normItems items = items.map fun i => (i.1, i.2.norm) := by
  induction items with
  | nil => rfl
  | cons i items ih => simp [Expr.normItems, ih]

theorem Expr.itemTypes_eq_map (items : List (String × Expr)) :
    Expr.itemTypes items = items.map fun i => (i.1, i.2.types) := by
  induction items with
  | nil => rfl
  | cons i items ih => simp [Expr.itemTypes, ih]

/-- The types of the items of a record are met in the order of their labels. -/
theorem Expr.sorted_itemTypes (items : List (String × Expr)) :
    (sortByLabel (Expr.itemTypes items)).flatMap (·.2) =
      (sortByLabel items).flatMap fun i => i.2.types := by
  rw [Expr.itemTypes_eq_map, sortByLabel_map, List.flatMap_map]

def Expr.writeItem (i : String × Expr) : Write Element := do
  let x ← i.2.write
  pure (.node "Record_Item" [⟨"label", i.1⟩] [x])

theorem Expr.itemWriters_eq_map (items : List (String × Expr)) :
    Expr.itemWriters items = items.map fun i => (i.1, Expr.writeItem i) := by
  induction items with
  | nil => rfl
  | cons i items ih =>
    simp only [Expr.itemWriters, ih, List.map_cons]
    rfl

theorem Expr.writers_eq_map (xs : List Expr) : Expr.writers xs = xs.map Expr.write := by
  induction xs with
  | nil => rfl
  | cons x xs ih => simp [Expr.writers, ih]

theorem Pred.writers_eq_map (ps : List Pred) : Pred.writers ps = ps.map Pred.write := by
  induction ps with
  | nil => rfl
  | cons p ps ih => simp [Pred.writers, ih]

theorem Pred.write_not {p : Pred} (hne : ∀ op x y, p ≠ .compare op x y) :
    (Pred.not p).write = (p.write >>= fun a => pure (.node "Unary_Pred" [⟨"op", "not"⟩] [a])) := by
  cases p with
  | compare op x y => exact absurd rfl (hne op x y)
  | _ => simp only [Pred.write]

theorem Expr.byLabel_itemWriters (items : List (String × Expr)) :
    Write.byLabel (Expr.itemWriters items) =
      Write.all ((sortByLabel items).map Expr.writeItem) := by
  unfold Write.byLabel
  rw [Expr.itemWriters_eq_map, sortByLabel_map, List.map_map]
  rfl

end BMethod
