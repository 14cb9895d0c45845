import Mathlib
import BMethod.Proofs.Expr.Normal
import BMethod.Proofs.Formula.Outcome

/-!
# Outcomes of writing expressions and predicates

The parts of an expression or a predicate that may be refused, in the order in which they are
written. Expressions and predicates are written in the same way on all pools, but for the numbers of
types, and end at the first part that is refused.
-/

namespace BMethod

/-! ## Parts -/

/-- The comparison that a negation is of. Its symbol is looked up before its sides are written. -/
def Pred.negatedParts : Pred → List Part
  | .compare op _ _ => [.negated op]
  | _ => []

mutual
/-- The tags, the names of variables, the absent parts and the negated comparisons of an expression
and of all that is in it, in the order in which they are met. -/
def Expr.parts : Expr → List Part
  | .absent => [.noExpression]
  | .constant info _ => info.parts
  | .ident info name => .name name :: info.parts
  | .integer info _ => info.parts
  | .string info _ => info.parts
  | .real info _ _ => info.parts
  | .unary info _ x => info.parts ++ x.parts
  | .binary info _ x y => info.parts ++ (x.parts ++ y.parts)
  | .ternary info _ x y z => info.parts ++ (x.parts ++ (y.parts ++ z.parts))
  | .nary info _ xs => info.parts ++ Expr.partsAll xs
  | .bool info p => info.parts ++ p.parts
  | .struct info items => info.parts ++ (sortByLabel (Expr.itemParts items)).flatMap (·.2)
  | .record info items => info.parts ++ (sortByLabel (Expr.itemParts items)).flatMap (·.2)
  | .quantified info _ vars guard body =>
    info.parts ++ (TypedVar.parts vars ++ (guard.parts ++ body.parts))
  | .comprehension info vars body => info.parts ++ (TypedVar.parts vars ++ body.parts)
  | .field info _ x => info.parts ++ x.parts
  | .update info _ x value => info.parts ++ (x.parts ++ value.parts)

def Expr.partsAll : List Expr → List Part
  | [] => []
  | x :: xs => x.parts ++ Expr.partsAll xs

def Expr.itemParts : List (String × Expr) → List (String × List Part)
  | [] => []
  | (label, x) :: items => (label, x.parts) :: Expr.itemParts items

def Pred.parts : Pred → List Part
  | .absent => [.noFormula]
  | .truth => []
  | .falsity => []
  | .implies p q => p.parts ++ q.parts
  | .equiv p q => p.parts ++ q.parts
  | .compare _ x y => x.parts ++ y.parts
  | .not p => p.negatedParts ++ p.parts
  | .and ps => Pred.partsAll ps
  | .or ps => Pred.partsAll ps
  | .forAll vars body => TypedVar.parts vars ++ body.parts
  | .forSome vars body => TypedVar.parts vars ++ body.parts

def Pred.partsAll : List Pred → List Part
  | [] => []
  | p :: ps => p.parts ++ Pred.partsAll ps
end

theorem Expr.itemParts_eq_map (items : List (String × Expr)) :
    Expr.itemParts items = items.map fun i => (i.1, i.2.parts) := by
  induction items with
  | nil => rfl
  | cons i items ih => simp [Expr.itemParts, ih]

theorem Expr.sorted_itemParts (items : List (String × Expr)) :
    (sortByLabel (Expr.itemParts items)).flatMap (·.2) =
      (sortByLabel items).flatMap fun i => i.2.parts := by
  rw [Expr.itemParts_eq_map, sortByLabel_map, List.flatMap_map]

/-! ## Items -/

theorem Expr.items_portable {items : List (String × Expr)}
    (h : ∀ i ∈ items, i.2.write.Portable i.2.parts i.2.types) :
    (Write.byLabel (Expr.itemWriters items)).PortableAll
      ((sortByLabel (Expr.itemParts items)).flatMap (·.2))
      ((sortByLabel (Expr.itemTypes items)).flatMap (·.2)) := by
  rw [Expr.byLabel_itemWriters, Expr.sorted_itemParts, Expr.sorted_itemTypes]
  refine .all fun i hi => Write.Matched.bind_pure (h i (mem_sortByLabel.1 hi)) ?_
  intro us us' e e' he
  exact .group (.cons he .nil) (by simp)

/-! ## Negations -/

theorem Pred.not_compare_portable {op : Comparison} {x y : Expr}
    (hx : x.write.Portable x.parts x.types) (hy : y.write.Portable y.parts y.types) :
    (Pred.not (.compare op x y)).write.Portable (.negated op :: (x.parts ++ y.parts))
      (x.types ++ y.types) := by
  unfold Pred.write
  refine (Write.negatedSymbol?_matched op).bind fun negated negated' => hx.bind fun a a' =>
    hy.bind_pure ?_
  rintro us us' b b' hb ha ⟨-, rfl⟩
  exact Write.negation_counterpart op _ ha hb

theorem Pred.not_portable {p : Pred} (hne : ∀ op x y, p ≠ .compare op x y)
    (hp : p.write.Portable p.parts p.types) : (Pred.not p).write.Portable p.parts p.types := by
  rw [Pred.write_not hne]
  refine Write.Matched.bind_pure hp ?_
  intro us us' e e' he
  exact .group (.cons he .nil) (by simp)

/-! ## Trees -/

mutual
/-- An expression is written in the same way on all pools. -/
theorem Expr.write_portable (x : Expr) : x.write.Portable x.parts x.types := by
  cases x with
  | absent => exact .throw .noExpression trivial []
  | constant info kind => exact Write.constant_portable info kind
  | ident info name => exact Write.ident_portable info name
  | integer info digits => exact Write.leaf_portable _ info (by simp)
  | string info value => exact Write.leaf_portable _ info (by simp)
  | real info whole fraction => exact Write.leaf_portable _ info (by simp)
  | unary info op x =>
    refine (Write.infoAttrs_portable info (by simp)).bind fun as as' =>
      x.write_portable.bind_pure ?_
    intro us us' e e' he hattrs
    exact .mk hattrs (.cons he .nil)
  | binary info op x y =>
    refine (Write.infoAttrs_portable info (by simp)).bind fun as as' =>
      x.write_portable.bind fun a a' => y.write_portable.bind_pure ?_
    intro us us' b b' hb ha hattrs
    exact .mk hattrs (.cons ha (.cons hb .nil))
  | ternary info op x y z =>
    refine (Write.infoAttrs_portable info (by simp)).bind fun as as' =>
      x.write_portable.bind fun a a' => y.write_portable.bind fun b b' =>
        z.write_portable.bind_pure ?_
    intro us us' c c' hc hb ha hattrs
    exact .mk hattrs (.cons ha (.cons hb (.cons hc .nil)))
  | nary info op xs =>
    refine (Write.infoAttrs_portable info (by simp)).bind fun as as' =>
      (Expr.writers_portable xs).bind_pure ?_
    intro us us' es es' hes hattrs
    exact .mk hattrs hes
  | bool info p =>
    refine (Write.infoAttrs_portable info (by simp)).bind fun as as' =>
      p.write_portable.bind_pure ?_
    intro us us' e e' he hattrs
    exact .mk hattrs (.cons he .nil)
  | struct info items =>
    refine (Write.infoAttrs_portable info (by simp)).bind fun as as' =>
      (Expr.items_portable (Expr.write_portable_of_mem items)).bind_pure ?_
    intro us us' es es' hes hattrs
    exact .mk hattrs hes
  | record info items =>
    refine (Write.infoAttrs_portable info (by simp)).bind fun as as' =>
      (Expr.items_portable (Expr.write_portable_of_mem items)).bind_pure ?_
    intro us us' es es' hes hattrs
    exact .mk hattrs hes
  | quantified info op vars guard body =>
    refine (Write.infoAttrs_portable info (by simp)).bind fun as as' =>
      (Write.typedVars_portable _ vars).bind fun v v' => guard.write_portable.bind fun g g' =>
        body.write_portable.bind_pure ?_
    intro us us' b b' hb hg hv hattrs
    exact .mk hattrs (.cons hv (.cons (.wrap (.cons hg .nil)) (.cons (.wrap (.cons hb .nil)) .nil)))
  | comprehension info vars body =>
    refine (Write.infoAttrs_portable info (by simp)).bind fun as as' =>
      (Write.typedVars_portable _ vars).bind fun v v' => body.write_portable.bind_pure ?_
    intro us us' b b' hb hv hattrs
    exact .mk hattrs (.cons hv (.cons (.wrap (.cons hb .nil)) .nil))
  | field info label x =>
    refine (Write.infoAttrs_portable info (by simp)).bind fun as as' =>
      x.write_portable.bind_pure ?_
    intro us us' e e' he hattrs
    exact .mk hattrs (.cons he .nil)
  | update info label x value =>
    refine (Write.infoAttrs_portable info (by simp)).bind fun as as' =>
      x.write_portable.bind fun a a' => value.write_portable.bind_pure ?_
    intro us us' b b' hb ha hattrs
    exact .mk hattrs (.cons ha (.cons hb .nil))

theorem Expr.writers_portable (xs : List Expr) :
    (Write.all (Expr.writers xs)).PortableAll (Expr.partsAll xs) (Expr.typesAll xs) := by
  cases xs with
  | nil => exact .pure fun us us' => .nil
  | cons x xs =>
    refine x.write_portable.bind fun e e' => (Expr.writers_portable xs).bind_pure ?_
    intro us us' es es' hes he
    exact .cons he hes

theorem Expr.write_portable_of_mem (items : List (String × Expr)) :
    ∀ i ∈ items, i.2.write.Portable i.2.parts i.2.types := by
  cases items with
  | nil => simp
  | cons i items =>
    rintro j (_ | ⟨_, hj⟩)
    · exact i.2.write_portable
    · exact Expr.write_portable_of_mem items j hj

theorem Pred.write_portable (p : Pred) : p.write.Portable p.parts p.types := by
  cases p with
  | absent => exact .throw .noFormula trivial []
  | truth => exact .pure fun us us' => .group .nil (by simp)
  | falsity => exact .pure fun us us' => .group .nil (by simp)
  | implies p q =>
    refine p.write_portable.bind fun a a' => q.write_portable.bind_pure ?_
    intro us us' b b' hb ha
    exact .group (.cons ha (.cons hb .nil)) (by simp)
  | equiv p q =>
    refine p.write_portable.bind fun a a' => q.write_portable.bind_pure ?_
    intro us us' b b' hb ha
    exact .group (.cons ha (.cons hb .nil)) (by simp)
  | compare op x y =>
    refine x.write_portable.bind fun a a' => y.write_portable.bind_pure ?_
    intro us us' b b' hb ha
    exact .group (.cons ha (.cons hb .nil)) (by simp)
  | not p =>
    cases p with
    | compare op x y => exact Pred.not_compare_portable x.write_portable y.write_portable
    | _ => exact Pred.not_portable nofun (Pred.write_portable _)
  | and ps =>
    refine (Pred.writers_portable ps).bind_pure ?_
    intro us us' es es' hes
    exact .group hes (by simp)
  | or ps =>
    refine (Pred.writers_portable ps).bind_pure ?_
    intro us us' es es' hes
    exact .group hes (by simp)
  | forAll vars body =>
    refine (Write.typedVars_portable _ vars).bind fun v v' => body.write_portable.bind_pure ?_
    intro us us' b b' hb hv
    exact .group (.cons hv (.cons (.wrap (.cons hb .nil)) .nil)) (by simp)
  | forSome vars body =>
    refine (Write.typedVars_portable _ vars).bind fun v v' => body.write_portable.bind_pure ?_
    intro us us' b b' hb hv
    exact .group (.cons hv (.cons (.wrap (.cons hb .nil)) .nil)) (by simp)

theorem Pred.writers_portable (ps : List Pred) :
    (Write.all (Pred.writers ps)).PortableAll (Pred.partsAll ps) (Pred.typesAll ps) := by
  cases ps with
  | nil => exact .pure fun us us' => .nil
  | cons p ps =>
    refine p.write_portable.bind fun e e' => (Pred.writers_portable ps).bind_pure ?_
    intro us us' es es' hes he
    exact .cons he hes
end

end BMethod
