import Mathlib
import BMethod.Proofs.Expr.Normal
import BMethod.Proofs.Formula.Numbering

/-!
# Numbers of types in expressions and predicates

The type of an expression stands before those of its parts, also where it binds variables, and the
items of a record are in the order of their labels. Expressions and predicates are written in this
order and ask the pool for their types in it.
-/

namespace BMethod

/-! ## Trees of types -/

/-- The negation of a predicate is an element around it, unless it is the negation of a comparison
that has a symbol of its own. -/
def Pred.negatedTree (tree : TypeTree) : Pred → TypeTree
  | .compare op _ _ =>
    match op.negatedSymbol? with
    | .ok (some _) => tree
    | _ => .group [tree]
  | _ => .group [tree]

mutual
/-- The types of an expression and of all that is in it. -/
def Expr.typeTree : Expr → TypeTree
  | .absent => .group []
  | .constant info _ => .leaf info.ty
  | .ident info _ => .leaf info.ty
  | .integer info _ => .leaf info.ty
  | .string info _ => .leaf info.ty
  | .real info _ _ => .leaf info.ty
  | .unary info _ x => .node (some info.ty) [x.typeTree]
  | .binary info _ x y => .node (some info.ty) [x.typeTree, y.typeTree]
  | .ternary info _ x y z => .node (some info.ty) [x.typeTree, y.typeTree, z.typeTree]
  | .nary info _ xs => .node (some info.ty) (Expr.typeTrees xs)
  | .bool info p => .node (some info.ty) [p.typeTree]
  | .struct info items =>
    .node (some info.ty) ((sortByLabel (Expr.itemTrees items)).map fun i => .group [i.2])
  | .record info items =>
    .node (some info.ty) ((sortByLabel (Expr.itemTrees items)).map fun i => .group [i.2])
  | .quantified info _ vars guard body =>
    .node (some info.ty) [.ofVars vars, .group [guard.typeTree], .group [body.typeTree]]
  | .comprehension info vars body =>
    .node (some info.ty) [.ofVars vars, .group [body.typeTree]]
  | .field info _ x => .node (some info.ty) [x.typeTree]
  | .update info _ x value => .node (some info.ty) [x.typeTree, value.typeTree]

def Expr.typeTrees : List Expr → List TypeTree
  | [] => []
  | x :: xs => x.typeTree :: Expr.typeTrees xs

def Expr.itemTrees : List (String × Expr) → List (String × TypeTree)
  | [] => []
  | (label, x) :: items => (label, x.typeTree) :: Expr.itemTrees items

def Pred.typeTree : Pred → TypeTree
  | .absent => .group []
  | .truth => .group []
  | .falsity => .group []
  | .implies p q => .group [p.typeTree, q.typeTree]
  | .equiv p q => .group [p.typeTree, q.typeTree]
  | .compare _ x y => .group [x.typeTree, y.typeTree]
  | .not p => p.negatedTree p.typeTree
  | .and ps => .group (Pred.typeTrees ps)
  | .or ps => .group (Pred.typeTrees ps)
  | .forAll vars body => .group [.ofVars vars, .group [body.typeTree]]
  | .forSome vars body => .group [.ofVars vars, .group [body.typeTree]]

def Pred.typeTrees : List Pred → List TypeTree
  | [] => []
  | p :: ps => p.typeTree :: Pred.typeTrees ps
end

theorem Expr.itemTrees_eq_map (items : List (String × Expr)) :
    Expr.itemTrees items = items.map fun i => (i.1, i.2.typeTree) := by
  induction items with
  | nil => rfl
  | cons i items ih => simp [Expr.itemTrees, ih]

theorem Expr.sorted_itemTrees (items : List (String × Expr)) :
    ((sortByLabel (Expr.itemTrees items)).map fun i => TypeTree.group [i.2]) =
      (sortByLabel items).map fun i => .group [i.2.typeTree] := by
  rw [Expr.itemTrees_eq_map, sortByLabel_map, List.map_map]
  rfl

/-! ## Items -/

theorem Expr.items_emit {items : List (String × Expr)}
    (h : ∀ i ∈ items, i.2.write.Emits i.2.typeTree) :
    (Write.byLabel (Expr.itemWriters items)).EmitsAll
      ((sortByLabel (Expr.itemTrees items)).map fun i => .group [i.2]) := by
  rw [Expr.byLabel_itemWriters, Expr.sorted_itemTrees]
  refine .all fun i hi => ?_
  refine (Write.Numbers.bind_pure (h i (mem_sortByLabel.1 hi)) ?_).of_eq (by simp)
  intro types e he
  exact .group (.cons he .nil) rfl

/-! ## Negations -/

theorem Pred.not_compare_emits {op : Comparison} {x y : Expr} (hx : x.write.Emits x.typeTree)
    (hy : y.write.Emits y.typeTree) :
    (Pred.not (.compare op x y)).write.Emits (Pred.not (.compare op x y)).typeTree := by
  have htypes : (Pred.not (.compare op x y)).typeTree.types = x.typeTree.types ++ y.typeTree.types := by
    rw [Pred.typeTree, Pred.negatedTree]
    split <;> simp [Pred.typeTree]
  unfold Pred.write
  refine ((Write.negatedSymbol?_numbers op).bind fun negated => hx.bind fun a =>
    hy.bind_pure ?_).of_eq htypes.symm
  intro types b hb ha hs
  cases negated with
  | some symbol =>
    rw [Pred.typeTree, Pred.negatedTree, hs]
    exact .group (.cons ha (.cons hb .nil)) rfl
  | none =>
    rw [Pred.typeTree, Pred.negatedTree, hs]
    exact .group (.cons (.group (.cons ha (.cons hb .nil)) rfl) .nil) rfl

theorem Pred.not_emits {p : Pred} (hne : ∀ op x y, p ≠ .compare op x y)
    (hp : p.write.Emits p.typeTree) : (Pred.not p).write.Emits (Pred.not p).typeTree := by
  have htree : (Pred.not p).typeTree = .group [p.typeTree] := by
    cases p with
    | compare op x y => exact absurd rfl (hne op x y)
    | _ => rw [Pred.typeTree]; rfl
  rw [Pred.write_not hne, htree]
  refine (Write.Numbers.bind_pure hp ?_).of_eq (by simp)
  intro types e he
  exact .group (.cons he .nil) rfl

/-! ## Trees -/

mutual
/-- An expression is written in the order of its types. -/
theorem Expr.write_emits (x : Expr) : x.write.Emits x.typeTree := by
  cases x with
  | absent => exact .throw _
  | constant info kind => exact Write.constant_emits info kind
  | ident info name => exact Write.ident_emits info name
  | integer info digits => exact Write.leaf_emits _ info rfl
  | string info value => exact Write.leaf_emits _ info rfl
  | real info whole fraction => exact Write.leaf_emits _ info rfl
  | unary info op x =>
    refine ((Write.infoAttrs_numbers info _).bind fun attrs => x.write_emits.bind_pure ?_).of_eq
      (by simp [Expr.typeTree])
    intro types e he ha
    exact .mk (ha rfl) (.cons he .nil)
  | binary info op x y =>
    refine ((Write.infoAttrs_numbers info _).bind fun attrs => x.write_emits.bind fun a =>
      y.write_emits.bind_pure ?_).of_eq (by simp [Expr.typeTree])
    intro types b hb ha hattrs
    exact .mk (hattrs rfl) (.cons ha (.cons hb .nil))
  | ternary info op x y z =>
    refine ((Write.infoAttrs_numbers info _).bind fun attrs => x.write_emits.bind fun a =>
      y.write_emits.bind fun b => z.write_emits.bind_pure ?_).of_eq (by simp [Expr.typeTree])
    intro types c hc hb ha hattrs
    exact .mk (hattrs rfl) (.cons ha (.cons hb (.cons hc .nil)))
  | nary info op xs =>
    refine ((Write.infoAttrs_numbers info _).bind fun attrs =>
      (Expr.writers_emit xs).bind_pure ?_).of_eq (by simp [Expr.typeTree])
    intro types es hes hattrs
    exact .mk (hattrs rfl) hes
  | bool info p =>
    refine ((Write.infoAttrs_numbers info _).bind fun attrs => p.write_emits.bind_pure ?_).of_eq
      (by simp [Expr.typeTree])
    intro types e he hattrs
    exact .mk (hattrs rfl) (.cons he .nil)
  | struct info items =>
    refine ((Write.infoAttrs_numbers info _).bind fun attrs =>
      (Expr.items_emit (Expr.write_emits_of_mem items)).bind_pure ?_).of_eq
      (by simp [Expr.typeTree])
    intro types es hes hattrs
    exact .mk (hattrs rfl) hes
  | record info items =>
    refine ((Write.infoAttrs_numbers info _).bind fun attrs =>
      (Expr.items_emit (Expr.write_emits_of_mem items)).bind_pure ?_).of_eq
      (by simp [Expr.typeTree])
    intro types es hes hattrs
    exact .mk (hattrs rfl) hes
  | quantified info op vars guard body =>
    refine ((Write.infoAttrs_numbers info _).bind fun attrs =>
      (Write.typedVars_emits _ vars).bind fun vs => guard.write_emits.bind fun g =>
        body.write_emits.bind_pure ?_).of_eq (by simp [Expr.typeTree])
    intro types b hb hg hvs hattrs
    exact .mk (hattrs rfl) (.cons hvs
      (.cons (.group (.cons hg .nil) rfl) (.cons (.group (.cons hb .nil) rfl) .nil)))
  | comprehension info vars body =>
    refine ((Write.infoAttrs_numbers info _).bind fun attrs =>
      (Write.typedVars_emits _ vars).bind fun vs => body.write_emits.bind_pure ?_).of_eq
      (by simp [Expr.typeTree])
    intro types b hb hvs hattrs
    exact .mk (hattrs rfl) (.cons hvs (.cons (.group (.cons hb .nil) rfl) .nil))
  | field info label x =>
    refine ((Write.infoAttrs_numbers info _).bind fun attrs => x.write_emits.bind_pure ?_).of_eq
      (by simp [Expr.typeTree])
    intro types e he hattrs
    exact .mk (hattrs rfl) (.cons he .nil)
  | update info label x value =>
    refine ((Write.infoAttrs_numbers info _).bind fun attrs => x.write_emits.bind fun a =>
      value.write_emits.bind_pure ?_).of_eq (by simp [Expr.typeTree])
    intro types b hb ha hattrs
    exact .mk (hattrs rfl) (.cons ha (.cons hb .nil))

theorem Expr.writers_emit (xs : List Expr) :
    (Write.all (Expr.writers xs)).EmitsAll (Expr.typeTrees xs) := by
  cases xs with
  | nil => exact .pure fun types => .nil
  | cons x xs =>
    refine x.write_emits.bind fun e => (Expr.writers_emit xs).bind_pure ?_
    intro types es hes he
    exact .cons he hes

theorem Expr.write_emits_of_mem (items : List (String × Expr)) :
    ∀ i ∈ items, i.2.write.Emits i.2.typeTree := by
  cases items with
  | nil => simp
  | cons i items =>
    rintro j (_ | ⟨_, hj⟩)
    · exact i.2.write_emits
    · exact Expr.write_emits_of_mem items j hj

theorem Pred.write_emits (p : Pred) : p.write.Emits p.typeTree := by
  cases p with
  | absent => exact .throw _
  | truth => exact .pure fun types => .group .nil rfl
  | falsity => exact .pure fun types => .group .nil rfl
  | implies p q =>
    refine (p.write_emits.bind fun a => q.write_emits.bind_pure ?_).of_eq (by simp [Pred.typeTree])
    intro types b hb ha
    exact .group (.cons ha (.cons hb .nil)) rfl
  | equiv p q =>
    refine (p.write_emits.bind fun a => q.write_emits.bind_pure ?_).of_eq (by simp [Pred.typeTree])
    intro types b hb ha
    exact .group (.cons ha (.cons hb .nil)) rfl
  | compare op x y =>
    refine (x.write_emits.bind fun a => y.write_emits.bind_pure ?_).of_eq (by simp [Pred.typeTree])
    intro types b hb ha
    exact .group (.cons ha (.cons hb .nil)) rfl
  | not p =>
    cases p with
    | compare op x y => exact Pred.not_compare_emits x.write_emits y.write_emits
    | _ => exact Pred.not_emits nofun (Pred.write_emits _)
  | and ps =>
    refine ((Pred.writers_emit ps).bind_pure ?_).of_eq (by simp [Pred.typeTree])
    intro types es hes
    exact .group hes rfl
  | or ps =>
    refine ((Pred.writers_emit ps).bind_pure ?_).of_eq (by simp [Pred.typeTree])
    intro types es hes
    exact .group hes rfl
  | forAll vars body =>
    refine ((Write.typedVars_emits _ vars).bind fun vs => body.write_emits.bind_pure ?_).of_eq
      (by simp [Pred.typeTree])
    intro types b hb hvs
    exact .group (.cons hvs (.cons (.group (.cons hb .nil) rfl) .nil)) rfl
  | forSome vars body =>
    refine ((Write.typedVars_emits _ vars).bind fun vs => body.write_emits.bind_pure ?_).of_eq
      (by simp [Pred.typeTree])
    intro types b hb hvs
    exact .group (.cons hvs (.cons (.group (.cons hb .nil) rfl) .nil)) rfl

theorem Pred.writers_emit (ps : List Pred) :
    (Write.all (Pred.writers ps)).EmitsAll (Pred.typeTrees ps) := by
  cases ps with
  | nil => exact .pure fun types => .nil
  | cons p ps =>
    refine p.write_emits.bind fun e => (Pred.writers_emit ps).bind_pure ?_
    intro types es hes he
    exact .cons he hes
end

end BMethod
