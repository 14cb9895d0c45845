import Mathlib
import BMethod.Document
import BMethod.Proofs.Formula.Agreement
import BMethod.Proofs.Goal.Lift
import BMethod.Proofs.Goal.Printing

/-!
# Items that were read

An item that was read from a document, whatever its kind, needs only types of the table of the
document, is read back from what is written for it, and can stand in a document again.
-/

namespace BMethod

open Element (Agrees Clean Printable)

/-! ## Lifting -/

mutual
theorem Pred.types_lift (p : Pred) : p.lift.types = p.types := by
  cases p with
  | absent | truth | falsity | compare => rfl
  | implies p q | equiv p q =>
    simp only [Pred.lift, Goal.types, Pred.types, p.types_lift, q.types_lift]
  | not p | forAll vars p | forSome vars p =>
    simp only [Pred.lift, Goal.types, Pred.types, p.types_lift]
  | and ps | or ps => simp only [Pred.lift, Goal.types, Pred.types, Pred.typesAll_liftAll ps]

theorem Pred.typesAll_liftAll (ps : List Pred) :
    Goal.typesAll (Pred.liftAll ps) = Pred.typesAll ps := by
  cases ps with
  | nil => rfl
  | cons p ps =>
    simp only [Pred.liftAll, Goal.typesAll, Pred.typesAll, p.types_lift, Pred.typesAll_liftAll ps]
end

/-! ## Elements that hold items -/

namespace Item

variable {k : ItemKind} {t t' : Table} {e e' : Element} {item : Item}

/-- What an element says about an item of a kind. -/
inductive Form (t : Table) (e : Element) : ItemKind → Item → Prop
  | expr {x : Expr} (formula : Expr.Reads t e x) : Form t e .expr (.expr x)
  | pred {p : Pred} (formula : Pred.Reads t e p) : Form t e .pred (.pred p)
  | goal {g : Goal} (formula : Goal.Reads t e g) : Form t e .goal (.goal g)
  | subst {s : Subst} (formula : Subst.Reads t e s) : Form t e .subst (.subst s)
  | lift {p : Pred} (formula : Pred.Reads t e p) : Form t e .lift (.goal p.lift)

theorem read_eq_ok : Item.read k t e = .ok item ↔ Form t e k item := by
  constructor
  · intro h
    cases k
    all_goals
      obtain ⟨x, hx, rfl⟩ := map_eq_ok.1 h
      constructor
      exact hx
  · intro h
    cases h
    all_goals exact map_eq_ok.2 ⟨_, ‹_›, rfl⟩

theorem Form.agrees (h : Form t e k item) (he : Agrees t t' e e') : Form t' e' k item := by
  cases h with
  | expr formula => exact .expr (formula.agrees he)
  | pred formula => exact .pred (formula.agrees he)
  | goal formula => exact .goal (formula.agrees he)
  | subst formula => exact .subst (formula.agrees he)
  | lift formula => exact .lift (formula.agrees he)

theorem Form.tag_ne (h : Form t e k item) : e.tag ≠ "TypeInfos" := by
  intro htag
  have hnone : Connective.read? t e = .ok none :=
    Connective.read?_eq_none.2 (by rw [htag]; decide)
  cases h with
  | expr formula =>
    rw [Expr.Reads, Expr.read] at formula
    simp [htag, Element.complain_ne_ok] at formula
  | pred formula | lift formula =>
    rw [Pred.Reads, Pred.read, hnone] at formula
    simp [htag, Element.complain_ne_ok] at formula
  | goal formula =>
    rw [Goal.Reads, Goal.read, hnone] at formula
    simp [htag, Element.complain_ne_ok] at formula
  | subst formula =>
    rw [Subst.Reads, Subst.read] at formula
    simp [htag, Element.complain_ne_ok] at formula

/-! ## Writing items -/

/-- The types in an item, in the order in which they are met. -/
def types : Item → List Ty
  | expr x => x.types
  | pred p => p.types
  | goal g => g.types
  | subst s => s.types

theorem Form.types_subset (h : Form t e k item) : item.types ⊆ t.types := by
  cases h with
  | expr formula => exact formula.normal.types
  | pred formula => exact formula.normal.types
  | goal formula => exact formula.normal.types
  | subst formula => exact formula.normal.types
  | @lift p formula =>
    rw [types, p.types_lift]
    exact formula.normal.types

/-- An item that was read is in normal form, so what is written for it is read as the same item. -/
theorem Form.write_gives (h : Form t e k item) :
    item.write.Gives item.types fun u a => Form u a k item := by
  cases h with
  | @expr x formula =>
    have hwrite := x.write_gives formula.normal.wellFormed
    rw [formula.normal.norm] at hwrite
    exact hwrite.mono fun _ _ => .expr
  | @pred p formula =>
    have hwrite := p.write_gives formula.normal.wellFormed
    rw [formula.normal.norm] at hwrite
    exact hwrite.mono fun _ _ => .pred
  | @goal g formula =>
    have hwrite := g.write_gives formula.normal.wellFormed
    rw [formula.normal.norm] at hwrite
    exact hwrite.mono fun _ _ => .goal
  | @subst s formula =>
    have hwrite := s.write_gives formula.normal.wellFormed
    rw [formula.normal.norm] at hwrite
    exact hwrite.mono fun _ _ => .subst
  | @lift p formula =>
    have hwrite := p.write_gives formula.normal.wellFormed
    rw [formula.normal.norm] at hwrite
    rw [write, types, p.write_lift, p.types_lift]
    exact hwrite.mono fun _ _ => .lift

theorem Form.write_yields (h : Form t e k item) (he : e.Clean) : item.write.Yields Printable := by
  cases h with
  | expr formula => exact formula.yields he
  | pred formula => exact formula.yields he
  | goal formula => exact formula.yields he
  | subst formula => exact formula.yields he
  | @lift p formula =>
    rw [write, p.write_lift]
    exact formula.yields he

end Item

end BMethod
