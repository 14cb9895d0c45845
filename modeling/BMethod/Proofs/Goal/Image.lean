import Mathlib
import BMethod.Proofs.Goal.RoundTrip
import BMethod.Proofs.Subst.Image

/-!
# Goals that are read are in normal form

Whatever the element looks like, a goal that is read from it is well formed and in normal form, and
its types are in the table.
-/

namespace BMethod

variable {t : Table}

namespace Goal

/-- A well-formed goal in normal form whose types are in a table. -/
structure Normal (t : Table) (g : Goal) : Prop where
  wellFormed : g.WellFormed
  norm : g.norm = g
  types : g.types ⊆ t.types

theorem all_normal {gs : List Goal} (h : ∀ g ∈ gs, g.Normal t) :
    AllWellFormed gs ∧ normAll gs = gs ∧ typesAll gs ⊆ t.types := by
  induction gs with
  | nil => exact ⟨trivial, rfl, List.nil_subset _⟩
  | cons g gs ih =>
    have hg := h g List.mem_cons_self
    obtain ⟨hwf, hnorm, htypes⟩ := ih fun f hf => h f (List.mem_cons_of_mem _ hf)
    exact ⟨⟨hg.wellFormed, hwf⟩, by rw [normAll, hg.norm, hnorm],
      List.append_subset.2 ⟨hg.types, htypes⟩⟩

theorem Form.normal {e : Element} {g : Goal}
    (h : Form t (Expr.Reads t) (Pred.Reads t) (Subst.Reads t)
      (fun c g => Reads t c g ∧ g.Normal t) e g) : g.Normal t := by
  cases h with
  | joined joins =>
    cases joins with
    | implies _ _ _ _ left right | equiv _ _ _ _ left right =>
      exact ⟨⟨left.2.wellFormed, right.2.wellFormed⟩,
        by simp only [Goal.ofJoined, Goal.norm, left.2.norm, right.2.norm],
        List.append_subset.2 ⟨left.2.types, right.2.types⟩⟩
    | @compare _ _ _ op negated x y _ _ symbol _ _ left right =>
      have hop := Comparison.declared_of_ofSymbol? symbol
      have left := left.normal
      have right := right.normal
      have htypes : x.types ++ y.types ⊆ t.types := List.append_subset.2 ⟨left.types, right.types⟩
      cases negated
      all_goals
        exact ⟨⟨hop, left.wellFormed, right.wellFormed⟩,
          by simp [Goal.ofJoined, Goal.norm, left.norm, right.norm], htypes⟩
    | not _ _ _ arg =>
      exact ⟨arg.2.wellFormed, by simp only [Goal.ofJoined, Goal.norm, arg.2.norm], arg.2.types⟩
    | and _ _ args | or _ _ args =>
      obtain ⟨hwf, hnorm, htypes⟩ := all_normal (forall_of_forall₂ args)
      exact ⟨hwf, by simp only [Goal.ofJoined, Goal.norm, hnorm], htypes⟩
    | forAll _ _ _ listed _ body | forSome _ _ _ listed _ body =>
      exact ⟨⟨listed.wellFormed, body.2.wellFormed⟩,
        by simp only [Goal.ofJoined, Goal.norm, body.2.norm],
        List.append_subset.2 ⟨listed.types_subset, body.2.types⟩⟩
  | after _ _ _ _ subst goal =>
    have subst := subst.normal
    exact ⟨⟨subst.wellFormed, goal.2.wellFormed⟩, by rw [Goal.norm, subst.norm, goal.2.norm],
      List.append_subset.2 ⟨subst.types, goal.2.types⟩⟩
  | possible _ _ _ _ _ _ _ subst pred =>
    have subst := subst.normal
    have pred := pred.normal
    exact ⟨⟨subst.wellFormed, pred.wellFormed⟩, by rw [Goal.norm, subst.norm, pred.norm],
      List.append_subset.2 ⟨subst.types, pred.types⟩⟩
  | tagged _ _ _ goal | letFresh _ _ _ goal =>
    exact ⟨goal.2.wellFormed, by rw [Goal.norm, goal.2.norm], goal.2.types⟩

theorem Reads.normal {e : Element} {g : Goal} (h : Goal.Reads t e g) : g.Normal t :=
  read_induction (P := fun _ g => g.Normal t) (fun _ _ h => h.normal) e g h

end Goal

end BMethod
