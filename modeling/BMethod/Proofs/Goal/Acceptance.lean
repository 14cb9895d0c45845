import Mathlib
import BMethod.Proofs.Goal.RoundTrip
import BMethod.Proofs.Subst.Acceptance

/-!
# Which goals are accepted after they were written

A goal that was written is read back exactly if its operators are declared and the expressions,
predicates, substitutions and variables in it are legible.
-/

namespace BMethod

/-! ## Legibility -/

mutual
/-- A goal whose element is accepted when it is written. -/
def Goal.Legible : Goal → Prop
  | .absent => False
  | .implies p q => p.Legible ∧ q.Legible
  | .equiv p q => p.Legible ∧ q.Legible
  | .compare op x y => op.Declared ∧ x.Legible ∧ y.Legible
  | .not p => p.Legible
  | .and ps => Goal.AllLegible ps
  | .or ps => Goal.AllLegible ps
  | .forAll vars body => TypedVar.AllLegible vars ∧ body.Legible
  | .forSome vars body => TypedVar.AllLegible vars ∧ body.Legible
  | .after s goal _ => s.Legible ∧ goal.Legible
  | .possible s p => s.Legible ∧ p.Legible
  | .tagged _ goal => goal.Legible
  | .letFresh _ goal => goal.Legible

def Goal.AllLegible : List Goal → Prop
  | [] => True
  | p :: ps => p.Legible ∧ Goal.AllLegible ps
end

/-! ## Parts of readers -/

theorem Goal.readsComparisons (t : Table) : ReadsComparisons t (Goal.read t) where
  refused e h := by
    rw [Goal.read]
    rintro ⟨g, hg⟩
    obtain ⟨k, hk, -⟩ := bind_eq_ok.1 hg
    exact h ⟨k, hk⟩
  sides e op negated x y h := by
    rw [Goal.read, h, ok_bind]
    exact ⟨_, rfl⟩

theorem Goal.accepted_not {t : Table} {a : Element} {P : Prop} (h : Accepted (Goal.read t a) ↔ P) :
    Accepted (Goal.read t (.node "Unary_Pred" [⟨"op", "not"⟩] [a])) ↔ P := by
  rw [Goal.read, Connective.read?_not, ok_bind]
  exact accepted_bind_pure h

theorem Goal.not_admitted {p : Goal} (hne : ∀ op x y, p ≠ .compare op x y)
    (hp : p.write.Admitted p.types Goal.read p.Legible) :
    (Goal.not p).write.Admitted p.types Goal.read p.Legible := by
  rw [Goal.write_not hne]
  refine Write.Numbers.bind_pure hp ?_
  intro types a ha hsize
  exact Goal.accepted_not (ha hsize)

theorem Connective.read?_node {t : Table} {tag : String} {attrs : List Attr} {cs : List Element}
    (h : tag ∉ Connective.tags) : Connective.read? t (.node tag attrs cs) = .ok none :=
  Connective.read?_eq_none.2 h

/-! ## Trees -/

mutual
theorem Goal.write_admitted (g : Goal) : g.write.Admitted g.types Goal.read g.Legible := by
  cases g with
  | absent => exact .throw _
  | implies p q =>
    refine p.write_admitted.bind fun a => q.write_admitted.bind_pure ?_
    intro types b hq hp hsize
    rw [Goal.read, Connective.read?_implies, ok_bind]
    exact accepted_bind (hp hsize) fun _ _ => accepted_bind_pure (hq hsize)
  | equiv p q =>
    refine p.write_admitted.bind fun a => q.write_admitted.bind_pure ?_
    intro types b hq hp hsize
    rw [Goal.read, Connective.read?_equiv, ok_bind]
    exact accepted_bind (hp hsize) fun _ _ => accepted_bind_pure (hq hsize)
  | compare op x y =>
    refine x.write_admitted.bind fun a => y.write_admitted.bind_pure ?_
    intro types b hy hx hsize
    exact (Goal.readsComparisons _).accepted (hx hsize) (hy hsize)
  | not p =>
    cases p with
    | compare op x y =>
      exact Pred.not_compare_admitted Goal.readsComparisons (fun _ _ _ => Goal.accepted_not)
        x.write_admitted y.write_admitted
    | _ => exact Goal.not_admitted nofun (Goal.write_admitted _)
  | and ps =>
    refine (Goal.writers_admitted ps).bind_pure ?_
    intro types es hes hsize
    rw [Goal.read, Connective.read?_and, ok_bind, Element.children_node]
    exact accepted_bind_pure (hes hsize)
  | or ps =>
    refine (Goal.writers_admitted ps).bind_pure ?_
    intro types es hes hsize
    rw [Goal.read, Connective.read?_or, ok_bind, Element.children_node]
    exact accepted_bind_pure (hes hsize)
  | forAll vars body =>
    refine (Write.typedVars_admitted _ vars).bind fun v => body.write_admitted.bind_pure ?_
    rintro types b hb ⟨htag, -, hv⟩ hsize
    rw [Goal.read, Connective.read?_forAll htag, bind_map_left]
    exact accepted_bind (hv hsize) fun _ _ => accepted_bind_pure (hb hsize)
  | forSome vars body =>
    refine (Write.typedVars_admitted _ vars).bind fun v => body.write_admitted.bind_pure ?_
    rintro types b hb ⟨htag, -, hv⟩ hsize
    rw [Goal.read, Connective.read?_forSome htag, bind_map_left]
    exact accepted_bind (hv hsize) fun _ _ => accepted_bind_pure (hb hsize)
  | after s goal overflow =>
    refine s.write_admitted.bind fun a => goal.write_admitted.bind_pure ?_
    intro types b hb ha hsize
    have hmark : Goal.readOverflow (.node "Sub_Calculus"
        [⟨"overflow", if overflow then "true" else "false"⟩] [a, b]) = .ok overflow := by
      cases overflow <;> rfl
    rw [Goal.read, Connective.read?_node (by decide)]
    simp only [ok_bind, Element.tag_node, hmark, Element.needTwo_node]
    exact accepted_bind (ha hsize) fun _ _ => accepted_bind_pure (hb hsize)
  | possible s p =>
    refine s.write_admitted.bind fun a => p.write_admitted.bind_pure ?_
    intro types b hb ha hsize
    -- The two negations and the calculus between them are read as one goal.
    have hpossible : Goal.readPossible ⟨types⟩ (.node "Not" []
        [.wrap "Sub_Calculus" [a, .wrap "Not" [b]]]) = (do
          let s ← Subst.read ⟨types⟩ a
          let p ← Pred.read ⟨types⟩ b
          pure (.possible s p)) :=
      rfl
    rw [Element.wrap_eq, Goal.read, Connective.read?_node (by decide)]
    simp only [ok_bind, Element.tag_node, hpossible]
    exact accepted_bind (ha hsize) fun _ _ => accepted_bind_pure (hb hsize)
  | tagged tag goal =>
    refine goal.write_admitted.bind_pure ?_
    intro types a ha hsize
    have hattr : (Element.node "Tag" [⟨"goalTag", tag⟩] [a]).needAttr "goalTag" = .ok tag := rfl
    rw [Goal.read, Connective.read?_node (by decide)]
    simp only [ok_bind, Element.tag_node, hattr, Element.needFirst_node]
    exact accepted_bind_pure (ha hsize)
  | letFresh name goal =>
    refine goal.write_admitted.bind_pure ?_
    intro types a ha hsize
    have hattr : (Element.node "Let_Fresh_Id" [⟨"name", name⟩] [a]).needAttr "name" = .ok name :=
      rfl
    rw [Goal.read, Connective.read?_node (by decide)]
    simp only [ok_bind, Element.tag_node, hattr, Element.needFirst_node]
    exact accepted_bind_pure (ha hsize)

theorem Goal.writers_admitted (gs : List Goal) :
    (Write.all (Goal.writers gs)).Numbers (Goal.typesAll gs) fun types es =>
      types.length ≤ 9223372036854775808 →
        (Accepted (Goal.readAll ⟨types⟩ es) ↔ Goal.AllLegible gs) := by
  cases gs with
  | nil =>
    refine .pure fun types _ => ?_
    rw [Goal.readAll]
    exact iff_true_intro (accepted_pure [])
  | cons g gs =>
    refine g.write_admitted.bind fun e => (Goal.writers_admitted gs).bind_pure ?_
    intro types es hes he hsize
    rw [Goal.readAll]
    exact accepted_bind (he hsize) fun _ _ => accepted_bind_pure (hes hsize)
end

end BMethod
