import Mathlib
import BMethod.Goal.Write
import BMethod.Proofs.Goal.Reading
import BMethod.Proofs.Subst.RoundTrip

/-!
# Goals are read back

What is written for a well-formed goal is read as the goal with its expressions, predicates and
substitutions in normal form. Unlike predicates, conjunctions and disjunctions stay what they are.
-/

namespace BMethod

/-! ## Well-formedness and normal forms -/

mutual
/-- A goal without absent parts whose expressions, predicates and substitutions are well formed. -/
def Goal.WellFormed : Goal → Prop
  | .absent => False
  | .implies p q => p.WellFormed ∧ q.WellFormed
  | .equiv p q => p.WellFormed ∧ q.WellFormed
  | .compare op x y => op.Declared ∧ x.WellFormed ∧ y.WellFormed
  | .not p => p.WellFormed
  | .and ps => Goal.AllWellFormed ps
  | .or ps => Goal.AllWellFormed ps
  | .forAll vars body => TypedVar.AllWellFormed vars ∧ body.WellFormed
  | .forSome vars body => TypedVar.AllWellFormed vars ∧ body.WellFormed
  | .after s goal _ => s.WellFormed ∧ goal.WellFormed
  | .possible s p => s.WellFormed ∧ p.WellFormed
  | .tagged _ goal => goal.WellFormed
  | .letFresh _ goal => goal.WellFormed

def Goal.AllWellFormed : List Goal → Prop
  | [] => True
  | p :: ps => p.WellFormed ∧ Goal.AllWellFormed ps
end

mutual
/-- The goal with its expressions, predicates and substitutions in normal form. -/
def Goal.norm : Goal → Goal
  | .absent => .absent
  | .implies p q => .implies p.norm q.norm
  | .equiv p q => .equiv p.norm q.norm
  | .compare op x y => .compare op x.norm y.norm
  | .not p => .not p.norm
  | .and ps => .and (Goal.normAll ps)
  | .or ps => .or (Goal.normAll ps)
  | .forAll vars body => .forAll vars body.norm
  | .forSome vars body => .forSome vars body.norm
  | .after s goal overflow => .after s.norm goal.norm overflow
  | .possible s p => .possible s.norm p.norm
  | .tagged tag goal => .tagged tag goal.norm
  | .letFresh name goal => .letFresh name goal.norm

def Goal.normAll : List Goal → List Goal
  | [] => []
  | p :: ps => p.norm :: Goal.normAll ps
end

mutual
/-- The types in a goal, in the order in which they are met. -/
def Goal.types : Goal → List Ty
  | .absent => []
  | .implies p q => p.types ++ q.types
  | .equiv p q => p.types ++ q.types
  | .compare _ x y => x.types ++ y.types
  | .not p => p.types
  | .and ps => Goal.typesAll ps
  | .or ps => Goal.typesAll ps
  | .forAll vars body => vars.map (·.ty) ++ body.types
  | .forSome vars body => vars.map (·.ty) ++ body.types
  | .after s goal _ => s.types ++ goal.types
  | .possible s p => s.types ++ p.types
  | .tagged _ goal => goal.types
  | .letFresh _ goal => goal.types

def Goal.typesAll : List Goal → List Ty
  | [] => []
  | p :: ps => p.types ++ Goal.typesAll ps
end

/-! ## Trees -/

theorem Goal.reads_of_joins {t : Table} {e : Element} {j : Joined Goal} {g : Goal}
    (h : Joins t (Expr.Reads t) (Goal.Reads t) e j) (heq : g = Goal.ofJoined j) :
    Goal.Reads t e g := by
  rw [heq]
  exact Goal.read_of_form (.joined h)

theorem Goal.write_not {p : Goal} (hne : ∀ op x y, p ≠ .compare op x y) :
    (Goal.not p).write = (p.write >>= fun a => pure (.node "Unary_Pred" [⟨"op", "not"⟩] [a])) := by
  cases p with
  | compare op x y => exact absurd rfl (hne op x y)
  | _ => simp only [Goal.write]

theorem Goal.not_gives {p : Goal} (hne : ∀ op x y, p ≠ .compare op x y)
    (hp : p.write.Gives p.types fun t e => Goal.Reads t e p.norm) :
    (Goal.not p).write.Gives p.types fun t e => Goal.Reads t e (.not p.norm) := by
  rw [Goal.write_not hne]
  refine hp.bind_pure ?_
  intro t a ha
  exact Goal.reads_of_joins (.not rfl rfl rfl ha) rfl

mutual
theorem Goal.write_gives (g : Goal) (h : g.WellFormed) :
    g.write.Gives g.types fun t e => Goal.Reads t e g.norm := by
  cases g with
  | absent => exact h.elim
  | implies p q =>
    refine (p.write_gives h.1).bind fun a => (q.write_gives h.2).bind_pure ?_
    intro t b hb ha
    exact Goal.reads_of_joins (.implies rfl rfl rfl rfl ha hb) rfl
  | equiv p q =>
    refine (p.write_gives h.1).bind fun a => (q.write_gives h.2).bind_pure ?_
    intro t b hb ha
    exact Goal.reads_of_joins (.equiv rfl rfl rfl rfl ha hb) rfl
  | compare op x y =>
    refine (Pred.compare_gives (S := Goal.Reads) h.1 (x.write_gives h.2.1)
      (y.write_gives h.2.2)).mono ?_
    exact fun t e he => Goal.reads_of_joins he rfl
  | not p =>
    cases p with
    | compare op x y =>
      refine Pred.not_compare_gives (S := Goal.Reads) h.1 (x.write_gives h.2.1)
        (y.write_gives h.2.2) ?_ ?_
      · exact fun t e he => Goal.reads_of_joins he rfl
      · exact fun t a ha => Goal.reads_of_joins (.not rfl rfl rfl (Goal.reads_of_joins ha rfl)) rfl
    | _ => exact Goal.not_gives nofun (Goal.write_gives _ h)
  | and ps =>
    refine (Goal.writers_give ps h).bind_pure ?_
    intro t es hes
    exact Goal.reads_of_joins (.and rfl rfl hes) rfl
  | or ps =>
    refine (Goal.writers_give ps h).bind_pure ?_
    intro t es hes
    exact Goal.reads_of_joins (.or rfl rfl hes) rfl
  | forAll vars body =>
    refine (Write.typedVars_gives h.1).bind fun v => (body.write_gives h.2).bind_pure ?_
    rintro t b hb ⟨htag, hlisted⟩
    exact Goal.reads_of_joins (.forAll rfl rfl (Element.first?_cons htag) hlisted
      (by simp [Element.inner?_cons, Element.inner?_skip, htag]) hb) rfl
  | forSome vars body =>
    refine (Write.typedVars_gives h.1).bind fun v => (body.write_gives h.2).bind_pure ?_
    rintro t b hb ⟨htag, hlisted⟩
    exact Goal.reads_of_joins (.forSome rfl rfl (Element.first?_cons htag) hlisted
      (by simp [Element.inner?_cons, Element.inner?_skip, htag]) hb) rfl
  | after s goal overflow =>
    refine (s.write_gives h.1).bind fun a => (goal.write_gives h.2).bind_pure ?_
    intro t b hb ha
    exact Goal.read_of_form (.after rfl (by cases overflow <;> rfl) rfl rfl ha hb)
  | possible s p =>
    refine (s.write_gives h.1).bind fun a => (p.write_gives h.2).bind_pure ?_
    intro t b hb ha
    exact Goal.read_of_form (.possible rfl rfl rfl rfl rfl rfl rfl ha hb)
  | tagged tag goal =>
    refine (goal.write_gives h).bind_pure ?_
    intro t a ha
    exact Goal.read_of_form (.tagged rfl rfl rfl ha)
  | letFresh name goal =>
    refine (goal.write_gives h).bind_pure ?_
    intro t a ha
    exact Goal.read_of_form (.letFresh rfl rfl rfl ha)

theorem Goal.writers_give (gs : List Goal) (h : Goal.AllWellFormed gs) :
    (Write.all (Goal.writers gs)).Gives (Goal.typesAll gs) fun t es =>
      List.Forall₂ (Goal.Reads t) es (Goal.normAll gs) := by
  cases gs with
  | nil => exact .pure fun t => .nil
  | cons g gs =>
    refine (g.write_gives h.1).bind fun e => (Goal.writers_give gs h.2).bind_pure ?_
    intro t es hes he
    exact .cons he hes
end

/-- A well-formed goal is written on every pool that writing can reach, which then has its types
too, and is read as its normal form with every table that begins with the types of the pool. The
numbers of types have to fit a word, as the places of a list in memory do. -/
theorem goal_round_trip {p : Pool} (hp : p.Reachable) {g : Goal} (hg : g.WellFormed) :
    ∃ e, g.write.on p = (.ok e, p.addAll g.types) ∧
      ((p.addAll g.types).Addressable → ∀ t : Table, (p.addAll g.types).types <+: t.types →
        Goal.read t e = .ok g.norm) := by
  obtain ⟨e, hon, -, hread⟩ := g.write_gives hg p hp.sound
  exact ⟨e, hon, hread⟩

/-- A tagged goal with an empty conjunction, and next to it a substitution and a negated predicate
that is an empty conjunction. -/
def sampleGoal : Goal :=
  .tagged "g" (.implies (.and []) (.not (.possible .skip (.not (.and [])))))

theorem goal_round_trip_sample :
    ∃ e, sampleGoal.write.on .empty = (.ok e, .empty) ∧
      Goal.read .empty e =
        .ok (.tagged "g" (.implies (.and []) (.not (.possible .skip (.not .truth))))) := by
  have hwf : sampleGoal.WellFormed := ⟨trivial, trivial, trivial⟩
  obtain ⟨e, hon, hread⟩ := goal_round_trip .empty hwf
  exact ⟨e, hon, hread (Pool.addressable_addAll_empty (by decide)) .empty (List.prefix_refl _)⟩

end BMethod
