import Mathlib
import BMethod.Goal.Write
import BMethod.Proofs.Goal.Reading

/-!
# Lifted predicates

Lifting a predicate changes neither how it is written nor, as long as no tag is met, what it is read
from. A tag parts the two grammars: a predicate passes over it and a goal keeps it.
-/

namespace BMethod

/-! ## Writing -/

mutual
theorem Pred.write_lift (p : Pred) : p.lift.write = p.write := by
  cases p with
  | absent | truth | falsity | compare => rfl
  | implies p q | equiv p q =>
    simp only [Pred.lift, Goal.write, Pred.write, p.write_lift, q.write_lift]
  | not p =>
    have ih := p.write_lift
    cases p
    case compare => rfl
    all_goals
      rw [Pred.lift, Pred.write, ← ih]
      · rfl
      · nofun
  | and ps | or ps => simp only [Pred.lift, Goal.write, Pred.write, Pred.writers_liftAll ps]
  | forAll vars p | forSome vars p => simp only [Pred.lift, Goal.write, Pred.write, p.write_lift]

theorem Pred.writers_liftAll (ps : List Pred) :
    Goal.writers (Pred.liftAll ps) = Pred.writers ps := by
  cases ps with
  | nil => rfl
  | cons p ps =>
    simp only [Pred.liftAll, Goal.writers, Pred.writers, p.write_lift, Pred.writers_liftAll ps]
end

/-! ## Elements that are read as formulas -/

namespace Element

/-- An element that is read as a formula because its parent connective is: an operand, a member of
the list or the body. What is compared are expressions, and no formulas. -/
inductive FormulaPart (e : Element) : Element → Prop
  | operand {c : Element} {i : Nat} (tag : e.tag = "Binary_Pred") (binary : i < 2)
      (place : e.children[i]? = some c) : FormulaPart e c
  | negated {c : Element} (tag : e.tag = "Unary_Pred") (place : e.children[0]? = some c) :
      FormulaPart e c
  | member {c : Element} (tag : e.tag = "Nary_Pred") (mem : c ∈ e.children) : FormulaPart e c
  | body {c : Element} (tag : e.tag = "Quantified_Pred") (inner : e.inner? "Body" = some c) :
      FormulaPart e c

/-- No element that is read as a formula, from the element itself on, is a tag. -/
def Untagged (e : Element) : Prop :=
  ∀ c, Relation.ReflTransGen FormulaPart e c → c.tag ≠ "Tag"

theorem Untagged.tag_ne {e : Element} (h : e.Untagged) : e.tag ≠ "Tag" :=
  h e .refl

theorem Untagged.part {e c : Element} (h : e.Untagged) (hc : e.FormulaPart c) : c.Untagged :=
  fun d hd => h d (.head hc hd)

theorem untagged_of_parts {e : Element} (htag : e.tag ≠ "Tag")
    (hparts : ∀ c, e.FormulaPart c → c.Untagged) : e.Untagged := by
  intro d hd
  obtain rfl | ⟨c, hc, hcd⟩ := hd.cases_head
  · exact htag
  · exact hparts c hc d hcd

theorem FormulaPart.mem_children {e c : Element} (h : e.FormulaPart c)
    (htag : e.tag ≠ "Quantified_Pred") : c ∈ e.children := by
  cases h with
  | operand _ _ place | negated _ place => exact List.mem_of_getElem? place
  | member _ mem => exact mem
  | body tag => exact absurd tag htag

end Element

/-! ## Reading -/

/-- What is joined, with the formulas replaced by others. -/
def Joined.map {F G : Type} (f : F → G) : Joined F → Joined G
  | .implies p q => .implies (f p) (f q)
  | .equiv p q => .equiv (f p) (f q)
  | .compare op negated x y => .compare op negated x y
  | .not p => .not (f p)
  | .and ps => .and (ps.map f)
  | .or ps => .or (ps.map f)
  | .forAll vars p => .forAll vars (f p)
  | .forSome vars p => .forSome vars (f p)

/-- An element that joins formulas joins what its parts say in another grammar. -/
theorem Joins.map {F G : Type} {f : F → G} {t : Table} {R R' : Element → Expr → Prop}
    {S : Element → F → Prop} {T : Element → G → Prop} {e : Element} {j : Joined F}
    (hR : ∀ c x, R c x → R' c x) (hS : ∀ c p, e.FormulaPart c → S c p → T c (f p))
    (h : Joins t R S e j) : Joins t R' T e (j.map f) := by
  have hall {ps : List F} (tag : e.tag = "Nary_Pred") (args : List.Forall₂ S e.children ps) :
      List.Forall₂ T e.children (ps.map f) := by
    rw [List.forall₂_map_right_iff]
    exact forall₂_imp_of_mem (fun c hc p hp => hS c p (.member tag hc) hp) args
  cases h with
  | implies tag op fst snd left right =>
    exact .implies tag op fst snd (hS _ _ (.operand tag Nat.zero_lt_two fst) left)
      (hS _ _ (.operand tag Nat.one_lt_two snd) right)
  | equiv tag op fst snd left right =>
    exact .equiv tag op fst snd (hS _ _ (.operand tag Nat.zero_lt_two fst) left)
      (hS _ _ (.operand tag Nat.one_lt_two snd) right)
  | compare tag attr symbol fst snd left right =>
    exact .compare tag attr symbol fst snd (hR _ _ left) (hR _ _ right)
  | not tag op fst arg => exact .not tag op fst (hS _ _ (.negated tag fst) arg)
  | and tag op args => exact .and tag op (hall tag args)
  | or tag op args => exact .or tag op (hall tag args)
  | forAll tag type first listed inner body =>
    exact .forAll tag type first listed inner (hS _ _ (.body tag inner) body)
  | forSome tag type first listed inner body =>
    exact .forSome tag type first listed inner (hS _ _ (.body tag inner) body)

theorem Pred.liftAll_eq_map (ps : List Pred) : Pred.liftAll ps = ps.map Pred.lift := by
  induction ps with
  | nil => rfl
  | cons p ps ih => rw [Pred.liftAll, ih, List.map_cons]

/-- Truth and falsity, which only predicates have, are lifted to the empty lists they stand for. -/
theorem Pred.lift_ofJoined (j : Joined Pred) :
    (Pred.ofJoined j).lift = Goal.ofJoined (j.map Pred.lift) := by
  cases j with
  | implies | equiv | not | forAll | forSome => rfl
  | compare op negated x y => cases negated <;> rfl
  | and ps | or ps =>
    cases ps with
    | nil => rfl
    | cons p ps => exact congrArg _ (Pred.liftAll_eq_map (p :: ps))

theorem Pred.Reads.lift {t : Table} {e : Element} {p : Pred} (h : Pred.Reads t e p) :
    e.Untagged → Goal.Reads t e p.lift := by
  -- Nothing is said of expressions, which are read alike in both grammars.
  refine (Expr.read_induction (P := fun _ _ => True)
    (Q := fun c q => c.Untagged → Goal.Reads t c q.lift) (fun _ _ _ => trivial) ?_ e).2 p h
  rintro e p (⟨joins⟩ | ⟨tag, -, -⟩) hfree
  · rw [Pred.lift_ofJoined]
    refine Goal.read_of_form (.joined (joins.map (fun _ _ hx => hx.1) ?_))
    exact fun c q hc hq => hq.2 (hfree.part hc)
  · exact absurd tag hfree.tag_ne

/-- Writing a lifted predicate does what writing the predicate does, on every pool: it gives the
same element or the same refusal, and leaves the same pool. An element that is read as a predicate
is read as the lifted predicate when a goal is expected, unless a tag is met among its formulas. -/
theorem lift_agrees :
    (∀ (p : Pred) (pool : Pool), p.lift.write.on pool = p.write.on pool) ∧
      ∀ (t : Table) (e : Element) (p : Pred), Pred.read t e = .ok p →
        (∀ c, Relation.ReflTransGen Element.FormulaPart e c → c.tag ≠ "Tag") →
        Goal.read t e = .ok p.lift :=
  ⟨fun p pool => by rw [p.write_lift], fun _ _ _ h hfree => Pred.Reads.lift h hfree⟩

/-- The negation of an empty conjunction beside an empty disjunction. -/
def sampleEmpties : Element :=
  .node "Nary_Pred" [⟨"op", "&"⟩]
    [.node "Unary_Pred" [⟨"op", "not"⟩] [.node "Nary_Pred" [⟨"op", "&"⟩] []],
      .node "Nary_Pred" [⟨"op", "or"⟩] []]

theorem lift_agrees_sample :
    Pred.read .empty sampleEmpties = .ok (.and [.not .truth, .falsity]) ∧ sampleEmpties.Untagged ∧
      Goal.read .empty sampleEmpties = .ok (.and [.not (.and []), .or []]) := by
  have hand : Pred.Reads .empty (.node "Nary_Pred" [⟨"op", "&"⟩] []) .truth :=
    Pred.read_of_form (.joined (j := .and []) (.and rfl rfl .nil))
  have hnot : Pred.Reads .empty
      (.node "Unary_Pred" [⟨"op", "not"⟩] [.node "Nary_Pred" [⟨"op", "&"⟩] []]) (.not .truth) :=
    Pred.read_of_form (.joined (j := .not .truth) (.not rfl rfl rfl hand))
  have hor : Pred.Reads .empty (.node "Nary_Pred" [⟨"op", "or"⟩] []) .falsity :=
    Pred.read_of_form (.joined (j := .or []) (.or rfl rfl .nil))
  have hread : Pred.Reads .empty sampleEmpties (.and [.not .truth, .falsity]) :=
    Pred.read_of_form (.joined (j := .and [.not .truth, .falsity])
      (.and rfl rfl (.cons hnot (.cons hor .nil))))
  have hleaf (op : String) : (Element.node "Nary_Pred" [⟨"op", op⟩] []).Untagged :=
    Element.untagged_of_parts (by simp) fun c hc => by
      simpa using hc.mem_children (by simp)
  have hfree : sampleEmpties.Untagged := by
    refine Element.untagged_of_parts (by decide) fun c hc => ?_
    obtain rfl | rfl : c = _ ∨ c = _ := by
      simpa [sampleEmpties] using hc.mem_children (by decide)
    · refine Element.untagged_of_parts (by simp) fun d hd => ?_
      obtain rfl : d = _ := by simpa using hd.mem_children (by simp)
      exact hleaf "&"
    · exact hleaf "or"
  exact ⟨hread, hfree, lift_agrees.2 _ _ _ hread hfree⟩

end BMethod
