import Mathlib
import BMethod.Goal.Read
import BMethod.Proofs.Subst.Reading

/-!
# What goals are read from

One step of reading a goal as a relation. The connectives are those of predicates.
-/

namespace BMethod

namespace Goal

def ofJoined : Joined Goal → Goal
  | .implies p q => .implies p q
  | .equiv p q => .equiv p q
  | .compare op negated x y => if negated then .not (.compare op x y) else .compare op x y
  | .not p => .not p
  | .and ps => .and ps
  | .or ps => .or ps
  | .forAll vars p => .forAll vars p
  | .forSome vars p => .forSome vars p

/-- What an element says about a goal, when `R`, `S`, `T` and `G` are what the elements inside it
say about expressions, predicates, substitutions and goals. -/
inductive Form (t : Table) (R : Element → Expr → Prop) (S : Element → Pred → Prop)
    (T : Element → Subst → Prop) (G : Element → Goal → Prop) (e : Element) : Goal → Prop
  | joined {j : Joined Goal} (joins : Joins t R G e j) : Form t R S T G e (.ofJoined j)
  | after {a b : Element} {s : Subst} {g : Goal} {overflow : Bool} (tag : e.tag = "Sub_Calculus")
      (mark : readOverflow e = .ok overflow) (fst : e.children[0]? = some a)
      (snd : e.children[1]? = some b) (subst : T a s) (goal : G b g) :
      Form t R S T G e (.after s g overflow)
  | possible {c a n b : Element} {s : Subst} {p : Pred} (tag : e.tag = "Not")
      (first : e.first? "" = some c) (calculus : c.tag = "Sub_Calculus")
      (fst : c.children[0]? = some a) (snd : c.children[1]? = some n) (negation : n.tag = "Not")
      (inner : n.first? "" = some b) (subst : T a s) (pred : S b p) :
      Form t R S T G e (.possible s p)
  | tagged {a : Element} {g : Goal} {name : String} (tag : e.tag = "Tag")
      (attr : e.attr? "goalTag" = some name) (first : e.first? "" = some a) (goal : G a g) :
      Form t R S T G e (.tagged name g)
  | letFresh {a : Element} {g : Goal} {name : String} (tag : e.tag = "Let_Fresh_Id")
      (attr : e.attr? "name" = some name) (first : e.first? "" = some a) (goal : G a g) :
      Form t R S T G e (.letFresh name g)

section
variable {t : Table} {R R' : Element → Expr → Prop} {S S' : Element → Pred → Prop}
  {T T' : Element → Subst → Prop} {G G' : Element → Goal → Prop} {e : Element}

theorem Form.imp {g : Goal} (hR : ∀ c x, R c x → R' c x) (hS : ∀ c p, S c p → S' c p)
    (hT : ∀ c s, T c s → T' c s) (hG : ∀ c g, sizeOf c < sizeOf e → G c g → G' c g)
    (h : Form t R S T G e g) : Form t R' S' T' G' e g := by
  cases h with
  | joined joins => exact .joined (joins.imp (fun c x _ => hR c x) hG)
  | after tag mark fst snd subst goal =>
    exact .after tag mark fst snd (hT _ _ subst) (hG _ _ (Element.sizeOf_lt_of_getElem? snd) goal)
  | possible tag first calculus fst snd negation inner subst pred =>
    exact .possible tag first calculus fst snd negation inner (hT _ _ subst) (hS _ _ pred)
  | tagged tag attr first goal =>
    exact .tagged tag attr first (hG _ _ (Element.sizeOf_lt_of_first? first) goal)
  | letFresh tag attr first goal =>
    exact .letFresh tag attr first (hG _ _ (Element.sizeOf_lt_of_first? first) goal)

end

/-! ## The readers -/

abbrev Reads (t : Table) (e : Element) (g : Goal) : Prop :=
  Goal.read t e = .ok g

section
variable {t : Table} {e : Element} {es : List Element}

theorem readAll_eq_ok {gs : List Goal} :
    Goal.readAll t es = .ok gs ↔ List.Forall₂ (Reads t) es gs := by
  induction es generalizing gs with
  | nil => cases gs <;> simp [Goal.readAll, pure_eq_ok]
  | cons e es ih =>
    rw [Goal.readAll]
    simp only [bind_eq_ok, pure_eq_ok, ih]
    constructor
    · rintro ⟨g, hg, gs, hgs, rfl⟩
      exact .cons hg hgs
    · rintro (_ | ⟨hg, hgs⟩)
      exact ⟨_, hg, _, hgs, rfl⟩

theorem readPossible_eq_ok {g : Goal} :
    readPossible t e = .ok g ↔ ∃ c a n b s p, e.first? "" = some c ∧ c.tag = "Sub_Calculus" ∧
      c.children[0]? = some a ∧ c.children[1]? = some n ∧ n.tag = "Not" ∧ n.first? "" = some b ∧
      Subst.Reads t a s ∧ Pred.Reads t b p ∧ g = .possible s p := by
  unfold readPossible
  constructor
  · intro h
    split at h
    · exact absurd h (Element.complain_ne_ok _ _ _)
    · rename_i c hc
      split at h
      · exact absurd h (Element.complain_ne_ok _ _ _)
      · rename_i hcalculus
        split at h
        · exact absurd h (Element.complain_ne_ok _ _ _)
        · exact absurd h (Element.complain_ne_ok _ _ _)
        · rename_i a n rest hchildren
          split at h
          · exact absurd h (Element.complain_ne_ok _ _ _)
          · rename_i hnot
            split at h
            · exact absurd h (Element.complain_ne_ok _ _ _)
            · rename_i b hb
              simp only [bind_eq_ok, pure_eq_ok] at h
              obtain ⟨s, hs, p, hp, rfl⟩ := h
              exact ⟨c, a, n, b, s, p, hc, not_not.1 hcalculus, by simp [hchildren],
                by simp [hchildren], not_not.1 hnot, hb, hs, hp, rfl⟩
  · rintro ⟨c, a, n, b, s, p, hc, hcalculus, hfst, hsnd, hnot, hb, hs, hp, rfl⟩
    have hchildren : ∃ rest, c.children = a :: n :: rest := by
      match hcs : c.children with
      | [] => simp [hcs] at hfst
      | [_] => simp [hcs] at hsnd
      | x :: y :: rest =>
        simp only [hcs, List.getElem?_cons_zero, List.getElem?_cons_succ, Option.some.injEq]
          at hfst hsnd
        exact ⟨rest, by rw [hfst, hsnd]⟩
    obtain ⟨rest, hchildren⟩ := hchildren
    have hs' : Subst.read t a = .ok s := hs
    have hp' : Pred.read t b = .ok p := hp
    simp [hc, hcalculus, hchildren, hnot, hb, hs', hp']

theorem form_of_read {g : Goal} (h : Goal.read t e = .ok g) :
    Form t (Expr.Reads t) (Pred.Reads t) (Subst.Reads t) (Reads t) e g := by
  rw [Goal.read] at h
  obtain ⟨k, hk, h⟩ := bind_eq_ok.1 h
  have join {j : Joined Goal} {k' : Connective e} (heq : k = some k')
      (hj : k'.Resolves (Expr.Reads t) (Reads t) j) :
      Form t (Expr.Reads t) (Pred.Reads t) (Subst.Reads t) (Reads t) e (.ofJoined j) := by
    subst heq
    exact .joined (Connective.joins_iff.2 ⟨k', hk, hj⟩)
  split at h
  · simp only [bind_eq_ok, pure_eq_ok] at h
    obtain ⟨p, hp, q, hq, rfl⟩ := h
    exact join (j := .implies p q) rfl ⟨hp, hq⟩
  · simp only [bind_eq_ok, pure_eq_ok] at h
    obtain ⟨p, hp, q, hq, rfl⟩ := h
    exact join (j := .equiv p q) rfl ⟨hp, hq⟩
  · rename_i op negated a b
    simp only [bind_eq_ok, pure_eq_ok] at h
    obtain ⟨x, hx, y, hy, rfl⟩ := h
    exact join (j := .compare op negated x y) rfl ⟨rfl, rfl, hx, hy⟩
  · simp only [bind_eq_ok, pure_eq_ok] at h
    obtain ⟨p, hp, rfl⟩ := h
    exact join (j := .not p) rfl hp
  · simp only [bind_eq_ok, pure_eq_ok, readAll_eq_ok] at h
    obtain ⟨ps, hps, rfl⟩ := h
    exact join (j := .and ps) rfl hps
  · simp only [bind_eq_ok, pure_eq_ok, readAll_eq_ok] at h
    obtain ⟨ps, hps, rfl⟩ := h
    exact join (j := .or ps) rfl hps
  · rename_i vars a
    simp only [bind_eq_ok, pure_eq_ok] at h
    obtain ⟨p, hp, rfl⟩ := h
    exact join (j := .forAll vars p) rfl ⟨rfl, hp⟩
  · rename_i vars a
    simp only [bind_eq_ok, pure_eq_ok] at h
    obtain ⟨p, hp, rfl⟩ := h
    exact join (j := .forSome vars p) rfl ⟨rfl, hp⟩
  · split at h <;> rename_i tag
    · simp only [bind_eq_ok, pure_eq_ok, Element.needTwo_eq_ok] at h
      obtain ⟨overflow, mark, cs, ⟨fst, snd⟩, s, subst, g, goal, rfl⟩ := h
      exact .after tag mark fst snd subst goal
    · obtain ⟨c, a, n, b, s, p, first, calculus, fst, snd, negation, inner, subst, pred, rfl⟩ :=
        readPossible_eq_ok.1 h
      exact .possible tag first calculus fst snd negation inner subst pred
    · simp only [bind_eq_ok, pure_eq_ok, Element.needAttr_eq_ok, Element.needChild_eq_ok] at h
      obtain ⟨name, attr, a, first, g, goal, rfl⟩ := h
      exact .tagged tag attr first goal
    · simp only [bind_eq_ok, pure_eq_ok, Element.needAttr_eq_ok, Element.needChild_eq_ok] at h
      obtain ⟨name, attr, a, first, g, goal, rfl⟩ := h
      exact .letFresh tag attr first goal
    · exact absurd h (Element.complain_ne_ok _ _ _)

theorem read_of_form {g : Goal}
    (h : Form t (Expr.Reads t) (Pred.Reads t) (Subst.Reads t) (Reads t) e g) :
    Goal.read t e = .ok g := by
  have hnone (hout : e.tag ∉ Connective.tags) : Connective.read? t e = .ok none :=
    Connective.read?_eq_none.2 hout
  rw [Goal.read]
  cases h with
  | @joined j joins =>
    obtain ⟨k, hk, hj⟩ := Connective.joins_iff.1 joins
    rw [hk]
    cases k <;> cases j <;> simp only [Connective.Resolves] at hj
    · simp [hj.1, hj.2, ofJoined]
    · simp [hj.1, hj.2, ofJoined]
    · obtain ⟨rfl, rfl, hx, hy⟩ := hj
      simp [hx, hy, ofJoined]
    · simp [hj, ofJoined]
    · simp [readAll_eq_ok.2 hj, ofJoined]
    · simp [readAll_eq_ok.2 hj, ofJoined]
    · simp [hj.1, hj.2, ofJoined]
    · simp [hj.1, hj.2, ofJoined]
  | after tag mark fst snd subst goal =>
    rw [hnone (by rw [tag]; decide)]
    simp [tag, mark, Element.needTwo_of fst snd, subst, goal]
  | possible tag first calculus fst snd negation inner subst pred =>
    rw [hnone (by rw [tag]; decide)]
    simp [tag, readPossible_eq_ok.2 ⟨_, _, _, _, _, _, first, calculus, fst, snd, negation, inner,
      subst, pred, rfl⟩]
  | tagged tag attr first goal =>
    rw [hnone (by rw [tag]; decide)]
    simp [tag, Element.needAttr_eq_ok.2 attr, Element.needChild_of first, goal]
  | letFresh tag attr first goal =>
    rw [hnone (by rw [tag]; decide)]
    simp [tag, Element.needAttr_eq_ok.2 attr, Element.needChild_of first, goal]

theorem read_eq_ok {g : Goal} :
    Goal.read t e = .ok g ↔
      Form t (Expr.Reads t) (Pred.Reads t) (Subst.Reads t) (Reads t) e g :=
  ⟨form_of_read, read_of_form⟩

theorem read_induction {P : Element → Goal → Prop}
    (hP : ∀ e g, Form t (Expr.Reads t) (Pred.Reads t) (Subst.Reads t)
      (fun c g => Reads t c g ∧ P c g) e g → P e g)
    (e : Element) (g : Goal) (h : Reads t e g) : P e g := by
  induction hn : sizeOf e using Nat.strong_induction_on generalizing e g with
  | _ n ih =>
    subst hn
    refine hP e g ((form_of_read h).imp (fun _ _ hx => hx) (fun _ _ hp => hp) (fun _ _ hs => hs) ?_)
    exact fun c g hc hg => ⟨hg, ih _ hc c g hg rfl⟩

end

end Goal

end BMethod
