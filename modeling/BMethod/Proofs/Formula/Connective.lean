import Mathlib
import BMethod.Formula.Connective
import BMethod.Proofs.Formula.Typing

/-!
# Connectives in a document

What an element says about a formula when it is that of a connective. The relations for the
expressions and formulas inside are parameters, so that predicates and goals share the rules.
-/

namespace BMethod

/-- A formula made of formulas and expressions by a connective. -/
inductive Joined (F : Type) where
  | implies (p q : F)
  | equiv (p q : F)
  | compare (op : Comparison) (negated : Bool) (x y : Expr)
  | not (p : F)
  | and (ps : List F)
  | or (ps : List F)
  | forAll (vars : List TypedVar) (body : F)
  | forSome (vars : List TypedVar) (body : F)

variable {F : Type}

/-- The element of a connective says what is joined, when `R` is what the elements inside it say
about expressions and `S` what they say about formulas. -/
inductive Joins (t : Table) (R : Element → Expr → Prop) (S : Element → F → Prop) (e : Element) :
    Joined F → Prop
  | implies {a b : Element} {p q : F} (tag : e.tag = "Binary_Pred") (op : e.attr? "op" = some "=>")
      (fst : e.children[0]? = some a) (snd : e.children[1]? = some b) (left : S a p)
      (right : S b q) : Joins t R S e (.implies p q)
  | equiv {a b : Element} {p q : F} (tag : e.tag = "Binary_Pred") (op : e.attr? "op" = some "<=>")
      (fst : e.children[0]? = some a) (snd : e.children[1]? = some b) (left : S a p)
      (right : S b q) : Joins t R S e (.equiv p q)
  | compare {a b : Element} {s : String} {op : Comparison} {negated : Bool} {x y : Expr}
      (tag : e.tag = "Exp_Comparison") (attr : e.attr? "op" = some s)
      (symbol : Comparison.ofSymbol? s = some (op, negated)) (fst : e.children[0]? = some a)
      (snd : e.children[1]? = some b) (left : R a x) (right : R b y) :
      Joins t R S e (.compare op negated x y)
  | not {a : Element} {p : F} (tag : e.tag = "Unary_Pred") (op : e.attr? "op" = some "not")
      (fst : e.children[0]? = some a) (arg : S a p) : Joins t R S e (.not p)
  | and {ps : List F} (tag : e.tag = "Nary_Pred") (op : e.attr? "op" = some "&")
      (args : List.Forall₂ S e.children ps) : Joins t R S e (.and ps)
  | or {ps : List F} (tag : e.tag = "Nary_Pred") (op : e.attr? "op" = some "or")
      (args : List.Forall₂ S e.children ps) : Joins t R S e (.or ps)
  | forAll {c a : Element} {vars : List TypedVar} {p : F} (tag : e.tag = "Quantified_Pred")
      (type : e.attr? "type" = some "!") (first : e.first? "Variables" = some c)
      (listed : TypedVar.Listed t c.children vars) (inner : e.inner? "Body" = some a)
      (body : S a p) : Joins t R S e (.forAll vars p)
  | forSome {c a : Element} {vars : List TypedVar} {p : F} (tag : e.tag = "Quantified_Pred")
      (type : e.attr? "type" = some "#") (first : e.first? "Variables" = some c)
      (listed : TypedVar.Listed t c.children vars) (inner : e.inner? "Body" = some a)
      (body : S a p) : Joins t R S e (.forSome vars p)

namespace Joins

variable {t : Table} {R R' : Element → Expr → Prop} {S S' : Element → F → Prop} {e : Element}
  {j : Joined F}

theorem imp (hR : ∀ c x, sizeOf c < sizeOf e → R c x → R' c x)
    (hS : ∀ c p, sizeOf c < sizeOf e → S c p → S' c p) (h : Joins t R S e j) :
    Joins t R' S' e j := by
  have hall : ∀ {ps}, List.Forall₂ S e.children ps → List.Forall₂ S' e.children ps := by
    intro ps
    exact forall₂_imp_of_mem fun c hc p hp => hS c p (Element.sizeOf_lt_of_mem_children hc) hp
  cases h with
  | implies tag op fst snd left right =>
    exact .implies tag op fst snd (hS _ _ (Element.sizeOf_lt_of_getElem? fst) left)
      (hS _ _ (Element.sizeOf_lt_of_getElem? snd) right)
  | equiv tag op fst snd left right =>
    exact .equiv tag op fst snd (hS _ _ (Element.sizeOf_lt_of_getElem? fst) left)
      (hS _ _ (Element.sizeOf_lt_of_getElem? snd) right)
  | compare tag attr symbol fst snd left right =>
    exact .compare tag attr symbol fst snd (hR _ _ (Element.sizeOf_lt_of_getElem? fst) left)
      (hR _ _ (Element.sizeOf_lt_of_getElem? snd) right)
  | not tag op fst arg => exact .not tag op fst (hS _ _ (Element.sizeOf_lt_of_getElem? fst) arg)
  | and tag op args => exact .and tag op (hall args)
  | or tag op args => exact .or tag op (hall args)
  | forAll tag type first listed inner body =>
    exact .forAll tag type first listed inner (hS _ _ (Element.sizeOf_lt_of_inner? inner) body)
  | forSome tag type first listed inner body =>
    exact .forSome tag type first listed inner (hS _ _ (Element.sizeOf_lt_of_inner? inner) body)

end Joins

namespace Connective

variable {t : Table} {R : Element → Expr → Prop} {S : Element → F → Prop} {e : Element}

/-- What a connective joins, once the elements inside it are known. -/
def Resolves (R : Element → Expr → Prop) (S : Element → F → Prop) :
    Connective e → Joined F → Prop
  | .implies a b, .implies p q => S a.1 p ∧ S b.1 q
  | .equiv a b, .equiv p q => S a.1 p ∧ S b.1 q
  | .compare op negated a b, .compare op' negated' x y =>
    op = op' ∧ negated = negated' ∧ R a.1 x ∧ R b.1 y
  | .not a, .not p => S a.1 p
  | .and, .and ps => List.Forall₂ S e.children ps
  | .or, .or ps => List.Forall₂ S e.children ps
  | .forAll vars a, .forAll vars' p => vars = vars' ∧ S a.1 p
  | .forSome vars a, .forSome vars' p => vars = vars' ∧ S a.1 p
  | _, _ => False

theorem readBinary_joins {k : Connective e} {j : Joined F} (htag : e.tag = "Binary_Pred")
    (h : readBinary e = .ok k) (hj : k.Resolves R S j) : Joins t R S e j := by
  unfold readBinary at h
  obtain ⟨op, hop, h⟩ := bind_eq_ok.1 h
  rw [Element.needAttr_eq_ok] at hop
  split at h
  · rename_i heq
    obtain ⟨xs, hxs, h⟩ := bind_eq_ok.1 h
    obtain ⟨hfst, hsnd⟩ := Element.needTwo_eq_ok.1 hxs
    rw [pure_eq_ok] at h
    subst heq h
    cases j <;> simp only [Resolves] at hj
    exact .implies htag hop hfst hsnd hj.1 hj.2
  · split at h
    · rename_i heq
      obtain ⟨xs, hxs, h⟩ := bind_eq_ok.1 h
      obtain ⟨hfst, hsnd⟩ := Element.needTwo_eq_ok.1 hxs
      rw [pure_eq_ok] at h
      subst heq h
      cases j <;> simp only [Resolves] at hj
      exact .equiv htag hop hfst hsnd hj.1 hj.2
    · exact absurd h (Element.complain_ne_ok _ _ _)

theorem readComparison_joins {k : Connective e} {j : Joined F} (htag : e.tag = "Exp_Comparison")
    (h : readComparison e = .ok k) (hj : k.Resolves R S j) : Joins t R S e j := by
  unfold readComparison at h
  obtain ⟨s, hs, h⟩ := bind_eq_ok.1 h
  rw [Element.needAttr_eq_ok] at hs
  split at h
  · exact absurd h (Element.complain_ne_ok _ _ _)
  · rename_i op negated hsymbol
    obtain ⟨xs, hxs, h⟩ := bind_eq_ok.1 h
    obtain ⟨hfst, hsnd⟩ := Element.needTwo_eq_ok.1 hxs
    rw [pure_eq_ok] at h
    subst h
    cases j <;> simp only [Resolves] at hj
    obtain ⟨rfl, rfl, hx, hy⟩ := hj
    exact .compare htag hs hsymbol hfst hsnd hx hy

theorem readQuantified_joins {k : Connective e} {j : Joined F} (htag : e.tag = "Quantified_Pred")
    (h : readQuantified t e = .ok k) (hj : k.Resolves R S j) : Joins t R S e j := by
  unfold readQuantified at h
  simp only [bind_eq_ok, Element.needAttr_eq_ok] at h
  obtain ⟨kind, hkind, h⟩ := h
  split at h
  · rename_i heq
    simp only [bind_eq_ok, pure_eq_ok, TypedVar.readIn_eq_ok, Element.needInner_eq_ok] at h
    obtain ⟨vars, ⟨c, hc, hvars⟩, a, ha, rfl⟩ := h
    subst heq
    cases j <;> simp only [Resolves] at hj
    obtain ⟨rfl, hbody⟩ := hj
    exact .forAll htag hkind hc hvars ha hbody
  · split at h
    · rename_i heq
      simp only [bind_eq_ok, pure_eq_ok, TypedVar.readIn_eq_ok, Element.needInner_eq_ok] at h
      obtain ⟨vars, ⟨c, hc, hvars⟩, a, ha, rfl⟩ := h
      subst heq
      cases j <;> simp only [Resolves] at hj
      obtain ⟨rfl, hbody⟩ := hj
      exact .forSome htag hkind hc hvars ha hbody
    · exact absurd h (Element.complain_ne_ok _ _ _)

theorem readNegation_joins {k : Connective e} {j : Joined F} (htag : e.tag = "Unary_Pred")
    (h : readNegation e = .ok k) (hj : k.Resolves R S j) : Joins t R S e j := by
  unfold readNegation at h
  simp only [bind_eq_ok, Element.needAttr_eq_ok] at h
  obtain ⟨op, hop, h⟩ := h
  split at h
  · rename_i heq
    simp only [bind_eq_ok, pure_eq_ok, Element.needOne_eq_ok] at h
    obtain ⟨a, ha, rfl⟩ := h
    subst heq
    cases j <;> simp only [Resolves] at hj
    exact .not htag hop ha hj
  · exact absurd h (Element.complain_ne_ok _ _ _)

theorem readNary_joins {k : Connective e} {j : Joined F} (htag : e.tag = "Nary_Pred")
    (h : readNary e = .ok k) (hj : k.Resolves R S j) : Joins t R S e j := by
  unfold readNary at h
  simp only [bind_eq_ok, Element.needAttr_eq_ok] at h
  obtain ⟨op, hop, h⟩ := h
  split at h
  · rename_i heq
    rw [pure_eq_ok] at h
    subst heq h
    cases j <;> simp only [Resolves] at hj
    exact .and htag hop hj
  · split at h
    · rename_i heq
      rw [pure_eq_ok] at h
      subst heq h
      cases j <;> simp only [Resolves] at hj
      exact .or htag hop hj
    · exact absurd h (Element.complain_ne_ok _ _ _)

def tags : List String :=
  ["Binary_Pred", "Exp_Comparison", "Quantified_Pred", "Unary_Pred", "Nary_Pred"]

theorem read?_eq_none : read? t e = .ok none ↔ e.tag ∉ tags := by
  unfold read?
  split <;> rename_i htag
  all_goals simp [htag, tags, map_eq_ok, pure_eq_ok]
  simp_all

theorem joins_iff {j : Joined F} :
    Joins t R S e j ↔ ∃ k : Connective e, read? t e = .ok (some k) ∧ k.Resolves R S j := by
  constructor
  · intro h
    unfold read?
    cases h with
    | implies tag op fst snd left right =>
      refine ⟨.implies ⟨_, Element.sizeOf_lt_of_getElem? fst⟩
        ⟨_, Element.sizeOf_lt_of_getElem? snd⟩,
        ?_, left, right⟩
      simp [tag, readBinary, Element.needAttr_eq_ok.2 op, Element.needTwo_of fst snd]
    | equiv tag op fst snd left right =>
      refine ⟨.equiv ⟨_, Element.sizeOf_lt_of_getElem? fst⟩ ⟨_, Element.sizeOf_lt_of_getElem? snd⟩,
        ?_, left, right⟩
      simp [tag, readBinary, Element.needAttr_eq_ok.2 op, Element.needTwo_of fst snd]
    | compare tag attr symbol fst snd left right =>
      refine ⟨.compare _ _ ⟨_, Element.sizeOf_lt_of_getElem? fst⟩
        ⟨_, Element.sizeOf_lt_of_getElem? snd⟩, ?_, rfl, rfl, left, right⟩
      simp [tag, readComparison, Element.needAttr_eq_ok.2 attr, symbol, Element.needTwo_of fst snd]
    | not tag op fst arg =>
      refine ⟨.not ⟨_, Element.sizeOf_lt_of_getElem? fst⟩, ?_, arg⟩
      simp [tag, readNegation, Element.needAttr_eq_ok.2 op, Element.needOne_of fst]
    | and tag op args =>
      refine ⟨.and, ?_, args⟩
      simp [tag, readNary, Element.needAttr_eq_ok.2 op, pure_eq_ok]
    | or tag op args =>
      refine ⟨.or, ?_, args⟩
      simp [tag, readNary, Element.needAttr_eq_ok.2 op, pure_eq_ok]
    | forAll tag type first listed inner body =>
      refine ⟨.forAll _ ⟨_, Element.sizeOf_lt_of_inner? inner⟩, ?_, rfl, body⟩
      simp [tag, readQuantified, Element.needAttr_eq_ok.2 type,
        TypedVar.readIn_eq_ok.2 ⟨_, first, listed⟩, Element.needInner_of inner]
    | forSome tag type first listed inner body =>
      refine ⟨.forSome _ ⟨_, Element.sizeOf_lt_of_inner? inner⟩, ?_, rfl, body⟩
      simp [tag, readQuantified, Element.needAttr_eq_ok.2 type,
        TypedVar.readIn_eq_ok.2 ⟨_, first, listed⟩, Element.needInner_of inner]
  · rintro ⟨k, hk, hj⟩
    unfold read? at hk
    split at hk
    · rename_i htag
      obtain ⟨k', hk', heq⟩ := map_eq_ok.1 hk
      cases heq
      exact readBinary_joins htag hk' hj
    · rename_i htag
      obtain ⟨k', hk', heq⟩ := map_eq_ok.1 hk
      cases heq
      exact readComparison_joins htag hk' hj
    · rename_i htag
      obtain ⟨k', hk', heq⟩ := map_eq_ok.1 hk
      cases heq
      exact readQuantified_joins htag hk' hj
    · rename_i htag
      obtain ⟨k', hk', heq⟩ := map_eq_ok.1 hk
      cases heq
      exact readNegation_joins htag hk' hj
    · rename_i htag
      obtain ⟨k', hk', heq⟩ := map_eq_ok.1 hk
      cases heq
      exact readNary_joins htag hk' hj
    · rw [pure_eq_ok] at hk
      cases hk

end Connective

end BMethod
