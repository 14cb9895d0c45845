import Mathlib
import BMethod.Proofs.Element.Agreement
import BMethod.Proofs.Goal.Reading

/-!
# Readers read the same from elements that agree

What is read from an element does not depend on its line, on its text, on the order of the items of
records and of the equalities that give witnesses, or on how the types of its table are numbered.
-/

namespace BMethod

open Element (Agrees forall₂_agrees listed_agrees)

variable {t t' : Table}

/-! ## Expressions and predicates -/

section
variable {R R' : Element → Expr → Prop} {e e' : Element}

theorem Expr.Form.agrees {S S' : Element → Pred → Prop} {x : Expr}
    (hR : ∀ c x, R c x → ∀ c', Agrees t t' c c' → R' c' x)
    (hS : ∀ c p, S c p → ∀ c', Agrees t t' c c' → S' c' p)
    (h : Expr.Form t R S e x) (he : Agrees t t' e e') : Expr.Form t' R' S' e' x := by
  cases h with
  | named tag value known carries =>
    exact .named (he.tag.trans tag) (he.attr? value (by decide)) known (he.infoRead carries)
  | ident tag value unknown form carries =>
    exact .ident (he.tag.trans tag) (he.attr? value (by decide)) unknown (he.varName form)
      (he.infoRead carries)
  | fresh tag form carries =>
    exact .fresh (he.tag.trans tag) (he.varName form) (he.infoRead carries)
  | truth tag value word carries =>
    exact .truth (he.tag.trans tag) (he.attr? value (by decide)) word (he.infoRead carries)
  | falsity tag value other word carries =>
    exact .falsity (he.tag.trans tag) (he.attr? value (by decide)) other word (he.infoRead carries)
  | emptySet tag carries => exact .emptySet (he.tag.trans tag) (he.infoRead carries)
  | emptySeq tag carries => exact .emptySeq (he.tag.trans tag) (he.infoRead carries)
  | integer tag value carries =>
    exact .integer (he.tag.trans tag) (he.attr? value (by decide)) (he.infoRead carries)
  | string tag value carries =>
    refine .string ?_ (he.attr? value (by decide)) (he.infoRead carries)
    rwa [he.tag]
  | real tag value carries =>
    exact .real (he.tag.trans tag) (he.attr? value (by decide)) (he.infoRead carries)
  | unary tag attr symbol carries fst arg =>
    obtain ⟨a', fst', ha⟩ := he.child? tag (by decide) fst
    exact .unary (he.tag.trans tag) (he.attr? attr (by decide)) symbol (he.infoRead carries) fst'
      (hR _ _ arg a' ha)
  | binary tag attr symbol carries fst snd left right =>
    obtain ⟨a', fst', ha⟩ := he.child? tag (by decide) fst
    obtain ⟨b', snd', hb⟩ := he.child? tag (by decide) snd
    exact .binary (he.tag.trans tag) (he.attr? attr (by decide)) symbol (he.infoRead carries)
      fst' snd' (hR _ _ left a' ha) (hR _ _ right b' hb)
  | ternary tag attr symbol carries fst snd thd left middle right =>
    obtain ⟨a', fst', ha⟩ := he.child? tag (by decide) fst
    obtain ⟨b', snd', hb⟩ := he.child? tag (by decide) snd
    obtain ⟨c', thd', hc⟩ := he.child? tag (by decide) thd
    exact .ternary (he.tag.trans tag) (he.attr? attr (by decide)) symbol (he.infoRead carries)
      fst' snd' thd' (hR _ _ left a' ha) (hR _ _ middle b' hb) (hR _ _ right c' hc)
  | nary tag attr symbol carries args =>
    exact .nary (he.tag.trans tag) (he.attr? attr (by decide)) symbol (he.infoRead carries)
      (forall₂_agrees (args.imp hR) (he.children tag (by decide)))
  | bool tag carries first arg =>
    obtain ⟨a', first', ha⟩ := he.firstChild? tag (by decide) first
    exact .bool (he.tag.trans tag) (he.infoRead carries) first' (hS _ _ arg a' ha)
  | struct tag carries fields nodup =>
    obtain ⟨items', hperm, fields'⟩ := he.items (by rw [tag]; decide)
      (fields.imp fun c x _ hx => hR c x hx)
    have nodup' := ((hperm.map (·.1)).nodup_iff).2 nodup
    rw [Expr.ofStructItems, ← sortByLabel_eq_of_perm hperm nodup]
    exact .struct (he.tag.trans tag) (he.infoRead carries) fields' nodup'
  | record tag carries fields nodup =>
    obtain ⟨items', hperm, fields'⟩ := he.items (by rw [tag]; decide)
      (fields.imp fun c x _ hx => hR c x hx)
    have nodup' := ((hperm.map (·.1)).nodup_iff).2 nodup
    rw [Expr.ofRecordItems, ← sortByLabel_eq_of_perm hperm nodup]
    exact .record (he.tag.trans tag) (he.infoRead carries) fields' nodup'
  | quantified tag attr symbol carries first listed pred guard inner body =>
    obtain ⟨c', first', hc⟩ := he.contents first (by decide)
    obtain ⟨a', pred', ha⟩ := he.inner? pred (by decide)
    obtain ⟨b', inner', hb⟩ := he.inner? inner (by decide)
    exact .quantified (he.tag.trans tag) (he.attr? attr (by decide)) symbol (he.infoRead carries)
      first' (listed_agrees hc listed) pred' (hS _ _ guard a' ha) inner'
      (hR _ _ body b' hb)
  | comprehension tag carries first listed inner body =>
    obtain ⟨c', first', hc⟩ := he.contents first (by decide)
    obtain ⟨a', inner', ha⟩ := he.inner? inner (by decide)
    exact .comprehension (he.tag.trans tag) (he.infoRead carries) first'
      (listed_agrees hc listed) inner' (hS _ _ body a' ha)
  | field tag attr carries fst arg =>
    obtain ⟨a', fst', ha⟩ := he.child? tag (by decide) fst
    exact .field (he.tag.trans tag) (he.attr? attr (by decide)) (he.infoRead carries) fst'
      (hR _ _ arg a' ha)
  | update tag attr carries fst snd left right =>
    obtain ⟨a', fst', ha⟩ := he.child? tag (by decide) fst
    obtain ⟨b', snd', hb⟩ := he.child? tag (by decide) snd
    exact .update (he.tag.trans tag) (he.attr? attr (by decide)) (he.infoRead carries) fst' snd'
      (hR _ _ left a' ha) (hR _ _ right b' hb)

theorem Joins.agrees {F : Type} {S S' : Element → F → Prop} {j : Joined F}
    (hR : ∀ c x, R c x → ∀ c', Agrees t t' c c' → R' c' x)
    (hS : ∀ c p, S c p → ∀ c', Agrees t t' c c' → S' c' p)
    (h : Joins t R S e j) (he : Agrees t t' e e') : Joins t' R' S' e' j := by
  cases h with
  | implies tag op fst snd left right =>
    obtain ⟨a', fst', ha⟩ := he.child? tag (by decide) fst
    obtain ⟨b', snd', hb⟩ := he.child? tag (by decide) snd
    exact .implies (he.tag.trans tag) (he.attr? op (by decide)) fst' snd' (hS _ _ left a' ha)
      (hS _ _ right b' hb)
  | equiv tag op fst snd left right =>
    obtain ⟨a', fst', ha⟩ := he.child? tag (by decide) fst
    obtain ⟨b', snd', hb⟩ := he.child? tag (by decide) snd
    exact .equiv (he.tag.trans tag) (he.attr? op (by decide)) fst' snd' (hS _ _ left a' ha)
      (hS _ _ right b' hb)
  | compare tag attr symbol fst snd left right =>
    obtain ⟨a', fst', ha⟩ := he.child? tag (by decide) fst
    obtain ⟨b', snd', hb⟩ := he.child? tag (by decide) snd
    exact .compare (he.tag.trans tag) (he.attr? attr (by decide)) symbol fst' snd'
      (hR _ _ left a' ha) (hR _ _ right b' hb)
  | not tag op fst arg =>
    obtain ⟨a', fst', ha⟩ := he.child? tag (by decide) fst
    exact .not (he.tag.trans tag) (he.attr? op (by decide)) fst' (hS _ _ arg a' ha)
  | and tag op args =>
    exact .and (he.tag.trans tag) (he.attr? op (by decide))
      (forall₂_agrees (args.imp hS) (he.children tag (by decide)))
  | or tag op args =>
    exact .or (he.tag.trans tag) (he.attr? op (by decide))
      (forall₂_agrees (args.imp hS) (he.children tag (by decide)))
  | forAll tag type first listed inner body =>
    obtain ⟨c', first', hc⟩ := he.contents first (by decide)
    obtain ⟨a', inner', ha⟩ := he.inner? inner (by decide)
    exact .forAll (he.tag.trans tag) (he.attr? type (by decide)) first'
      (listed_agrees hc listed) inner' (hS _ _ body a' ha)
  | forSome tag type first listed inner body =>
    obtain ⟨c', first', hc⟩ := he.contents first (by decide)
    obtain ⟨a', inner', ha⟩ := he.inner? inner (by decide)
    exact .forSome (he.tag.trans tag) (he.attr? type (by decide)) first'
      (listed_agrees hc listed) inner' (hS _ _ body a' ha)

end

theorem reads_agrees (e : Element) :
    (∀ x, Expr.Reads t e x → ∀ e', Agrees t t' e e' → Expr.Reads t' e' x) ∧
      ∀ p, Pred.Reads t e p → ∀ e', Agrees t t' e e' → Pred.Reads t' e' p := by
  refine Expr.read_induction (P := fun e x => ∀ e', Agrees t t' e e' → Expr.Reads t' e' x)
    (Q := fun e p => ∀ e', Agrees t t' e e' → Pred.Reads t' e' p) ?_ ?_ e
  · intro e x h e' he
    exact Expr.read_of_form (h.agrees (fun c x hx => hx.2) (fun c p hp => hp.2) he)
  · intro e p h e' he
    refine Pred.read_of_form ?_
    cases h with
    | joined joins => exact .joined (joins.agrees (fun c x hx => hx.2) (fun c p hp => hp.2) he)
    | tagged tag first arg =>
      obtain ⟨a', first', ha⟩ := he.firstChild? tag (by decide) first
      exact .tagged (he.tag.trans tag) first' (arg.2 a' ha)

theorem Expr.Reads.agrees {e e' : Element} {x : Expr} (h : Expr.Reads t e x)
    (he : Agrees t t' e e') : Expr.Reads t' e' x :=
  (reads_agrees e).1 x h e' he

theorem Pred.Reads.agrees {e e' : Element} {p : Pred} (h : Pred.Reads t e p)
    (he : Agrees t t' e e') : Pred.Reads t' e' p :=
  (reads_agrees e).2 p h e' he

/-! ## Substitutions -/

namespace Subst

section
variable {R R' : Element → Expr → Prop} {S S' : Element → Pred → Prop}
  {T T' : Element → Subst → Prop} {e e' : Element}

theorem ElseForm.agrees {o : Subst} (hT : ∀ c s, T c s → ∀ c', Agrees t t' c c' → T' c' s)
    (h : ElseForm T e o) (he : Agrees t t' e e') : ElseForm T' e' o := by
  cases h with
  | none missing => exact .none (he.first?_eq_none missing (by decide))
  | some inner branch =>
    obtain ⟨a', inner', ha⟩ := he.inner? inner (by decide)
    exact .some inner' (hT _ _ branch a' ha)

theorem PreForm.agrees {p : Pred} (hS : ∀ c p, S c p → ∀ c', Agrees t t' c c' → S' c' p)
    (h : PreForm S e p) (he : Agrees t t' e e') : PreForm S' e' p := by
  cases h with
  | none missing => exact .none (he.first?_eq_none missing (by decide))
  | some inner pre =>
    obtain ⟨a', inner', ha⟩ := he.inner? inner (by decide)
    exact .some inner' (hS _ _ pre a' ha)

theorem WhenForm.agrees {w : Pred × Subst} (hS : ∀ c p, S c p → ∀ c', Agrees t t' c c' → S' c' p)
    (hT : ∀ c s, T c s → ∀ c', Agrees t t' c c' → T' c' s) (h : WhenForm S T e w)
    (he : Agrees t t' e e') : WhenForm S' T' e' w := by
  obtain ⟨a, b, ha, hp, hb, hs⟩ := h
  obtain ⟨a', ha', haa'⟩ := he.inner? ha (by decide)
  obtain ⟨b', hb', hbb'⟩ := he.inner? hb (by decide)
  exact ⟨a', b', ha', hS _ _ hp a' haa', hb', hT _ _ hs b' hbb'⟩

theorem ChoiceForm.agrees {c : List Expr × Subst}
    (hR : ∀ c x, R c x → ∀ c', Agrees t t' c c' → R' c' x)
    (hT : ∀ c s, T c s → ∀ c', Agrees t t' c c' → T' c' s) (h : ChoiceForm R T e c)
    (he : Agrees t t' e e') : ChoiceForm R' T' e' c := by
  obtain ⟨hvalues, hne, b, hb, hs⟩ := h
  obtain ⟨b', hb', hbb'⟩ := he.inner? hb (by decide)
  refine ⟨forall₂_agrees (forall₂_imp_of_mem ?_ hvalues) (he.childrenNamed (by decide)), hne, b',
    hb', hT _ _ hs b' hbb'⟩
  rintro v hmem x ⟨a, ha, hx⟩ v' hv
  have htag := Element.tag_of_mem_childrenNamed hmem (by decide)
  obtain ⟨a', ha', haa'⟩ := hv.firstChild? htag (by decide) ha
  exact ⟨a', ha', hR _ _ hx a' haa'⟩

theorem Equalities.agrees {es : List Element} (h : Equalities e es) (he : Agrees t t' e e') :
    ∃ es', Equalities e' es' ∧ List.Forall₂ (Agrees t t') es es' := by
  cases h with
  | one tag => exact ⟨_, .one (he.tag.trans tag), .cons he .nil⟩
  | all tag op =>
    exact ⟨_, .all (he.tag.trans tag) (he.attr? op (by decide)), he.children tag (by decide)⟩

theorem Equalities.reconjoined {es : List Element} (h : Equalities e es)
    (he : Element.Reconjoined e e') : ∃ es', Equalities e' es' ∧ es'.Perm es := by
  cases he with
  | same => exact ⟨es, h, .refl _⟩
  | members conjunction perm =>
    cases h with
    | one tag => simp [conjunction] at tag
    | all tag op => exact ⟨_, .all tag op, perm.symm⟩

theorem WitnessForm.agrees {w : String × Expr}
    (hR : ∀ c x, R c x → ∀ c', Agrees t t' c c' → R' c' x) (h : WitnessForm R e w)
    (he : Agrees t t' e e') : WitnessForm R' e' w := by
  obtain ⟨htag, hop, a, b, ha, hb, hid, hlabel, hx⟩ := h
  obtain ⟨a', ha', haa'⟩ := he.child? htag (by decide) ha
  obtain ⟨b', hb', hbb'⟩ := he.child? htag (by decide) hb
  exact ⟨he.tag.trans htag, he.attr? hop (by decide), a', b', ha', hb', haa'.tag.trans hid,
    haa'.attr? hlabel (by decide), hR _ _ hx b' hbb'⟩

theorem optionalList_agrees (he : Agrees t t' e e') {tag : String}
    (htag : Element.Anchored tag ∧ Element.KeepsOrder tag) :
    List.Forall₂ (Agrees t t') (optionalList e tag) (optionalList e' tag) := by
  unfold optionalList
  cases ha : e.first? tag with
  | none =>
    rw [he.first?_eq_none ha htag.1]
    exact .nil
  | some a =>
    obtain ⟨a', ha', hchildren⟩ := he.contents ha htag
    rw [ha']
    exact hchildren

theorem Form.agrees {s : Subst} (hR : ∀ c x, R c x → ∀ c', Agrees t t' c c' → R' c' x)
    (hS : ∀ c p, S c p → ∀ c', Agrees t t' c c' → S' c' p)
    (hT : ∀ c s, T c s → ∀ c', Agrees t t' c c' → T' c' s)
    (h : Form t R S T e s) (he : Agrees t t' e e') : Form t' R' S' T' e' s := by
  cases h with
  | skip tag => exact .skip (he.tag.trans tag)
  | block tag first body =>
    obtain ⟨a', first', ha⟩ := he.firstChild? tag (by decide) first
    exact .block (he.tag.trans tag) first' (hT _ _ body a' ha)
  | assert tag pred guard inner body =>
    obtain ⟨a', pred', ha⟩ := he.inner? pred (by decide)
    obtain ⟨b', inner', hb⟩ := he.inner? inner (by decide)
    exact .assert (he.tag.trans tag) pred' (hS _ _ guard a' ha) inner' (hT _ _ body b' hb)
  | pre tag pred guard inner body =>
    obtain ⟨a', pred', ha⟩ := he.inner? pred (by decide)
    obtain ⟨b', inner', hb⟩ := he.inner? inner (by decide)
    exact .pre (he.tag.trans tag) pred' (hS _ _ guard a' ha) inner' (hT _ _ body b' hb)
  | ifThen tag pred cond inner body otherwise =>
    obtain ⟨a', pred', ha⟩ := he.inner? pred (by decide)
    obtain ⟨b', inner', hb⟩ := he.inner? inner (by decide)
    exact .ifThen (he.tag.trans tag) pred' (hS _ _ cond a' ha) inner' (hT _ _ body b' hb)
      (otherwise.agrees hT he)
  | assign tag first listed second values arity =>
    obtain ⟨c', first', hc⟩ := he.contents first (by decide)
    obtain ⟨d', second', hd⟩ := he.contents second (by decide)
    exact .assign (he.tag.trans tag) first' (listed_agrees hc listed) second'
      (forall₂_agrees (values.imp hR) hd) arity
  | select tag first branches otherwise =>
    obtain ⟨c', first', hc⟩ := he.first? first (by decide)
    refine .select (he.tag.trans tag) first' ?_ (otherwise.agrees hT he)
    refine forall₂_agrees (branches.imp ?_) (hc.childrenNamed (by decide))
    intro d w hw d' hd
    exact hw.agrees hS hT hd
  | case tag inner value first branches otherwise =>
    obtain ⟨a', inner', ha⟩ := he.inner? inner (by decide)
    obtain ⟨c', first', hc⟩ := he.first? first (by decide)
    refine .case (he.tag.trans tag) inner' (hR _ _ value a' ha) first' ?_ (otherwise.agrees hT he)
    refine forall₂_agrees (branches.imp ?_) (hc.childrenNamed (by decide))
    intro d w hw d' hd
    exact hw.agrees hR hT hd
  | any tag first listed pred guard inner body =>
    obtain ⟨c', first', hc⟩ := he.contents first (by decide)
    obtain ⟨a', pred', ha⟩ := he.inner? pred (by decide)
    obtain ⟨b', inner', hb⟩ := he.inner? inner (by decide)
    exact .any (he.tag.trans tag) first' (listed_agrees hc listed) pred'
      (hS _ _ guard a' ha) inner' (hT _ _ body b' hb)
  | witness tag given equal values nodup inner body =>
    obtain ⟨m, a', ham, hma', given'⟩ := he.witnesses given
    obtain ⟨fs, hfs, hagree⟩ := equal.agrees ham
    obtain ⟨es', equal', hperm⟩ := hfs.reconjoined hma'
    obtain ⟨b', inner', hb⟩ := he.inner? inner (by decide)
    have hvalues : List.Forall₂ (WitnessForm R') fs _ :=
      forall₂_agrees (values.imp fun _ _ hw _ hd => WitnessForm.agrees hR hw hd) hagree
    -- The witnesses come in another order as well, but they are sorted by their labels.
    obtain ⟨ws', values', hws⟩ := List.perm_comp_forall₂ hperm hvalues
    have nodup' := ((hws.map (·.1)).nodup_iff).2 nodup
    rw [← sortByLabel_eq_of_perm hws nodup]
    exact .witness (he.tag.trans tag) given' equal' values' nodup' inner' (hT _ _ body b' hb)
  | call tag named value inputs outputs operation formalOutputs formalInputs pre inner body arityIn
      arityOut =>
    obtain ⟨i', named', hi⟩ := he.inner? named (by decide)
    obtain ⟨o', operation', ho⟩ := he.first? operation (by decide)
    obtain ⟨b', inner', hb⟩ := ho.inner? inner (by decide)
    exact .call (he.tag.trans tag) named' (hi.attr? value (by decide))
      (forall₂_agrees (inputs.imp hR) (optionalList_agrees he (by decide)))
      (listed_agrees (optionalList_agrees he (by decide)) outputs) operation'
      (listed_agrees (optionalList_agrees ho (by decide)) formalOutputs)
      (listed_agrees (optionalList_agrees ho (by decide)) formalInputs) (pre.agrees hS ho) inner'
      (hT _ _ body b' hb) arityIn arityOut
  | «while» tag pred cond inner body stays invariant falls variant =>
    obtain ⟨a', pred', ha⟩ := he.inner? pred (by decide)
    obtain ⟨b', inner', hb⟩ := he.inner? inner (by decide)
    obtain ⟨c', stays', hc⟩ := he.inner? stays (by decide)
    obtain ⟨d', falls', hd⟩ := he.inner? falls (by decide)
    exact .while (he.tag.trans tag) pred' (hS _ _ cond a' ha) inner' (hT _ _ body b' hb) stays'
      (hS _ _ invariant c' hc) falls' (hR _ _ variant d' hd)
  | nary tag attr symbol parts =>
    exact .nary (he.tag.trans tag) (he.attr? attr (by decide)) symbol
      (forall₂_agrees (parts.imp hT) (he.children tag (by decide)))

end

theorem Reads.agrees {e e' : Element} {s : Subst} (h : Subst.Reads t e s)
    (he : Agrees t t' e e') : Subst.Reads t' e' s := by
  refine read_induction (P := fun e s => ∀ e', Agrees t t' e e' → Subst.Reads t' e' s) ?_ e s h
    e' he
  intro e s h e' he
  exact read_of_form (h.agrees (fun c x hx _ => hx.agrees) (fun c p hp _ => hp.agrees)
    (fun c s hs => hs.2) he)

end Subst

/-! ## Goals -/

namespace Goal

theorem readOverflow_agrees {e e' : Element} {overflow : Bool} (he : Agrees t t' e e')
    (h : readOverflow e = .ok overflow) : readOverflow e' = .ok overflow := by
  unfold readOverflow at h ⊢
  rw [he.attr? rfl (by decide)]
  split at h
  · exact h
  · exact h
  · exact h
  · exact absurd h (Element.complain_ne_ok _ _ _)

theorem Reads.agrees {e e' : Element} {g : Goal} (h : Goal.Reads t e g)
    (he : Agrees t t' e e') : Goal.Reads t' e' g := by
  refine read_induction (P := fun e g => ∀ e', Agrees t t' e e' → Goal.Reads t' e' g) ?_ e g h
    e' he
  intro e g h e' he
  refine read_of_form ?_
  cases h with
  | joined joins => exact .joined (joins.agrees (fun c x hx _ => hx.agrees) (fun c g hg => hg.2) he)
  | after tag mark fst snd subst goal =>
    obtain ⟨a', fst', ha⟩ := he.child? tag (by decide) fst
    obtain ⟨b', snd', hb⟩ := he.child? tag (by decide) snd
    exact .after (he.tag.trans tag) (readOverflow_agrees he mark) fst' snd' (subst.agrees ha)
      (goal.2 b' hb)
  | possible tag first calculus fst snd negation inner subst pred =>
    obtain ⟨c', first', hc⟩ := he.firstChild? tag (by decide) first
    obtain ⟨a', fst', ha⟩ := hc.child? calculus (by decide) fst
    obtain ⟨n', snd', hn⟩ := hc.child? calculus (by decide) snd
    obtain ⟨b', inner', hb⟩ := hn.firstChild? negation (by decide) inner
    exact .possible (he.tag.trans tag) first' (hc.tag.trans calculus) fst' snd'
      (hn.tag.trans negation) inner' (subst.agrees ha) (pred.agrees hb)
  | tagged tag attr first goal =>
    obtain ⟨a', first', ha⟩ := he.firstChild? tag (by decide) first
    exact .tagged (he.tag.trans tag) (he.attr? attr (by decide)) first' (goal.2 a' ha)
  | letFresh tag attr first goal =>
    obtain ⟨a', first', ha⟩ := he.firstChild? tag (by decide) first
    exact .letFresh (he.tag.trans tag) (he.attr? attr (by decide)) first' (goal.2 a' ha)

end Goal

end BMethod
