import Mathlib
import BMethod.Proofs.Expr.Image
import BMethod.Proofs.Subst.RoundTrip

/-!
# Substitutions that are read are in normal form

Whatever the element looks like, a substitution that is read from it is well formed and in normal
form, and its types are in the table. A precondition that is not given has become truth.
-/

namespace BMethod

variable {t : Table}

namespace Subst

/-- A well-formed substitution in normal form whose types are in a table. -/
structure Normal (t : Table) (s : Subst) : Prop where
  wellFormed : s.WellFormed
  norm : s.norm = s
  types : s.types ⊆ t.types

theorem all_normal {ss : List Subst} (h : ∀ s ∈ ss, s.Normal t) :
    AllWellFormed ss ∧ normAll ss = ss ∧ typesAll ss ⊆ t.types := by
  induction ss with
  | nil => exact ⟨trivial, rfl, List.nil_subset _⟩
  | cons s ss ih =>
    have hs := h s List.mem_cons_self
    obtain ⟨hwf, hnorm, htypes⟩ := ih fun r hr => h r (List.mem_cons_of_mem _ hr)
    exact ⟨⟨hs.wellFormed, hwf⟩, by rw [normAll, hs.norm, hnorm],
      List.append_subset.2 ⟨hs.types, htypes⟩⟩

/-- What every step of reading a substitution preserves. -/
abbrev Settles (t : Table) (c : Element) (s : Subst) : Prop :=
  Reads t c s ∧ s.Normal t

theorem whens_normal {es : List Element} {whens : List (Pred × Subst)}
    (h : List.Forall₂ (WhenForm (Pred.Reads t) (Settles t)) es whens) :
    WhensWellFormed whens ∧ normWhens whens = whens ∧ whenTypes whens ⊆ t.types := by
  induction h with
  | nil => exact ⟨trivial, rfl, List.nil_subset _⟩
  | cons hw _ ih =>
    obtain ⟨a, b, _, hp, _, hs⟩ := hw
    obtain ⟨hwf, hnorm, htypes⟩ := ih
    have hp := hp.normal
    exact ⟨⟨hp.wellFormed, hs.2.wellFormed, hwf⟩, by rw [normWhens, hp.norm, hs.2.norm, hnorm],
      List.append_subset.2 ⟨List.append_subset.2 ⟨hp.types, hs.2.types⟩, htypes⟩⟩

theorem choices_normal {es : List Element} {choices : List (List Expr × Subst)}
    (h : List.Forall₂ (ChoiceForm (Expr.Reads t) (Settles t)) es choices) :
    ChoicesWellFormed choices ∧ normChoices choices = choices ∧
      choiceTypes choices ⊆ t.types := by
  induction h with
  | nil => exact ⟨trivial, rfl, List.nil_subset _⟩
  | cons hc _ ih =>
    obtain ⟨hvalues, hne, b, _, hs⟩ := hc
    obtain ⟨hwf, hnorm, htypes⟩ := ih
    have hall := Expr.all_normal (t := t) fun x hx => by
      obtain ⟨v, _, a, _, hx⟩ := exists_of_forall₂_right hvalues hx
      exact hx.normal
    exact ⟨⟨hne, hall.1, hs.2.wellFormed, hwf⟩,
      by rw [normChoices, hall.2.1, hs.2.norm, hnorm],
      List.append_subset.2 ⟨List.append_subset.2 ⟨hall.2.2, hs.2.types⟩, htypes⟩⟩

theorem ElseForm.normal {e : Element} {o : Subst} (h : ElseForm (Settles t) e o) :
    (o = .absent ∨ o.WellFormed) ∧ o.norm = o ∧ o.types ⊆ t.types := by
  cases h with
  | none => exact ⟨.inl rfl, rfl, List.nil_subset _⟩
  | some _ branch => exact ⟨.inr branch.2.wellFormed, branch.2.norm, branch.2.types⟩

theorem PreForm.normal {e : Element} {p : Pred} (h : PreForm (Pred.Reads t) e p) :
    (givenPre p).Normal t ∧ givenPre (givenPre p) = givenPre p := by
  cases h with
  | none => exact ⟨⟨trivial, rfl, List.nil_subset _⟩, rfl⟩
  | some _ pre =>
    rw [givenPre_of_wellFormed pre.normal.wellFormed]
    exact ⟨pre.normal, givenPre_of_wellFormed pre.normal.wellFormed⟩

theorem exprs_normal {es : List Element} {xs : List Expr} (h : List.Forall₂ (Expr.Reads t) es xs) :
    ∀ x ∈ xs, x.Normal t := by
  intro x hx
  obtain ⟨e, _, hx⟩ := exists_of_forall₂_right h hx
  exact hx.normal

theorem info_mem_types {x : Expr} {info : Info} (h : x.info? = some info) : info.ty ∈ x.types := by
  cases x <;> simp_all [Expr.info?, Expr.types]

theorem witnessTypes_subset {x : Expr} (h : x.Normal t) : x.witnessTypes ⊆ t.types := by
  unfold Expr.witnessTypes
  split
  · rename_i info hinfo
    exact List.append_subset.2 ⟨by simpa using h.types (info_mem_types hinfo), h.types⟩
  · exact List.nil_subset _

theorem Form.normal {e : Element} {s : Subst}
    (h : Form t (Expr.Reads t) (Pred.Reads t) (Settles t) e s) : s.Normal t := by
  have join : ∀ {us vs : List Ty}, us ⊆ t.types → vs ⊆ t.types → us ++ vs ⊆ t.types :=
    fun hus hvs => List.append_subset.2 ⟨hus, hvs⟩
  cases h with
  | skip => exact ⟨trivial, rfl, List.nil_subset _⟩
  | block _ _ body => exact ⟨body.2.wellFormed, by rw [Subst.norm, body.2.norm], body.2.types⟩
  | assert _ _ guard _ body | pre _ _ guard _ body =>
    have guard := guard.normal
    exact ⟨⟨guard.wellFormed, body.2.wellFormed⟩, by rw [Subst.norm, guard.norm, body.2.norm],
      join guard.types body.2.types⟩
  | ifThen _ _ cond _ body otherwise =>
    have cond := cond.normal
    obtain ⟨howf, honorm, hotypes⟩ := otherwise.normal
    exact ⟨⟨cond.wellFormed, body.2.wellFormed, howf⟩,
      by rw [Subst.norm, cond.norm, body.2.norm, honorm],
      join cond.types (join body.2.types hotypes)⟩
  | assign _ _ listed _ values arity =>
    obtain ⟨hwf, hnorm, htypes⟩ := Expr.all_normal (exprs_normal values)
    exact ⟨⟨listed.wellFormed, hwf, arity⟩, by rw [Subst.norm, hnorm],
      join listed.types_subset htypes⟩
  | select _ _ branches otherwise =>
    obtain ⟨hwf, hnorm, htypes⟩ := whens_normal branches
    obtain ⟨howf, honorm, hotypes⟩ := otherwise.normal
    exact ⟨⟨hwf, howf⟩, by rw [Subst.norm, hnorm, honorm], join htypes hotypes⟩
  | case _ _ value _ branches otherwise =>
    have value := value.normal
    obtain ⟨hwf, hnorm, htypes⟩ := choices_normal branches
    obtain ⟨howf, honorm, hotypes⟩ := otherwise.normal
    exact ⟨⟨value.wellFormed, hwf, howf⟩, by rw [Subst.norm, value.norm, hnorm, honorm],
      join htypes (join value.types hotypes)⟩
  | any _ _ listed _ guard _ body =>
    have guard := guard.normal
    exact ⟨⟨listed.wellFormed, guard.wellFormed, body.2.wellFormed⟩,
      by rw [Subst.norm, guard.norm, body.2.norm],
      join listed.types_subset (join guard.types body.2.types)⟩
  | @witness _ _ _ ws _ _ _ _ values nodup _ body =>
    have hws : ∀ w ∈ ws, w.2.Normal t := by
      intro w hw
      obtain ⟨d, _, _, _, _, _, _, _, _, _, hx⟩ := exists_of_forall₂_right values hw
      exact hx.normal
    obtain ⟨hwf, hnorm, -⟩ := Expr.items_normal hws
    have hnodup := (((sortByLabel_perm _).map _).nodup_iff).2 nodup
    refine ⟨⟨hnodup, hwf, body.2.wellFormed⟩, by rw [Subst.norm, hnorm, body.2.norm],
      join ?_ body.2.types⟩
    rw [sortByLabel_sortByLabel]
    intro ty hty
    obtain ⟨w, hw, hty⟩ := List.mem_flatMap.1 hty
    exact witnessTypes_subset (hws w (mem_sortByLabel.1 hw)) hty
  | call _ _ _ inputs outputs _ formalOutputs formalInputs pre _ body arityIn arityOut =>
    obtain ⟨hwf, hnorm, htypes⟩ := Expr.all_normal (exprs_normal inputs)
    obtain ⟨hpre, hagain⟩ := pre.normal
    refine ⟨⟨hwf, outputs.wellFormed, formalInputs.wellFormed, formalOutputs.wellFormed,
      .inr hpre.wellFormed, body.2.wellFormed, arityIn, arityOut⟩, ?_, ?_⟩
    · rw [Subst.norm, hnorm, hagain, hpre.norm, body.2.norm]
    · exact join htypes (join outputs.types_subset (join formalOutputs.types_subset
        (join formalInputs.types_subset (join hpre.types body.2.types))))
  | «while» _ _ cond _ body _ invariant _ variant =>
    have cond := cond.normal
    have invariant := invariant.normal
    have variant := variant.normal
    exact ⟨⟨cond.wellFormed, body.2.wellFormed, invariant.wellFormed, variant.wellFormed⟩,
      by rw [Subst.norm, cond.norm, body.2.norm, invariant.norm, variant.norm],
      join cond.types (join body.2.types (join invariant.types variant.types))⟩
  | nary _ _ symbol parts =>
    obtain ⟨hwf, hnorm, htypes⟩ := all_normal (forall_of_forall₂ parts)
    exact ⟨⟨Operator.declared_of_ofSymbol? symbol, hwf⟩, by rw [Subst.norm, hnorm], htypes⟩

theorem Reads.normal {e : Element} {s : Subst} (h : Subst.Reads t e s) : s.Normal t :=
  read_induction (P := fun _ s => s.Normal t) (fun _ _ h => h.normal) e s h

end Subst

end BMethod
