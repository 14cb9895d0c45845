import Mathlib
import BMethod.Proofs.Expr.Normal
import BMethod.Proofs.Expr.Reading

/-!
# What is read is in normal form

Whatever the element looks like, an expression or predicate that is read from it is well formed and
in normal form, and its types are in the table.
-/

namespace BMethod

variable {t : Table}

/-- A well-formed expression in normal form whose types are in a table. -/
structure Expr.Normal (t : Table) (x : Expr) : Prop where
  wellFormed : x.WellFormed
  norm : x.norm = x
  types : x.types ⊆ t.types

/-- A well-formed predicate in normal form whose types are in a table. -/
structure Pred.Normal (t : Table) (p : Pred) : Prop where
  wellFormed : p.WellFormed
  norm : p.norm = p
  types : p.types ⊆ t.types

/-! ## Lists and items -/

theorem forall_of_forall₂ {α : Type} {R : Element → α → Prop} {P : α → Prop} {es : List Element}
    {as : List α} (h : List.Forall₂ (fun e a => R e a ∧ P a) es as) : ∀ a ∈ as, P a := by
  intro a ha
  obtain ⟨e, _, _, hP⟩ := exists_of_forall₂_right h ha
  exact hP

theorem Expr.all_normal {xs : List Expr} (h : ∀ x ∈ xs, x.Normal t) :
    Expr.AllWellFormed xs ∧ Expr.normAll xs = xs ∧ Expr.typesAll xs ⊆ t.types := by
  induction xs with
  | nil => exact ⟨trivial, rfl, List.nil_subset _⟩
  | cons x xs ih =>
    have hx := h x List.mem_cons_self
    obtain ⟨hwf, hnorm, htypes⟩ := ih fun y hy => h y (List.mem_cons_of_mem _ hy)
    exact ⟨⟨hx.wellFormed, hwf⟩, by rw [Expr.normAll, hx.norm, hnorm],
      List.append_subset.2 ⟨hx.types, htypes⟩⟩

theorem Pred.all_normal {ps : List Pred} (h : ∀ p ∈ ps, p.Normal t) :
    Pred.AllWellFormed ps ∧ Pred.normAll ps = ps ∧ Pred.typesAll ps ⊆ t.types := by
  induction ps with
  | nil => exact ⟨trivial, rfl, List.nil_subset _⟩
  | cons p ps ih =>
    have hp := h p List.mem_cons_self
    obtain ⟨hwf, hnorm, htypes⟩ := ih fun q hq => h q (List.mem_cons_of_mem _ hq)
    exact ⟨⟨hp.wellFormed, hwf⟩, by rw [Pred.normAll, hp.norm, hnorm],
      List.append_subset.2 ⟨hp.types, htypes⟩⟩

theorem Expr.items_normal {items : List (String × Expr)} (h : ∀ i ∈ items, i.2.Normal t) :
    Expr.ItemsWellFormed (sortByLabel items) ∧
      sortByLabel (Expr.normItems (sortByLabel items)) = sortByLabel items ∧
      (sortByLabel (Expr.itemTypes (sortByLabel items))).flatMap (·.2) ⊆ t.types := by
  have hsorted : ∀ i ∈ sortByLabel items, i.2.Normal t := fun i hi => h i (mem_sortByLabel.1 hi)
  refine ⟨Expr.itemsWellFormed_iff.2 fun i hi => (hsorted i hi).wellFormed, ?_, ?_⟩
  · have hnorm : Expr.normItems (sortByLabel items) = sortByLabel items := by
      rw [Expr.normItems_eq_map]
      refine (List.map_congr_left ?_).trans (List.map_id _)
      intro i hi
      rw [(hsorted i hi).norm]
      rfl
    rw [hnorm, sortByLabel_sortByLabel]
  · rw [Expr.sorted_itemTypes, sortByLabel_sortByLabel]
    intro ty hty
    obtain ⟨i, hi, hty⟩ := List.mem_flatMap.1 hty
    exact (hsorted i hi).types hty

theorem Element.Items.forall {R : Element → Expr → Prop} {P : Expr → Prop} {e : Element}
    {items : List (String × Expr)} (h : e.Items (fun c x => R c x ∧ P x) items) :
    ∀ i ∈ items, P i.2 := by
  intro i hi
  obtain ⟨c, _, _, d, _, _, hP⟩ := exists_of_forall₂_right h hi
  exact hP

/-! ## Leaves -/

theorem Info.ty_mem_of_read {e : Element} {info : Info} (h : Info.read t e = .ok info) :
    [info.ty] ⊆ t.types := by
  simpa using Table.mem_of_typeOf (Info.read_eq_ok.1 h).1

theorem Expr.splitReal_whole (text : String) : '.' ∉ (Expr.splitReal text).1.toList := by
  unfold Expr.splitReal
  rw [String.toList_ofList]
  intro hmem
  simpa using List.mem_takeWhile_imp hmem

theorem VarName.Form.stem {e : Element} {name : VarName} (h : VarName.Form e name)
    (hfresh : name.kind ≠ .fresh) : e.attr? "value" = some name.stem := by
  cases h with
  | plain _ value => exact value
  | suffixed _ value =>
    unfold VarName.suffixed
    split <;> exact value
  | fresh => exact absurd rfl hfresh

/-! ## Steps -/

theorem Expr.Form.normal {e : Element} {x : Expr}
    (h : Expr.Form t (fun c y => Expr.Reads t c y ∧ y.Normal t)
      (fun c q => Pred.Reads t c q ∧ q.Normal t) e x) : x.Normal t := by
  have join : ∀ {us vs : List Ty}, us ⊆ t.types → vs ⊆ t.types → us ++ vs ⊆ t.types :=
    fun hus hvs => List.append_subset.2 ⟨hus, hvs⟩
  cases h with
  | named _ _ known carries =>
    exact ⟨⟨Info.wellFormed_of_read carries, Constant.ofName?_eq_some known⟩, rfl,
      Info.ty_mem_of_read carries⟩
  | ident _ value unknown form carries =>
    refine ⟨⟨Info.wellFormed_of_read carries, form.wellFormed, ?_⟩, rfl,
      Info.ty_mem_of_read carries⟩
    intro hfresh
    rw [form.stem hfresh, Option.some.injEq] at value
    rwa [value]
  | fresh tag form carries =>
    refine ⟨⟨Info.wellFormed_of_read carries, form.wellFormed, ?_⟩, rfl,
      Info.ty_mem_of_read carries⟩
    intro hfresh
    cases form with
    | plain tag' => simp [tag] at tag'
    | suffixed tag' => simp [tag] at tag'
    | fresh => exact absurd rfl hfresh
  | truth _ _ _ carries | falsity _ _ _ _ carries | emptySet _ carries | emptySeq _ carries =>
    exact ⟨⟨Info.wellFormed_of_read carries, by decide⟩, rfl, Info.ty_mem_of_read carries⟩
  | integer _ _ carries | string _ _ carries =>
    exact ⟨Info.wellFormed_of_read carries, rfl, Info.ty_mem_of_read carries⟩
  | real _ _ carries =>
    exact ⟨⟨Info.wellFormed_of_read carries, Expr.splitReal_whole _⟩, rfl,
      Info.ty_mem_of_read carries⟩
  | unary _ _ symbol carries _ arg =>
    exact ⟨⟨Info.wellFormed_of_read carries, Operator.declared_of_ofSymbol? symbol,
        arg.2.wellFormed⟩, by rw [Expr.norm, arg.2.norm],
      join (Info.ty_mem_of_read carries) arg.2.types⟩
  | binary _ _ symbol carries _ _ left right =>
    exact ⟨⟨Info.wellFormed_of_read carries, BinaryOp.declared_of_ofSymbol? symbol,
        left.2.wellFormed, right.2.wellFormed⟩, by rw [Expr.norm, left.2.norm, right.2.norm],
      join (Info.ty_mem_of_read carries) (join left.2.types right.2.types)⟩
  | ternary _ _ symbol carries _ _ _ left middle right =>
    exact ⟨⟨Info.wellFormed_of_read carries, Operator.declared_of_ofSymbol? symbol,
        left.2.wellFormed, middle.2.wellFormed, right.2.wellFormed⟩,
      by rw [Expr.norm, left.2.norm, middle.2.norm, right.2.norm],
      join (Info.ty_mem_of_read carries) (join left.2.types (join middle.2.types right.2.types))⟩
  | nary _ _ symbol carries args =>
    obtain ⟨hwf, hnorm, htypes⟩ := Expr.all_normal (forall_of_forall₂ args)
    exact ⟨⟨Info.wellFormed_of_read carries, Operator.declared_of_ofSymbol? symbol, hwf⟩,
      by rw [Expr.norm, hnorm], join (Info.ty_mem_of_read carries) htypes⟩
  | bool _ carries _ arg =>
    exact ⟨⟨Info.wellFormed_of_read carries, arg.2.wellFormed⟩, by rw [Expr.norm, arg.2.norm],
      join (Info.ty_mem_of_read carries) arg.2.types⟩
  | struct _ carries fields nodup | record _ carries fields nodup =>
    obtain ⟨hwf, hnorm, htypes⟩ := Expr.items_normal fields.forall
    have hnodup := (((sortByLabel_perm _).map _).nodup_iff).2 nodup
    refine ⟨⟨Info.wellFormed_of_read carries, hnodup, hwf⟩, ?_,
      join (Info.ty_mem_of_read carries) htypes⟩
    simp only [Expr.ofStructItems, Expr.ofRecordItems, Expr.norm, hnorm]
  | quantified _ _ symbol carries _ listed _ guard _ body =>
    exact ⟨⟨Info.wellFormed_of_read carries, Operator.declared_of_ofSymbol? symbol,
        listed.wellFormed, guard.2.wellFormed, body.2.wellFormed⟩,
      by rw [Expr.norm, guard.2.norm, body.2.norm],
      join (Info.ty_mem_of_read carries) (join listed.types_subset
        (join guard.2.types body.2.types))⟩
  | comprehension _ carries _ listed _ body =>
    exact ⟨⟨Info.wellFormed_of_read carries, listed.wellFormed, body.2.wellFormed⟩,
      by rw [Expr.norm, body.2.norm],
      join (Info.ty_mem_of_read carries) (join listed.types_subset body.2.types)⟩
  | field _ _ carries _ arg =>
    exact ⟨⟨Info.wellFormed_of_read carries, arg.2.wellFormed⟩, by rw [Expr.norm, arg.2.norm],
      join (Info.ty_mem_of_read carries) arg.2.types⟩
  | update _ _ carries _ _ left right =>
    exact ⟨⟨Info.wellFormed_of_read carries, left.2.wellFormed, right.2.wellFormed⟩,
      by rw [Expr.norm, left.2.norm, right.2.norm],
      join (Info.ty_mem_of_read carries) (join left.2.types right.2.types)⟩

theorem Pred.Form.normal {e : Element} {p : Pred}
    (h : Pred.Form t (fun c y => Expr.Reads t c y ∧ y.Normal t)
      (fun c q => Pred.Reads t c q ∧ q.Normal t) e p) : p.Normal t := by
  cases h with
  | tagged _ _ arg => exact arg.2
  | joined joins =>
    cases joins with
    | implies _ _ _ _ left right | equiv _ _ _ _ left right =>
      exact ⟨⟨left.2.wellFormed, right.2.wellFormed⟩,
        by simp only [Pred.ofJoined, Pred.norm, left.2.norm, right.2.norm],
        List.append_subset.2 ⟨left.2.types, right.2.types⟩⟩
    | @compare _ _ _ op negated x y _ _ symbol _ _ left right =>
      have hop := Comparison.declared_of_ofSymbol? symbol
      have htypes : x.types ++ y.types ⊆ t.types :=
        List.append_subset.2 ⟨left.2.types, right.2.types⟩
      cases negated
      all_goals
        exact ⟨⟨hop, left.2.wellFormed, right.2.wellFormed⟩,
          by simp [Pred.ofJoined, Pred.norm, left.2.norm, right.2.norm], htypes⟩
    | not _ _ _ arg =>
      exact ⟨arg.2.wellFormed, by simp only [Pred.ofJoined, Pred.norm, arg.2.norm], arg.2.types⟩
    | @and ps _ _ args =>
      obtain ⟨hwf, hnorm, htypes⟩ := Pred.all_normal (forall_of_forall₂ args)
      cases ps with
      | nil => exact ⟨trivial, rfl, List.nil_subset _⟩
      | cons p ps => exact ⟨hwf, by simp [Pred.ofJoined, Pred.norm, hnorm], htypes⟩
    | @or ps _ _ args =>
      obtain ⟨hwf, hnorm, htypes⟩ := Pred.all_normal (forall_of_forall₂ args)
      cases ps with
      | nil => exact ⟨trivial, rfl, List.nil_subset _⟩
      | cons p ps => exact ⟨hwf, by simp [Pred.ofJoined, Pred.norm, hnorm], htypes⟩
    | forAll _ _ _ listed _ body | forSome _ _ _ listed _ body =>
      exact ⟨⟨listed.wellFormed, body.2.wellFormed⟩,
        by simp only [Pred.ofJoined, Pred.norm, body.2.norm],
        List.append_subset.2 ⟨listed.types_subset, body.2.types⟩⟩

/-- Whatever is read is in normal form. -/
theorem reads_normal (e : Element) :
    (∀ x, Expr.Reads t e x → x.Normal t) ∧ ∀ p, Pred.Reads t e p → p.Normal t :=
  Expr.read_induction (P := fun _ x => x.Normal t) (Q := fun _ p => p.Normal t)
    (fun _ _ h => h.normal) (fun _ _ h => h.normal) e

theorem Expr.Reads.normal {e : Element} {x : Expr} (h : Expr.Reads t e x) : x.Normal t :=
  (reads_normal e).1 x h

theorem Pred.Reads.normal {e : Element} {p : Pred} (h : Pred.Reads t e p) : p.Normal t :=
  (reads_normal e).2 p h

end BMethod
