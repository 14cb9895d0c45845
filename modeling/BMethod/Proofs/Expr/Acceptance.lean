import Mathlib
import BMethod.Proofs.Expr.Normal
import BMethod.Proofs.Expr.Reading
import BMethod.Proofs.Formula.Acceptance

/-!
# Which expressions and predicates are accepted after they were written

Writing checks less than reading. An expression or a predicate that was written is read back, though
not always as it was, exactly if its operators are declared, its suffixes are not negative, and the
labels of each record in it differ.
-/

namespace BMethod

/-! ## Legibility -/

mutual
/-- An expression whose element is accepted when it is written. A variable that is named like a
constant is read as the constant, so its suffix does not matter. -/
def Expr.Legible : Expr → Prop
  | .absent => False
  | .constant _ _ => True
  | .ident _ name => name.Legible ∨ (Constant.ofName? name.stem).isSome
  | .integer _ _ => True
  | .string _ _ => True
  | .real _ _ _ => True
  | .unary _ op x => op.Declared ∧ x.Legible
  | .binary _ op x y => op.Declared ∧ x.Legible ∧ y.Legible
  | .ternary _ op x y z => op.Declared ∧ x.Legible ∧ y.Legible ∧ z.Legible
  | .nary _ op xs => op.Declared ∧ Expr.AllLegible xs
  | .bool _ p => p.Legible
  | .struct _ items => Expr.ItemsLegible items ∧ (items.map (·.1)).Nodup
  | .record _ items => Expr.ItemsLegible items ∧ (items.map (·.1)).Nodup
  | .quantified _ op vars guard body =>
    op.Declared ∧ TypedVar.AllLegible vars ∧ guard.Legible ∧ body.Legible
  | .comprehension _ vars body => TypedVar.AllLegible vars ∧ body.Legible
  | .field _ _ x => x.Legible
  | .update _ _ x value => x.Legible ∧ value.Legible

def Expr.AllLegible : List Expr → Prop
  | [] => True
  | x :: xs => x.Legible ∧ Expr.AllLegible xs

def Expr.ItemsLegible : List (String × Expr) → Prop
  | [] => True
  | (_, x) :: items => x.Legible ∧ Expr.ItemsLegible items

/-- A predicate whose element is accepted when it is written. -/
def Pred.Legible : Pred → Prop
  | .absent => False
  | .truth => True
  | .falsity => True
  | .implies p q => p.Legible ∧ q.Legible
  | .equiv p q => p.Legible ∧ q.Legible
  | .compare op x y => op.Declared ∧ x.Legible ∧ y.Legible
  | .not p => p.Legible
  | .and ps => Pred.AllLegible ps
  | .or ps => Pred.AllLegible ps
  | .forAll vars body => TypedVar.AllLegible vars ∧ body.Legible
  | .forSome vars body => TypedVar.AllLegible vars ∧ body.Legible

def Pred.AllLegible : List Pred → Prop
  | [] => True
  | p :: ps => p.Legible ∧ Pred.AllLegible ps
end

theorem Expr.itemsLegible_iff {items : List (String × Expr)} :
    Expr.ItemsLegible items ↔ ∀ i ∈ items, i.2.Legible := by
  induction items with
  | nil => simp [Expr.ItemsLegible]
  | cons i items ih => simp [Expr.ItemsLegible, ih]

/-! ## Parts of readers -/

section
variable {e : Element} {t : Table} {P : Prop}

theorem accepted_readOperator {α : Type} {name s : String} {ofSymbol? : String → Option α}
    (h : e.attr? name = some s) (hP : (ofSymbol? s).isSome ↔ P) :
    Accepted (Expr.readOperator e name ofSymbol?) ↔ P := by
  unfold Expr.readOperator
  rw [← hP, Element.needAttr_eq_ok.2 h, ok_bind]
  cases ofSymbol? s with
  | none => simpa using not_accepted_complain e _
  | some op => simpa using accepted_pure op

theorem accepted_readIn {c : Element} {tag : String} (h : e.first? tag = some c)
    (hP : Accepted (TypedVar.readAll t c.children) ↔ P) :
    Accepted (TypedVar.readIn t e tag) ↔ P := by
  unfold TypedVar.readIn
  rw [Element.needChild_of h, ok_bind]
  exact hP

end

/-! ## Leaves -/

namespace Expr

theorem leaf_admitted {tag : String} {info : Info} {own : List Attr}
    (hown : ∀ a ∈ own, a.name ≠ "typref" ∧ a.name ≠ "tag")
    (hread : ∀ t attrs, Write.Carries t info own attrs →
      ∃ x, Expr.Reads t (.node tag attrs []) x) :
    (Write.leaf tag info own).Admitted [info.ty] Expr.read True := by
  refine (Write.infoAttrs_carries info hown).bind_pure ?_
  intro types attrs ha hsize
  exact iff_true_intro (hread _ attrs (ha hsize))

theorem constant_admitted (info : Info) (kind : Constant) :
    (Write.constant info kind).Admitted [info.ty] Expr.read True := by
  unfold Write.constant
  split_ifs
  · exact leaf_admitted (by simp) fun t attrs ha => ⟨_, read_of_form (.emptySet rfl (ha.read _ _))⟩
  · exact leaf_admitted (by simp) fun t attrs ha => ⟨_, read_of_form (.emptySeq rfl (ha.read _ _))⟩
  · exact leaf_admitted (by simp) fun t attrs ha =>
      ⟨_, read_of_form (.truth rfl (ha.attr? (by decide) (by decide)) (by decide) (ha.read _ _))⟩
  · exact leaf_admitted (by simp) fun t attrs ha =>
      ⟨_, read_of_form (.falsity rfl (ha.attr? (by decide) (by decide)) (by decide) (by decide)
        (ha.read _ _))⟩
  · refine leaf_admitted (by simp) fun t attrs ha => ?_
    have hvalue : (Element.node "Id" attrs []).attr? "value" = some kind.symbol :=
      ha.attr? (by decide) (by decide)
    have hsuffix : (Element.node "Id" attrs []).attr? "suffix" = none :=
      ha.attr? (by decide) (by decide)
    -- The symbol names the constant, or it is read as a variable.
    cases hname : Constant.ofName? kind.symbol with
    | some k => exact ⟨_, read_of_form (.named rfl hvalue hname (ha.read _ _))⟩
    | none =>
      exact ⟨_, read_of_form (.ident rfl hvalue hname (.plain rfl hvalue hsuffix) (ha.read _ _))⟩

theorem ident_admitted (info : Info) (name : VarName) :
    (Write.ident info name).Admitted [info.ty] Expr.read
      (name.Legible ∨ (Constant.ofName? name.stem).isSome) := by
  unfold Write.ident
  rcases Write.varAttrs_spells name with ⟨r, hthrow⟩ | ⟨tag, own, hpure, hname⟩
  · rw [hthrow]
    exact Write.throw_bind_numbers r _
  simp only [hpure, pure_bind]
  refine (Write.infoAttrs_carries info hname.own).bind_pure ?_
  intro types attrs ha hsize
  have ha := ha hsize
  have hvar : Accepted (readVariable ⟨types⟩ (.node tag attrs [])) ↔ name.Legible := by
    unfold readVariable
    rw [ha.read]
    exact accepted_bind_pure
      (hname.read _ rfl fun a htypref htag => ha.attr? htypref htag)
  rw [Expr.read]
  rcases hname.kind with ⟨rfl, hlegible⟩ | ⟨rfl, hvalue⟩
  · simp only [Element.tag_node, hvar]
    exact iff_of_true hlegible (.inl hlegible)
  · have hvalue' : (Element.node "Id" attrs []).attr? "value" = some name.stem := by
      rw [ha.attr? (by decide) (by decide), Element.attr?]
      exact congrArg (Option.map Attr.value) hvalue
    simp only [Element.tag_node]
    unfold readIdentifier
    rw [Element.needAttr_eq_ok.2 hvalue', ok_bind]
    cases Constant.ofName? name.stem with
    | some kind =>
      unfold readConstant
      rw [ha.read]
      exact iff_of_true (accepted_pure _) (.inr rfl)
    | none => simpa using hvar

end Expr

/-! ## Items -/

namespace Expr

theorem readItems_spec {t : Table} {es : List Element} {items : List (String × Expr)}
    (h : List.Forall₂ (fun e i => ∃ a, e = .node "Record_Item" [⟨"label", i.1⟩] [a] ∧
      (Accepted (Expr.read t a) ↔ i.2.Legible)) es items) :
    (Accepted (Expr.readItems t es) ↔ ItemsLegible items) ∧
      ∀ read, Expr.readItems t es = .ok read → read.map (·.1) = items.map (·.1) := by
  induction h with
  | nil =>
    rw [Expr.readItems]
    refine ⟨iff_true_intro (accepted_pure []), ?_⟩
    rintro _ ⟨⟩
    rfl
  | @cons e i es items he hes ih =>
    obtain ⟨a, rfl, ha⟩ := he
    have hlabel : (Element.node "Record_Item" [⟨"label", i.1⟩] [a]).needAttr "label" = .ok i.1 :=
      rfl
    rw [Expr.readItems]
    simp only [Element.tag_node, if_true, hlabel, ok_bind, Element.needFirst_node]
    refine ⟨accepted_bind ha fun _ _ => accepted_bind_pure ih.1, ?_⟩
    intro read hread
    simp only [bind_eq_ok, pure_eq_ok] at hread
    obtain ⟨x, -, rest, hrest, rfl⟩ := hread
    rw [List.map_cons, List.map_cons, ih.2 rest hrest]

theorem items_admitted {items : List (String × Expr)}
    (h : ∀ i ∈ items, i.2.write.Admitted i.2.types Expr.read i.2.Legible) :
    (Write.byLabel (itemWriters items)).Numbers ((sortByLabel (itemTypes items)).flatMap (·.2))
      fun types es => types.length ≤ 9223372036854775808 →
        (Accepted (Expr.readItems ⟨types⟩ es) ↔ ItemsLegible items) ∧
          ∀ read, Expr.readItems ⟨types⟩ es = .ok read →
            ((read.map (·.1)).Nodup ↔ (items.map (·.1)).Nodup) := by
  have hitems : ∀ i ∈ sortByLabel items, (writeItem i).Numbers i.2.types fun types e =>
      ∃ a, e = .node "Record_Item" [⟨"label", i.1⟩] [a] ∧
        (types.length ≤ 9223372036854775808 →
          (Accepted (Expr.read ⟨types⟩ a) ↔ i.2.Legible)) := fun i hi =>
    Write.Numbers.bind_pure (h i (mem_sortByLabel.1 hi)) fun types a ha => ⟨a, rfl, ha⟩
  rw [byLabel_itemWriters, sorted_itemTypes]
  refine (Write.Numbers.all hitems).mono ?_
  intro types es hes hsize
  obtain ⟨haccepted, hlabels⟩ := readItems_spec (t := ⟨types⟩) (hes.imp
    fun e i ⟨a, he, ha⟩ => ⟨a, he, ha hsize⟩)
  have hsorted : ItemsLegible (sortByLabel items) ↔ ItemsLegible items := by
    rw [itemsLegible_iff, itemsLegible_iff]
    exact forall_congr' fun i => by rw [mem_sortByLabel]
  refine ⟨haccepted.trans hsorted, fun read hread => ?_⟩
  rw [hlabels read hread]
  exact ((sortByLabel_perm items).map _).nodup_iff

end Expr

/-! ## Comparisons -/

/-- A reader of formulas that reads a comparison by reading its sides. -/
structure ReadsComparisons {F : Type} (t : Table) (read : Element → Except Fault F) : Prop where
  refused : ∀ e, ¬ Accepted (Connective.read? t e) → ¬ Accepted (read e)
  sides : ∀ e op negated (x y : e.Inside),
    Connective.read? t e = .ok (some (.compare op negated x y)) →
    ∃ make : Expr → Expr → F, read e =
      (Expr.read t x.1 >>= fun a => Expr.read t y.1 >>= fun b => pure (make a b))

section
variable {F : Type} {t : Table} {read : Element → Except Fault F} {op : Comparison}
  {a b : Element} {P Q : Prop}

theorem ReadsComparisons.accepted (h : ReadsComparisons t read)
    (ha : Accepted (Expr.read t a) ↔ P) (hb : Accepted (Expr.read t b) ↔ Q) :
    Accepted (read (.node "Exp_Comparison" [⟨"op", op.symbol⟩] [a, b])) ↔ op.Declared ∧ P ∧ Q := by
  by_cases hop : op.Declared
  · obtain ⟨make, hread⟩ :=
      h.sides _ _ _ _ _ (Connective.read?_compare (Comparison.ofSymbol?_symbol hop))
    rw [hread, and_iff_right hop]
    exact accepted_bind ha fun _ _ => accepted_bind_pure hb
  · have hnone := Connective.not_accepted_compare (t := t) (a := a) (b := b)
      (Comparison.ofSymbol?_eq_none hop)
    simp [h.refused _ hnone, hop]

theorem ReadsComparisons.negated_accepted (h : ReadsComparisons t read) {s : String}
    (hs : op.negatedSymbol? = .ok (some s)) (ha : Accepted (Expr.read t a) ↔ P)
    (hb : Accepted (Expr.read t b) ↔ Q) :
    Accepted (read (.node "Exp_Comparison" [⟨"op", s⟩] [a, b])) ↔ op.Declared ∧ P ∧ Q := by
  have hsymbol := Comparison.ofSymbol?_negatedSymbol hs
  obtain ⟨make, hread⟩ := h.sides _ _ _ _ _ (Connective.read?_compare hsymbol)
  rw [hread, and_iff_right (Comparison.declared_of_ofSymbol? hsymbol)]
  exact accepted_bind ha fun _ _ => accepted_bind_pure hb

end

theorem Pred.readsComparisons (t : Table) : ReadsComparisons t (Pred.read t) where
  refused e h := by
    rw [Pred.read]
    rintro ⟨p, hp⟩
    obtain ⟨k, hk, -⟩ := bind_eq_ok.1 hp
    exact h ⟨k, hk⟩
  sides e op negated x y h := by
    rw [Pred.read, h, ok_bind]
    exact ⟨_, rfl⟩

/-! ## Negations -/

theorem Pred.accepted_not {t : Table} {a : Element} {P : Prop} (h : Accepted (Pred.read t a) ↔ P) :
    Accepted (Pred.read t (.node "Unary_Pred" [⟨"op", "not"⟩] [a])) ↔ P := by
  rw [Pred.read, Connective.read?_not, ok_bind]
  exact accepted_bind_pure h

/-- A negated comparison, as part of a predicate or of a goal. -/
theorem Pred.not_compare_admitted {F : Type} {read : Table → Element → Except Fault F}
    {op : Comparison} {x y : Expr} (hread : ∀ t, ReadsComparisons t (read t))
    (hnot : ∀ t a P, (Accepted (read t a) ↔ P) →
      (Accepted (read t (.node "Unary_Pred" [⟨"op", "not"⟩] [a])) ↔ P))
    (hx : x.write.Admitted x.types Expr.read x.Legible)
    (hy : y.write.Admitted y.types Expr.read y.Legible) :
    (Pred.not (.compare op x y)).write.Admitted (x.types ++ y.types) read
      (op.Declared ∧ x.Legible ∧ y.Legible) := by
  unfold Pred.write
  refine (Write.negatedSymbol?_numbers op).bind fun negated => hx.bind fun a => hy.bind_pure ?_
  intro types b hb ha hs hsize
  cases negated with
  | some s => exact (hread _).negated_accepted hs (ha hsize) (hb hsize)
  | none => exact hnot _ _ _ ((hread _).accepted (ha hsize) (hb hsize))

theorem Pred.not_admitted {p : Pred} (hne : ∀ op x y, p ≠ .compare op x y)
    (hp : p.write.Admitted p.types Pred.read p.Legible) :
    (Pred.not p).write.Admitted p.types Pred.read p.Legible := by
  rw [Pred.write_not hne]
  refine Write.Numbers.bind_pure hp ?_
  intro types a ha hsize
  exact Pred.accepted_not (ha hsize)

/-! ## Trees -/

mutual
theorem Expr.write_admitted (x : Expr) : x.write.Admitted x.types Expr.read x.Legible := by
  cases x with
  | absent => exact .throw _
  | constant info kind => exact Expr.constant_admitted info kind
  | ident info name => exact Expr.ident_admitted info name
  | integer info digits =>
    exact Expr.leaf_admitted (by simp) fun t attrs ha =>
      ⟨_, Expr.read_of_form (.integer rfl (ha.attr? (by decide) (by decide)) (ha.read _ _))⟩
  | string info value =>
    exact Expr.leaf_admitted (by simp) fun t attrs ha =>
      ⟨_, Expr.read_of_form (.string (.inl rfl) (ha.attr? (by decide) (by decide)) (ha.read _ _))⟩
  | real info whole fraction =>
    exact Expr.leaf_admitted (by simp) fun t attrs ha =>
      ⟨_, Expr.read_of_form (.real rfl (ha.attr? (by decide) (by decide)) (ha.read _ _))⟩
  | unary info op x =>
    refine (Write.infoAttrs_carries info (by simp)).bind fun attrs =>
      x.write_admitted.bind_pure ?_
    intro types e he ha hsize
    have ha := ha hsize
    rw [Expr.read]
    simp only [Element.tag_node, ha.read, ok_bind, Element.needOne_node]
    exact accepted_bind (accepted_readOperator (ha.attr? (by decide) (by decide))
      op.isSome_ofSymbol?_symbol) fun _ _ => accepted_bind_pure (he hsize)
  | binary info op x y =>
    refine (Write.infoAttrs_carries info (by simp)).bind fun attrs =>
      x.write_admitted.bind fun a => y.write_admitted.bind_pure ?_
    intro types b hy hx ha hsize
    have ha := ha hsize
    rw [Expr.read]
    simp only [Element.tag_node, ha.read, ok_bind, Element.needTwo_node]
    exact accepted_bind (accepted_readOperator (ha.attr? (by decide) (by decide))
      op.isSome_ofSymbol?_symbol) fun _ _ => accepted_bind (hx hsize) fun _ _ =>
        accepted_bind_pure (hy hsize)
  | ternary info op x y z =>
    refine (Write.infoAttrs_carries info (by simp)).bind fun attrs =>
      x.write_admitted.bind fun a => y.write_admitted.bind fun b =>
        z.write_admitted.bind_pure ?_
    intro types c hz hy hx ha hsize
    have ha := ha hsize
    rw [Expr.read]
    simp only [Element.tag_node, ha.read, ok_bind, Element.needThree_node]
    exact accepted_bind (accepted_readOperator (ha.attr? (by decide) (by decide))
      op.isSome_ofSymbol?_symbol) fun _ _ => accepted_bind (hx hsize) fun _ _ =>
        accepted_bind (hy hsize) fun _ _ => accepted_bind_pure (hz hsize)
  | nary info op xs =>
    refine (Write.infoAttrs_carries info (by simp)).bind fun attrs =>
      (Expr.writers_admitted xs).bind_pure ?_
    intro types es hes ha hsize
    have ha := ha hsize
    rw [Expr.read]
    simp only [Element.tag_node, ha.read, ok_bind, Element.children_node]
    exact accepted_bind (accepted_readOperator (ha.attr? (by decide) (by decide))
      op.isSome_ofSymbol?_symbol) fun _ _ => accepted_bind_pure (hes hsize)
  | bool info p =>
    refine (Write.infoAttrs_carries info (by simp)).bind fun attrs =>
      p.write_admitted.bind_pure ?_
    intro types e he ha hsize
    have ha := ha hsize
    rw [Expr.read]
    simp only [Element.tag_node, ha.read, ok_bind, Element.needFirst_node]
    exact accepted_bind_pure (he hsize)
  | struct info items | record info items =>
    refine (Write.infoAttrs_carries info (by simp)).bind fun attrs =>
      (Expr.items_admitted (Expr.write_admitted_of_mem items)).bind_pure ?_
    intro types es hes ha hsize
    have ha := ha hsize
    obtain ⟨haccepted, hlabels⟩ := hes hsize
    -- A label that is repeated is only found once all items have been read.
    rw [Expr.read]
    simp only [Element.tag_node, ha.read, ok_bind, Element.children_node]
    exact accepted_bind haccepted fun read hread =>
      accepted_bind_pure (accepted_checkLabels.trans (hlabels read hread))
  | quantified info op vars guard body =>
    refine (Write.infoAttrs_carries info (by simp)).bind fun attrs =>
      (Write.typedVars_admitted _ vars).bind fun v => guard.write_admitted.bind fun g =>
        body.write_admitted.bind_pure ?_
    rintro types b hb hg ⟨htag, -, hv⟩ ha hsize
    have ha := ha hsize
    have hguard : (Element.node "Quantified_Exp" attrs
        [v, .wrap "Pred" [g], .wrap "Body" [b]]).inner? "Pred" = some g := by
      simp [Element.inner?_cons, Element.inner?_skip, htag]
    have hbody : (Element.node "Quantified_Exp" attrs
        [v, .wrap "Pred" [g], .wrap "Body" [b]]).inner? "Body" = some b := by
      simp [Element.inner?_cons, Element.inner?_skip, htag]
    rw [Expr.read]
    simp only [Element.tag_node, ha.read, ok_bind, Element.needInner_of hguard,
      Element.needInner_of hbody]
    exact accepted_bind (accepted_readOperator (ha.attr? (by decide) (by decide))
      op.isSome_ofSymbol?_symbol) fun _ _ =>
        accepted_bind (accepted_readIn (Element.first?_cons htag) (hv hsize)) fun _ _ =>
          accepted_bind (hg hsize) fun _ _ => accepted_bind_pure (hb hsize)
  | comprehension info vars body =>
    refine (Write.infoAttrs_carries info (by simp)).bind fun attrs =>
      (Write.typedVars_admitted _ vars).bind fun v => body.write_admitted.bind_pure ?_
    rintro types b hb ⟨htag, -, hv⟩ ha hsize
    have ha := ha hsize
    have hbody : (Element.node "Quantified_Set" attrs
        [v, .wrap "Body" [b]]).inner? "Body" = some b := by
      simp [Element.inner?_cons, Element.inner?_skip, htag]
    rw [Expr.read]
    simp only [Element.tag_node, ha.read, ok_bind, Element.needInner_of hbody]
    exact accepted_bind (accepted_readIn (Element.first?_cons htag) (hv hsize)) fun _ _ =>
      accepted_bind_pure (hb hsize)
  | field info label x =>
    refine (Write.infoAttrs_carries info (by simp)).bind fun attrs =>
      x.write_admitted.bind_pure ?_
    intro types e he ha hsize
    have ha := ha hsize
    have hlabel : (Element.node "Record_Field_Access" attrs [e]).needAttr "label" = .ok label :=
      Element.needAttr_eq_ok.2 (ha.attr? (by decide) (by decide))
    rw [Expr.read]
    simp only [Element.tag_node, hlabel, ha.read, ok_bind, Element.needOne_node]
    exact accepted_bind_pure (he hsize)
  | update info label x value =>
    refine (Write.infoAttrs_carries info (by simp)).bind fun attrs =>
      x.write_admitted.bind fun a => value.write_admitted.bind_pure ?_
    intro types b hb hx ha hsize
    have ha := ha hsize
    have hlabel : (Element.node "Record_Update" attrs [a, b]).needAttr "label" = .ok label :=
      Element.needAttr_eq_ok.2 (ha.attr? (by decide) (by decide))
    rw [Expr.read]
    simp only [Element.tag_node, hlabel, ha.read, ok_bind, Element.needTwo_node]
    exact accepted_bind (hx hsize) fun _ _ => accepted_bind_pure (hb hsize)

theorem Expr.writers_admitted (xs : List Expr) :
    (Write.all (Expr.writers xs)).Numbers (Expr.typesAll xs) fun types es =>
      types.length ≤ 9223372036854775808 →
        (Accepted (Expr.readAll ⟨types⟩ es) ↔ Expr.AllLegible xs) := by
  cases xs with
  | nil =>
    refine .pure fun types _ => ?_
    rw [Expr.readAll]
    exact iff_true_intro (accepted_pure [])
  | cons x xs =>
    refine x.write_admitted.bind fun e => (Expr.writers_admitted xs).bind_pure ?_
    intro types es hes he hsize
    rw [Expr.readAll]
    exact accepted_bind (he hsize) fun _ _ => accepted_bind_pure (hes hsize)

theorem Expr.write_admitted_of_mem (items : List (String × Expr)) :
    ∀ i ∈ items, i.2.write.Admitted i.2.types Expr.read i.2.Legible := by
  cases items with
  | nil => simp
  | cons i items =>
    rintro j (_ | ⟨_, hj⟩)
    · exact i.2.write_admitted
    · exact Expr.write_admitted_of_mem items j hj

theorem Pred.write_admitted (p : Pred) : p.write.Admitted p.types Pred.read p.Legible := by
  cases p with
  | absent => exact .throw _
  | truth =>
    refine .pure fun types _ => iff_true_intro ?_
    rw [Pred.read, Connective.read?_and, ok_bind, Element.children_node, Pred.readAll]
    exact accepted_pure _
  | falsity =>
    refine .pure fun types _ => iff_true_intro ?_
    rw [Pred.read, Connective.read?_or, ok_bind, Element.children_node, Pred.readAll]
    exact accepted_pure _
  | implies p q =>
    refine p.write_admitted.bind fun a => q.write_admitted.bind_pure ?_
    intro types b hq hp hsize
    rw [Pred.read, Connective.read?_implies, ok_bind]
    exact accepted_bind (hp hsize) fun _ _ => accepted_bind_pure (hq hsize)
  | equiv p q =>
    refine p.write_admitted.bind fun a => q.write_admitted.bind_pure ?_
    intro types b hq hp hsize
    rw [Pred.read, Connective.read?_equiv, ok_bind]
    exact accepted_bind (hp hsize) fun _ _ => accepted_bind_pure (hq hsize)
  | compare op x y =>
    refine x.write_admitted.bind fun a => y.write_admitted.bind_pure ?_
    intro types b hy hx hsize
    exact (Pred.readsComparisons _).accepted (hx hsize) (hy hsize)
  | not p =>
    cases p with
    | compare op x y =>
      exact Pred.not_compare_admitted Pred.readsComparisons (fun _ _ _ => Pred.accepted_not)
        x.write_admitted y.write_admitted
    | _ => exact Pred.not_admitted nofun (Pred.write_admitted _)
  | and ps =>
    refine (Pred.writers_admitted ps).bind_pure ?_
    intro types es hes hsize
    rw [Pred.read, Connective.read?_and, ok_bind, Element.children_node]
    exact accepted_bind_pure (hes hsize)
  | or ps =>
    refine (Pred.writers_admitted ps).bind_pure ?_
    intro types es hes hsize
    rw [Pred.read, Connective.read?_or, ok_bind, Element.children_node]
    exact accepted_bind_pure (hes hsize)
  | forAll vars body =>
    refine (Write.typedVars_admitted _ vars).bind fun v => body.write_admitted.bind_pure ?_
    rintro types b hb ⟨htag, -, hv⟩ hsize
    rw [Pred.read, Connective.read?_forAll htag, bind_map_left]
    exact accepted_bind (hv hsize) fun _ _ => accepted_bind_pure (hb hsize)
  | forSome vars body =>
    refine (Write.typedVars_admitted _ vars).bind fun v => body.write_admitted.bind_pure ?_
    rintro types b hb ⟨htag, -, hv⟩ hsize
    rw [Pred.read, Connective.read?_forSome htag, bind_map_left]
    exact accepted_bind (hv hsize) fun _ _ => accepted_bind_pure (hb hsize)

theorem Pred.writers_admitted (ps : List Pred) :
    (Write.all (Pred.writers ps)).Numbers (Pred.typesAll ps) fun types es =>
      types.length ≤ 9223372036854775808 →
        (Accepted (Pred.readAll ⟨types⟩ es) ↔ Pred.AllLegible ps) := by
  cases ps with
  | nil =>
    refine .pure fun types _ => ?_
    rw [Pred.readAll]
    exact iff_true_intro (accepted_pure [])
  | cons p ps =>
    refine p.write_admitted.bind fun e => (Pred.writers_admitted ps).bind_pure ?_
    intro types es hes he hsize
    rw [Pred.readAll]
    exact accepted_bind (he hsize) fun _ _ => accepted_bind_pure (hes hsize)
end

end BMethod
