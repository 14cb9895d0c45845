import Mathlib
import BMethod.Proofs.Expr.Normal
import BMethod.Proofs.Expr.Reading

/-!
# Expressions and predicates are read back

What is written for a well-formed expression or predicate is read as its normal form, with every
table that begins with the types of the pool after the writing.
-/

namespace BMethod

/-! ## Leaves -/

namespace Expr

theorem splitReal_realText {whole fraction : String} (h : '.' ∉ whole.toList) :
    splitReal (realText whole fraction) = (whole, fraction) := by
  have hpass : ∀ c ∈ whole.toList, (c != '.') = true := by
    intro c hc
    simpa using fun heq : c = '.' => h (heq ▸ hc)
  unfold splitReal realText
  split
  · rename_i hempty
    simp [hempty, List.takeWhile_eq_self_iff.2 hpass, List.dropWhile_eq_nil_iff.2 hpass]
  · have hdot : ".".toList = ['.'] := rfl
    simp [hdot, List.takeWhile_append_of_pos hpass, List.dropWhile_append_of_pos hpass]

theorem constant_gives {info : Info} {kind : Constant} (hinfo : info.WellFormed)
    (hkind : kind.Declared) :
    (Write.constant info kind).Gives [info.ty] fun t e => Expr.Reads t e (.constant info kind) := by
  unfold Write.constant
  split
  · rename_i heq
    refine (Write.leaf_gives hinfo (by simp)).mono ?_
    rintro t e ⟨attrs, rfl, ha⟩
    rw [heq]
    exact Expr.read_of_form (.emptySet rfl (ha.read _ _))
  · rename_i hset
    split
    · rename_i heq
      refine (Write.leaf_gives hinfo (by simp)).mono ?_
      rintro t e ⟨attrs, rfl, ha⟩
      rw [heq]
      exact Expr.read_of_form (.emptySeq rfl (ha.read _ _))
    · rename_i hseq
      split
      · rename_i heq
        refine (Write.leaf_gives hinfo (by simp)).mono ?_
        rintro t e ⟨attrs, rfl, ha⟩
        rw [heq]
        exact Expr.read_of_form
          (.truth rfl (ha.attr? (by decide) (by decide)) (by decide) (ha.read _ _))
      · split
        · rename_i heq
          refine (Write.leaf_gives hinfo (by simp)).mono ?_
          rintro t e ⟨attrs, rfl, ha⟩
          rw [heq]
          exact Expr.read_of_form
            (.falsity rfl (ha.attr? (by decide) (by decide)) (by decide) (by decide) (ha.read _ _))
        · refine (Write.leaf_gives hinfo (by simp)).mono ?_
          rintro t e ⟨attrs, rfl, ha⟩
          exact Expr.read_of_form (.named rfl (ha.attr? (by decide) (by decide))
            (Constant.ofName?_symbol hkind hset hseq) (ha.read _ _))

theorem ident_gives {info : Info} {name : VarName} (hinfo : info.WellFormed)
    (hname : name.WellFormed) (hstem : name.kind ≠ .fresh → Constant.ofName? name.stem = none) :
    (Write.ident info name).Gives [info.ty] fun t e => Expr.Reads t e (.ident info name) := by
  obtain ⟨tag, attrs, heq, hnames⟩ := Write.varAttrs_eq hname
  unfold Write.ident
  simp only [heq, pure_bind]
  refine (Write.leaf_gives hinfo hnames.own).mono ?_
  rintro t e ⟨attrs', rfl, ha⟩
  have hform := hnames.read (.node tag attrs' []) rfl fun a htypref htag => ha.attr? htypref htag
  refine Expr.read_of_form ?_
  cases id hform with
  | plain htag hvalue hsuffix => exact .ident htag hvalue (hstem nofun) hform (ha.read _ _)
  | suffixed htag hvalue hsuffix hint hn =>
    refine .ident htag hvalue ?_ hform (ha.read _ _)
    unfold VarName.suffixed at hstem
    split at hstem <;> exact hstem nofun
  | fresh htag hvalue => exact .fresh htag hform (ha.read _ _)

end Expr

/-! ## Items -/

theorem Expr.writeItem_gives {i : String × Expr}
    (h : i.2.write.Gives i.2.types fun t e => Expr.Reads t e i.2.norm) :
    (Expr.writeItem i).Gives i.2.types fun t e =>
      e.tag = "Record_Item" ∧ Element.Labels (Expr.Reads t) e (i.1, i.2.norm) := by
  refine h.bind_pure ?_
  intro t e he
  exact ⟨rfl, rfl, e, rfl, he⟩

theorem Expr.items_give {items : List (String × Expr)}
    (h : ∀ i ∈ items, i.2.write.Gives i.2.types fun t e => Expr.Reads t e i.2.norm) :
    (Write.byLabel (Expr.itemWriters items)).Gives
      ((sortByLabel (Expr.itemTypes items)).flatMap (·.2)) fun t es =>
        ∀ tag attrs, (Element.node tag attrs es).Items (Expr.Reads t)
          (sortByLabel (Expr.normItems items)) := by
  rw [Expr.byLabel_itemWriters, Expr.sorted_itemTypes, Expr.normItems_eq_map, sortByLabel_map]
  refine (Write.Gives.all (g := fun i => (i.1, i.2.norm))
    (P := fun t e i => e.tag = "Record_Item" ∧ Element.Labels (Expr.Reads t) e i)
    fun i hi => Expr.writeItem_gives (h i (mem_sortByLabel.1 hi))).mono ?_
  intro t es hes tag attrs
  exact Element.forall₂_childrenNamed hes

theorem Expr.nodup_labels_norm {items : List (String × Expr)} (h : (items.map (·.1)).Nodup) :
    ((sortByLabel (Expr.normItems items)).map (·.1)).Nodup := by
  refine (((sortByLabel_perm _).map _).nodup_iff).2 ?_
  rwa [Expr.normItems_eq_map, List.map_map]

/-! ## Comparisons and negations -/

theorem Pred.reads_of_joins {t : Table} {e : Element} {j : Joined Pred} {p : Pred}
    (h : Joins t (Expr.Reads t) (Pred.Reads t) e j) (heq : p = Pred.ofJoined j) :
    Pred.Reads t e p := by
  rw [heq]
  exact Pred.read_of_form (.joined h)

section
variable {op : Comparison} {x y : Expr}

theorem Pred.compare_gives {F : Type} {S : Table → Element → F → Prop} (hop : op.Declared)
    (hx : x.write.Gives x.types fun t e => Expr.Reads t e x.norm)
    (hy : y.write.Gives y.types fun t e => Expr.Reads t e y.norm) :
    (Pred.compare op x y).write.Gives (x.types ++ y.types) fun t e =>
      Joins t (Expr.Reads t) (S t) e (.compare op false x.norm y.norm) := by
  refine hx.bind fun a => hy.bind_pure ?_
  intro t b hb ha
  exact .compare rfl rfl (Comparison.ofSymbol?_symbol hop) rfl rfl ha hb

/-- A negated comparison is written with its negated symbol where it has one, and otherwise as the
negation of a comparison. -/
theorem Pred.not_compare_gives {F : Type} {S : Table → Element → F → Prop}
    {P : Table → Element → Prop} (hop : op.Declared)
    (hx : x.write.Gives x.types fun t e => Expr.Reads t e x.norm)
    (hy : y.write.Gives y.types fun t e => Expr.Reads t e y.norm)
    (hnegated : ∀ t e, Joins t (Expr.Reads t) (S t) e (.compare op true x.norm y.norm) → P t e)
    (hnot : ∀ t a, Joins t (Expr.Reads t) (S t) a (.compare op false x.norm y.norm) →
      P t (.node "Unary_Pred" [⟨"op", "not"⟩] [a])) :
    (Pred.not (.compare op x y)).write.Gives (x.types ++ y.types) P := by
  unfold Pred.write
  refine (Write.negatedSymbol?_gives hop.1).bind fun negated => hx.bind fun a => hy.bind_pure ?_
  intro t b hb ha hs
  cases negated with
  | some s =>
    exact hnegated t _ (.compare rfl rfl (Comparison.ofSymbol?_negatedSymbol hs) rfl rfl ha hb)
  | none => exact hnot t _ (.compare rfl rfl (Comparison.ofSymbol?_symbol hop) rfl rfl ha hb)

theorem Pred.not_gives {p : Pred} (hne : ∀ op x y, p ≠ .compare op x y)
    (hp : p.write.Gives p.types fun t e => Pred.Reads t e p.norm) :
    (Pred.not p).write.Gives p.types fun t e => Pred.Reads t e (.not p.norm) := by
  rw [Pred.write_not hne]
  refine hp.bind_pure ?_
  intro t a ha
  exact Pred.reads_of_joins (.not rfl rfl rfl ha) rfl

end

/-! ## Trees -/

mutual
theorem Expr.write_gives (x : Expr) (h : x.WellFormed) :
    x.write.Gives x.types fun t e => Expr.Reads t e x.norm := by
  cases x with
  | absent => exact h.elim
  | constant info kind => exact Expr.constant_gives h.1 h.2
  | ident info name => exact Expr.ident_gives h.1 h.2.1 h.2.2
  | integer info digits =>
    refine (Write.leaf_gives h (by simp)).mono ?_
    rintro t e ⟨attrs, rfl, ha⟩
    exact Expr.read_of_form (.integer rfl (ha.attr? (by decide) (by decide)) (ha.read _ _))
  | string info value =>
    refine (Write.leaf_gives h (by simp)).mono ?_
    rintro t e ⟨attrs, rfl, ha⟩
    exact Expr.read_of_form (.string (.inl rfl) (ha.attr? (by decide) (by decide)) (ha.read _ _))
  | real info whole fraction =>
    refine (Write.leaf_gives h.1 (by simp)).mono ?_
    rintro t e ⟨attrs, rfl, ha⟩
    have hreal : Expr.Reads t (.node "Real_Literal" attrs []) _ :=
      Expr.read_of_form (.real rfl (ha.attr? (by decide) (by decide)) (ha.read _ _))
    -- There is no point in the whole part, so the text is divided where its parts were joined.
    unfold Expr.ofRealText at hreal
    rwa [Expr.splitReal_realText h.2] at hreal
  | unary info op x =>
    obtain ⟨hinfo, hop, hx⟩ := h
    refine (Write.infoAttrs_gives hinfo (by simp)).bind fun attrs => ?_
    refine (x.write_gives hx).bind_pure ?_
    intro t e he ha
    exact Expr.read_of_form (.unary rfl (ha.attr? (by decide) (by decide))
      (Operator.ofSymbol?_symbol hop) (ha.read _ _) rfl he)
  | binary info op x y =>
    obtain ⟨hinfo, hop, hx, hy⟩ := h
    refine (Write.infoAttrs_gives hinfo (by simp)).bind fun attrs => ?_
    refine (x.write_gives hx).bind fun e => (y.write_gives hy).bind_pure ?_
    intro t e' he' he ha
    exact Expr.read_of_form (.binary rfl (ha.attr? (by decide) (by decide))
      (BinaryOp.ofSymbol?_symbol hop) (ha.read _ _) rfl rfl he he')
  | ternary info op x y z =>
    obtain ⟨hinfo, hop, hx, hy, hz⟩ := h
    refine (Write.infoAttrs_gives hinfo (by simp)).bind fun attrs => ?_
    refine (x.write_gives hx).bind fun e => (y.write_gives hy).bind fun e' => ?_
    refine (z.write_gives hz).bind_pure ?_
    intro t e'' he'' he' he ha
    exact Expr.read_of_form (.ternary rfl (ha.attr? (by decide) (by decide))
      (Operator.ofSymbol?_symbol hop) (ha.read _ _) rfl rfl rfl
      he he' he'')
  | nary info op xs =>
    obtain ⟨hinfo, hop, hxs⟩ := h
    refine (Write.infoAttrs_gives hinfo (by simp)).bind fun attrs => ?_
    refine (Expr.writers_give xs hxs).bind_pure ?_
    intro t es hes ha
    exact Expr.read_of_form (.nary rfl (ha.attr? (by decide) (by decide))
      (Operator.ofSymbol?_symbol hop) (ha.read _ _) hes)
  | bool info p =>
    obtain ⟨hinfo, hp⟩ := h
    refine (Write.infoAttrs_gives hinfo (by simp)).bind fun attrs => ?_
    refine (p.write_gives hp).bind_pure ?_
    intro t e he ha
    exact Expr.read_of_form (.bool rfl (ha.read _ _) rfl he)
  | struct info items =>
    obtain ⟨hinfo, hlabels, hitems⟩ := h
    refine (Write.infoAttrs_gives hinfo (by simp)).bind fun attrs => ?_
    refine (Expr.items_give (Expr.write_gives_of_mem items hitems)).bind_pure ?_
    intro t es hes ha
    -- The items are written by their labels, so that sorting what is read changes nothing.
    have hread := Expr.read_of_form
      (.struct rfl (ha.read "Struct" es) (hes _ _) (Expr.nodup_labels_norm hlabels))
    unfold Expr.ofStructItems at hread
    rwa [sortByLabel_sortByLabel] at hread
  | record info items =>
    obtain ⟨hinfo, hlabels, hitems⟩ := h
    refine (Write.infoAttrs_gives hinfo (by simp)).bind fun attrs => ?_
    refine (Expr.items_give (Expr.write_gives_of_mem items hitems)).bind_pure ?_
    intro t es hes ha
    have hread := Expr.read_of_form
      (.record rfl (ha.read "Record" es) (hes _ _) (Expr.nodup_labels_norm hlabels))
    unfold Expr.ofRecordItems at hread
    rwa [sortByLabel_sortByLabel] at hread
  | quantified info op vars guard body =>
    obtain ⟨hinfo, hop, hvars, hguard, hbody⟩ := h
    refine (Write.infoAttrs_gives hinfo (by simp)).bind fun attrs => ?_
    refine (Write.typedVars_gives hvars).bind fun v => ?_
    refine (guard.write_gives hguard).bind fun g => (body.write_gives hbody).bind_pure ?_
    rintro t b hb hg ⟨htag, hlisted⟩ ha
    exact Expr.read_of_form (.quantified rfl (ha.attr? (by decide) (by decide))
      (Operator.ofSymbol?_symbol hop) (ha.read _ _)
      (Element.first?_cons htag) hlisted
      (by simp [Element.inner?_cons, Element.inner?_skip, htag]) hg
      (by simp [Element.inner?_cons, Element.inner?_skip, htag]) hb)
  | comprehension info vars body =>
    obtain ⟨hinfo, hvars, hbody⟩ := h
    refine (Write.infoAttrs_gives hinfo (by simp)).bind fun attrs => ?_
    refine (Write.typedVars_gives hvars).bind fun v => (body.write_gives hbody).bind_pure ?_
    rintro t b hb ⟨htag, hlisted⟩ ha
    exact Expr.read_of_form (.comprehension rfl (ha.read _ _) (Element.first?_cons htag) hlisted
      (by simp [Element.inner?_cons, Element.inner?_skip, htag]) hb)
  | field info label x =>
    obtain ⟨hinfo, hx⟩ := h
    refine (Write.infoAttrs_gives hinfo (by simp)).bind fun attrs => ?_
    refine (x.write_gives hx).bind_pure ?_
    intro t e he ha
    exact Expr.read_of_form (.field rfl (ha.attr? (by decide) (by decide)) (ha.read _ _) rfl he)
  | update info label x value =>
    obtain ⟨hinfo, hx, hvalue⟩ := h
    refine (Write.infoAttrs_gives hinfo (by simp)).bind fun attrs => ?_
    refine (x.write_gives hx).bind fun e => (value.write_gives hvalue).bind_pure ?_
    intro t e' he' he ha
    exact Expr.read_of_form
      (.update rfl (ha.attr? (by decide) (by decide)) (ha.read _ _) rfl rfl he he')

theorem Expr.writers_give (xs : List Expr) (h : Expr.AllWellFormed xs) :
    (Write.all (Expr.writers xs)).Gives (Expr.typesAll xs) fun t es =>
      List.Forall₂ (Expr.Reads t) es (Expr.normAll xs) := by
  cases xs with
  | nil => exact .pure fun t => .nil
  | cons x xs =>
    refine (x.write_gives h.1).bind fun e => (Expr.writers_give xs h.2).bind_pure ?_
    intro t es hes he
    exact .cons he hes

theorem Expr.write_gives_of_mem (items : List (String × Expr)) (h : Expr.ItemsWellFormed items) :
    ∀ i ∈ items, i.2.write.Gives i.2.types fun t e => Expr.Reads t e i.2.norm := by
  cases items with
  | nil => simp
  | cons i items =>
    rintro j (_ | ⟨_, hj⟩)
    · exact i.2.write_gives h.1
    · exact Expr.write_gives_of_mem items h.2 j hj

theorem Pred.write_gives (p : Pred) (h : p.WellFormed) :
    p.write.Gives p.types fun t e => Pred.Reads t e p.norm := by
  cases p with
  | absent => exact h.elim
  | truth => exact .pure fun t => Pred.reads_of_joins (.and rfl rfl .nil) rfl
  | falsity => exact .pure fun t => Pred.reads_of_joins (.or rfl rfl .nil) rfl
  | implies p q =>
    refine (p.write_gives h.1).bind fun a => (q.write_gives h.2).bind_pure ?_
    intro t b hb ha
    exact Pred.reads_of_joins (.implies rfl rfl rfl rfl ha hb) rfl
  | equiv p q =>
    refine (p.write_gives h.1).bind fun a => (q.write_gives h.2).bind_pure ?_
    intro t b hb ha
    exact Pred.reads_of_joins (.equiv rfl rfl rfl rfl ha hb) rfl
  | compare op x y =>
    refine (Pred.compare_gives (S := Pred.Reads) h.1 (x.write_gives h.2.1)
      (y.write_gives h.2.2)).mono ?_
    exact fun t e he => Pred.reads_of_joins he rfl
  | not p =>
    cases p with
    | compare op x y =>
      refine Pred.not_compare_gives (S := Pred.Reads) h.1 (x.write_gives h.2.1)
        (y.write_gives h.2.2) ?_ ?_
      · exact fun t e he => Pred.reads_of_joins he rfl
      · exact fun t a ha => Pred.reads_of_joins (.not rfl rfl rfl (Pred.reads_of_joins ha rfl)) rfl
    | _ => exact Pred.not_gives nofun (Pred.write_gives _ h)
  | and ps =>
    refine (Pred.writers_give ps h).bind_pure ?_
    intro t es hes
    exact Pred.reads_of_joins (.and rfl rfl hes) (by cases ps <;> rfl)
  | or ps =>
    refine (Pred.writers_give ps h).bind_pure ?_
    intro t es hes
    exact Pred.reads_of_joins (.or rfl rfl hes) (by cases ps <;> rfl)
  | forAll vars body =>
    refine (Write.typedVars_gives h.1).bind fun v => (body.write_gives h.2).bind_pure ?_
    rintro t b hb ⟨htag, hlisted⟩
    exact Pred.reads_of_joins (.forAll rfl rfl (Element.first?_cons htag) hlisted
      (by simp [Element.inner?_cons, Element.inner?_skip, htag]) hb) rfl
  | forSome vars body =>
    refine (Write.typedVars_gives h.1).bind fun v => (body.write_gives h.2).bind_pure ?_
    rintro t b hb ⟨htag, hlisted⟩
    exact Pred.reads_of_joins (.forSome rfl rfl (Element.first?_cons htag) hlisted
      (by simp [Element.inner?_cons, Element.inner?_skip, htag]) hb) rfl

theorem Pred.writers_give (ps : List Pred) (h : Pred.AllWellFormed ps) :
    (Write.all (Pred.writers ps)).Gives (Pred.typesAll ps) fun t es =>
      List.Forall₂ (Pred.Reads t) es (Pred.normAll ps) := by
  cases ps with
  | nil => exact .pure fun t => .nil
  | cons p ps =>
    refine (p.write_gives h.1).bind fun e => (Pred.writers_give ps h.2).bind_pure ?_
    intro t es hes he
    exact .cons he hes
end

/-- Well-formed expressions and predicates are written on every pool that writing can reach, which
then has their types too, and are read as their normal forms with every table that begins with the
types of the pool. The numbers of types have to fit a word, as the places of a list in memory do. -/
theorem expr_pred_round_trip {p : Pool} (hp : p.Reachable) :
    (∀ x : Expr, x.WellFormed → ∃ e, x.write.on p = (.ok e, p.addAll x.types) ∧
      ((p.addAll x.types).Addressable → ∀ t : Table, (p.addAll x.types).types <+: t.types →
        Expr.read t e = .ok x.norm)) ∧
    ∀ a : Pred, a.WellFormed → ∃ e, a.write.on p = (.ok e, p.addAll a.types) ∧
      ((p.addAll a.types).Addressable → ∀ t : Table, (p.addAll a.types).types <+: t.types →
        Pred.read t e = .ok a.norm) := by
  constructor
  · intro x hx
    obtain ⟨e, hon, -, hread⟩ := x.write_gives hx p hp.sound
    exact ⟨e, hon, hread⟩
  · intro a ha
    obtain ⟨e, hon, -, hread⟩ := a.write_gives ha p hp.sound
    exact ⟨e, hon, hread⟩

/-- A record with its items out of order, one of them the truth value of an empty conjunction. -/
def sampleRecord : Expr :=
  .record ⟨.struct [("a", .boolean), ("b", .integer)], ["t"]⟩
    [("b", .ident ⟨.integer, []⟩ ⟨.suffixed, "x", 2⟩), ("a", .bool ⟨.boolean, []⟩ (.and []))]

theorem sampleRecord_wellFormed : sampleRecord.WellFormed := by
  refine ⟨by decide, by decide, ⟨by decide, ?_, fun _ => by decide⟩, ⟨by decide, trivial⟩, trivial⟩
  exact .suffixed "x" (by decide) (by decide)

theorem sampleRecord_norm : sampleRecord.norm =
    .record ⟨.struct [("a", .boolean), ("b", .integer)], ["t"]⟩
      [("a", .bool ⟨.boolean, []⟩ .truth), ("b", .ident ⟨.integer, []⟩ ⟨.suffixed, "x", 2⟩)] := by
  simp [sampleRecord, Expr.norm, Expr.normItems, Pred.norm, sortByLabel, List.mergeSort]

theorem expr_pred_round_trip_sample :
    ∃ e, sampleRecord.write.on .empty = (.ok e, Pool.empty.addAll sampleRecord.types) ∧
      Expr.read (Pool.empty.addAll sampleRecord.types).table e =
        .ok (.record ⟨.struct [("a", .boolean), ("b", .integer)], ["t"]⟩
          [("a", .bool ⟨.boolean, []⟩ .truth),
            ("b", .ident ⟨.integer, []⟩ ⟨.suffixed, "x", 2⟩)]) := by
  obtain ⟨e, hon, hread⟩ := (expr_pred_round_trip .empty).1 sampleRecord sampleRecord_wellFormed
  have hfew : sampleRecord.types.length ≤ 9223372036854775808 := by
    simp [sampleRecord, Expr.types, Expr.itemTypes, Pred.types, Pred.typesAll, sortByLabel,
      List.mergeSort]
  rw [← sampleRecord_norm]
  exact ⟨e, hon, hread (Pool.addressable_addAll_empty hfew) (Pool.table _) (List.prefix_refl _)⟩

end BMethod
