import Mathlib
import BMethod.Proofs.Element.Agreement
import BMethod.Proofs.Element.Clean
import BMethod.Proofs.Element.Printing

/-!
# Type declarations are read back

One step of reading a type as a relation. What is read are types whose records are sorted by label,
and the terms of these types are read back. The numbers of declarations fit a word, so a table that
was read can be declared again.
-/

namespace BMethod

open Element (Agrees Clean Printable)

namespace Ty

/-! ## Terms -/

/-- What an element says about a type, when `R` is what the elements inside it say. -/
inductive Form (R : Element → Ty → Prop) (e : Element) : Ty → Prop
  | base {name : String} {ty : Ty} (tag : e.tag = "Id") (value : e.attr? "value" = some name)
      (known : ofName? name = some ty) : Form R e ty
  | set {name : String} (tag : e.tag = "Id") (value : e.attr? "value" = some name)
      (unknown : ofName? name = none) (suffix : e.attr? "suffix" = none) : Form R e .integer
  | power {a : Element} {ty : Ty} (tag : e.tag = "Unary_Exp") (op : e.attr? "op" = some "POW")
      (fst : e.children[0]? = some a) (elem : R a ty) : Form R e (.power ty)
  | product {a b : Element} {ty ty' : Ty} (tag : e.tag = "Binary_Exp")
      (op : e.attr? "op" = some "*") (fst : e.children[0]? = some a)
      (snd : e.children[1]? = some b) (left : R a ty) (right : R b ty') :
      Form R e (.product ty ty')
  | struct {fields : List (String × Ty)} (tag : e.tag = "Struct") (items : e.Items R fields)
      (nodup : (fields.map (·.1)).Nodup) : Form R e (.ofFields fields)

abbrev Reads (e : Element) (ty : Ty) : Prop :=
  Ty.readTerm e = .ok ty

section
variable {e : Element} {es : List Element}

theorem Form.imp {R R' : Element → Ty → Prop} {ty : Ty}
    (hR : ∀ c ty, sizeOf c < sizeOf e → R c ty → R' c ty) (h : Form R e ty) : Form R' e ty := by
  cases h with
  | base tag value known => exact .base tag value known
  | set tag value unknown suffix => exact .set tag value unknown suffix
  | power tag op fst elem =>
    exact .power tag op fst (hR _ _ (Element.sizeOf_lt_of_getElem? fst) elem)
  | product tag op fst snd left right =>
    exact .product tag op fst snd (hR _ _ (Element.sizeOf_lt_of_getElem? fst) left)
      (hR _ _ (Element.sizeOf_lt_of_getElem? snd) right)
  | struct tag items nodup => exact .struct tag (Element.Items.imp hR items) nodup

theorem readFields_eq_ok {fields : List (String × Ty)} :
    readFields es = .ok fields ↔
      List.Forall₂ (Element.Labels Reads) (es.filter (Element.hasTag "Record_Item")) fields := by
  induction es generalizing fields with
  | nil => cases fields <;> simp [readFields, pure_eq_ok]
  | cons e es ih =>
    rw [readFields]
    split
    · rename_i htag
      have hkeep : Element.hasTag "Record_Item" e = true := by simp [Element.hasTag, htag]
      simp only [bind_eq_ok, pure_eq_ok, ih, Element.needAttr_eq_ok, Element.needChild_eq_ok]
      rw [List.filter_cons_of_pos hkeep]
      constructor
      · rintro ⟨label, hlabel, c, hc, ty, hty, fields, hfields, rfl⟩
        exact .cons ⟨hlabel, c.1, hc, hty⟩ hfields
      · rintro (_ | ⟨⟨hlabel, c, hc, hty⟩, hfields⟩)
        exact ⟨_, hlabel, ⟨c, Element.sizeOf_lt_of_first? hc⟩, hc, _, hty, _, hfields, rfl⟩
    · rename_i htag
      have hdrop : ¬Element.hasTag "Record_Item" e = true := by simp [Element.hasTag, htag]
      rw [List.filter_cons_of_neg hdrop, ih]

theorem checkOperator_eq_ok {wanted : String} {u : Unit} :
    checkOperator e wanted = .ok u ↔ e.attr? "op" = some wanted := by
  unfold checkOperator
  split
  · rename_i hop
    simp [hop, pure_eq_ok]
  · rename_i hop
    simp [hop, Element.complain_ne_ok]

theorem form_of_read {ty : Ty} (h : readTerm e = .ok ty) : Form Reads e ty := by
  rw [readTerm] at h
  split at h <;> rename_i tag
  · unfold readIdentifier at h
    simp only [bind_eq_ok, Element.needAttr_eq_ok] at h
    obtain ⟨name, value, h⟩ := h
    split at h
    · rename_i known
      rw [pure_eq_ok] at h
      subst h
      exact .base tag value known
    · rename_i unknown
      split at h
      · exact absurd h (Element.complain_ne_ok _ _ _)
      · rename_i suffix
        rw [pure_eq_ok] at h
        subst h
        exact .set tag value unknown (by simpa using suffix)
  · simp only [bind_eq_ok, pure_eq_ok, checkOperator_eq_ok, Element.needOne_eq_ok] at h
    obtain ⟨_, op, a, fst, ty, elem, rfl⟩ := h
    exact .power tag op fst elem
  · simp only [bind_eq_ok, pure_eq_ok, checkOperator_eq_ok, Element.needTwo_eq_ok] at h
    obtain ⟨_, op, ab, ⟨fst, snd⟩, ty, left, ty', right, rfl⟩ := h
    exact .product tag op fst snd left right
  · simp only [bind_eq_ok, pure_eq_ok, readFields_eq_ok, checkLabels_eq_ok] at h
    obtain ⟨fields, items, _, nodup, rfl⟩ := h
    exact .struct tag items nodup
  · exact absurd h (Element.complain_ne_ok _ _ _)

theorem read_of_form {ty : Ty} (h : Form Reads e ty) : readTerm e = .ok ty := by
  rw [readTerm]
  cases h with
  | base tag value known =>
    simp [tag, readIdentifier, Element.needAttr_eq_ok.2 value, known, pure_eq_ok]
  | set tag value unknown suffix =>
    simp [tag, readIdentifier, Element.needAttr_eq_ok.2 value, unknown, suffix, pure_eq_ok]
  | power tag op fst elem =>
    simp [tag, (checkOperator_eq_ok (u := ())).2 op, Element.needOne_of fst, elem]
  | product tag op fst snd left right =>
    simp [tag, (checkOperator_eq_ok (u := ())).2 op, Element.needTwo_of fst snd, left, right]
  | struct tag items nodup =>
    simp [tag, readFields_eq_ok.2 items, (checkLabels_eq_ok (u := ())).2 nodup]

theorem read_induction {P : Element → Ty → Prop}
    (hP : ∀ e ty, Form (fun c ty => Reads c ty ∧ P c ty) e ty → P e ty) (e : Element) (ty : Ty)
    (h : Reads e ty) : P e ty := by
  induction hn : sizeOf e using Nat.strong_induction_on generalizing e ty with
  | _ n ih =>
    subst hn
    refine hP e ty ((form_of_read h).imp ?_)
    exact fun c ty hc hty => ⟨hty, ih _ hc c ty hty rfl⟩

end

theorem Reads.agrees {t t' : Table} {e e' : Element} {ty : Ty} (h : Reads e ty)
    (he : Agrees t t' e e') : Reads e' ty := by
  refine read_induction (P := fun e ty => ∀ e', Agrees t t' e e' → Reads e' ty) ?_ e ty h e' he
  intro e ty h e' he
  refine read_of_form ?_
  cases h with
  | base tag value known => exact .base (he.tag.trans tag) (he.attr? value (by decide)) known
  | set tag value unknown suffix =>
    exact .set (he.tag.trans tag) (he.attr? value (by decide)) unknown (he.attr? suffix (by decide))
  | power tag op fst elem =>
    obtain ⟨a', fst', ha⟩ := he.child? tag (by decide) fst
    exact .power (he.tag.trans tag) (he.attr? op (by decide)) fst' (elem.2 a' ha)
  | product tag op fst snd left right =>
    obtain ⟨a', fst', ha⟩ := he.child? tag (by decide) fst
    obtain ⟨b', snd', hb⟩ := he.child? tag (by decide) snd
    exact .product (he.tag.trans tag) (he.attr? op (by decide)) fst' snd' (left.2 a' ha)
      (right.2 b' hb)
  | struct tag items nodup =>
    obtain ⟨fields', hperm, items'⟩ := he.items (by rw [tag]; decide)
      (Element.Items.imp (fun c ty _ hty => hty.2) items)
    have nodup' := ((hperm.map (·.1)).nodup_iff).2 nodup
    rw [ofFields, ← sortByLabel_eq_of_perm hperm nodup]
    exact .struct (he.tag.trans tag) items' nodup'

/-! ## Canonical types -/

/-- A type whose records have their fields in the order of their labels, which are all different. -/
inductive Canonical : Ty → Prop
  | integer : Canonical .integer
  | boolean : Canonical .boolean
  | float : Canonical .float
  | real : Canonical .real
  | string : Canonical .string
  | power {elem : Ty} (helem : Canonical elem) : Canonical (.power elem)
  | product {lhs rhs : Ty} (hlhs : Canonical lhs) (hrhs : Canonical rhs) :
      Canonical (.product lhs rhs)
  | struct {fields : List (String × Ty)} (sorted : fields.Pairwise fun f g => f.1 < g.1)
      (hfields : ∀ f ∈ fields, Canonical f.2) : Canonical (.struct fields)

theorem fieldTerms_eq_map (fields : List (String × Ty)) :
    fieldTerms fields =
      fields.map fun f => .node "Record_Item" [⟨"label", f.1⟩] [f.2.term] := by
  induction fields with
  | nil => rfl
  | cons f fields ih => rw [fieldTerms, ih, List.map_cons]

theorem canonical_ofName? {name : String} {ty : Ty} (h : ofName? name = some ty) :
    ty.Canonical := by
  unfold ofName? at h
  split at h <;> cases h
  · exact .integer
  · exact .boolean
  · exact .float
  · exact .real
  · exact .string

theorem lt_sortByLabel {fields : List (String × Ty)} (h : (fields.map (·.1)).Nodup) :
    (sortByLabel fields).Pairwise fun f g => f.1 < g.1 := by
  have hnodup : ((sortByLabel fields).map (·.1)).Nodup :=
    (((sortByLabel_perm fields).map _).nodup_iff).2 h
  exact lt_of_sorted (sorted_sortByLabel fields) hnodup

theorem Reads.canonical {e : Element} {ty : Ty} (h : Reads e ty) : ty.Canonical := by
  refine read_induction (P := fun _ ty => ty.Canonical) ?_ e ty h
  intro e ty h
  cases h with
  | base _ _ known => exact canonical_ofName? known
  | set => exact .integer
  | power _ _ _ elem => exact .power elem.2
  | product _ _ _ _ left right => exact .product left.2 right.2
  | struct _ items nodup =>
    refine .struct (lt_sortByLabel nodup) ?_
    intro f hf
    obtain ⟨c, _, _, d, _, hd⟩ := exists_of_forall₂_right items (mem_sortByLabel.1 hf)
    exact hd.2

theorem Canonical.reads_term {ty : Ty} (h : ty.Canonical) : Reads ty.term ty := by
  refine read_of_form ?_
  induction h with
  | integer | boolean | float | real | string => exact .base rfl rfl rfl
  | power _ ih => exact .power rfl rfl rfl (read_of_form ih)
  | product _ _ ihl ihr => exact .product rfl rfl rfl rfl (read_of_form ihl) (read_of_form ihr)
  | @struct fields sorted _ ih =>
    have hsorted : sortByLabel fields = fields := sortByLabel_of_sorted (sorted.imp le_of_lt)
    have hnodup : (fields.map (·.1)).Nodup := List.pairwise_map.2 (sorted.imp ne_of_lt)
    have hitems : (Ty.struct fields).term.Items Reads fields := by
      rw [term, fieldTerms_eq_map]
      refine Element.forall₂_childrenNamed (List.forall₂_map_left_iff.2 ?_)
      refine List.forall₂_same.2 ?_
      intro f hf
      exact ⟨rfl, rfl, _, rfl, read_of_form (ih f hf)⟩
    have hform := Form.struct (R := Reads) (e := (Ty.struct fields).term) rfl hitems hnodup
    rwa [ofFields, hsorted] at hform

/-! ## Terms as text -/

theorem printable_term_ofName? {name : String} {ty : Ty} (h : ofName? name = some ty) :
    Printable ty.term := by
  unfold ofName? at h
  split at h <;> cases h
  all_goals exact .node (by decide) (by simp) (by decide)

theorem Reads.printable_term {e : Element} {ty : Ty} (h : Reads e ty) (hclean : e.Clean) :
    Printable ty.term := by
  refine read_induction (P := fun e ty => e.Clean → Printable ty.term) ?_ e ty h hclean
  intro e ty h hclean
  cases h with
  | base _ _ known => exact printable_term_ofName? known
  | set => exact .node (by decide) (by simp) (by decide)
  | power _ _ fst elem =>
    have helem := elem.2 (hclean.child? fst)
    exact .node (by decide) (by simpa using helem) (by decide)
  | product _ _ fst snd left right =>
    have hleft := left.2 (hclean.child? fst)
    have hright := right.2 (hclean.child? snd)
    exact .node (by decide) (by simpa using ⟨hleft, hright⟩) (by decide)
  | @struct fields _ items _ =>
    rw [ofFields, term, fieldTerms_eq_map]
    refine .node (by simp) ?_ (by decide)
    intro c hc
    obtain ⟨f, hf, rfl⟩ := List.mem_map.1 hc
    obtain ⟨d, hd, hlabel, a, ha, hty⟩ := exists_of_forall₂_right items (mem_sortByLabel.1 hf)
    have hd := hclean.childrenNamed hd
    have hlabel : Xml.Faithful ⟨"label", f.1⟩ := .of (hd.attr hlabel) (by decide)
    refine .node (by simpa using hlabel) ?_ (by decide)
    simpa using hty.2 (hd.first? ha)

end Ty

/-! ## Tables -/

namespace Table

def Declares (n : Nat) (e : Element) (ty : Ty) : Prop :=
  e.tag = "Type" ∧ (∃ v, e.attr? "id" = some v ∧ Text.readInt? v = some (n : Int)) ∧
    ∃ a, e.first? "" = some a ∧ Ty.Reads a ty

theorem readDeclaration_eq_ok {n : Nat} {e : Element} {ty : Ty} :
    readDeclaration n e = .ok ty ↔ Declares n e ty := by
  unfold readDeclaration Declares
  split
  · rename_i htag
    simp [htag, Element.complain_ne_ok]
  · rename_i htag
    have htag := not_not.1 htag
    split
    · rename_i hnone
      simp [hnone, Element.complain_ne_ok]
    · rename_i v hv
      split
      · rename_i hnone
        simp [hv, hnone, Element.complain_ne_ok]
      · rename_i id hid
        split
        · rename_i hne
          simp [hv, hid, hne, Element.complain_ne_ok]
        · rename_i heq
          have heq := not_not.1 heq
          simp only [htag, hv, bind_eq_ok, Element.needChild_eq_ok]
          constructor
          · rintro ⟨a, ha, hty⟩
            exact ⟨trivial, ⟨v, rfl, hid.trans (by rw [heq])⟩, a.1, ha, hty⟩
          · rintro ⟨-, -, a, ha, hty⟩
            exact ⟨⟨a, Element.sizeOf_lt_of_first? ha⟩, ha, hty⟩

theorem readDeclarations_cons {n : Nat} {e : Element} {es : List Element} {ts : List Ty} :
    readDeclarations n (e :: es) = .ok ts ↔
      ∃ ty us, Declares n e ty ∧ readDeclarations (n + 1) es = .ok us ∧ ts = ty :: us := by
  rw [readDeclarations]
  simp only [bind_eq_ok, pure_eq_ok, readDeclaration_eq_ok]
  constructor
  · rintro ⟨ty, hty, us, hus, rfl⟩
    exact ⟨ty, us, hty, hus, rfl⟩
  · rintro ⟨ty, us, hty, hus, rfl⟩
    exact ⟨ty, hty, us, hus, rfl⟩

theorem readDeclarations_agrees {t t' : Table} {n : Nat} {es es' : List Element} {ts : List Ty}
    (hes : List.Forall₂ (Agrees t t') es es') (h : readDeclarations n es = .ok ts) :
    readDeclarations n es' = .ok ts := by
  induction hes generalizing n ts with
  | nil => exact h
  | cons he _ ih =>
    obtain ⟨ty, us, ⟨htag, ⟨v, hv, hid⟩, a, ha, hty⟩, hus, rfl⟩ := readDeclarations_cons.1 h
    obtain ⟨a', ha', haa'⟩ := he.firstChild? htag (by decide) ha
    refine readDeclarations_cons.2 ⟨ty, us, ?_, ih hus, rfl⟩
    exact ⟨he.tag.trans htag, ⟨v, he.attr? hv (by decide), hid⟩, a', ha', hty.agrees haa'⟩

theorem declarations?_agrees {t t' : Table} {e e' : Element} (he : Agrees t t' e e') :
    Option.Rel (Agrees t t') (declarations? e) (declarations? e') := by
  unfold declarations?
  rw [he.tag]
  split
  · exact .some he
  · exact he.find? (by decide)

theorem tag_of_declarations? {e d : Element} (h : declarations? e = some d) :
    d.tag = "TypeInfos" := by
  unfold declarations? at h
  split at h
  · cases h
    assumption
  · exact Element.tag_of_first? h (by decide)

theorem read_agrees {t t' u : Table} {e e' : Element} (he : Agrees t t' e e')
    (h : Table.read e = .ok u) : Table.read e' = .ok u := by
  have hrel := declarations?_agrees he
  have htag := fun d => @tag_of_declarations? e d
  unfold Table.read at h ⊢
  generalize declarations? e = d at h hrel htag
  generalize declarations? e' = d' at hrel
  cases hrel with
  | none => exact h
  | some hd =>
    obtain ⟨ts, hts, rfl⟩ := map_eq_ok.1 h
    have hchildren := hd.children (htag _ rfl) (by decide)
    exact map_eq_ok.2 ⟨ts, readDeclarations_agrees hchildren hts, rfl⟩

theorem readDeclarations_declarationsFrom {n : Nat} {ts : List Ty} (hts : ∀ ty ∈ ts, ty.Canonical)
    (hsize : n + ts.length ≤ 9223372036854775808) :
    readDeclarations n (declarationsFrom n ts) = .ok ts := by
  induction ts generalizing n with
  | nil => rfl
  | cons ty ts ih =>
    rw [List.length_cons] at hsize
    have hrest := ih (n := n + 1) (fun u hu => hts u (List.mem_cons_of_mem _ hu)) (by omega)
    rw [declarationsFrom]
    refine readDeclarations_cons.2 ⟨ty, ts, ⟨rfl, ⟨toString n, rfl, ?_⟩, _, rfl, ?_⟩, hrest, rfl⟩
    · exact Text.readInt?_toString (by omega)
    · exact (hts ty List.mem_cons_self).reads_term

theorem declarations?_declarations (p : Pool) :
    declarations? p.declarations = some p.declarations := by
  rw [declarations?, if_pos]
  rw [Pool.declarations, Element.wrap_eq, Element.tag_node]

theorem declarations?_of_first? {e d : Element} (htag : e.tag ≠ "TypeInfos")
    (hd : e.first? "TypeInfos" = some d) : declarations? e = some d := by
  rw [declarations?, if_neg htag, hd]

/-- The declarations of a pool are read back wherever they are found. -/
theorem read_of_declarations? {p : Pool} {e : Element} (he : declarations? e = some p.declarations)
    (htypes : ∀ ty ∈ p.types, ty.Canonical) (hsize : p.Addressable) :
    Table.read e = .ok p.table := by
  have hread : readDeclarations 0 p.declarations.children = .ok p.types := by
    rw [Pool.declarations, Element.wrap_eq, Element.children_node]
    refine readDeclarations_declarationsFrom htypes ?_
    rw [Nat.zero_add]
    exact hsize
  rw [Table.read, he]
  exact map_eq_ok.2 ⟨p.types, hread, rfl⟩

theorem forall_of_readDeclarations {P : Ty → Prop} {n : Nat} {es : List Element} {ts : List Ty}
    (hP : ∀ e ∈ es, ∀ a ty, e.first? "" = some a → Ty.Reads a ty → P ty)
    (h : readDeclarations n es = .ok ts) : ∀ ty ∈ ts, P ty := by
  induction es generalizing n ts with
  | nil =>
    cases h
    simp
  | cons e es ih =>
    obtain ⟨ty, us, ⟨-, -, a, ha, hty⟩, hus, rfl⟩ := readDeclarations_cons.1 h
    intro u hu
    rcases List.mem_cons.1 hu with rfl | hu
    · exact hP e List.mem_cons_self a u ha hty
    · exact ih (fun d hd => hP d (List.mem_cons_of_mem _ hd)) hus u hu

theorem length_of_readDeclarations {n : Nat} {es : List Element} {ts : List Ty}
    (h : readDeclarations n es = .ok ts) (hne : ts ≠ []) :
    n + ts.length ≤ 9223372036854775808 := by
  induction es generalizing n ts with
  | nil =>
    cases h
    exact absurd rfl hne
  | cons e es ih =>
    obtain ⟨ty, us, ⟨-, ⟨v, -, hid⟩, -⟩, hus, rfl⟩ := readDeclarations_cons.1 h
    have hle := Text.readInt?_le hid
    rw [List.length_cons]
    by_cases hempty : us = []
    · rw [hempty, List.length_nil]
      omega
    · have := ih hus hempty
      omega

theorem read_eq_ok {e : Element} {t : Table} (h : Table.read e = .ok t) :
    t = .empty ∨ ∃ d, declarations? e = some d ∧ readDeclarations 0 d.children = .ok t.types := by
  unfold Table.read at h
  split at h
  · rename_i d hd
    obtain ⟨ts, hts, rfl⟩ := map_eq_ok.1 h
    exact .inr ⟨d, hd, hts⟩
  · cases h
    exact .inl rfl

theorem size_of_read {e : Element} {t : Table} (h : Table.read e = .ok t) :
    t.size ≤ 9223372036854775808 := by
  rcases read_eq_ok h with rfl | ⟨d, -, hts⟩
  · simp [Table.empty, Table.size]
  · by_cases hempty : t.types = []
    · simp [Table.size, hempty]
    · have := length_of_readDeclarations hts hempty
      unfold Table.size
      omega

/-- Types of a pool differ from each other, so there are no more of them than in a table that has
them all. -/
theorem addressable_of_read {e : Element} {t : Table} {p : Pool} (h : Table.read e = .ok t)
    (hp : p.Sound) (htypes : p.types ⊆ t.types) : p.Addressable := by
  have hle : p.size ≤ t.size := (hp.nodup.subperm htypes).length_le
  exact Nat.le_trans hle (size_of_read h)

theorem canonical_of_read {e : Element} {t : Table} (h : Table.read e = .ok t) :
    ∀ ty ∈ t.types, ty.Canonical := by
  rcases read_eq_ok h with rfl | ⟨d, -, hts⟩
  · simp [Table.empty]
  · exact forall_of_readDeclarations (fun _ _ _ _ _ hty => hty.canonical) hts

/-- What is declared in a document are types that can be declared again. -/
theorem read_spec {e : Element} {t : Table} (hclean : e.Clean) (h : Table.read e = .ok t) :
    (∀ ty ∈ t.types, ty.Canonical ∧ Printable ty.term) ∧ t.size ≤ 9223372036854775808 := by
  refine ⟨?_, size_of_read h⟩
  rcases read_eq_ok h with rfl | ⟨d, hd, hts⟩
  · simp [Table.empty]
  · have hcleand : d.Clean := by
      unfold declarations? at hd
      split at hd
      · cases hd
        exact hclean
      · exact hclean.first? hd
    refine forall_of_readDeclarations ?_ hts
    intro c hc a ty ha hty
    exact ⟨hty.canonical, hty.printable_term ((hcleand.child hc).first? ha)⟩

theorem printable_declarationsFrom {n : Nat} {ts : List Ty} (h : ∀ ty ∈ ts, Printable ty.term) :
    ∀ e ∈ declarationsFrom n ts, Printable e := by
  induction ts generalizing n with
  | nil => simp [declarationsFrom]
  | cons ty ts ih =>
    intro e he
    rw [declarationsFrom] at he
    rcases List.mem_cons.1 he with rfl | he
    · have hid : Xml.Faithful ⟨"id", toString n⟩ := .of (Xml.allowed_toString n) (by decide)
      exact .node (by simpa using hid) (by simpa using h ty List.mem_cons_self) (by decide)
    · exact ih (fun u hu => h u (List.mem_cons_of_mem _ hu)) e he

end Table

end BMethod
