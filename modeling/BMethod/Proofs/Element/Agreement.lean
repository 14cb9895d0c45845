import Mathlib
import BMethod.Proofs.Element.Rearrangement
import BMethod.Proofs.Formula.Typing
import BMethod.Proofs.Ty.Label

/-!
# Elements that say the same

Two elements agree when readers find the same in them: the same tags, attributes and children, and
the same types behind the references to types, each in its own table. The items of records and the
equalities that give witnesses may stand in another order. The parts that readers look for agree as
well.
-/

namespace BMethod

/-- The elements agree when references to types are resolved in `t` and in `t'`. -/
inductive Element.Agrees (t t' : Table) : Element → Element → Prop
  | mk {e e' : Element} {cs : List Element} (tag : e'.tag = e.tag)
      (attr? : ∀ name, name ≠ "typref" → e'.attr? name = e.attr? name)
      (typeOf : ∀ ty, t.typeOf e = .ok ty → t'.typeOf e' = .ok ty)
      (below : List.Forall₂ (Agrees t t') e.children cs)
      (order : Rearranged e.tag cs e'.children) : Agrees t t' e e'

namespace Element

variable {t t' : Table} {e e' : Element}

theorem Agrees.tag (h : Agrees t t' e e') : e'.tag = e.tag := by
  obtain ⟨tag, _, _, _, _⟩ := h
  exact tag

theorem Agrees.attr? (h : Agrees t t' e e') {name : String} {o : Option String}
    (hattr : e.attr? name = o) (hname : name ≠ "typref") : e'.attr? name = o := by
  obtain ⟨_, attr?, _, _, _⟩ := h
  exact (attr? name hname).trans hattr

theorem Agrees.typeOf (h : Agrees t t' e e') {ty : Ty} (hty : t.typeOf e = .ok ty) :
    t'.typeOf e' = .ok ty := by
  obtain ⟨_, _, typeOf, _, _⟩ := h
  exact typeOf ty hty

theorem Agrees.inside (h : Agrees t t' e e') :
    ∃ cs, List.Forall₂ (Agrees t t') e.children cs ∧ Rearranged e.tag cs e'.children := by
  obtain ⟨_, _, _, below, order⟩ := h
  exact ⟨_, below, order⟩

theorem Agrees.children (h : Agrees t t' e e') {tag : String} (htag : e.tag = tag)
    (hkeeps : KeepsOrder tag) : List.Forall₂ (Agrees t t') e.children e'.children := by
  obtain ⟨cs, hcs, order⟩ := h.inside
  rwa [order.eq (htag ▸ hkeeps)]

/-! ## Parts -/

section
variable {es es' : List Element}

theorem find?_rel {R : Element → Element → Prop} (hR : ∀ e e', R e e' → e'.tag = e.tag)
    (h : List.Forall₂ R es es') (tag : String) :
    Option.Rel R (es.find? (hasTag tag)) (es'.find? (hasTag tag)) := by
  induction h with
  | nil => exact .none
  | cons he _ ih =>
    rw [List.find?_cons, List.find?_cons, hasTag, hasTag, hR _ _ he]
    split
    · exact .some he
    · exact ih

theorem filter_rel {R : Element → Element → Prop} (hR : ∀ e e', R e e' → e'.tag = e.tag)
    (h : List.Forall₂ R es es') (tag : String) :
    List.Forall₂ R (es.filter (hasTag tag)) (es'.filter (hasTag tag)) := by
  induction h with
  | nil => exact .nil
  | cons he _ ih =>
    rw [List.filter_cons, List.filter_cons, hasTag, hasTag, hR _ _ he]
    split
    · exact .cons he ih
    · exact ih

theorem exists_of_rel {R : Element → Element → Prop} {o o' : Option Element}
    (h : Option.Rel R o o') {a : Element} (ha : o = some a) : ∃ a', o' = some a' ∧ R a a' := by
  cases h with
  | some haa' =>
    cases ha
    exact ⟨_, rfl, haa'⟩
  | none => cases ha

theorem first?_rel {R : Element → Element → Prop} (hR : ∀ e e', R e e' → e'.tag = e.tag)
    (h : List.Forall₂ R e.children e'.children) {tag : String} {a : Element}
    (ha : e.first? tag = some a) : ∃ a', e'.first? tag = some a' ∧ R a a' :=
  exists_of_rel (find?_rel hR h tag) ha

theorem getElem?_agrees (h : List.Forall₂ (Agrees t t') es es') {i : Nat} {a : Element}
    (ha : es[i]? = some a) : ∃ a', es'[i]? = some a' ∧ Agrees t t' a a' := by
  induction h generalizing i with
  | nil => simp at ha
  | cons he _ ih =>
    cases i with
    | zero =>
      cases ha
      exact ⟨_, rfl, he⟩
    | succ i => exact ih ha

theorem forall₂_transfer {α : Type} {Q : Element → Element → Prop} {R : Element → α → Prop}
    {xs : List α} (h : List.Forall₂ (fun e x => ∀ e', Q e e' → R e' x) es xs)
    (hes : List.Forall₂ Q es es') : List.Forall₂ R es' xs := by
  induction h generalizing es' with
  | nil =>
    cases hes
    exact .nil
  | cons hx _ ih =>
    cases hes with
    | cons he hes => exact .cons (hx _ he) (ih hes)

theorem forall₂_agrees {α : Type} {R : Element → α → Prop} {xs : List α}
    (h : List.Forall₂ (fun e x => ∀ e', Agrees t t' e e' → R e' x) es xs)
    (hes : List.Forall₂ (Agrees t t') es es') : List.Forall₂ R es' xs :=
  forall₂_transfer h hes

end

theorem Agrees.childrenNamed (h : Agrees t t' e e') {tag : String} (htag : Anchored tag) :
    List.Forall₂ (Agrees t t') (e.childrenNamed tag) (e'.childrenNamed tag) := by
  obtain ⟨cs, hcs, order⟩ := h.inside
  unfold Element.childrenNamed
  rw [order.filter_anchored htag]
  exact filter_rel (fun _ _ => Agrees.tag) hcs tag

theorem Agrees.find? (h : Agrees t t' e e') {tag : String} (htag : Anchored tag) :
    Option.Rel (Agrees t t') (e.first? tag) (e'.first? tag) := by
  obtain ⟨cs, hcs, order⟩ := h.inside
  unfold Element.first?
  rw [order.find?_anchored htag]
  exact find?_rel (fun _ _ => Agrees.tag) hcs tag

theorem Agrees.first? (h : Agrees t t' e e') {tag : String} {a : Element}
    (ha : e.first? tag = some a) (htag : Anchored tag) :
    ∃ a', e'.first? tag = some a' ∧ Agrees t t' a a' :=
  exists_of_rel (h.find? htag) ha

theorem Agrees.first?_eq_none (h : Agrees t t' e e') {tag : String} (ha : e.first? tag = none)
    (htag : Anchored tag) : e'.first? tag = none := by
  have hfind := h.find? htag
  rw [ha] at hfind
  generalize e'.first? tag = found at hfind
  cases hfind
  rfl

theorem Agrees.firstChild? (h : Agrees t t' e e') {tag : String} (htag : e.tag = tag)
    (hkeeps : KeepsOrder tag) {a : Element} (ha : e.first? "" = some a) :
    ∃ a', e'.first? "" = some a' ∧ Agrees t t' a a' :=
  first?_rel (fun _ _ => Agrees.tag) (h.children htag hkeeps) ha

theorem Agrees.child? (h : Agrees t t' e e') {tag : String} (htag : e.tag = tag)
    (hkeeps : KeepsOrder tag) {i : Nat} {a : Element} (ha : e.children[i]? = some a) :
    ∃ a', e'.children[i]? = some a' ∧ Agrees t t' a a' :=
  getElem?_agrees (h.children htag hkeeps) ha

theorem Agrees.inner? (h : Agrees t t' e e') {tag : String} {a : Element}
    (ha : e.inner? tag = some a) (htag : Anchored tag ∧ KeepsOrder tag) :
    ∃ a', e'.inner? tag = some a' ∧ Agrees t t' a a' := by
  obtain ⟨w, hw, ha⟩ := Option.bind_eq_some_iff.1 ha
  obtain ⟨w', hw', hagrees⟩ := h.first? hw htag.1
  obtain ⟨a', ha', haa'⟩ := hagrees.firstChild? (tag_of_first? hw htag.1.1) htag.2 ha
  exact ⟨a', by rw [Element.inner?, hw', Option.bind_some, ha'], haa'⟩

theorem Agrees.contents (h : Agrees t t' e e') {tag : String} {c : Element}
    (hc : e.first? tag = some c) (htag : Anchored tag ∧ KeepsOrder tag) :
    ∃ c', e'.first? tag = some c' ∧ List.Forall₂ (Agrees t t') c.children c'.children := by
  obtain ⟨c', hc', hcc'⟩ := h.first? hc htag.1
  exact ⟨c', hc', hcc'.children (tag_of_first? hc htag.1.1) htag.2⟩

theorem Agrees.items {α : Type} {R : Element → α → Prop} {items : List (String × α)}
    (h : Agrees t t' e e') (hne : e.tag ≠ "Witnesses")
    (hitems : e.Items (fun c x => ∀ c', Agrees t t' c c' → R c' x) items) :
    ∃ items', items'.Perm items ∧ e'.Items R items' := by
  obtain ⟨cs, hcs, order⟩ := h.inside
  have hmiddle : List.Forall₂ (Labels R) (cs.filter (hasTag "Record_Item")) items := by
    refine forall₂_agrees (forall₂_imp_of_mem ?_ hitems)
      (filter_rel (fun _ _ => Agrees.tag) hcs "Record_Item")
    rintro c hc item ⟨hlabel, a, ha, hx⟩ c' hcc'
    have htag := tag_of_mem_childrenNamed hc (by decide)
    obtain ⟨a', ha', haa'⟩ := hcc'.firstChild? htag (by decide) ha
    exact ⟨hcc'.attr? hlabel (by decide), a', ha', hx a' haa'⟩
  obtain ⟨items', hitems', hperm⟩ := List.perm_comp_forall₂ (order.filter_items hne).symm hmiddle
  exact ⟨items', hperm, hitems'⟩

/-- The first element that holds witnesses agrees, but for the order of members. -/
theorem Agrees.witnesses (h : Agrees t t' e e') {a : Element}
    (ha : e.inner? "Witnesses" = some a) :
    ∃ b a', Agrees t t' a b ∧ Reconjoined b a' ∧ e'.inner? "Witnesses" = some a' := by
  obtain ⟨w, hw, ha⟩ := Option.bind_eq_some_iff.1 ha
  obtain ⟨w', hw', hww'⟩ := h.first? hw (by decide)
  obtain ⟨cs, hcs, order⟩ := hww'.inside
  rw [tag_of_first? hw (by decide)] at order
  obtain ⟨b, hb, hab⟩ := exists_of_rel (find?_rel (fun _ _ => Agrees.tag) hcs "") ha
  rw [find?_any] at hb
  obtain ⟨a', ha', hba'⟩ := exists_of_rel order.head?_witnesses hb
  refine ⟨b, a', hab, hba', ?_⟩
  rw [Element.inner?, hw', Option.bind_some, Element.first?, find?_any, ha']

/-! ## Types, tags and variables -/

theorem Agrees.infoRead (h : Agrees t t' e e') {info : Info} (hinfo : Info.read t e = .ok info) :
    Info.read t' e' = .ok info := by
  obtain ⟨hty, htags⟩ := Info.read_eq_ok.1 hinfo
  refine Info.read_eq_ok.2 ⟨h.typeOf hty, ?_⟩
  unfold readTags
  rw [h.attr? rfl (by decide)]
  exact htags

theorem Agrees.varName (h : Agrees t t' e e') {name : VarName} (hname : VarName.Form e name) :
    VarName.Form e' name := by
  cases hname with
  | plain tag value suffix =>
    exact .plain (h.tag.trans tag) (h.attr? value (by decide)) (h.attr? suffix (by decide))
  | suffixed tag value suffix int nonneg =>
    exact .suffixed (h.tag.trans tag) (h.attr? value (by decide)) (h.attr? suffix (by decide))
      int nonneg
  | fresh tag value => exact .fresh (h.tag.trans tag) (h.attr? value (by decide))

theorem listed_agrees {es es' : List Element} {vars : List TypedVar}
    (h : List.Forall₂ (Agrees t t') es es') (hvars : TypedVar.Listed t es vars) :
    TypedVar.Listed t' es' vars := by
  refine forall₂_agrees (hvars.imp ?_) h
  rintro e v ⟨hname, hty⟩ e' he
  exact ⟨he.varName hname, he.typeOf hty⟩

/-! ## Elements that differ in their lines -/

mutual
theorem same_self : ∀ e : Element, e.same e = true
  | ⟨tag, attrs, text, line, children⟩ => by simp [same, sameAll_self children]

theorem sameAll_self : ∀ es : List Element, sameAll es es = true
  | [] => rfl
  | e :: es => by simp [sameAll, same_self e, sameAll_self es]
end

mutual
theorem agrees_of_same (t : Table) : ∀ {e e' : Element}, e.same e' = true → Agrees t t e e'
  | ⟨tag, attrs, text, line, children⟩, ⟨tag', attrs', text', line', children'⟩, h => by
    simp only [same, Bool.and_eq_true, decide_eq_true_eq] at h
    obtain ⟨⟨⟨rfl, rfl⟩, rfl⟩, hchildren⟩ := h
    refine .mk rfl (fun _ _ => rfl) ?_ (agrees_of_sameAll t hchildren) .same
    intro ty hty
    rw [Table.typeOf_eq_ok] at hty ⊢
    exact hty

theorem agrees_of_sameAll (t : Table) : ∀ {es es' : List Element}, sameAll es es' = true →
    List.Forall₂ (Agrees t t) es es'
  | [], [], _ => .nil
  | e :: es, e' :: es', h => by
    simp only [sameAll, Bool.and_eq_true] at h
    exact .cons (agrees_of_same t h.1) (agrees_of_sameAll t h.2)
  | [], _ :: _, h => by cases h
  | _ :: _, [], h => by cases h
end

end Element

end BMethod
