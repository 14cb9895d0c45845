import Mathlib
import BMethod.Proofs.Formula.Agreement
import BMethod.Proofs.Obligation.Numbering

/-!
# Documents that number their types in another way

Two documents of proof obligations may declare their types in different orders, twice or without
need, and refer to them by different numbers. When the references stand for the same types, both
documents are read, and what is written for them is the same. Nothing that is written depends on the
numbers that were read.
-/

namespace BMethod

open Element (Agrees)

/-! ## Elements with other numbers -/

/-- The attributes are equal, or both refer to types: where the first stands for a type of its
table, the second stands for the same type in its own. -/
inductive Attr.Renumbered (t t' : Table) : Attr → Attr → Prop
  | kept {a : Attr} (name : a.name ≠ "typref") : Renumbered t t' a a
  | ref {v v' : String}
      (resolves : ∀ ty, t.Resolves v ty → ∃ ty', t'.Resolves v' ty' ∧ ty.same ty' = true) :
      Renumbered t t' ⟨"typref", v⟩ ⟨"typref", v'⟩

/-- The elements have the same shape, tags, texts and attributes, but for the numbers of types, at
most one in each element. -/
inductive Element.Renumbered (t t' : Table) : Element → Element → Prop
  | mk {tag text : String} {attrs attrs' : List Attr} {line line' : Int}
      {children children' : List Element} (own : List.Forall₂ (Attr.Renumbered t t') attrs attrs')
      (single : (refValues attrs).length ≤ 1)
      (below : List.Forall₂ (Renumbered t t') children children') :
      Renumbered t t' ⟨tag, attrs, text, line, children⟩ ⟨tag, attrs', text, line', children'⟩

section
variable {t t' : Table} {attrs attrs' : List Attr}

theorem Table.resolves_of_same {v v' : String} {ty : Ty}
    (h : ∀ ty, t.Resolves v ty → ∃ ty', t'.Resolves v' ty' ∧ ty.same ty' = true)
    (hv : t.Resolves v ty) : t'.Resolves v' ty := by
  obtain ⟨ty', hv', hsame⟩ := h ty hv
  rwa [(Ty.same_iff ty ty').1 hsame]

theorem find?_renumbered (h : List.Forall₂ (Attr.Renumbered t t') attrs attrs') {name : String}
    (hname : name ≠ "typref") :
    attrs'.find? (·.name = name) = attrs.find? (·.name = name) := by
  induction h with
  | nil => rfl
  | cons ha _ ih =>
    cases ha with
    | kept => rw [List.find?_cons, List.find?_cons, ih]
    | ref =>
      rw [List.find?_cons_of_neg (by simpa using hname.symm),
        List.find?_cons_of_neg (by simpa using hname.symm), ih]

theorem typeRef?_renumbered (h : List.Forall₂ (Attr.Renumbered t t') attrs attrs') :
    Option.Rel (fun v v' => ∀ ty, t.Resolves v ty → t'.Resolves v' ty) (typeRef? attrs)
      (typeRef? attrs') := by
  unfold typeRef?
  induction h with
  | nil => exact .none
  | cons ha _ ih =>
    cases ha with
    | kept name => simpa [name] using ih
    | ref resolves => exact .some fun ty => Table.resolves_of_same resolves

theorem eq_of_typeRef?_eq_none (h : List.Forall₂ (Attr.Renumbered t t') attrs attrs')
    (hnone : typeRef? attrs = none) : attrs' = attrs := by
  unfold typeRef? at hnone
  induction h with
  | nil => rfl
  | cons ha _ ih =>
    cases ha with
    | kept name =>
      rw [List.find?_cons_of_neg (by simpa using name)] at hnone
      rw [ih hnone]
    | ref => simp at hnone

theorem setAttr_renumbered (h : List.Forall₂ (Attr.Renumbered t t') attrs attrs')
    (hsingle : (refValues attrs).length ≤ 1) {v : String} (hv : typeRef? attrs = some v)
    (w : String) : setAttr "typref" w attrs' = setAttr "typref" w attrs := by
  induction h with
  | nil => rfl
  | @cons a a' as as' ha has ih =>
    cases ha with
    | kept name =>
      have hrefs : refValues (a :: as) = refValues as := by simp [refValues, name]
      rw [typeRef?_eq_head?, hrefs] at hv
      rw [hrefs] at hsingle
      rw [setAttr, setAttr, if_neg name, if_neg name, ih hsingle (by rw [typeRef?_eq_head?, hv])]
    | @ref u u' _ =>
      -- The other attributes are no references, so they are equal.
      have hrefs : refValues (⟨"typref", u⟩ :: as) = u :: refValues as := by simp [refValues]
      rw [hrefs, List.length_cons] at hsingle
      have hnone : typeRef? as = none := by
        rw [typeRef?_eq_head?, List.head?_eq_none_iff, ← List.length_eq_zero_iff]
        omega
      rw [setAttr, setAttr, if_pos rfl, if_pos rfl, eq_of_typeRef?_eq_none has hnone]

end

namespace Element

variable {t t' : Table} {e e' : Element}

mutual
/-- Readers find the same in both elements. -/
theorem Renumbered.agrees : ∀ {e e' : Element}, Renumbered t t' e e' → Agrees t t' e e'
  | ⟨tag, attrs, text, line, children⟩, ⟨_, attrs', _, line', children'⟩, .mk own _ below => by
    refine .mk rfl ?_ ?_ (Renumbered.allAgree below) .same
    · intro name hname
      exact congrArg (Option.map Attr.value) (find?_renumbered own hname)
    · intro ty hty
      obtain ⟨v, ref, hv, hresolves⟩ := Table.typeOf_eq_ok.1 hty
      have hrel := typeRef?_renumbered own
      rw [show typeRef? attrs = some v from hv] at hrel
      cases hv' : typeRef? attrs' with
      | none =>
        rw [hv'] at hrel
        cases hrel
      | some v' =>
        rw [hv'] at hrel
        cases hrel with
        | some h =>
          obtain ⟨ref', hresolves'⟩ := h ty ⟨ref, hresolves⟩
          exact Table.typeOf_eq_ok.2 ⟨v', ref', hv', hresolves'⟩

theorem Renumbered.allAgree : ∀ {es es' : List Element}, List.Forall₂ (Renumbered t t') es es' →
    List.Forall₂ (Agrees t t') es es'
  | [], [], .nil => .nil
  | _ :: _, _ :: _, .cons he hes => .cons he.agrees (Renumbered.allAgree hes)
end

theorem Renumbered.tag (h : Renumbered t t' e e') : e'.tag = e.tag :=
  h.agrees.tag

theorem Renumbered.text (h : Renumbered t t' e e') : e'.text = e.text := by
  cases h
  rfl

theorem Renumbered.children (h : Renumbered t t' e e') :
    List.Forall₂ (Renumbered t t') e.children e'.children := by
  cases h with
  | mk _ _ below => exact below

theorem Renumbered.childrenNamed (h : Renumbered t t' e e') (tag : String) :
    List.Forall₂ (Renumbered t t') (e.childrenNamed tag) (e'.childrenNamed tag) :=
  filter_rel (fun _ _ => Renumbered.tag) h.children tag

theorem Renumbered.first? (h : Renumbered t t' e e') {tag : String} {a : Element}
    (ha : e.first? tag = some a) : ∃ a', e'.first? tag = some a' ∧ Renumbered t t' a a' :=
  first?_rel (fun _ _ => Renumbered.tag) h.children ha

theorem Renumbered.hasText (h : Renumbered t t' e e') {tag text : String}
    (htext : e.HasText tag text) : e'.HasText tag text := by
  obtain ⟨c, hc, htext⟩ := htext
  obtain ⟨c', hc', hcc'⟩ := h.first? hc
  exact ⟨c', hc', hcc'.text.trans htext⟩

theorem Renumbered.hasNumber (h : Renumbered t t' e e') {i : Int} (hi : e.HasNumber i) :
    e'.HasNumber i := by
  obtain ⟨v, hv, hi⟩ := hi
  exact ⟨v, h.agrees.attr? hv (by decide), hi⟩

theorem Renumbered.holdsPred (h : Renumbered t t' e e') {p : Pred} (hp : e.HoldsPred t p) :
    e'.HoldsPred t' p := by
  obtain ⟨c, hc, hp⟩ := hp
  obtain ⟨c', hc', hcc'⟩ := h.first? hc
  exact ⟨c', hc', hp.agrees hcc'.agrees⟩

end Element

/-! ## Reading declarations of sets -/

namespace Obligations

variable {t t' : Table}

mutual
/-- The same types are collected, and places are put for the references, so that nothing of the
numbers is left. -/
theorem mapRefs_renumbered : ∀ {e e' f : Element} {us vs : List Ty}, e.Renumbered t t' e' →
    (e.mapRefs (collectType t)).run us = .ok (f, vs) →
    ∃ f', (e'.mapRefs (collectType t')).run us = .ok (f', vs) ∧ f.same f' = true
  | ⟨tag, attrs, text, line, children⟩, ⟨_, attrs', _, line', children'⟩, f, us, vs,
      .mk own single below, h => by
    have hrel := typeRef?_renumbered own
    cases hv : typeRef? attrs with
    | none =>
      obtain rfl := eq_of_typeRef?_eq_none own hv
      rw [Element.mapRefs_of_none _ hv] at h ⊢
      simp only [run_bind_eq_ok, run_pure_eq_ok] at h ⊢
      obtain ⟨cs, _, hcs, rfl, rfl⟩ := h
      obtain ⟨cs', hcs', hsame⟩ := mapRefsAll_renumbered below hcs
      exact ⟨_, ⟨cs', _, hcs', rfl, rfl⟩, by simp [Element.same, hsame]⟩
    | some v =>
      cases hv' : typeRef? attrs' with
      | none =>
        rw [hv, hv'] at hrel
        cases hrel
      | some v' =>
        rw [hv, hv'] at hrel
        cases hrel with
        | some hresolves =>
          rw [Element.mapRefs_of_some _ hv] at h
          rw [Element.mapRefs_of_some _ hv']
          simp only [run_bind_eq_ok, run_pure_eq_ok, collectType_run hv] at h
          simp only [run_bind_eq_ok, run_pure_eq_ok, collectType_run hv']
          obtain ⟨w, ws, ⟨ty, hty, hw, hws⟩, cs, _, hcs, rfl, rfl⟩ := h
          obtain ⟨cs', hcs', hsame⟩ := mapRefsAll_renumbered below hcs
          refine ⟨_, ⟨w, ws, ⟨ty, hresolves ty hty, hw, hws⟩, cs', _, hcs', rfl, rfl⟩, ?_⟩
          simp [Element.same, hsame, setAttr_renumbered own single hv]

theorem mapRefsAll_renumbered : ∀ {es es' fs : List Element} {us vs : List Ty},
    List.Forall₂ (Element.Renumbered t t') es es' →
    (Element.mapRefsAll (collectType t) es).run us = .ok (fs, vs) →
    ∃ fs', (Element.mapRefsAll (collectType t') es').run us = .ok (fs', vs) ∧
      Element.sameAll fs fs' = true
  | [], [], fs, us, vs, .nil, h => by
    obtain ⟨rfl, rfl⟩ := run_pure_eq_ok.1 h
    exact ⟨[], run_pure_eq_ok.2 ⟨rfl, rfl⟩, rfl⟩
  | e :: es, e' :: es', fs, us, vs, .cons he hes, h => by
    rw [Element.mapRefsAll] at h ⊢
    simp only [run_bind_eq_ok, run_pure_eq_ok] at h ⊢
    obtain ⟨f, _, hf, gs, _, hgs, rfl, rfl⟩ := h
    obtain ⟨f', hf', hsame⟩ := mapRefs_renumbered he hf
    obtain ⟨gs', hgs', hsameAll⟩ := mapRefsAll_renumbered hes hgs
    exact ⟨_, ⟨f', _, hf', gs', _, hgs', rfl, rfl⟩, by simp [Element.sameAll, hsame, hsameAll]⟩
end

end Obligations

/-! ## Documents that differ in lines -/

/-- The declarations have the same types, and their elements agree in everything but lines. -/
structure SetDeclaration.Alike (s s' : SetDeclaration) : Prop where
  elem : s.elem.same s'.elem = true
  types : s'.types = s.types

inductive DefineItem.Alike : DefineItem → DefineItem → Prop
  | pred (p : Pred) : Alike (.pred p) (.pred p)
  | set {s s' : SetDeclaration} (declaration : s.Alike s') : Alike (.set s) (.set s')

structure Define.Alike (d d' : Define) : Prop where
  name : d'.name = d.name
  items : List.Forall₂ DefineItem.Alike d.items d'.items

/-- The documents are equal but for the lines of elements in declarations of sets. -/
structure Obligations.Alike (d d' : Obligations) : Prop where
  defines : List.Forall₂ Define.Alike d.defines d'.defines
  obligations : d'.obligations = d.obligations

/-! ## Reading -/

section
variable {t t' : Table} {e e' : Element}

theorem DefineItem.Form.renumbered {i : DefineItem} (h : DefineItem.Form t e i)
    (he : e.Renumbered t t' e') : ∃ i', DefineItem.Form t' e' i' ∧ i.Alike i' := by
  cases h with
  | pred formula => exact ⟨_, .pred (formula.agrees he.agrees), .pred _⟩
  | set declaration =>
    have htag := declaration.tag
    have hread := (SetDeclaration.readSet_eq_ok htag).2 declaration
    unfold Obligations.readSet at hread
    simp only [bind_eq_ok, pure_eq_ok, Prod.exists] at hread
    obtain ⟨f, vs, hrun, rfl⟩ := hread
    obtain ⟨f', hrun', hsame⟩ := Obligations.mapRefs_renumbered he hrun
    refine ⟨.set ⟨f', vs⟩, .set ?_, .set ⟨hsame, rfl⟩⟩
    refine (SetDeclaration.readSet_eq_ok (he.tag.trans htag)).1 ?_
    unfold Obligations.readSet
    simp only [bind_eq_ok, pure_eq_ok, Prod.exists]
    exact ⟨f', vs, hrun', rfl⟩

theorem forall₂_renumbered {α : Type} {R R' : Element → α → Prop} {S : α → α → Prop}
    {es es' : List Element} {xs : List α} (h : List.Forall₂ R es xs)
    (hes : List.Forall₂ (Element.Renumbered t t') es es')
    (hR : ∀ e e' x, R e x → e.Renumbered t t' e' → ∃ x', R' e' x' ∧ S x x') :
    ∃ xs', List.Forall₂ R' es' xs' ∧ List.Forall₂ S xs xs' := by
  induction h generalizing es' with
  | nil =>
    cases hes
    exact ⟨[], .nil, .nil⟩
  | cons hx _ ih =>
    cases hes with
    | cons he hes =>
      obtain ⟨x', hx', hS⟩ := hR _ _ _ hx he
      obtain ⟨xs', hxs', hSs⟩ := ih hes
      exact ⟨x' :: xs', .cons hx' hxs', .cons hS hSs⟩

theorem Define.Form.renumbered {d : Define} (h : Define.Form t e d) (he : e.Renumbered t t' e') :
    ∃ d', Define.Form t' e' d' ∧ d.Alike d' := by
  obtain ⟨items, hitems, halike⟩ := forall₂_renumbered h.items he.children
    fun _ _ _ => DefineItem.Form.renumbered
  exact ⟨⟨d.name, items⟩, ⟨he.agrees.attr? h.name (by decide), hitems⟩, rfl, halike⟩

theorem LocalHyp.Form.renumbered {l : LocalHyp} (h : LocalHyp.Form t e l)
    (he : e.Renumbered t t' e') : LocalHyp.Form t' e' l :=
  ⟨he.hasNumber h.num, he.holdsPred h.pred⟩

theorem SimpleGoal.Form.renumbered {g : SimpleGoal} (h : SimpleGoal.Form t e g)
    (he : e.Renumbered t t' e') : SimpleGoal.Form t' e' g := by
  obtain ⟨c, hc, hgoal⟩ := h.goal
  obtain ⟨c', hc', hcc'⟩ := he.first? hc
  refine ⟨he.hasText h.tag, ?_, c', hc', hcc'.holdsPred hgoal⟩
  refine Element.forall₂_transfer (h.refs.imp ?_) (he.childrenNamed "Ref_Hyp")
  intro r i hi r' hr
  exact hr.hasNumber hi

theorem Obligation.Form.renumbered {o : Obligation} (h : Obligation.Form t e o)
    (he : e.Renumbered t t' e') : Obligation.Form t' e' o := by
  refine ⟨he.hasText h.tag, ?_, ?_, ?_, ?_⟩
  · refine Element.forall₂_transfer (h.definitions.imp ?_) (he.childrenNamed "Definition")
    intro c name hname c' hc
    exact hc.agrees.attr? hname (by decide)
  · refine Element.forall₂_transfer (h.hypotheses.imp ?_) (he.childrenNamed "Hypothesis")
    intro c p hp c' hc
    exact hc.holdsPred hp
  · refine Element.forall₂_transfer (h.localHyps.imp ?_) (he.childrenNamed "Local_Hyp")
    intro c l hl c' hc
    exact hl.renumbered hc
  · refine Element.forall₂_transfer (h.goals.imp ?_) (he.childrenNamed "Simple_Goal")
    intro c g hg c' hc
    exact hg.renumbered hc

end

/-- The roots of documents that differ only in how they number their types. Their children agree but
for the numbers of types; those that declare types may differ in any way. -/
structure Obligations.Renumbered (t t' : Table) (root root' : Element) : Prop where
  tag : root'.tag = root.tag
  children : List.Forall₂ (fun c c' => c.Renumbered t t' c' ∨
    c.tag = "TypeInfos" ∧ c'.tag = "TypeInfos") root.children root'.children

namespace Obligations

variable {t t' : Table} {root root' : Element}

theorem Renumbered.childrenNamed (h : Renumbered t t' root root') (tag : String)
    (htag : tag ≠ "TypeInfos") (hne : tag ≠ "") :
    List.Forall₂ (Element.Renumbered t t') (root.childrenNamed tag) (root'.childrenNamed tag) := by
  have hfilter := Element.filter_rel (fun c c' hc => ?_) h.children tag
  · refine forall₂_imp_of_mem ?_ hfilter
    intro c hmem c' hc
    rcases hc with hc | ⟨hc, -⟩
    · exact hc
    · have hhas := (List.mem_filter.1 hmem).2
      simp [Element.hasTag, hne, hc, htag.symm] at hhas
  · rcases hc with hc | ⟨hc, hc'⟩
    · exact hc.tag
    · rw [hc, hc']

theorem Form.renumbered {d : Obligations} (h : Form t root d) (hroot : Renumbered t t' root root') :
    ∃ d', Form t' root' d' ∧ d.Alike d' := by
  obtain ⟨defines, hdefines, halike⟩ := forall₂_renumbered h.defines
    (hroot.childrenNamed "Define" (by decide) (by decide)) fun _ _ _ => Define.Form.renumbered
  refine ⟨⟨defines, d.obligations⟩, ⟨hdefines, ?_⟩, halike, rfl⟩
  have hobligations := hroot.childrenNamed "Proof_Obligation" (by decide) (by decide)
  refine Element.forall₂_transfer (h.obligations.imp ?_) hobligations
  intro c o ho c' hc
  exact ho.renumbered hc

end Obligations

/-! ## Two runs of writing -/

namespace Write

variable {α β : Type}

/-- Both runs give related results, or both refuse for the same reason, with the same pool
afterwards. -/
inductive Outcomes (R : α → α → Prop) :
    Except Refusal α × Pool → Except Refusal α × Pool → Prop
  | given {a b : α} (q : Pool) (related : R a b) : Outcomes R (.ok a, q) (.ok b, q)
  | refused (r : Refusal) (q : Pool) : Outcomes R (.error r, q) (.error r, q)

/-- The actions have related outcomes on every pool. -/
def Alike (R : α → α → Prop) (w w' : Write α) : Prop :=
  ∀ p, Outcomes R (w.on p) (w'.on p)

namespace Alike

variable {R : α → α → Prop} {S : β → β → Prop} {w w' : Write α}

theorem refl (hR : ∀ a, R a a) (w : Write α) : w.Alike R w := by
  intro p
  rcases h : w.on p with ⟨r | a, q⟩
  · exact .refused r q
  · exact .given q (hR a)

theorem pure {a b : α} (h : R a b) : (pure a : Write α).Alike R (pure b) :=
  fun p => .given p h

theorem bind {f g : α → Write β} (hw : w.Alike R w') (hf : ∀ a b, R a b → (f a).Alike S (g b)) :
    (w >>= f).Alike S (w' >>= g) := by
  intro p
  have hp := hw p
  rw [on_bind, on_bind]
  generalize w.on p = o at hp ⊢
  generalize w'.on p = o' at hp ⊢
  cases hp with
  | given q related => exact hf _ _ related q
  | refused r q => exact .refused r q

theorem bind_pure {f g : α → β} (hw : w.Alike R w') (hf : ∀ a b, R a b → S (f a) (g b)) :
    (w >>= fun a => Pure.pure (f a)).Alike S (w' >>= fun b => Pure.pure (g b)) :=
  hw.bind fun a b hab => .pure (hf a b hab)

theorem all {ws ws' : List (Write α)} (h : List.Forall₂ (Alike R) ws ws') :
    (Write.all ws).Alike (List.Forall₂ R) (Write.all ws') := by
  induction h with
  | nil => exact .pure .nil
  | cons hw _ ih =>
    refine hw.bind fun a b hab => ih.bind_pure ?_
    intro as bs hasbs
    exact .cons hab hasbs

end Alike

end Write

/-! ## Writing -/

namespace Element

def Same (e e' : Element) : Prop :=
  e.same e' = true

theorem sameAll_iff {es es' : List Element} : sameAll es es' = true ↔ List.Forall₂ Same es es' := by
  induction es generalizing es' with
  | nil => cases es' <;> simp [sameAll]
  | cons e es ih => cases es' <;> simp [sameAll, ih, Same]

theorem forall₂_same_self (es : List Element) : List.Forall₂ Same es es :=
  List.forall₂_same.2 fun e _ => e.same_self

theorem same_node {tag : String} {attrs : List Attr} {cs cs' : List Element}
    (h : List.Forall₂ Same cs cs') : Same (.node tag attrs cs) (.node tag attrs cs') := by
  simp [Same, node, same, sameAll_iff.2 h]

end Element

namespace Obligations

open Element (Same)

mutual
theorem mapRefs_alike {f f' : Element → Write String}
    (hf : ∀ tag attrs text line line', f ⟨tag, attrs, text, line, []⟩ =
      f' ⟨tag, attrs, text, line', []⟩) : ∀ {e e' : Element}, e.same e' = true →
    (e.mapRefs f).Alike Same (e'.mapRefs f')
  | ⟨tag, attrs, text, line, children⟩, ⟨tag', attrs', text', line', children'⟩, h => by
    simp only [Element.same, Bool.and_eq_true, decide_eq_true_eq] at h
    obtain ⟨⟨⟨rfl, rfl⟩, rfl⟩, hchildren⟩ := h
    have hall := mapRefsAll_alike hf hchildren
    cases hv : typeRef? attrs with
    | none =>
      rw [Element.mapRefs_of_none _ hv, Element.mapRefs_of_none _ hv]
      refine hall.bind_pure ?_
      intro cs cs' hcs
      simp [Same, Element.same, Element.sameAll_iff.2 hcs]
    | some v =>
      rw [Element.mapRefs_of_some _ hv, Element.mapRefs_of_some _ hv, hf _ _ _ line line']
      refine Write.Alike.bind (.refl Eq.refl _) ?_
      rintro w _ rfl
      refine hall.bind_pure ?_
      intro cs cs' hcs
      simp [Same, Element.same, Element.sameAll_iff.2 hcs]

theorem mapRefsAll_alike {f f' : Element → Write String}
    (hf : ∀ tag attrs text line line', f ⟨tag, attrs, text, line, []⟩ =
      f' ⟨tag, attrs, text, line', []⟩) : ∀ {es es' : List Element}, Element.sameAll es es' = true →
    (Element.mapRefsAll f es).Alike (List.Forall₂ Same) (Element.mapRefsAll f' es')
  | [], [], _ => .pure .nil
  | e :: es, e' :: es', h => by
    simp only [Element.sameAll, Bool.and_eq_true] at h
    refine (mapRefs_alike hf h.1).bind fun a b hab => (mapRefsAll_alike hf h.2).bind_pure ?_
    intro as bs hasbs
    exact .cons hab hasbs
  | [], _ :: _, h => by cases h
  | _ :: _, [], h => by cases h
end

theorem writeSet_alike {s s' : SetDeclaration} (h : s.Alike s') :
    (writeSet s).Alike Same (writeSet s') := by
  refine mapRefs_alike ?_ h.elem
  intro tag attrs text line line'
  have htag : s'.elem.tag = s.elem.tag := (Element.agrees_of_same .empty h.elem).tag
  unfold placeType
  rw [htag, h.types]
  rfl

theorem writeDefine_alike {d d' : Define} (h : d.Alike d') :
    (writeDefine d).Alike Same (writeDefine d') := by
  have hitems : (Write.all (d.items.map writeDefineItem)).Alike (List.Forall₂ Same)
      (Write.all (d'.items.map writeDefineItem)) := by
    refine .all ?_
    rw [List.forall₂_map_left_iff, List.forall₂_map_right_iff]
    refine h.items.imp ?_
    rintro _ _ (p | declaration)
    · exact .refl Element.same_self _
    · exact writeSet_alike declaration
  refine hitems.bind_pure ?_
  intro es es' hes
  rw [h.name]
  exact Element.same_node hes

theorem writeBody_alike {d d' : Obligations} (h : d.Alike d') :
    d.writeBody.Alike (List.Forall₂ Same) d'.writeBody := by
  have hdefines : (Write.all (d.defines.map writeDefine)).Alike (List.Forall₂ Same)
      (Write.all (d'.defines.map writeDefine)) := by
    refine .all ?_
    rw [List.forall₂_map_left_iff, List.forall₂_map_right_iff]
    exact h.defines.imp fun _ _ => writeDefine_alike
  unfold writeBody
  rw [h.obligations]
  refine hdefines.bind fun ds ds' hds => ?_
  refine Write.Alike.bind (.refl Element.forall₂_same_self _) fun os os' hos => ?_
  exact .pure (List.rel_append hds hos)

theorem write_alike {d d' : Obligations} {e : Element} (h : d.Alike d') (he : d.write = .ok e) :
    ∃ e', d'.write = .ok e' ∧ e.same e' = true := by
  have hbody := writeBody_alike h .empty
  unfold write at he ⊢
  generalize d.writeBody.on .empty = o at hbody he
  generalize d'.writeBody.on .empty = o' at hbody ⊢
  cases hbody with
  | given q related =>
    cases he
    exact ⟨_, rfl, Element.same_node (.cons (Element.same_self _) related)⟩
  | refused r q => cases he

end Obligations

/-! ## Documents -/

/-- When two documents differ only in how they number their types, the second is read if the first
is, and what is written for both agrees in everything but lines. It is written if the places of
types in the declarations of sets fit a word, as the places of a list in memory do. -/
theorem renumbering_invariant {t t' : Table} {root root' : Element} {d : Obligations}
    (htable : Table.read root = .ok t) (htable' : Table.read root' = .ok t')
    (hroot : Obligations.Renumbered t t' root root') (hread : Obligations.read root = .ok d) :
    ∃ d', Obligations.read root' = .ok d' ∧
      (∀ e, d.write = .ok e → ∃ e', d'.write = .ok e' ∧ e.same e' = true) ∧
      (d.Addressable → ∃ e, d.write = .ok e) := by
  obtain ⟨htag, u, hu, hform⟩ := Obligations.read_eq_ok.1 hread
  obtain rfl := Except.ok.inj (htable.symm.trans hu)
  obtain ⟨d', hform', halike⟩ := hform.renumbered hroot
  refine ⟨d', ?_, fun e he => Obligations.write_alike halike he, ?_⟩
  · exact Obligations.read_eq_ok.2 ⟨hroot.tag.trans htag, t', htable', hform'⟩
  · intro hsize
    obtain ⟨es, hwrite, -⟩ := Obligations.write_spec hform.settled.wellFormed hsize
    exact ⟨_, hwrite⟩

/-- A document with a type table that refers to the integers and to their power set by numbers. -/
def sampleRoot (types : List Ty) (integer power : String) : Element :=
  .wrap "Proof_Obligations" [.wrap "TypeInfos" (Table.declarationsFrom 0 types),
    .node "Define" [⟨"name", "ctx"⟩]
      [.wrap "Set" [.node "Id" [⟨"value", "S"⟩, ⟨"typref", power⟩]
        [.node "Id" [⟨"value", "a"⟩, ⟨"typref", integer⟩] []]],
      .node "Exp_Comparison" [⟨"op", "="⟩]
        [.node "Id" [⟨"typref", power⟩, ⟨"value", "S"⟩] [],
          .node "Id" [⟨"value", "T"⟩, ⟨"typref", power⟩] []]]]

def sampleOfRoot : Obligations where
  defines := [⟨"ctx", [.set sampleSet, .pred (.compare ⟨3⟩
    (.ident ⟨.power .integer, []⟩ (.plain "S")) (.ident ⟨.power .integer, []⟩ (.plain "T")))]⟩]
  obligations := []

/-- A table with an unused type, and with one type twice. -/
def sampleReordered : List Ty :=
  [.power .integer, .boolean, .integer, .integer]

theorem Attr.Renumbered.of_resolves {t t' : Table} {v v' : String} {i j : Int} {ty : Ty}
    (hv : Text.readInt? (Text.trim v) = some i) (hi : t.at? i = some ty)
    (hv' : Text.readInt? (Text.trim v') = some j) (hj : t'.at? j = some ty) :
    Attr.Renumbered t t' ⟨"typref", v⟩ ⟨"typref", v'⟩ := by
  refine .ref ?_
  rintro u ⟨k, hk, hu⟩
  obtain rfl := Option.some.inj (hv.symm.trans hk)
  obtain rfl := Option.some.inj (hi.symm.trans hu)
  exact ⟨ty, ⟨j, hv', hj⟩, Ty.same_self ty⟩

theorem sampleRoot_renumbered :
    Obligations.Renumbered ⟨[.integer, .power .integer]⟩ ⟨sampleReordered⟩
      (sampleRoot [.integer, .power .integer] "0" "1") (sampleRoot sampleReordered "3" "0") := by
  have hinteger : Attr.Renumbered ⟨[.integer, .power .integer]⟩ ⟨sampleReordered⟩
      ⟨"typref", "0"⟩ ⟨"typref", "3"⟩ :=
    .of_resolves (i := 0) (j := 3) (by decide) rfl (by decide) rfl
  have hpower : Attr.Renumbered ⟨[.integer, .power .integer]⟩ ⟨sampleReordered⟩
      ⟨"typref", "1"⟩ ⟨"typref", "0"⟩ :=
    .of_resolves (i := 1) (j := 0) (by decide) rfl (by decide) rfl
  have hkept : ∀ a : Attr, a.name ≠ "typref" →
      Attr.Renumbered ⟨[.integer, .power .integer]⟩ ⟨sampleReordered⟩ a a := fun _ => .kept
  refine ⟨rfl, .cons (.inr ⟨rfl, rfl⟩) (.cons (.inl ?_) .nil)⟩
  refine .mk (.cons (hkept _ (by decide)) .nil) (by decide) (.cons ?_ (.cons ?_ .nil))
  · refine .mk .nil (by decide) (.cons ?_ .nil)
    refine .mk (.cons (hkept _ (by decide)) (.cons hpower .nil)) (by decide) (.cons ?_ .nil)
    exact .mk (.cons (hkept _ (by decide)) (.cons hinteger .nil)) (by decide) .nil
  · refine .mk (.cons (hkept _ (by decide)) .nil) (by decide) (.cons ?_ (.cons ?_ .nil))
    · exact .mk (.cons hpower (.cons (hkept _ (by decide)) .nil)) (by decide) .nil
    · exact .mk (.cons (hkept _ (by decide)) (.cons hpower .nil)) (by decide) .nil

theorem renumbering_invariant_sample :
    Obligations.read (sampleRoot [.integer, .power .integer] "0" "1") = .ok sampleOfRoot ∧
      ∃ d' e e', Obligations.read (sampleRoot sampleReordered "3" "0") = .ok d' ∧
        sampleOfRoot.write = .ok e ∧ d'.write = .ok e' ∧ e.same e' = true := by
  have hread : Obligations.read (sampleRoot [.integer, .power .integer] "0" "1") =
      .ok sampleOfRoot := by
    with_unfolding_all rfl
  have htable : Table.read (sampleRoot [.integer, .power .integer] "0" "1") =
      .ok ⟨[.integer, .power .integer]⟩ := by
    with_unfolding_all rfl
  have htable' : Table.read (sampleRoot sampleReordered "3" "0") = .ok ⟨sampleReordered⟩ := by
    with_unfolding_all rfl
  have hsize : sampleOfRoot.Addressable := by
    simp [sampleOfRoot, sampleSet, Obligations.Addressable, DefineItem.Addressable,
      SetDeclaration.Addressable]
  obtain ⟨d', hread', hwrite', hwrite⟩ :=
    renumbering_invariant htable htable' sampleRoot_renumbered hread
  obtain ⟨e, he⟩ := hwrite hsize
  obtain ⟨e', he', hsame⟩ := hwrite' e he
  exact ⟨hread, d', e, e', hread', he, he', hsame⟩

end BMethod
