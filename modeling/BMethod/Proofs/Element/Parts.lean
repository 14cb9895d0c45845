import Mathlib
import BMethod.Element.Parts

/-!
# When readers find what they need

A reader that goes on has found what it asked for: each demand on an element succeeds exactly when
the attribute or the child is there. What is found inside an element is smaller than it.
-/

namespace BMethod

/-! ## Success in steps -/

theorem bind_eq_ok {ε α β : Type} {x : Except ε α} {f : α → Except ε β} {b : β} :
    x >>= f = .ok b ↔ ∃ a, x = .ok a ∧ f a = .ok b := by
  cases x with
  | error e => simp [bind, Except.bind]
  | ok a => simp [bind, Except.bind]

theorem map_eq_ok {ε α β : Type} {x : Except ε α} {f : α → β} {b : β} :
    f <$> x = .ok b ↔ ∃ a, x = .ok a ∧ f a = b := by
  cases x with
  | error e => simp [Functor.map, Except.map]
  | ok a => simp [Functor.map, Except.map]

theorem pure_eq_ok {ε α : Type} {a b : α} : (pure a : Except ε α) = .ok b ↔ a = b := by
  simp [pure, Except.pure]

@[simp] theorem ok_bind {ε α β : Type} (a : α) (f : α → Except ε β) : Except.ok a >>= f = f a := rfl

theorem run_bind_eq_ok {ε σ α β : Type} {x : StateT σ (Except ε) α}
    {f : α → StateT σ (Except ε) β} {b : β} {s s' : σ} :
    (x >>= f).run s = .ok (b, s') ↔
      ∃ a s'', x.run s = .ok (a, s'') ∧ (f a).run s'' = .ok (b, s') := by
  rw [StateT.run_bind, bind_eq_ok, Prod.exists]

theorem run_pure_eq_ok {ε σ α : Type} {a b : α} {s s' : σ} :
    (pure a : StateT σ (Except ε) α).run s = .ok (b, s') ↔ a = b ∧ s = s' := by
  rw [StateT.run_pure, pure_eq_ok, Prod.mk.injEq]

theorem mapM_eq_ok {ε α β : Type} {f : α → Except ε β} {as : List α} {bs : List β} :
    as.mapM f = .ok bs ↔ List.Forall₂ (fun a b => f a = .ok b) as bs := by
  induction as generalizing bs with
  | nil => cases bs <;> simp [pure_eq_ok]
  | cons a as ih =>
    rw [List.mapM_cons]
    simp only [bind_eq_ok, pure_eq_ok]
    constructor
    · rintro ⟨b, hb, bs, hbs, rfl⟩
      exact .cons hb (ih.1 hbs)
    · rintro (_ | ⟨hb, hbs⟩)
      exact ⟨_, hb, _, ih.2 hbs, rfl⟩

theorem forall₂_imp_of_mem {α β : Type} {R S : α → β → Prop} {as : List α} {bs : List β}
    (hRS : ∀ a ∈ as, ∀ b, R a b → S a b) (h : List.Forall₂ R as bs) : List.Forall₂ S as bs := by
  induction h with
  | nil => exact .nil
  | cons hab _ ih =>
    exact .cons (hRS _ List.mem_cons_self _ hab) (ih fun a ha => hRS a (List.mem_cons_of_mem _ ha))

theorem exists_of_forall₂_left {α β : Type} {R : α → β → Prop} {as : List α} {bs : List β}
    (h : List.Forall₂ R as bs) {a : α} (ha : a ∈ as) : ∃ b ∈ bs, R a b := by
  induction h with
  | nil => cases ha
  | cons hab _ ih =>
    rcases List.mem_cons.1 ha with rfl | ha
    · exact ⟨_, List.mem_cons_self, hab⟩
    · obtain ⟨b, hb, hab⟩ := ih ha
      exact ⟨b, List.mem_cons_of_mem _ hb, hab⟩

theorem exists_of_forall₂_right {α β : Type} {R : α → β → Prop} {as : List α} {bs : List β}
    (h : List.Forall₂ R as bs) {b : β} (hb : b ∈ bs) : ∃ a ∈ as, R a b :=
  exists_of_forall₂_left (R := flip R) h.flip hb

theorem map_eq_map_of_forall₂ {α β γ : Type} {f : α → γ} {g : β → γ} {as : List α} {bs : List β}
    (h : List.Forall₂ (fun a b => f a = g b) as bs) : as.map f = bs.map g := by
  rwa [← List.forall₂_eq_eq_eq, List.forall₂_map_left_iff, List.forall₂_map_right_iff]

theorem exists_append_of_forall₂ {α β : Type} {R : α → β → Prop} {as as' : List α} {bs : List β}
    (h : List.Forall₂ R (as ++ as') bs) :
    ∃ cs cs', List.Forall₂ R as cs ∧ List.Forall₂ R as' cs' ∧ bs = cs ++ cs' := by
  refine ⟨bs.take as.length, bs.drop as.length, ?_, ?_, (List.take_append_drop _ _).symm⟩
  · exact (List.forall₂_take_append bs as as' h.flip).flip
  · exact (List.forall₂_drop_append bs as as' h.flip).flip

namespace Element

variable {e c : Element}

/-- The first element inside the first child with a tag. -/
def inner? (e : Element) (tag : String) : Option Element :=
  (e.first? tag).bind (·.first? "")

/-! ## Tags of what is found -/

theorem tag_of_hasTag {tag : String} (h : hasTag tag c = true) (hne : tag ≠ "") : c.tag = tag := by
  simpa [hasTag, hne] using h

theorem tag_of_first? {tag : String} (h : e.first? tag = some c) (hne : tag ≠ "") : c.tag = tag :=
  tag_of_hasTag (List.find?_some h) hne

theorem tag_of_mem_childrenNamed {tag : String} (h : c ∈ e.childrenNamed tag) (hne : tag ≠ "") :
    c.tag = tag :=
  tag_of_hasTag (List.mem_filter.1 h).2 hne

theorem find?_any (cs : List Element) : cs.find? (hasTag "") = cs.head? := by
  cases cs <;> rfl

/-! ## What is inside is smaller -/

theorem sizeOf_lt_of_first? {tag : String} (h : e.first? tag = some c) : sizeOf c < sizeOf e :=
  sizeOf_lt_of_mem_children (mem_children_of_first? h)

theorem sizeOf_lt_of_inner? {tag : String} (h : e.inner? tag = some c) : sizeOf c < sizeOf e := by
  obtain ⟨w, hw, hc⟩ := Option.bind_eq_some_iff.1 h
  exact Nat.lt_trans (sizeOf_lt_of_first? hc) (sizeOf_lt_of_first? hw)

theorem sizeOf_lt_of_getElem? {i : Nat} (h : e.children[i]? = some c) : sizeOf c < sizeOf e :=
  sizeOf_lt_of_mem_children (List.mem_of_getElem? h)

/-! ## Demands -/

theorem complain_ne_ok {α : Type} (e : Element) (c : Complaint) (a : α) :
    (e.complain c : Except Fault α) ≠ .ok a := by
  unfold complain throw; nofun

theorem lacks_ne_ok {α : Type} (e : Element) (child : String) (a : α) :
    (e.lacks child : Except Fault α) ≠ .ok a := by
  unfold lacks throw; nofun

theorem needAttr_eq_ok {name v : String} : e.needAttr name = .ok v ↔ e.attr? name = some v := by
  unfold needAttr
  split
  · rename_i w hw
    rw [hw, pure_eq_ok, Option.some.injEq]
  · rename_i hnone
    simp [hnone, complain_ne_ok]

theorem needInt_eq_ok {name : String} {i : Int} :
    e.needInt name = .ok i ↔ ∃ v, e.attr? name = some v ∧ Text.readInt? (Text.trim v) = some i := by
  unfold needInt
  simp only [bind_eq_ok, needAttr_eq_ok]
  refine exists_congr fun v => and_congr_right fun _ => ?_
  split
  · rename_i j hj
    rw [hj, pure_eq_ok, Option.some.injEq]
  · rename_i hnone
    simp [hnone, complain_ne_ok]

theorem firstInside?_eq_some {tag : String} {c : e.Inside} :
    e.firstInside? tag = some c ↔ e.first? tag = some c.1 := by
  unfold firstInside?
  split
  · rename_i d hd
    simp [hd, Subtype.ext_iff]
  · rename_i hnone
    simp [hnone]

theorem needChild_eq_ok {tag : String} {c : e.Inside} :
    e.needChild tag = .ok c ↔ e.first? tag = some c.1 := by
  rw [← firstInside?_eq_some]
  unfold needChild
  split
  · rename_i d hd
    rw [hd, pure_eq_ok, Option.some.injEq]
  · rename_i hnone
    simp [hnone, lacks_ne_ok]

theorem needInner_eq_ok {tag : String} {c : e.Inside} :
    e.needInner tag = .ok c ↔ e.inner? tag = some c.1 := by
  unfold needInner inner?
  simp only [bind_eq_ok, needChild_eq_ok]
  rw [Option.bind_eq_some_iff]
  constructor
  · rintro ⟨w, hw, h⟩
    refine ⟨w.1, hw, ?_⟩
    split at h
    · rename_i d hd
      rw [pure_eq_ok] at h
      rw [← h, firstInside?_eq_some.1 hd]
    · exact absurd h (lacks_ne_ok _ _ _)
  · rintro ⟨w, hw, h⟩
    refine ⟨⟨w, sizeOf_lt_of_first? hw⟩, hw, ?_⟩
    have hd : w.firstInside? "" = some ⟨c.1, sizeOf_lt_of_first? h⟩ := firstInside?_eq_some.2 h
    rw [hd]
    rfl

theorem needOne_eq_ok {c : e.Inside} : e.needOne = .ok c ↔ e.children[0]? = some c.1 := by
  unfold needOne
  split
  · rename_i x xs hx
    simp [hx, pure_eq_ok, Subtype.ext_iff]
  · rename_i hnil
    cases hcs : e.children with
    | nil => simp [lacksOperand, lacks_ne_ok]
    | cons x xs => exact absurd hcs (hnil x xs)

theorem needTwo_eq_ok {cs : e.Inside × e.Inside} :
    e.needTwo = .ok cs ↔ e.children[0]? = some cs.1.1 ∧ e.children[1]? = some cs.2.1 := by
  unfold needTwo
  split
  · rename_i x y ys hx
    simp [hx, pure_eq_ok, Prod.ext_iff, Subtype.ext_iff]
  · rename_i hfew
    match hcs : e.children with
    | [] | [_] => simp [lacksOperand, lacks_ne_ok]
    | x :: y :: ys => exact absurd hcs (hfew x y ys)

theorem needThree_eq_ok {cs : e.Inside × e.Inside × e.Inside} :
    e.needThree = .ok cs ↔ e.children[0]? = some cs.1.1 ∧ e.children[1]? = some cs.2.1.1 ∧
      e.children[2]? = some cs.2.2.1 := by
  unfold needThree
  split
  · rename_i x y z zs hx
    simp [hx, pure_eq_ok, Prod.ext_iff, Subtype.ext_iff]
  · rename_i hfew
    match hcs : e.children with
    | [] | [_] | [_, _] => simp [lacksOperand, lacks_ne_ok]
    | x :: y :: z :: zs => exact absurd hcs (hfew x y z zs)

/-! ## What is there is found -/

theorem needChild_of {tag : String} (h : e.first? tag = some c) :
    e.needChild tag = .ok ⟨c, sizeOf_lt_of_first? h⟩ :=
  needChild_eq_ok.2 h

theorem needInner_of {tag : String} (h : e.inner? tag = some c) :
    e.needInner tag = .ok ⟨c, sizeOf_lt_of_inner? h⟩ :=
  needInner_eq_ok.2 h

theorem needOne_of (h : e.children[0]? = some c) :
    e.needOne = .ok ⟨c, sizeOf_lt_of_getElem? h⟩ :=
  needOne_eq_ok.2 h

theorem needTwo_of {d : Element} (h : e.children[0]? = some c) (h' : e.children[1]? = some d) :
    e.needTwo = .ok (⟨c, sizeOf_lt_of_getElem? h⟩, ⟨d, sizeOf_lt_of_getElem? h'⟩) :=
  needTwo_eq_ok.2 ⟨h, h'⟩

theorem needThree_of {d d' : Element} (h : e.children[0]? = some c) (h' : e.children[1]? = some d)
    (h'' : e.children[2]? = some d') :
    e.needThree = .ok (⟨c, sizeOf_lt_of_getElem? h⟩, ⟨d, sizeOf_lt_of_getElem? h'⟩,
      ⟨d', sizeOf_lt_of_getElem? h''⟩) :=
  needThree_eq_ok.2 ⟨h, h', h''⟩

/-! ## Elements that are made -/

section
variable {tag tag' name : String} {attrs attrs' own rest : List Attr} {cs ds : List Element}
  {d : Element}

@[simp] theorem wrap_eq : wrap tag cs = node tag [] cs := rfl

@[simp] theorem tag_node : (node tag attrs cs).tag = tag := by simp [node]

@[simp] theorem children_node : (node tag attrs cs).children = cs := by simp [node]

theorem attr?_append_left (h : ∀ a ∈ rest, a.name ≠ name) :
    (node tag (own ++ rest) cs).attr? name = (node tag own cs).attr? name := by
  have hnone : rest.find? (·.name = name) = none := by simpa [List.find?_eq_none] using h
  simp [attr?, node, List.find?_append, hnone]

theorem attr?_append_right (h : ∀ a ∈ own, a.name ≠ name) :
    (node tag (own ++ rest) cs).attr? name = (node tag rest cs).attr? name := by
  have hnone : own.find? (·.name = name) = none := by simpa [List.find?_eq_none] using h
  simp [attr?, node, List.find?_append, hnone]

theorem first?_cons (h : c.tag = tag') : (node tag attrs (c :: cs)).first? tag' = some c := by
  simp [first?, node, hasTag, h]

theorem first?_skip (h : c.tag ≠ tag') (hne : tag' ≠ "") :
    (node tag attrs (c :: cs)).first? tag' = (node tag attrs cs).first? tag' := by
  simp [first?, node, hasTag, h, hne]

theorem inner?_cons (h : c.tag = tag') :
    (node tag attrs (c :: cs)).inner? tag' = c.first? "" := by
  rw [inner?, first?_cons h, Option.bind_some]

theorem inner?_skip (h : c.tag ≠ tag') (hne : tag' ≠ "") :
    (node tag attrs (c :: cs)).inner? tag' = (node tag attrs cs).inner? tag' := by
  rw [inner?, inner?, first?_skip h hne]

theorem filter_hasTag {α : Type} {R : Element → α → Prop} {as : List α}
    (h : List.Forall₂ (fun c a => c.tag = tag' ∧ R c a) cs as) (tag : String) :
    cs.filter (hasTag tag) = if tag = "" ∨ tag' = tag then cs else [] := by
  have htag : ∀ c ∈ cs, c.tag = tag' := by
    intro c hc
    obtain ⟨a, -, ha, -⟩ := exists_of_forall₂_left h hc
    exact ha
  split
  · rename_i hfound
    refine List.filter_eq_self.2 fun c hc => ?_
    simpa [hasTag, htag c hc] using hfound
  · rename_i hother
    refine List.filter_eq_nil_iff.2 fun c hc => ?_
    simpa [hasTag, htag c hc] using hother

theorem forall₂_childrenNamed {α : Type} {R : Element → α → Prop} {as : List α}
    (h : List.Forall₂ (fun c a => c.tag = tag' ∧ R c a) cs as) :
    List.Forall₂ R ((node tag attrs cs).childrenNamed tag') as := by
  unfold childrenNamed
  rw [children_node, filter_hasTag h, if_pos (.inr rfl)]
  exact h.imp fun c a hca => hca.2

theorem first?_eq_head? (e : Element) (tag : String) :
    e.first? tag = (e.childrenNamed tag).head? := by
  rw [childrenNamed, List.head?_filter, first?]

@[simp] theorem first?_any : (node tag attrs (d :: ds)).first? "" = some d := by
  simp [first?, node, hasTag]

end

end Element

end BMethod
