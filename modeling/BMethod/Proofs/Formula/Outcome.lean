import Mathlib
import BMethod.Proofs.Formula.Writing

/-!
# Outcomes of writing

What is written depends on the pool only by the numbers of types. Two runs on different pools give
elements that differ in these numbers alone, or are refused at the same part of the tree. Which of
the two happens can be told from the names, the tags, the absent parts and the negated comparisons
of the tree: the first of them at which writing ends is the reason of the refusal.
-/

namespace BMethod

/-! ## Elements that differ in numbers -/

/-- The attributes are equal, or both refer to one type by its numbers in two lists of types. -/
inductive Attr.Counterpart (us us' : List Ty) : Attr → Attr → Prop
  | kept {a : Attr} (name : a.name ≠ "typref") : Counterpart us us' a a
  | ref {m n : Nat} {ty : Ty} (left : us[m]? = some ty) (right : us'[n]? = some ty) :
      Counterpart us us' ⟨"typref", toString m⟩ ⟨"typref", toString n⟩

/-- The elements are equal but for references to types. These stand at the same places, and refer to
the same types by their numbers in two lists of types. -/
inductive Element.Counterpart (us us' : List Ty) : Element → Element → Prop
  | mk {tag text : String} {attrs attrs' : List Attr} {line : Int}
      {children children' : List Element}
      (own : List.Forall₂ (Attr.Counterpart us us') attrs attrs')
      (below : List.Forall₂ (Counterpart us us') children children') :
      Counterpart us us' ⟨tag, attrs, text, line, children⟩ ⟨tag, attrs', text, line, children'⟩

namespace Element

mutual
/-- The element without references to types, in it and below it. -/
def bare : Element → Element
  | ⟨tag, attrs, text, line, children⟩ =>
    ⟨tag, attrs.filter (·.name ≠ "typref"), text, line, bareAll children⟩

/-- The elements without references to types, in them and below them. -/
def bareAll : List Element → List Element
  | [] => []
  | e :: es => e.bare :: bareAll es
end

end Element

section
variable {us us' : List Ty}

theorem Attr.counterpart_self {attrs : List Attr} (h : ∀ a ∈ attrs, a.name ≠ "typref") :
    List.Forall₂ (Attr.Counterpart us us') attrs attrs :=
  List.forall₂_same.2 fun a ha => .kept (h a ha)

theorem Attr.filter_counterpart {attrs attrs' : List Attr}
    (h : List.Forall₂ (Attr.Counterpart us us') attrs attrs') :
    attrs'.filter (·.name ≠ "typref") = attrs.filter (·.name ≠ "typref") := by
  induction h with
  | nil => rfl
  | cons ha _ ih =>
    cases ha with
    | kept name => rw [List.filter_cons, List.filter_cons, ih]
    | ref left right => simpa using ih

/-- In a sound pool a type has one number. -/
theorem Attr.eq_of_counterpart {q : Pool} (hq : q.Sound) {attrs attrs' : List Attr}
    (h : List.Forall₂ (Attr.Counterpart q.types q.types) attrs attrs') : attrs' = attrs := by
  induction h with
  | nil => rfl
  | cons ha _ ih =>
    cases ha with
    | kept name => rw [ih]
    | ref left right => rw [ih, hq.ref_unique left right]

namespace Element

theorem Counterpart.group {tag : String} {attrs : List Attr} {cs cs' : List Element}
    (below : List.Forall₂ (Counterpart us us') cs cs') (hattrs : ∀ a ∈ attrs, a.name ≠ "typref") :
    Counterpart us us' (.node tag attrs cs) (.node tag attrs cs') :=
  .mk (Attr.counterpart_self hattrs) below

theorem Counterpart.wrap {tag : String} {cs cs' : List Element}
    (below : List.Forall₂ (Counterpart us us') cs cs') :
    Counterpart us us' (.wrap tag cs) (.wrap tag cs') :=
  .mk .nil below

mutual
theorem Counterpart.bare : ∀ {e e' : Element}, Counterpart us us' e e' → e'.bare = e.bare
  | ⟨_, _, _, _, _⟩, ⟨_, _, _, _, _⟩, .mk own below => by
    rw [Element.bare, Element.bare, Attr.filter_counterpart own, Counterpart.bareAll below]

theorem Counterpart.bareAll : ∀ {es es' : List Element},
    List.Forall₂ (Counterpart us us') es es' → Element.bareAll es' = Element.bareAll es
  | [], [], .nil => rfl
  | _ :: _, _ :: _, .cons he hes => by
    rw [Element.bareAll, Element.bareAll, he.bare, Counterpart.bareAll hes]
end

mutual
theorem Counterpart.eq {q : Pool} (hq : q.Sound) : ∀ {e e' : Element},
    Counterpart q.types q.types e e' → e' = e
  | ⟨_, _, _, _, _⟩, ⟨_, _, _, _, _⟩, .mk own below => by
    rw [Attr.eq_of_counterpart hq own, Counterpart.eqAll hq below]

theorem Counterpart.eqAll {q : Pool} (hq : q.Sound) : ∀ {es es' : List Element},
    List.Forall₂ (Counterpart q.types q.types) es es' → es' = es
  | [], [], .nil => rfl
  | _ :: _, _ :: _, .cons he hes => by rw [he.eq hq, Counterpart.eqAll hq hes]
end

end Element

end

/-! ## Parts that may be refused -/

/-- A part of a tree at which writing may end. -/
inductive Part where
  | name (name : VarName)
  | tag (tag : String)
  | noExpression
  | noFormula
  | noSubstitution
  | noWitness
  | negated (op : Comparison)

namespace Part

/-- A document cannot hold names that are neither plain, suffixed nor fresh, tags that are empty or
have a comma, and absent parts. -/
def Unwritable : Part → Prop
  | name v => v.kind ≠ .plain ∧ v.kind ≠ .suffixed ∧ v.kind ≠ .fresh
  | tag s => s = "" ∨ ',' ∈ s.toList
  | noExpression => True
  | noFormula => True
  | noSubstitution => True
  | noWitness => False
  | negated _ => False

instance : DecidablePred Unwritable
  | name v => inferInstanceAs (Decidable (v.kind ≠ .plain ∧ v.kind ≠ .suffixed ∧ v.kind ≠ .fresh))
  | tag s => inferInstanceAs (Decidable (s = "" ∨ ',' ∈ s.toList))
  | noExpression => inferInstanceAs (Decidable True)
  | noFormula => inferInstanceAs (Decidable True)
  | noSubstitution => inferInstanceAs (Decidable True)
  | noWitness => inferInstanceAs (Decidable False)
  | negated _ => inferInstanceAs (Decidable False)

/-- Writing ends where a document cannot hold a part. It also ends where the negated symbol of a
comparison with a negative number is looked up, and where the type of an absent witness is. -/
def Refused : Part → Prop
  | noWitness => True
  | negated op => op.code < 0
  | part => part.Unwritable

instance : DecidablePred Refused
  | negated op => inferInstanceAs (Decidable (op.code < 0))
  | name v => inferInstanceAs (Decidable (name v).Unwritable)
  | tag s => inferInstanceAs (Decidable (tag s).Unwritable)
  | noExpression => inferInstanceAs (Decidable True)
  | noFormula => inferInstanceAs (Decidable True)
  | noSubstitution => inferInstanceAs (Decidable True)
  | noWitness => inferInstanceAs (Decidable True)

def refusal : Part → Refusal
  | name v => .name v
  | tag s => .tag s
  | noExpression => .absentExpression
  | noFormula => .absentFormula
  | noSubstitution => .absentSubstitution
  | noWitness => .crash .absentValue
  | negated op => .crash (.outOfRange op.code)

theorem refused_iff (part : Part) :
    part.Refused ↔
      part.Unwritable ∨ part = .noWitness ∨ ∃ op, part = .negated op ∧ op.code < 0 := by
  cases part <;> simp [Refused, Unwritable]

theorem refused_tag_iff {s : String} : (tag s).Refused ↔ Write.isTag s = false := by
  by_cases hs : s = "" <;> simp [Refused, Unwritable, Write.isTag, hs]

theorem message_refusal {part : Part} (h : part.Unwritable) :
    part.refusal.message = Refusal.report part.refusal.text := by
  cases part with
  | noWitness | negated => exact h.elim
  | _ => rfl

end Part

def Info.parts (info : Info) : List Part :=
  info.tags.map .tag

def TypedVar.parts (vars : List TypedVar) : List Part :=
  vars.map fun v => .name v.name

/-! ## Two runs -/

namespace Write

variable {α β γ : Type}

/-- The outcomes of two runs that write the parts `parts` and ask for the types `ts`, from the pools
`p` and `p'`. Where no part is refused both succeed, with all types in the pools, and under all
later types the results are related by `R`. Otherwise both end at the first part that is refused,
with some of the types in the pools. -/
inductive Twin (parts : List Part) (ts : List Ty) (R : List Ty → List Ty → α → α → Prop)
    (p p' : Pool) : Except Refusal α × Pool → Except Refusal α × Pool → Prop
  | given {a a' : α} (writable : parts.find? (·.Refused) = none)
      (related : ∀ us us', (p.addAll ts).types <+: us → (p'.addAll ts).types <+: us' →
        R us us' a a') :
      Twin parts ts R p p' (.ok a, p.addAll ts) (.ok a', p'.addAll ts)
  | refused (part : Part) (us : List Ty) (first : parts.find? (·.Refused) = some part)
      (met : us <+: ts) :
      Twin parts ts R p p' (.error part.refusal, p.addAll us) (.error part.refusal, p'.addAll us)

/-- The runs of two actions on sound pools have the outcomes described for parts and types. -/
def Matched (w w' : Write α) (parts : List Part) (ts : List Ty)
    (R : List Ty → List Ty → α → α → Prop) : Prop :=
  ∀ ⦃p p' : Pool⦄, p.Sound → p'.Sound → Twin parts ts R p p' (w.on p) (w'.on p')

namespace Matched

variable {parts parts' : List Part} {ts us : List Ty} {R : List Ty → List Ty → α → α → Prop}
  {S : List Ty → List Ty → β → β → Prop} {w w' : Write α}

theorem pure {a a' : α} (h : ∀ us us', R us us' a a') :
    Matched (pure a : Write α) (pure a') [] [] R :=
  fun _ _ _ _ => .given rfl fun us us' _ _ => h us us'

/-- An action that refuses a part, whatever would be written after it. -/
theorem throw (part : Part) (h : part.Refused) (ts : List Ty) :
    Matched (throw part.refusal : Write α) (throw part.refusal) [part] ts R :=
  fun _ _ _ _ => .refused part [] (by simp [h]) List.nil_prefix

theorem bind {f g : α → Write β} (hw : Matched w w' parts ts R)
    (hf : ∀ a a', Matched (f a) (g a') parts' us fun us us' b b' => R us us' a a' → S us us' b b') :
    Matched (w >>= f) (w' >>= g) (parts ++ parts') (ts ++ us) S := by
  intro p p' hp hp'
  have hstep := hw hp hp'
  rw [on_bind, on_bind]
  generalize w.on p = o at hstep ⊢
  generalize w'.on p' = o' at hstep ⊢
  cases hstep with
  | refused part vs first met =>
    exact .refused part vs (by rw [List.find?_append, first]; rfl)
      (met.trans (List.prefix_append ts us))
  | @given a a' writable related =>
    have hrest := hf a a' (hp.addAll ts) (hp'.addAll ts)
    dsimp only
    generalize (f a).on (p.addAll ts) = o at hrest ⊢
    generalize (g a').on (p'.addAll ts) = o' at hrest ⊢
    cases hrest with
    | refused part vs first met =>
      rw [← Pool.addAll_append, ← Pool.addAll_append]
      refine .refused part _ ?_ ((List.prefix_append_right_inj ts).2 met)
      rw [List.find?_append, writable, Option.none_or, first]
    | @given b b' writable' related' =>
      have hgrows := (p.addAll ts).prefix_addAll us
      have hgrows' := (p'.addAll ts).prefix_addAll us
      rw [← Pool.addAll_append, ← Pool.addAll_append] at *
      refine .given ?_ fun vs vs' hle hle' => ?_
      · rw [List.find?_append, writable, Option.none_or, writable']
      · exact related' vs vs' hle hle'
          (related vs vs' (hgrows.trans hle) (hgrows'.trans hle'))

theorem of_eq {parts' : List Part} {us : List Ty} (h : Matched w w' parts ts R)
    (hparts : parts = parts') (hts : ts = us) : Matched w w' parts' us R :=
  hparts ▸ hts ▸ h

theorem bind_pure {f g : α → β} (hw : Matched w w' parts ts R)
    (h : ∀ us us' a a', R us us' a a' → S us us' (f a) (g a')) :
    Matched (w >>= fun a => Pure.pure (f a)) (w' >>= fun a => Pure.pure (g a)) parts ts S := by
  have hbind := hw.bind (f := fun a => Pure.pure (f a)) (g := fun a => Pure.pure (g a)) (S := S)
    fun a a' => .pure fun us us' => h us us' a a'
  exact hbind.of_eq (List.append_nil parts) (List.append_nil ts)

theorem mono {S : List Ty → List Ty → α → α → Prop} (hw : Matched w w' parts ts R)
    (h : ∀ us us' a a', R us us' a a' → S us us' a a') : Matched w w' parts ts S := by
  intro p p' hp hp'
  have hstep := hw hp hp'
  generalize w.on p = o at hstep ⊢
  generalize w'.on p' = o' at hstep ⊢
  cases hstep with
  | given writable related =>
    exact .given writable fun us us' hle hle' => h us us' _ _ (related us us' hle hle')
  | refused part vs first met => exact .refused part vs first met

end Matched

/-- Runs of the action on sound pools differ only in the numbers of types. -/
def Portable (w : Write Element) (parts : List Part) (ts : List Ty) : Prop :=
  Matched w w parts ts Element.Counterpart

/-- Runs of the action on sound pools give elements that differ only in the numbers of types. -/
def PortableAll (w : Write (List Element)) (parts : List Part) (ts : List Ty) : Prop :=
  Matched w w parts ts fun us us' => List.Forall₂ (Element.Counterpart us us')

theorem PortableAll.all {l : List γ} {f : γ → Write Element} {parts : γ → List Part}
    {ts : γ → List Ty} (h : ∀ c ∈ l, (f c).Portable (parts c) (ts c)) :
    (Write.all (l.map f)).PortableAll (l.flatMap parts) (l.flatMap ts) := by
  induction l with
  | nil => exact .pure fun us us' => .nil
  | cons c l ih =>
    have hc := h c List.mem_cons_self
    have hl := ih fun d hd => h d (List.mem_cons_of_mem _ hd)
    refine Matched.bind hc fun e e' => Matched.bind_pure hl ?_
    intro us us' es es' hes he
    exact .cons he hes

/-! ## Elements of formulas -/

theorem typeRef_matched (ty : Ty) :
    Matched (typeRef ty) (typeRef ty) [] [ty] fun us us' => Attr.Counterpart us us' := by
  intro p p' hp hp'
  refine .given rfl fun us us' hle hle' => ?_
  have hat := getElem?_of_prefix hle (hp.getElem?_ref ty)
  have hat' := getElem?_of_prefix hle' (hp'.getElem?_ref ty)
  exact .ref hat hat'

theorem tagAttrs_matched (tags : List String) :
    Matched (tagAttrs tags) (tagAttrs tags) (tags.map .tag) [] fun us us' =>
      List.Forall₂ (Attr.Counterpart us us') := by
  have hfind : (tags.map Part.tag).find? (·.Refused) = (tags.find? (!isTag ·)).map .tag := by
    rw [List.find?_map]
    congr 2
    funext s
    simp [Part.refused_tag_iff]
  intro p p' hp hp'
  unfold tagAttrs
  split
  · rename_i tag htag
    exact .refused (.tag tag) [] (by rw [hfind, htag]; rfl) List.nil_prefix
  · rename_i hnone
    refine .given (by rw [hfind, hnone]; rfl) fun _ _ _ _ => Attr.counterpart_self ?_
    split <;> simp

theorem negatedSymbol?_matched (op : Comparison) :
    Matched (negatedSymbol? op) (negatedSymbol? op) [.negated op] [] fun _ _ negated negated' =>
      op.negatedSymbol? = .ok negated ∧ negated' = negated := by
  unfold negatedSymbol?
  by_cases hneg : op.code < 0
  · rw [Comparison.negatedSymbol?_of_neg hneg]
    exact .throw (.negated op) hneg []
  · have hok := Comparison.negatedSymbol?_eq_ok.2 ⟨Int.not_lt.1 hneg, rfl⟩
    rw [hok]
    exact fun _ _ _ _ => .given (by simp [Part.Refused, hneg]) fun _ _ _ _ => ⟨rfl, rfl⟩

theorem infoAttrs_matched (info : Info) (own own' : List Attr) :
    Matched (infoAttrs info own) (infoAttrs info own') info.parts [info.ty]
      fun us us' attrs attrs' => List.Forall₂ (Attr.Counterpart us us') own own' →
        List.Forall₂ (Attr.Counterpart us us') attrs attrs' := by
  refine (typeRef_matched info.ty).bind fun r r' => (tagAttrs_matched info.tags).bind_pure ?_
  intro us us' tags tags' htags hr hown
  exact List.rel_append hown (.cons hr htags)

theorem infoAttrs_portable (info : Info) {own : List Attr} (hown : ∀ a ∈ own, a.name ≠ "typref") :
    Matched (infoAttrs info own) (infoAttrs info own) info.parts [info.ty] fun us us' =>
      List.Forall₂ (Attr.Counterpart us us') :=
  (infoAttrs_matched info own own).mono fun _ _ _ _ h => h (Attr.counterpart_self hown)

theorem varAttrs_matched (name : VarName) :
    Matched (varAttrs name) (varAttrs name) [.name name] [] fun us us' r r' =>
      r.1 = r'.1 ∧ List.Forall₂ (Attr.Counterpart us us') r.2 r'.2 := by
  have hgiven (hkind : ¬ (Part.name name).Refused) (r : String × List Attr)
      (hr : ∀ a ∈ r.2, a.name ≠ "typref") :
      Matched (pure r : Write _) (pure r) [.name name] [] fun us us' r r' =>
        r.1 = r'.1 ∧ List.Forall₂ (Attr.Counterpart us us') r.2 r'.2 := fun _ _ _ _ =>
    .given (by simp [hkind]) fun _ _ _ _ => ⟨rfl, Attr.counterpart_self hr⟩
  unfold varAttrs
  split
  · rename_i hkind
    exact hgiven (by simp [Part.Refused, Part.Unwritable, hkind]) _ (by simp)
  · rename_i hkind
    exact hgiven (by simp [Part.Refused, Part.Unwritable, hkind]) _ (by simp)
  · rename_i hkind
    exact hgiven (by simp [Part.Refused, Part.Unwritable, hkind]) _ (by simp)
  · rename_i hplain hsuffixed hfresh
    exact .throw (.name name) ⟨hplain, hsuffixed, hfresh⟩ []

theorem negation_counterpart {us us' : List Ty} {a a' b b' : Element} (op : Comparison)
    (negated : Option String) (ha : a.Counterpart us us' a') (hb : b.Counterpart us us' b') :
    (negation op negated a b).Counterpart us us' (negation op negated a' b') := by
  have hsides (symbol : String) : (Element.node "Exp_Comparison" [⟨"op", symbol⟩] [a, b]).Counterpart
      us us' (.node "Exp_Comparison" [⟨"op", symbol⟩] [a', b']) :=
    .group (.cons ha (.cons hb .nil)) (by simp)
  cases negated with
  | some symbol => exact hsides symbol
  | none => exact .group (.cons (hsides op.symbol) .nil) (by simp)

theorem typedVar_portable (v : TypedVar) : (typedVar v).Portable [.name v.name] [v.ty] := by
  refine (varAttrs_matched v.name).bind fun r r' => (typeRef_matched v.ty).bind_pure ?_
  rintro us us' a a' ha ⟨htag, hattrs⟩
  rw [← htag]
  exact .mk (List.rel_append hattrs (.cons ha .nil)) .nil

theorem typedVars_portable (tag : String) (vars : List TypedVar) :
    (typedVars tag vars).Portable (TypedVar.parts vars) (vars.map (·.ty)) := by
  have hvars : (all (vars.map typedVar)).PortableAll _ _ := .all fun v _ => typedVar_portable v
  rw [← List.map_eq_flatMap, ← List.map_eq_flatMap] at hvars
  refine Matched.bind_pure hvars ?_
  intro us us' es es' hes
  exact .wrap hes

theorem leaf_matched (tag tag' : String) (info : Info) (own own' : List Attr) :
    Matched (leaf tag info own) (leaf tag' info own') info.parts [info.ty] fun us us' e e' =>
      tag = tag' ∧ List.Forall₂ (Attr.Counterpart us us') own own' →
        Element.Counterpart us us' e e' := by
  refine (infoAttrs_matched info own own').bind_pure ?_
  rintro us us' attrs attrs' hattrs ⟨rfl, hown⟩
  exact .mk (hattrs hown) .nil

theorem leaf_portable (tag : String) (info : Info) {own : List Attr}
    (hown : ∀ a ∈ own, a.name ≠ "typref") : (leaf tag info own).Portable info.parts [info.ty] :=
  (leaf_matched tag tag info own own).mono fun _ _ _ _ h => h ⟨rfl, Attr.counterpart_self hown⟩

theorem constant_portable (info : Info) (kind : Constant) :
    (constant info kind).Portable info.parts [info.ty] := by
  unfold constant
  split_ifs
  all_goals exact leaf_portable _ info (by simp)

theorem ident_portable (info : Info) (name : VarName) :
    (ident info name).Portable (.name name :: info.parts) [info.ty] :=
  (varAttrs_matched name).bind fun r r' => leaf_matched r.1 r'.1 info r.2 r'.2

end Write

end BMethod
