import Mathlib
import BMethod.Proofs.Expr.Reading
import BMethod.Subst.Read

/-!
# What substitutions are read from

One step of reading a substitution as a relation, as for expressions and predicates. The parts are
found by their tags, so a form says under which tag each part is found.
-/

namespace BMethod

namespace Subst

/-! ## Parts -/

/-- A branch that may be missing: then it is absent. -/
inductive ElseForm (T : Element → Subst → Prop) (e : Element) : Subst → Prop
  | none (missing : e.first? "Else" = Option.none) : ElseForm T e .absent
  | some {a : Element} {s : Subst} (inner : e.inner? "Else" = Option.some a) (branch : T a s) :
      ElseForm T e s

/-- A precondition that may be missing: then it is absent. -/
inductive PreForm (S : Element → Pred → Prop) (e : Element) : Pred → Prop
  | none (missing : e.first? "Precondition" = Option.none) : PreForm S e .absent
  | some {a : Element} {p : Pred} (inner : e.inner? "Precondition" = Option.some a) (pre : S a p) :
      PreForm S e p

def WhenForm (S : Element → Pred → Prop) (T : Element → Subst → Prop) (e : Element)
    (w : Pred × Subst) : Prop :=
  ∃ a b, e.inner? "Condition" = some a ∧ S a w.1 ∧ e.inner? "Then" = some b ∧ T b w.2

/-- A choice of a case distinction with its values, of which there is at least one. -/
def ChoiceForm (R : Element → Expr → Prop) (T : Element → Subst → Prop) (e : Element)
    (c : List Expr × Subst) : Prop :=
  List.Forall₂ (fun v x => ∃ a, v.first? "" = some a ∧ R a x) (e.childrenNamed "Value") c.1 ∧
    c.1 ≠ [] ∧ ∃ b, e.inner? "Then" = some b ∧ T b c.2

/-- The equalities that give witnesses: one of them, or the members of a conjunction. -/
inductive Equalities (e : Element) : List Element → Prop
  | one (tag : e.tag = "Exp_Comparison") : Equalities e [e]
  | all (tag : e.tag = "Nary_Pred") (op : e.attr? "op" = some "&") : Equalities e e.children

def WitnessForm (R : Element → Expr → Prop) (e : Element) (w : String × Expr) : Prop :=
  e.tag = "Exp_Comparison" ∧ e.attr? "op" = some "=" ∧ ∃ a b, e.children[0]? = some a ∧
    e.children[1]? = some b ∧ a.tag = "Id" ∧ a.attr? "value" = some w.1 ∧ R b w.2

/-- What an element says about a substitution, when `R`, `S` and `T` are what the elements inside it
say about expressions, predicates and substitutions. -/
inductive Form (t : Table) (R : Element → Expr → Prop) (S : Element → Pred → Prop)
    (T : Element → Subst → Prop) (e : Element) : Subst → Prop
  | skip (tag : e.tag = "Skip") : Form t R S T e .skip
  | block {a : Element} {s : Subst} (tag : e.tag = "Bloc_Sub") (first : e.first? "" = some a)
      (body : T a s) : Form t R S T e (.block s)
  | assert {a b : Element} {p : Pred} {s : Subst} (tag : e.tag = "Assert_Sub")
      (pred : e.inner? "Guard" = some a) (guard : S a p) (inner : e.inner? "Body" = some b)
      (body : T b s) : Form t R S T e (.assert p s false)
  | pre {a b : Element} {p : Pred} {s : Subst} (tag : e.tag = "PRE_Sub")
      (pred : e.inner? "Precondition" = some a) (guard : S a p) (inner : e.inner? "Body" = some b)
      (body : T b s) : Form t R S T e (.assert p s true)
  | ifThen {a b : Element} {p : Pred} {s o : Subst} (tag : e.tag = "If_Sub")
      (pred : e.inner? "Condition" = some a) (cond : S a p) (inner : e.inner? "Then" = some b)
      (body : T b s) (otherwise : ElseForm T e o) : Form t R S T e (.ifThen p s o)
  | assign {c d : Element} {vars : List TypedVar} {xs : List Expr}
      (tag : e.tag = "Simple_Assignement_Sub") (first : e.first? "Variables" = some c)
      (listed : TypedVar.Listed t c.children vars) (second : e.first? "Values" = some d)
      (values : List.Forall₂ R d.children xs) (arity : vars.length = xs.length) :
      Form t R S T e (.assign vars xs)
  | select {c : Element} {whens : List (Pred × Subst)} {o : Subst} (tag : e.tag = "Select")
      (first : e.first? "When_Clauses" = some c)
      (branches : List.Forall₂ (WhenForm S T) (c.childrenNamed "When") whens)
      (otherwise : ElseForm T e o) : Form t R S T e (.select whens o)
  | case {a c : Element} {x : Expr} {choices : List (List Expr × Subst)} {o : Subst}
      (tag : e.tag = "Case_Sub") (inner : e.inner? "Value" = some a) (value : R a x)
      (first : e.first? "Choices" = some c)
      (branches : List.Forall₂ (ChoiceForm R T) (c.childrenNamed "Choice") choices)
      (otherwise : ElseForm T e o) : Form t R S T e (.case x choices o)
  | any {c a b : Element} {vars : List TypedVar} {p : Pred} {s : Subst} (tag : e.tag = "ANY_Sub")
      (first : e.first? "Variables" = some c) (listed : TypedVar.Listed t c.children vars)
      (pred : e.inner? "Pred" = some a) (guard : S a p) (inner : e.inner? "Then" = some b)
      (body : T b s) : Form t R S T e (.any vars p s)
  | witness {a b : Element} {es : List Element} {ws : List (String × Expr)} {s : Subst}
      (tag : e.tag = "Witness") (given : e.inner? "Witnesses" = some a) (equal : Equalities a es)
      (values : List.Forall₂ (WitnessForm R) es ws) (nodup : (ws.map (·.1)).Nodup)
      (inner : e.inner? "Body" = some b) (body : T b s) :
      Form t R S T e (.witness (sortByLabel ws) s)
  | call {i o b : Element} {name : String} {xs : List Expr} {outs fins fouts : List TypedVar}
      {p : Pred} {s : Subst} (tag : e.tag = "Operation_Call") (named : e.inner? "Name" = some i)
      (value : i.attr? "value" = some name)
      (inputs : List.Forall₂ R (optionalList e "Input_Parameters") xs)
      (outputs : TypedVar.Listed t (optionalList e "Output_Parameters") outs)
      (operation : e.first? "Operation" = some o)
      (formalOutputs : TypedVar.Listed t (optionalList o "Output_Parameters") fouts)
      (formalInputs : TypedVar.Listed t (optionalList o "Input_Parameters") fins)
      (pre : PreForm S o p) (inner : o.inner? "Body" = some b) (body : T b s)
      (arityIn : fins.length = xs.length) (arityOut : fouts.length = outs.length) :
      Form t R S T e (.call name xs outs fins fouts (givenPre p) s)
  | while {a b c d : Element} {p q : Pred} {x : Expr} {s : Subst} (tag : e.tag = "While")
      (pred : e.inner? "Condition" = some a) (cond : S a p) (inner : e.inner? "Body" = some b)
      (body : T b s) (stays : e.inner? "Invariant" = some c) (invariant : S c q)
      (falls : e.inner? "Variant" = some d) (variant : R d x) : Form t R S T e (.while p s q x)
  | nary {sym : String} {op : Composition} {ss : List Subst} (tag : e.tag = "Nary_Sub")
      (attr : e.attr? "op" = some sym) (symbol : Operator.ofSymbol? .compositions sym = some op)
      (parts : List.Forall₂ T e.children ss) : Form t R S T e (.nary op ss)

/-! ## Only what is inside matters -/

section
variable {t : Table} {R R' : Element → Expr → Prop} {S S' : Element → Pred → Prop}
  {T T' : Element → Subst → Prop} {e : Element}

theorem ElseForm.imp {o : Subst} (hT : ∀ c s, sizeOf c < sizeOf e → T c s → T' c s)
    (h : ElseForm T e o) : ElseForm T' e o := by
  cases h with
  | none missing => exact .none missing
  | some inner branch => exact .some inner (hT _ _ (Element.sizeOf_lt_of_inner? inner) branch)

theorem PreForm.imp {p : Pred} (hS : ∀ c p, S c p → S' c p) (h : PreForm S e p) :
    PreForm S' e p := by
  cases h with
  | none missing => exact .none missing
  | some inner pre => exact .some inner (hS _ _ pre)

theorem WhenForm.imp {w : Pred × Subst} (hS : ∀ c p, S c p → S' c p)
    (hT : ∀ c s, sizeOf c < sizeOf e → T c s → T' c s) (h : WhenForm S T e w) :
    WhenForm S' T' e w := by
  obtain ⟨a, b, ha, hp, hb, hs⟩ := h
  exact ⟨a, b, ha, hS _ _ hp, hb, hT _ _ (Element.sizeOf_lt_of_inner? hb) hs⟩

theorem ChoiceForm.imp {c : List Expr × Subst} (hR : ∀ c x, R c x → R' c x)
    (hT : ∀ c s, sizeOf c < sizeOf e → T c s → T' c s) (h : ChoiceForm R T e c) :
    ChoiceForm R' T' e c := by
  obtain ⟨hvalues, hne, b, hb, hs⟩ := h
  refine ⟨hvalues.imp ?_, hne, b, hb, hT _ _ (Element.sizeOf_lt_of_inner? hb) hs⟩
  rintro v x ⟨a, ha, hx⟩
  exact ⟨a, ha, hR _ _ hx⟩

theorem WitnessForm.imp {w : String × Expr} (hR : ∀ c x, R c x → R' c x)
    (h : WitnessForm R e w) : WitnessForm R' e w := by
  obtain ⟨htag, hop, a, b, ha, hb, hid, hlabel, hx⟩ := h
  exact ⟨htag, hop, a, b, ha, hb, hid, hlabel, hR _ _ hx⟩

theorem Form.imp {s : Subst} (hR : ∀ c x, R c x → R' c x) (hS : ∀ c p, S c p → S' c p)
    (hT : ∀ c s, sizeOf c < sizeOf e → T c s → T' c s) (h : Form t R S T e s) :
    Form t R' S' T' e s := by
  have hin : ∀ {tag a s}, e.inner? tag = some a → T a s → T' a s :=
    fun h => hT _ _ (Element.sizeOf_lt_of_inner? h)
  -- The branches of a selection or a case distinction are two levels down.
  have hbelow : ∀ {tag tag' c d}, e.first? tag = some c → d ∈ c.childrenNamed tag' →
      sizeOf d < sizeOf e := by
    intro tag tag' c d hc hd
    have := Element.sizeOf_lt_of_mem_children (List.mem_of_mem_filter hd)
    exact Nat.lt_trans this (Element.sizeOf_lt_of_first? hc)
  cases h with
  | skip tag => exact .skip tag
  | block tag first body =>
    exact .block tag first (hT _ _ (Element.sizeOf_lt_of_first? first) body)
  | assert tag pred guard inner body =>
    exact .assert tag pred (hS _ _ guard) inner (hin inner body)
  | pre tag pred guard inner body => exact .pre tag pred (hS _ _ guard) inner (hin inner body)
  | ifThen tag pred cond inner body otherwise =>
    exact .ifThen tag pred (hS _ _ cond) inner (hin inner body) (otherwise.imp hT)
  | assign tag first listed second values arity =>
    exact .assign tag first listed second (values.imp hR) arity
  | select tag first branches otherwise =>
    refine .select tag first (forall₂_imp_of_mem ?_ branches) (otherwise.imp hT)
    intro d hd w hw
    exact hw.imp hS fun c s hc => hT c s (Nat.lt_trans hc (hbelow first hd))
  | case tag inner value first branches otherwise =>
    refine .case tag inner (hR _ _ value) first (forall₂_imp_of_mem ?_ branches) (otherwise.imp hT)
    intro d hd w hw
    exact hw.imp hR fun c s hc => hT c s (Nat.lt_trans hc (hbelow first hd))
  | any tag first listed pred guard inner body =>
    exact .any tag first listed pred (hS _ _ guard) inner (hin inner body)
  | witness tag given equal values nodup inner body =>
    exact .witness tag given equal (values.imp fun _ _ h => h.imp hR) nodup inner (hin inner body)
  | call tag named value inputs outputs operation formalOutputs formalInputs pre inner body arityIn
      arityOut =>
    exact .call tag named value (inputs.imp hR) outputs operation formalOutputs formalInputs
      (pre.imp hS) inner (hT _ _ (Nat.lt_trans (Element.sizeOf_lt_of_inner? inner)
        (Element.sizeOf_lt_of_first? operation)) body) arityIn arityOut
  | «while» tag pred cond inner body stays invariant falls variant =>
    exact .while tag pred (hS _ _ cond) inner (hin inner body) stays (hS _ _ invariant) falls
      (hR _ _ variant)
  | nary tag attr symbol parts =>
    refine .nary tag attr symbol (forall₂_imp_of_mem ?_ parts)
    exact fun c hc s hs => hT c s (Element.sizeOf_lt_of_mem_children hc) hs

end

/-! ## The readers -/

abbrev Reads (t : Table) (e : Element) (s : Subst) : Prop :=
  Subst.read t e = .ok s

section
variable {t : Table} {e : Element} {es : List Element}

theorem innerPred_eq_ok {tag : String} {p : Pred} :
    innerPred t e tag = .ok p ↔ ∃ a, e.inner? tag = some a ∧ Pred.Reads t a p := by
  unfold innerPred
  simp only [bind_eq_ok, Element.needInner_eq_ok]
  constructor
  · rintro ⟨a, ha, hp⟩
    exact ⟨a.1, ha, hp⟩
  · rintro ⟨a, ha, hp⟩
    exact ⟨⟨a, Element.sizeOf_lt_of_inner? ha⟩, ha, hp⟩

theorem innerExpr_eq_ok {tag : String} {x : Expr} :
    innerExpr t e tag = .ok x ↔ ∃ a, e.inner? tag = some a ∧ Expr.Reads t a x := by
  unfold innerExpr
  simp only [bind_eq_ok, Element.needInner_eq_ok]
  constructor
  · rintro ⟨a, ha, hx⟩
    exact ⟨a.1, ha, hx⟩
  · rintro ⟨a, ha, hx⟩
    exact ⟨⟨a, Element.sizeOf_lt_of_inner? ha⟩, ha, hx⟩

theorem isSome_first?_of_inner? {tag : String} {a : Element} (h : e.inner? tag = some a) :
    (e.first? tag).isSome = true := by
  obtain ⟨w, hw, -⟩ := Option.bind_eq_some_iff.1 h
  rw [hw]
  rfl

theorem optionalPre_eq_ok {p : Pred} :
    optionalPre t e = .ok p ↔ PreForm (Pred.Reads t) e p := by
  unfold optionalPre
  split
  · rename_i hsome
    rw [innerPred_eq_ok]
    constructor
    · rintro ⟨a, ha, hp⟩
      exact .some ha hp
    · rintro (hnone | ⟨ha, hp⟩)
      · simp [hnone] at hsome
      · exact ⟨_, ha, hp⟩
  · rename_i hsome
    rw [pure_eq_ok]
    constructor
    · rintro rfl
      exact .none (by simpa using hsome)
    · rintro (_ | ⟨ha, -⟩)
      · rfl
      · exact absurd (isSome_first?_of_inner? ha) hsome

theorem readElse_eq_ok {o : Subst} :
    Subst.readElse t e = .ok o ↔ ElseForm (Reads t) e o := by
  rw [Subst.readElse]
  split
  · rename_i hsome
    simp only [bind_eq_ok, Element.needInner_eq_ok]
    constructor
    · rintro ⟨a, ha, hs⟩
      exact .some ha hs
    · rintro (hnone | ⟨ha, hs⟩)
      · simp [hnone] at hsome
      · exact ⟨⟨_, Element.sizeOf_lt_of_inner? ha⟩, ha, hs⟩
  · rename_i hsome
    rw [pure_eq_ok]
    constructor
    · rintro rfl
      exact .none (by simpa using hsome)
    · rintro (_ | ⟨ha, -⟩)
      · rfl
      · exact absurd (isSome_first?_of_inner? ha) hsome

theorem readValues_eq_ok {xs : List Expr} :
    readValues t e = .ok xs ↔ List.Forall₂ (fun v x => ∃ a, v.first? "" = some a ∧ Expr.Reads t a x)
      (e.childrenNamed "Value") xs ∧ xs ≠ [] := by
  have hvalue : ∀ (v : Element) (x : Expr), (v.needChild "" >>= fun c => Expr.read t c.1) = .ok x ↔
      ∃ a, v.first? "" = some a ∧ Expr.Reads t a x := by
    intro v x
    simp only [bind_eq_ok, Element.needChild_eq_ok]
    constructor
    · rintro ⟨a, ha, hx⟩
      exact ⟨a.1, ha, hx⟩
    · rintro ⟨a, ha, hx⟩
      exact ⟨⟨a, Element.sizeOf_lt_of_first? ha⟩, ha, hx⟩
  unfold readValues
  simp only [bind_eq_ok, mapM_eq_ok, hvalue]
  constructor
  · rintro ⟨ys, hys, h⟩
    split at h
    · exact absurd h (Element.lacks_ne_ok _ _ _)
    · rename_i hne
      rw [pure_eq_ok] at h
      subst h
      exact ⟨hys, by simpa using hne⟩
  · rintro ⟨hxs, hne⟩
    exact ⟨xs, hxs, by simp [hne, pure_eq_ok]⟩

theorem equalities_eq_ok : equalities e = .ok es ↔ Equalities e es := by
  have hop : (e.attr? "op").getD "" = "&" ↔ e.attr? "op" = some "&" := by
    cases e.attr? "op" <;> simp
  unfold equalities
  split
  · rename_i htag
    rw [pure_eq_ok]
    constructor
    · rintro rfl
      exact .one htag
    · rintro (_ | ⟨htag', -⟩)
      · rfl
      · simp [htag] at htag'
  · rename_i htag
    simp only [hop]
    split
    · rename_i hamp
      rw [pure_eq_ok]
      constructor
      · rintro rfl
        exact .all htag hamp
      · rintro (htag' | _)
        · simp [htag] at htag'
        · rfl
    · rename_i hamp
      constructor
      · intro h
        exact absurd h (Element.complain_ne_ok _ _ _)
      · rintro (htag' | ⟨-, hop'⟩)
        · simp [htag] at htag'
        · exact absurd hop' hamp
  · rename_i h1 h2
    constructor
    · intro h
      exact absurd h (Element.complain_ne_ok _ _ _)
    · rintro (htag | ⟨htag, -⟩)
      · exact absurd htag h1
      · exact absurd htag h2

theorem readWitness_eq_ok {w : String × Expr} :
    readWitness t e = .ok w ↔ WitnessForm (Expr.Reads t) e w := by
  have hop : (e.attr? "op").getD "" = "=" ↔ e.attr? "op" = some "=" := by
    cases e.attr? "op" <;> simp
  unfold readWitness
  simp only [ne_eq, hop]
  constructor
  · intro h
    split at h
    · exact absurd h (Element.complain_ne_ok _ _ _)
    · rename_i htag
      split at h
      · exact absurd h (Element.complain_ne_ok _ _ _)
      · rename_i heq
        obtain ⟨cs, hcs, h⟩ := bind_eq_ok.1 h
        obtain ⟨hfst, hsnd⟩ := Element.needTwo_eq_ok.1 hcs
        split at h
        · exact absurd h (Element.complain_ne_ok _ _ _)
        · rename_i hid
          simp only [bind_eq_ok, pure_eq_ok, Element.needAttr_eq_ok] at h
          obtain ⟨label, hlabel, x, hx, rfl⟩ := h
          exact ⟨not_not.1 htag, not_not.1 heq, _, _, hfst, hsnd, not_not.1 hid, hlabel, hx⟩
  · rintro ⟨htag, heq, a, b, hfst, hsnd, hid, hlabel, hx⟩
    have hx' : Expr.read t b = .ok w.2 := hx
    simp [htag, heq, Element.needTwo_of hfst hsnd, hid, Element.needAttr_eq_ok.2 hlabel, hx']

theorem readWitnesses_eq_ok {ws : List (String × Expr)} :
    readWitnesses t e = .ok ws ↔ ∃ a es vs, e.inner? "Witnesses" = some a ∧ Equalities a es ∧
      List.Forall₂ (WitnessForm (Expr.Reads t)) es vs ∧ (vs.map (·.1)).Nodup ∧
      ws = sortByLabel vs := by
  unfold readWitnesses
  simp only [bind_eq_ok, pure_eq_ok, Element.needInner_eq_ok, equalities_eq_ok, mapM_eq_ok,
    readWitness_eq_ok, Ty.checkLabels_eq_ok]
  constructor
  · rintro ⟨a, ha, es, hes, vs, hvs, u, hnodup, rfl⟩
    exact ⟨a.1, es, vs, ha, hes, hvs, hnodup, rfl⟩
  · rintro ⟨a, es, vs, ha, hes, hvs, hnodup, rfl⟩
    exact ⟨⟨a, Element.sizeOf_lt_of_inner? ha⟩, ha, es, hes, vs, hvs, (), hnodup, rfl⟩

theorem readWhens_eq_ok {whens : List (Pred × Subst)} :
    Subst.readWhens t es = .ok whens ↔
      List.Forall₂ (WhenForm (Pred.Reads t) (Reads t)) (es.filter (Element.hasTag "When"))
        whens := by
  induction es generalizing whens with
  | nil => cases whens <;> simp [Subst.readWhens, pure_eq_ok]
  | cons e es ih =>
    rw [Subst.readWhens]
    split
    · rename_i htag
      have hkeep : Element.hasTag "When" e = true := by simp [Element.hasTag, htag]
      simp only [bind_eq_ok, pure_eq_ok, ih, innerPred_eq_ok, Element.needInner_eq_ok]
      rw [List.filter_cons_of_pos hkeep]
      constructor
      · rintro ⟨p, ⟨a, ha, hp⟩, b, hb, s, hs, whens, hwhens, rfl⟩
        exact .cons ⟨a, b.1, ha, hp, hb, hs⟩ hwhens
      · rintro (_ | ⟨⟨a, b, ha, hp, hb, hs⟩, hwhens⟩)
        exact ⟨_, ⟨a, ha, hp⟩, ⟨b, Element.sizeOf_lt_of_inner? hb⟩, hb, _, hs, _, hwhens, rfl⟩
    · rename_i htag
      have hdrop : ¬Element.hasTag "When" e = true := by simp [Element.hasTag, htag]
      rw [List.filter_cons_of_neg hdrop, ih]

theorem readChoices_eq_ok {choices : List (List Expr × Subst)} :
    Subst.readChoices t es = .ok choices ↔
      List.Forall₂ (ChoiceForm (Expr.Reads t) (Reads t)) (es.filter (Element.hasTag "Choice"))
        choices := by
  induction es generalizing choices with
  | nil => cases choices <;> simp [Subst.readChoices, pure_eq_ok]
  | cons e es ih =>
    rw [Subst.readChoices]
    split
    · rename_i htag
      have hkeep : Element.hasTag "Choice" e = true := by simp [Element.hasTag, htag]
      simp only [bind_eq_ok, pure_eq_ok, ih, readValues_eq_ok, Element.needInner_eq_ok]
      rw [List.filter_cons_of_pos hkeep]
      constructor
      · rintro ⟨xs, ⟨hxs, hne⟩, b, hb, s, hs, choices, hchoices, rfl⟩
        exact .cons ⟨hxs, hne, b.1, hb, hs⟩ hchoices
      · rintro (_ | ⟨⟨hxs, hne, b, hb, hs⟩, hchoices⟩)
        exact ⟨_, ⟨hxs, hne⟩, ⟨b, Element.sizeOf_lt_of_inner? hb⟩, hb, _, hs, _, hchoices, rfl⟩
    · rename_i htag
      have hdrop : ¬Element.hasTag "Choice" e = true := by simp [Element.hasTag, htag]
      rw [List.filter_cons_of_neg hdrop, ih]

theorem readAll_eq_ok {ss : List Subst} :
    Subst.readAll t es = .ok ss ↔ List.Forall₂ (Reads t) es ss := by
  induction es generalizing ss with
  | nil => cases ss <;> simp [Subst.readAll, pure_eq_ok]
  | cons e es ih =>
    rw [Subst.readAll]
    simp only [bind_eq_ok, pure_eq_ok, ih]
    constructor
    · rintro ⟨s, hs, ss, hss, rfl⟩
      exact .cons hs hss
    · rintro (_ | ⟨hs, hss⟩)
      exact ⟨_, hs, _, hss, rfl⟩

theorem mapError_eq_ok {α : Type} {f : Fault → Fault} {x : Except Fault α} {a : α} :
    x.mapError f = .ok a ↔ x = .ok a := by
  cases x <;> simp [Except.mapError]

theorem ofAssignment_eq_ok {vars : List TypedVar} {xs : List Expr} {s : Subst} :
    ofAssignment vars xs = .ok s ↔ vars.length = xs.length ∧ s = .assign vars xs := by
  unfold ofAssignment
  split
  · rename_i hlen
    rw [pure_eq_ok]
    simp [hlen, eq_comm]
  · rename_i hlen
    simp [hlen, throw, throwThe, MonadExceptOf.throw]

theorem readAssignment_eq_ok {s : Subst} :
    readAssignment t e = .ok s ↔ ∃ c d vars xs, e.first? "Variables" = some c ∧
      TypedVar.Listed t c.children vars ∧ e.first? "Values" = some d ∧
      List.Forall₂ (Expr.Reads t) d.children xs ∧ vars.length = xs.length ∧
      s = .assign vars xs := by
  unfold readAssignment
  simp only [bind_eq_ok, TypedVar.readIn_eq_ok, Element.needChild_eq_ok, Expr.readAll_eq_ok,
    mapError_eq_ok, ofAssignment_eq_ok]
  constructor
  · rintro ⟨vars, ⟨c, hc, hvars⟩, d, hd, xs, hxs, hlen, rfl⟩
    exact ⟨c, d.1, vars, xs, hc, hvars, hd, hxs, hlen, rfl⟩
  · rintro ⟨c, d, vars, xs, hc, hvars, hd, hxs, hlen, rfl⟩
    exact ⟨vars, ⟨c, hc, hvars⟩, ⟨d, Element.sizeOf_lt_of_first? hd⟩, hd, xs, hxs, hlen, rfl⟩

theorem arityCheck_eq_ok {a : Arity} {u : Unit} : a.check = .ok u ↔ a.Agrees := by
  unfold Arity.check
  split <;> simp_all [pure_eq_ok, throw, throwThe, MonadExceptOf.throw]

theorem ofCall_eq_ok {name : String} {xs : List Expr} {outs fins fouts : List TypedVar} {p : Pred}
    {body s : Subst} :
    ofCall name xs outs fins fouts p body = .ok s ↔ fins.length = xs.length ∧
      fouts.length = outs.length ∧ s = .call name xs outs fins fouts (givenPre p) body := by
  unfold ofCall
  simp only [bind_eq_ok, pure_eq_ok, arityCheck_eq_ok, Arity.Agrees, Int.natCast_inj]
  constructor
  · rintro ⟨u, ⟨hins, houts⟩, rfl⟩
    exact ⟨hins, houts, rfl⟩
  · rintro ⟨hins, houts, rfl⟩
    exact ⟨(), ⟨hins, houts⟩, rfl⟩

theorem form_of_read {s : Subst} (h : Subst.read t e = .ok s) :
    Form t (Expr.Reads t) (Pred.Reads t) (Reads t) e s := by
  rw [Subst.read] at h
  split at h <;> rename_i tag
  · rw [pure_eq_ok] at h
    subst h
    exact .skip tag
  · simp only [bind_eq_ok, pure_eq_ok, Element.needChild_eq_ok] at h
    obtain ⟨a, first, s, body, rfl⟩ := h
    exact .block tag first body
  · simp only [bind_eq_ok, pure_eq_ok, innerPred_eq_ok, Element.needInner_eq_ok] at h
    obtain ⟨p, ⟨a, pred, guard⟩, b, inner, s, body, rfl⟩ := h
    exact .assert tag pred guard inner body
  · simp only [bind_eq_ok, pure_eq_ok, innerPred_eq_ok, Element.needInner_eq_ok] at h
    obtain ⟨p, ⟨a, pred, guard⟩, b, inner, s, body, rfl⟩ := h
    exact .pre tag pred guard inner body
  · simp only [bind_eq_ok, pure_eq_ok, innerPred_eq_ok, Element.needInner_eq_ok,
      readElse_eq_ok] at h
    obtain ⟨p, ⟨a, pred, cond⟩, b, inner, s, body, o, otherwise, rfl⟩ := h
    exact .ifThen tag pred cond inner body otherwise
  · obtain ⟨c, d, vars, xs, first, listed, second, values, arity, rfl⟩ := readAssignment_eq_ok.1 h
    exact .assign tag first listed second values arity
  · simp only [bind_eq_ok, pure_eq_ok, Element.needChild_eq_ok, readWhens_eq_ok,
      readElse_eq_ok] at h
    obtain ⟨c, first, whens, branches, o, otherwise, rfl⟩ := h
    exact .select tag first branches otherwise
  · simp only [bind_eq_ok, pure_eq_ok, innerExpr_eq_ok, Element.needChild_eq_ok, readChoices_eq_ok,
      readElse_eq_ok] at h
    obtain ⟨x, ⟨a, inner, value⟩, c, first, choices, branches, o, otherwise, rfl⟩ := h
    exact .case tag inner value first branches otherwise
  · simp only [bind_eq_ok, pure_eq_ok, TypedVar.readIn_eq_ok, innerPred_eq_ok,
      Element.needInner_eq_ok] at h
    obtain ⟨vars, ⟨c, first, listed⟩, p, ⟨a, pred, guard⟩, b, inner, s, body, rfl⟩ := h
    exact .any tag first listed pred guard inner body
  · simp only [bind_eq_ok, pure_eq_ok, readWitnesses_eq_ok, Element.needInner_eq_ok] at h
    obtain ⟨ws, ⟨a, es, vs, given, equal, values, nodup, rfl⟩, b, inner, s, body, rfl⟩ := h
    exact .witness tag given equal values nodup inner body
  · simp only [bind_eq_ok, Element.needInner_eq_ok, Element.needAttr_eq_ok, Expr.readAll_eq_ok,
      TypedVar.readAll_eq_ok, Element.needChild_eq_ok, optionalPre_eq_ok, mapError_eq_ok,
      ofCall_eq_ok] at h
    obtain ⟨i, named, name, value, xs, inputs, outs, outputs, o, operation, fouts, formalOutputs,
      fins, formalInputs, p, pre, b, inner, s, body, arityIn, arityOut, rfl⟩ := h
    exact .call tag named value inputs outputs operation formalOutputs formalInputs pre inner body
      arityIn arityOut
  · simp only [bind_eq_ok, pure_eq_ok, innerPred_eq_ok, innerExpr_eq_ok,
      Element.needInner_eq_ok] at h
    obtain ⟨p, ⟨a, pred, cond⟩, b, inner, s, body, q, ⟨c, stays, invariant⟩, x,
      ⟨d, falls, variant⟩, rfl⟩ := h
    exact .while tag pred cond inner body stays invariant falls variant
  · simp only [bind_eq_ok, pure_eq_ok, Expr.readOperator_eq_ok, readAll_eq_ok] at h
    obtain ⟨op, ⟨sym, attr, symbol⟩, ss, parts, rfl⟩ := h
    exact .nary tag attr symbol parts
  · exact absurd h (Element.complain_ne_ok _ _ _)

theorem read_of_form {s : Subst} (h : Form t (Expr.Reads t) (Pred.Reads t) (Reads t) e s) :
    Subst.read t e = .ok s := by
  rw [Subst.read]
  cases h with
  | skip tag => simp [tag, pure_eq_ok]
  | block tag first body => simp [tag, Element.needChild_of first, body]
  | assert tag pred guard inner body =>
    simp [tag, innerPred_eq_ok.2 ⟨_, pred, guard⟩, Element.needInner_of inner, body]
  | pre tag pred guard inner body =>
    simp [tag, innerPred_eq_ok.2 ⟨_, pred, guard⟩, Element.needInner_of inner, body]
  | ifThen tag pred cond inner body otherwise =>
    simp [tag, innerPred_eq_ok.2 ⟨_, pred, cond⟩, Element.needInner_of inner, body,
      readElse_eq_ok.2 otherwise]
  | assign tag first listed second values arity =>
    simp [tag, readAssignment_eq_ok.2 ⟨_, _, _, _, first, listed, second, values, arity, rfl⟩]
  | select tag first branches otherwise =>
    simp [tag, Element.needChild_of first, readWhens_eq_ok.2 branches, readElse_eq_ok.2 otherwise]
  | case tag inner value first branches otherwise =>
    simp [tag, innerExpr_eq_ok.2 ⟨_, inner, value⟩, Element.needChild_of first,
      readChoices_eq_ok.2 branches, readElse_eq_ok.2 otherwise]
  | any tag first listed pred guard inner body =>
    simp [tag, TypedVar.readIn_eq_ok.2 ⟨_, first, listed⟩, innerPred_eq_ok.2 ⟨_, pred, guard⟩,
      Element.needInner_of inner, body]
  | witness tag given equal values nodup inner body =>
    simp [tag, readWitnesses_eq_ok.2 ⟨_, _, _, given, equal, values, nodup, rfl⟩,
      Element.needInner_of inner, body]
  | call tag named value inputs outputs operation formalOutputs formalInputs pre inner body arityIn
      arityOut =>
    simp [tag, Element.needInner_of named, Element.needAttr_eq_ok.2 value,
      Expr.readAll_eq_ok.2 inputs, TypedVar.readAll_eq_ok.2 outputs, Element.needChild_of operation,
      TypedVar.readAll_eq_ok.2 formalOutputs, TypedVar.readAll_eq_ok.2 formalInputs,
      optionalPre_eq_ok.2 pre, Element.needInner_of inner, body,
      ofCall_eq_ok.2 ⟨arityIn, arityOut, rfl⟩, Except.mapError]
  | «while» tag pred cond inner body stays invariant falls variant =>
    simp [tag, innerPred_eq_ok.2 ⟨_, pred, cond⟩, Element.needInner_of inner, body,
      innerPred_eq_ok.2 ⟨_, stays, invariant⟩, innerExpr_eq_ok.2 ⟨_, falls, variant⟩]
  | nary tag attr symbol parts =>
    simp [tag, Expr.readOperator_eq_ok.2 ⟨_, attr, symbol⟩, readAll_eq_ok.2 parts]

theorem read_eq_ok {s : Subst} :
    Subst.read t e = .ok s ↔ Form t (Expr.Reads t) (Pred.Reads t) (Reads t) e s :=
  ⟨form_of_read, read_of_form⟩

theorem read_induction {P : Element → Subst → Prop}
    (hP : ∀ e s, Form t (Expr.Reads t) (Pred.Reads t) (fun c s => Reads t c s ∧ P c s) e s → P e s)
    (e : Element) (s : Subst) (h : Reads t e s) : P e s := by
  induction hn : sizeOf e using Nat.strong_induction_on generalizing e s with
  | _ n ih =>
    subst hn
    refine hP e s ((form_of_read h).imp (fun _ _ hx => hx) (fun _ _ hp => hp) ?_)
    exact fun c s hc hs => ⟨hs, ih _ hc c s hs rfl⟩

end

end Subst

end BMethod
