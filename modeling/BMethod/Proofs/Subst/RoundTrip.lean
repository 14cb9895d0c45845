import Mathlib
import BMethod.Proofs.Expr.RoundTrip
import BMethod.Proofs.Subst.Normal
import BMethod.Proofs.Subst.Reading

/-!
# Substitutions are read back

What is written for a well-formed substitution is read as its normal form, with every table that
begins with the types of the pool after the writing.
-/

namespace BMethod

namespace Subst

/-! ## Parts that may be left out -/

/-- What is written for a part that may be left out: nothing, or one element with a tag. -/
structure Optional (tag : String) (es : List Element) (part : Option Element) : Prop where
  eq : es = part.toList
  tag : ∀ e ∈ part, e.tag = tag

theorem Optional.find? {tag tag' : String} {es : List Element} {part : Option Element}
    (h : Optional tag es part) (hne : tag' ≠ "") :
    es.find? (Element.hasTag tag') = if tag' = tag then part else none := by
  obtain ⟨rfl, htag⟩ := h
  cases part with
  | none => simp
  | some e =>
    have := htag e rfl
    by_cases heq : tag' = tag
    · simp [Element.hasTag, this, heq]
    · simp [Element.hasTag, this, hne, heq, Ne.symm heq]

def contents (part : Option Element) : List Element :=
  (part.map (·.children)).getD []

theorem optionalList_eq (e : Element) (tag : String) :
    optionalList e tag = contents (e.first? tag) := by
  unfold optionalList contents
  cases e.first? tag <;> rfl

theorem optionalVars_gives {tag : String} {vars : List TypedVar}
    (h : TypedVar.AllWellFormed vars) :
    (optionalVars tag vars).Gives (vars.map (·.ty)) fun t es => ∃ part, Optional tag es part ∧
      TypedVar.Listed t (contents part) vars := by
  unfold optionalVars
  cases vars with
  | nil => exact .pure fun t => ⟨none, ⟨rfl, nofun⟩, .nil⟩
  | cons v vars =>
    refine (Write.typedVars_gives h).bind_pure ?_
    rintro t e ⟨htag, hlisted⟩
    exact ⟨some e, ⟨rfl, by simpa using htag⟩, hlisted⟩

theorem optionalInputs_gives {xs : List Expr} (h : Expr.AllWellFormed xs) :
    (optionalInputs xs).Gives (Expr.typesAll xs) fun t es => ∃ part,
      Optional "Input_Parameters" es part ∧
      List.Forall₂ (Expr.Reads t) (contents part) (Expr.normAll xs) := by
  unfold optionalInputs
  cases xs with
  | nil => exact .pure fun t => ⟨none, ⟨rfl, nofun⟩, .nil⟩
  | cons x xs =>
    refine (Expr.writers_give (x :: xs) h).bind_pure ?_
    intro t es hes
    exact ⟨some (.wrap "Input_Parameters" es), ⟨rfl, by simp⟩, hes⟩

/-- A precondition that is written is in a part of its own. -/
def PreGiven (t : Table) (part : Option Element) (p : Pred) : Prop :=
  (part = none ∧ p = .absent) ∨
    ∃ e a, part = some e ∧ e.first? "" = some a ∧ Pred.Reads t a p

theorem givenPre_of_wellFormed {p : Pred} (h : p.WellFormed) : givenPre p = p := by
  cases p <;> first | rfl | exact h.elim

theorem givenPre_norm {p : Pred} (h : p.WellFormed) : givenPre p.norm = p.norm := by
  cases p with
  | absent => exact h.elim
  | and ps | or ps => cases ps <;> rfl
  | _ => rfl

theorem optionalPrecondition_eq {p : Pred} (habsent : p ≠ .absent) (htruth : p ≠ .truth) :
    optionalPrecondition p = (p.write >>= fun e => pure [.wrap "Precondition" [e]]) := by
  cases p with
  | absent => exact absurd rfl habsent
  | truth => exact absurd rfl htruth
  | _ => rfl

theorem optionalPrecondition_gives {p : Pred} (h : p = .absent ∨ p.WellFormed) :
    (optionalPrecondition p).Gives p.types fun t es => ∃ part q, Optional "Precondition" es part ∧
      PreGiven t part q ∧ givenPre q = (givenPre p).norm := by
  by_cases habsent : p = .absent
  · subst habsent
    exact .pure fun t => ⟨none, .absent, ⟨rfl, nofun⟩, .inl ⟨rfl, rfl⟩, rfl⟩
  by_cases htruth : p = .truth
  · subst htruth
    exact .pure fun t => ⟨none, .absent, ⟨rfl, nofun⟩, .inl ⟨rfl, rfl⟩, rfl⟩
  have hp := h.resolve_left habsent
  rw [optionalPrecondition_eq habsent htruth, givenPre_of_wellFormed hp]
  refine (p.write_gives hp).bind_pure ?_
  intro t a ha
  exact ⟨some _, p.norm, ⟨rfl, by simp⟩, .inr ⟨_, a, rfl, rfl, ha⟩, givenPre_norm hp⟩

theorem elsePart_gives {s : Subst}
    (h : s = .absent ∨ s.write.Gives s.types fun t e => Reads t e s.norm) :
    (elsePart s.isAbsent s.write).Gives s.types fun t es => ∀ tag attrs cs,
      (∀ c ∈ cs, Element.tag c ≠ "Else") →
      ElseForm (Reads t) (.node tag attrs (cs ++ es)) s.norm := by
  have hskip : ∀ {cs : List Element}, (∀ c ∈ cs, c.tag ≠ "Else") →
      cs.find? (Element.hasTag "Else") = none := by
    intro cs hcs
    simpa [List.find?_eq_none, Element.hasTag] using hcs
  by_cases habsent : s = .absent
  · subst habsent
    refine .pure fun t tag attrs cs hcs => .none ?_
    simp [Element.first?, Element.node, hskip hcs]
  · have hs : s.isAbsent = false := by
      cases s with
      | absent => exact absurd rfl habsent
      | _ => rfl
    unfold elsePart
    rw [hs]
    refine (h.resolve_left habsent).bind_pure ?_
    intro t a ha tag attrs cs hcs
    refine .some ?_ ha
    simp [Element.inner?, Element.first?, Element.node, List.find?_append, hskip hcs,
      Element.hasTag]

/-! ## Witnesses -/

theorem writeWitness_gives {label : String} {x : Expr} (h : x.WellFormed) :
    (writeWitness label x).Gives x.witnessTypes fun t e =>
      WitnessForm (Expr.Reads t) e (label, x.norm) := by
  obtain ⟨info, hinfo⟩ : ∃ info, x.info? = some info := by
    cases x <;> first | exact ⟨_, rfl⟩ | exact h.elim
  unfold writeWitness Expr.witnessTypes
  rw [hinfo]
  refine (Write.typeRef_gives info.ty).bind fun r => (x.write_gives h).bind_pure ?_
  intro t e he _
  exact ⟨rfl, rfl, _, e, rfl, rfl, rfl, rfl, he⟩

theorem writeWitnesses_gives {ws : List (String × Expr)} (h : Expr.ItemsWellFormed ws) :
    (writeWitnesses ws).Gives ((sortByLabel ws).flatMap fun w => w.2.witnessTypes) fun t e =>
      ∃ es, Equalities e es ∧
        List.Forall₂ (WitnessForm (Expr.Reads t)) es (sortByLabel (Expr.normItems ws)) := by
  rw [Expr.itemsWellFormed_iff] at h
  unfold writeWitnesses Write.byLabel
  rw [sortByLabel_map, List.map_map, Expr.normItems_eq_map, sortByLabel_map]
  have hall := Write.Gives.all (g := fun w : String × Expr => (w.1, w.2.norm))
    (P := fun t e w => WitnessForm (Expr.Reads t) e w)
    fun w hw => writeWitness_gives (h w (mem_sortByLabel.1 hw))
  rw [← List.append_nil (List.flatMap _ _)]
  refine hall.bind fun es => ?_
  split
  · rename_i e
    refine .pure fun t hes => ⟨[e], ?_, hes⟩
    obtain ⟨w, -, htag, -⟩ := exists_of_forall₂_left hes List.mem_cons_self
    exact .one htag
  · exact .pure fun t hes => ⟨es, .all rfl rfl, hes⟩

/-! ## Branches -/

theorem writeValues_gives {xs : List Expr} (h : Expr.AllWellFormed xs) :
    (writeValues xs).Gives (Expr.typesAll xs) fun t es => (∀ e ∈ es, e.tag = "Value") ∧
      List.Forall₂ (fun v x => ∃ a, v.first? "" = some a ∧ Expr.Reads t a x) es
        (Expr.normAll xs) := by
  refine (Expr.writers_give xs h).bind_pure ?_
  intro t es hes
  refine ⟨by simp, ?_⟩
  rw [List.forall₂_map_left_iff]
  exact hes.imp fun a x hx => ⟨a, rfl, hx⟩

theorem choiceForm_of {t : Table} {es : List Element} {b : Element} {xs : List Expr} {s : Subst}
    (hvalue : ∀ e ∈ es, e.tag = "Value")
    (hes : List.Forall₂ (fun v x => ∃ a, v.first? "" = some a ∧ Expr.Reads t a x) es xs)
    (hne : xs ≠ []) (hb : Reads t b s) :
    ChoiceForm (Expr.Reads t) (Reads t) (.wrap "Choice" (es ++ [.wrap "Then" [b]])) (xs, s) := by
  have hkeep : es.filter (Element.hasTag "Value") = es :=
    List.filter_eq_self.2 fun e he => by simp [Element.hasTag, hvalue e he]
  have hskip : es.find? (Element.hasTag "Then") = none :=
    List.find?_eq_none.2 fun e he => by simp [Element.hasTag, hvalue e he]
  refine ⟨?_, hne, b, ?_, hb⟩
  · simpa [Element.childrenNamed, hkeep, Element.hasTag] using hes
  · simp [Element.inner?, Element.first?, Element.node, List.find?_append, hskip, Element.hasTag]

/-! ## Calls -/

section
variable {t : Table} {name : String} {ins outs fouts fins pre : List Element} {b : Element}
  {inPart outPart foutPart finPart prePart : Option Element}

/-- The element that is written for the operation of a call. -/
def operationElement (name : String) (fouts fins pre : List Element) (b : Element) : Element :=
  .node "Operation" [⟨"name", name⟩] (fouts ++ fins ++ pre ++ [.wrap "Body" [b]])

def callElement (name : String) (ins outs fouts fins pre : List Element) (b : Element) : Element :=
  .wrap "Operation_Call" (.wrap "Name" [.node "Id" [⟨"value", name⟩] []] :: (ins ++ outs ++
    [operationElement name fouts fins pre b]))

theorem find?_singleton {e : Element} {tag tag' : String} (htag : e.tag = tag) (hne : tag' ≠ "") :
    [e].find? (Element.hasTag tag') = if tag' = tag then some e else none := by
  by_cases heq : tag' = tag
  · simp [Element.hasTag, htag, heq]
  · simp [Element.hasTag, htag, hne, heq, Ne.symm heq]

theorem first?_operation (hfouts : Optional "Output_Parameters" fouts foutPart)
    (hfins : Optional "Input_Parameters" fins finPart) (hpre : Optional "Precondition" pre prePart)
    {tag : String} (hne : tag ≠ "") :
    (operationElement name fouts fins pre b).first? tag =
      (((if tag = "Output_Parameters" then foutPart else none).or
        (if tag = "Input_Parameters" then finPart else none)).or
        (if tag = "Precondition" then prePart else none)).or
        (if tag = "Body" then some (.wrap "Body" [b]) else none) := by
  unfold operationElement Element.first?
  rw [Element.children_node, List.find?_append, List.find?_append, List.find?_append,
    hfouts.find? hne, hfins.find? hne, hpre.find? hne, find?_singleton rfl hne]
  rfl

theorem first?_call (hins : Optional "Input_Parameters" ins inPart)
    (houts : Optional "Output_Parameters" outs outPart) {tag : String} (hne : tag ≠ "")
    (hname : tag ≠ "Name") :
    (callElement name ins outs fouts fins pre b).first? tag =
      ((if tag = "Input_Parameters" then inPart else none).or
        (if tag = "Output_Parameters" then outPart else none)).or
        (if tag = "Operation" then some (operationElement name fouts fins pre b) else none) := by
  unfold callElement
  rw [Element.wrap_eq, Element.first?_skip hname.symm hne]
  unfold Element.first?
  rw [Element.children_node, List.find?_append, List.find?_append, hins.find? hne, houts.find? hne,
    find?_singleton rfl hne]
  rfl

theorem reads_call {xs : List Expr} {outVars finVars foutVars : List TypedVar} {p : Pred}
    {s : Subst} (hins : Optional "Input_Parameters" ins inPart)
    (houts : Optional "Output_Parameters" outs outPart)
    (hfouts : Optional "Output_Parameters" fouts foutPart)
    (hfins : Optional "Input_Parameters" fins finPart) (hpre : Optional "Precondition" pre prePart)
    (hxs : List.Forall₂ (Expr.Reads t) (contents inPart) xs)
    (houtVars : TypedVar.Listed t (contents outPart) outVars)
    (hfoutVars : TypedVar.Listed t (contents foutPart) foutVars)
    (hfinVars : TypedVar.Listed t (contents finPart) finVars) (hp : PreGiven t prePart p)
    (hb : Reads t b s) (harityIn : finVars.length = xs.length)
    (harityOut : foutVars.length = outVars.length) :
    Reads t (callElement name ins outs fouts fins pre b)
      (.call name xs outVars finVars foutVars (givenPre p) s) := by
  have hop : (callElement name ins outs fouts fins pre b).first? "Operation" =
      some (operationElement name fouts fins pre b) := by
    rw [first?_call hins houts (by decide) (by decide)]
    simp
  refine read_of_form (.call rfl rfl rfl ?_ ?_ hop ?_ ?_ ?_ ?_ hb harityIn harityOut)
  · rw [optionalList_eq, first?_call hins houts (by decide) (by decide)]
    simpa using hxs
  · rw [optionalList_eq, first?_call hins houts (by decide) (by decide)]
    simpa using houtVars
  · rw [optionalList_eq, first?_operation hfouts hfins hpre (by decide)]
    simpa using hfoutVars
  · rw [optionalList_eq, first?_operation hfouts hfins hpre (by decide)]
    simpa using hfinVars
  · have hfirst : (operationElement name fouts fins pre b).first? "Precondition" = prePart := by
      rw [first?_operation hfouts hfins hpre (by decide)]
      simp
    rcases hp with ⟨hnone, rfl⟩ | ⟨e, a, hsome, ha, hread⟩
    · exact .none (hfirst.trans hnone)
    · refine .some ?_ hread
      rw [Element.inner?, hfirst, hsome, Option.bind_some, ha]
  · rw [Element.inner?, first?_operation hfouts hfins hpre (by decide)]
    simp

end

end Subst

/-! ## Trees -/

mutual
theorem Subst.write_gives (s : Subst) (h : s.WellFormed) :
    s.write.Gives s.types fun t e => Subst.Reads t e s.norm := by
  cases s with
  | absent => exact h.elim
  | skip => exact .pure fun t => Subst.read_of_form (.skip rfl)
  | block body =>
    refine (body.write_gives h).bind_pure ?_
    intro t b hb
    exact Subst.read_of_form (.block rfl rfl hb)
  | assert guard body precondition =>
    rw [Subst.types, ← List.append_nil body.types]
    refine (guard.write_gives h.1).bind fun a => (body.write_gives h.2).bind fun b => ?_
    cases precondition with
    | false => exact .pure fun t hb ha => Subst.read_of_form (.assert rfl rfl ha rfl hb)
    | true => exact .pure fun t hb ha => Subst.read_of_form (.pre rfl rfl ha rfl hb)
  | ifThen cond body otherwise =>
    obtain ⟨hcond, hbody, helse⟩ := h
    refine (cond.write_gives hcond).bind fun a => (body.write_gives hbody).bind fun b => ?_
    refine (Subst.elsePart_gives (helse.imp_right fun h => otherwise.write_gives h)).bind_pure ?_
    intro t es hes hb ha
    exact Subst.read_of_form (.ifThen rfl rfl ha rfl hb (hes _ _ _ (by simp)))
  | assign vars values =>
    obtain ⟨hvars, hvalues, harity⟩ := h
    refine (Write.typedVars_gives hvars).bind fun v =>
      (Expr.writers_give values hvalues).bind_pure ?_
    rintro t es hes ⟨htag, hlisted⟩
    have hsecond : (Element.wrap "Simple_Assignement_Sub" [v, .wrap "Values" es]).first? "Values" =
        some (.wrap "Values" es) := by
      simp [Element.first?_cons, Element.first?_skip, htag]
    refine Subst.read_of_form (.assign rfl (Element.first?_cons htag) hlisted hsecond hes ?_)
    rw [harity, Expr.normAll_eq_map, List.length_map]
  | select whens otherwise =>
    obtain ⟨hwhens, helse⟩ := h
    refine (Subst.whens_give whens hwhens).bind fun ws => ?_
    refine (Subst.elsePart_gives (helse.imp_right fun h => otherwise.write_gives h)).bind_pure ?_
    intro t es hes hws
    exact Subst.read_of_form (.select rfl rfl (Element.forall₂_childrenNamed hws)
      (hes _ _ [.wrap "When_Clauses" ws] (by simp)))
  | case value choices otherwise =>
    obtain ⟨hvalue, hchoices, helse⟩ := h
    refine (Subst.choices_give choices hchoices).bind fun cs => ?_
    refine (value.write_gives hvalue).bind fun a => ?_
    refine (Subst.elsePart_gives (helse.imp_right fun h => otherwise.write_gives h)).bind_pure ?_
    intro t es hes ha hcs
    exact Subst.read_of_form
      (.case rfl rfl ha rfl (Element.forall₂_childrenNamed hcs) (hes _ _ _ (by simp)))
  | any vars guard body =>
    obtain ⟨hvars, hguard, hbody⟩ := h
    refine (Write.typedVars_gives hvars).bind fun v => ?_
    refine (guard.write_gives hguard).bind fun a => (body.write_gives hbody).bind_pure ?_
    rintro t b hb ha ⟨htag, hlisted⟩
    exact Subst.read_of_form (.any rfl (Element.first?_cons htag) hlisted
      (by simp [Element.inner?_cons, Element.inner?_skip, htag]) ha
      (by simp [Element.inner?_cons, Element.inner?_skip, htag]) hb)
  | witness ws body =>
    obtain ⟨hlabels, hws, hbody⟩ := h
    refine (Subst.writeWitnesses_gives hws).bind fun w => (body.write_gives hbody).bind_pure ?_
    rintro t b hb ⟨es, hequal, hes⟩
    have hread : Subst.Reads t (.wrap "Witness" [.wrap "Witnesses" [w], .wrap "Body" [b]]) _ :=
      Subst.read_of_form (.witness rfl rfl hequal hes (Expr.nodup_labels_norm hlabels) rfl hb)
    rwa [sortByLabel_sortByLabel] at hread
  | call name inputs outputs formalInputs formalOutputs pre body =>
    obtain ⟨hinputs, houtputs, hformalInputs, hformalOutputs, hpre, hbody, harityIn, harityOut⟩ := h
    refine (Subst.optionalInputs_gives hinputs).bind fun ins => ?_
    refine (Subst.optionalVars_gives houtputs).bind fun outs => ?_
    refine (Subst.optionalVars_gives hformalOutputs).bind fun fouts => ?_
    refine (Subst.optionalVars_gives hformalInputs).bind fun fins => ?_
    refine (Subst.optionalPrecondition_gives hpre).bind fun pres =>
      (body.write_gives hbody).bind_pure ?_
    rintro t b hb ⟨_, q, hpres, hq, hgiven⟩ ⟨_, hfins, hfinVars⟩ ⟨_, hfouts, hfoutVars⟩
      ⟨_, houts, houtVars⟩ ⟨_, hins, hxs⟩
    -- A precondition that was left out is read as truth, as in the normal form.
    rw [Subst.norm, ← hgiven]
    refine Subst.reads_call hins houts hfouts hfins hpres hxs houtVars hfoutVars hfinVars hq hb ?_
      harityOut
    rw [harityIn, Expr.normAll_eq_map, List.length_map]
  | «while» cond body invariant variant =>
    obtain ⟨hcond, hbody, hinvariant, hvariant⟩ := h
    refine (cond.write_gives hcond).bind fun a => (body.write_gives hbody).bind fun b => ?_
    refine (invariant.write_gives hinvariant).bind fun c => ?_
    refine (variant.write_gives hvariant).bind_pure ?_
    intro t d hd hc hb ha
    exact Subst.read_of_form (.while rfl rfl ha rfl hb rfl hc rfl hd)
  | nary op parts =>
    obtain ⟨hop, hparts⟩ := h
    refine (Subst.writers_give parts hparts).bind_pure ?_
    intro t es hes
    exact Subst.read_of_form
      (.nary rfl rfl (Operator.ofSymbol?_symbol hop) hes)

theorem Subst.whens_give (whens : List (Pred × Subst)) (h : Subst.WhensWellFormed whens) :
    (Write.all (Subst.whenWriters whens)).Gives (Subst.whenTypes whens) fun t es =>
      List.Forall₂ (fun e w => e.tag = "When" ∧
        Subst.WhenForm (Pred.Reads t) (Subst.Reads t) e w) es (Subst.normWhens whens) := by
  cases whens with
  | nil => exact .pure fun t => .nil
  | cons w whens =>
    obtain ⟨hguard, hbody, hwhens⟩ := h
    refine ((w.1.write_gives hguard).bind fun a =>
      (w.2.write_gives hbody).bind_pure ?_).bind fun e =>
      (Subst.whens_give whens hwhens).bind_pure fun t es hes he => .cons he hes
    intro t b hb ha
    exact ⟨rfl, a, b, rfl, ha, rfl, hb⟩

theorem Subst.choices_give (choices : List (List Expr × Subst))
    (h : Subst.ChoicesWellFormed choices) :
    (Write.all (Subst.choiceWriters choices)).Gives (Subst.choiceTypes choices) fun t es =>
      List.Forall₂ (fun e c => e.tag = "Choice" ∧
        Subst.ChoiceForm (Expr.Reads t) (Subst.Reads t) e c) es (Subst.normChoices choices) := by
  cases choices with
  | nil => exact .pure fun t => .nil
  | cons c choices =>
    obtain ⟨hne, hvalues, hbody, hchoices⟩ := h
    refine ((Subst.writeValues_gives hvalues).bind fun vs =>
      (c.2.write_gives hbody).bind_pure ?_).bind
      fun e => (Subst.choices_give choices hchoices).bind_pure fun t es hes he => .cons he hes
    rintro t b hb ⟨htags, hvs⟩
    refine ⟨rfl, Subst.choiceForm_of htags hvs ?_ hb⟩
    simpa [Expr.normAll_eq_map] using hne

theorem Subst.writers_give (ss : List Subst) (h : Subst.AllWellFormed ss) :
    (Write.all (Subst.writers ss)).Gives (Subst.typesAll ss) fun t es =>
      List.Forall₂ (Subst.Reads t) es (Subst.normAll ss) := by
  cases ss with
  | nil => exact .pure fun t => .nil
  | cons s ss =>
    refine (s.write_gives h.1).bind fun e => (Subst.writers_give ss h.2).bind_pure ?_
    intro t es hes he
    exact .cons he hes
end

/-- A well-formed substitution is written on every pool that writing can reach, which then has its
types too, and is read as its normal form with every table that begins with the types of the pool.
The numbers of types have to fit a word, as the places of a list in memory do. -/
theorem subst_round_trip {p : Pool} (hp : p.Reachable) {s : Subst} (hs : s.WellFormed) :
    ∃ e, s.write.on p = (.ok e, p.addAll s.types) ∧
      ((p.addAll s.types).Addressable → ∀ t : Table, (p.addAll s.types).types <+: t.types →
        Subst.read t e = .ok s.norm) := by
  obtain ⟨e, hon, -, hread⟩ := s.write_gives hs p hp.sound
  exact ⟨e, hon, hread⟩

/-- A branch without alternative around a call without precondition, whose body has two witnesses
out of order. -/
def sampleCall : Subst :=
  .ifThen (.or [])
    (.call "op" [.integer ⟨.integer, []⟩ "1"] [] [⟨.plain "i", .integer⟩] [] .absent
      (.witness [("y", .constant ⟨.boolean, []⟩ .truth), ("x", .integer ⟨.integer, []⟩ "2")] .skip))
    .absent

theorem sampleCall_wellFormed : sampleCall.WellFormed := by
  have hinfo : (⟨.integer, []⟩ : Info).WellFormed := by decide
  have hvar : TypedVar.AllWellFormed [⟨.plain "i", .integer⟩] := by
    simpa [TypedVar.AllWellFormed] using VarName.WellFormed.plain "i"
  refine ⟨trivial, ⟨⟨hinfo, trivial⟩, nofun, hvar, nofun, .inl rfl, ?_, rfl, rfl⟩, .inl rfl⟩
  exact ⟨by decide, ⟨⟨by decide, by decide⟩, ⟨hinfo, trivial⟩⟩, trivial⟩

theorem sampleCall_norm : sampleCall.norm =
    .ifThen .falsity
      (.call "op" [.integer ⟨.integer, []⟩ "1"] [] [⟨.plain "i", .integer⟩] [] .truth
        (.witness [("x", .integer ⟨.integer, []⟩ "2"), ("y", .constant ⟨.boolean, []⟩ .truth)]
          .skip))
      .absent := by
  simp [sampleCall, Subst.norm, Subst.givenPre, Expr.norm, Expr.normAll, Expr.normItems, Pred.norm,
    sortByLabel, List.mergeSort]

theorem subst_round_trip_sample :
    ∃ e, sampleCall.write.on .empty = (.ok e, Pool.empty.addAll sampleCall.types) ∧
      Subst.read (Pool.empty.addAll sampleCall.types).table e =
        .ok (.ifThen .falsity
          (.call "op" [.integer ⟨.integer, []⟩ "1"] [] [⟨.plain "i", .integer⟩] [] .truth
            (.witness [("x", .integer ⟨.integer, []⟩ "2"), ("y", .constant ⟨.boolean, []⟩ .truth)]
              .skip))
          .absent) := by
  obtain ⟨e, hon, hread⟩ := subst_round_trip .empty sampleCall_wellFormed
  have hfew : sampleCall.types.length ≤ 9223372036854775808 := by
    simp [sampleCall, Subst.types, Expr.types, Expr.typesAll, Expr.witnessTypes, Expr.info?,
      Pred.types, Pred.typesAll, sortByLabel, List.mergeSort]
  rw [← sampleCall_norm]
  exact ⟨e, hon, hread (Pool.addressable_addAll_empty hfew) (Pool.table _) (List.prefix_refl _)⟩

end BMethod
