import Mathlib
import BMethod.Proofs.Expr.Printing
import BMethod.Proofs.Subst.Image

/-!
# Substitutions that were read can stand in a document

What is written for a substitution that was read from a document can be read back from its text.
-/

namespace BMethod

open Element (Clean Printable)
open Xml (Allowed Faithful PlainName)

variable {t : Table}

namespace Subst

/-- What every step of reading a substitution from a document preserves. -/
abbrev Prints (t : Table) (c : Element) (s : Subst) : Prop :=
  Reads t c s ∧ (c.Clean → s.write.Yields Printable)

/-! ## Parts -/

theorem exprs_yield {es : List Element} {xs : List Expr} (hes : ∀ e ∈ es, e.Clean)
    (h : List.Forall₂ (Expr.Reads t) es xs) :
    (Write.all (Expr.writers xs)).Yields fun cs => ∀ c ∈ cs, Printable c :=
  Expr.writers_yield hes (h.imp fun _ _ hx => ⟨hx, hx.yields⟩)

theorem clean_optionalList {e : Element} (he : e.Clean) {tag : String} :
    ∀ c ∈ optionalList e tag, c.Clean := by
  intro c hc
  unfold optionalList at hc
  split at hc
  · rename_i d hd
    exact (he.first? hd).child hc
  · cases hc

theorem optionalVars_yields {es : List Element} {vars : List TypedVar} (hes : ∀ e ∈ es, e.Clean)
    (h : TypedVar.Listed t es vars) {tag : String} (htag : PlainName tag) :
    (optionalVars tag vars).Yields fun cs => ∀ c ∈ cs, Printable c := by
  unfold optionalVars
  split
  · exact .pure (by simp)
  · refine (Write.typedVars_yields hes h htag).bind ?_
    intro v hv
    exact .pure (by simpa using hv)

theorem optionalInputs_yields {es : List Element} {xs : List Expr} (hes : ∀ e ∈ es, e.Clean)
    (h : List.Forall₂ (Expr.Reads t) es xs) :
    (optionalInputs xs).Yields fun cs => ∀ c ∈ cs, Printable c := by
  unfold optionalInputs
  split
  · exact .pure (by simp)
  · refine (exprs_yield hes h).bind ?_
    intro cs hcs
    exact .pure (by simpa using Printable.wrap hcs (by decide))

theorem optionalPrecondition_yields {e : Element} {p : Pred} (he : e.Clean)
    (h : PreForm (Pred.Reads t) e p) :
    (optionalPrecondition (givenPre p)).Yields fun cs => ∀ c ∈ cs, Printable c := by
  cases h with
  | none => exact .pure (by simp)
  | some inner pre =>
    rw [givenPre_of_wellFormed pre.normal.wellFormed]
    have hpre := pre.yields (he.inner? inner)
    unfold optionalPrecondition
    split
    · exact .pure (by simp)
    · exact .pure (by simp)
    · refine hpre.bind ?_
      intro a ha
      exact .pure (by simpa using Printable.wrapOne ha (by decide))

theorem elsePart_yields {e : Element} {o : Subst} (he : e.Clean) (h : ElseForm (Prints t) e o) :
    (elsePart o.isAbsent o.write).Yields fun cs => ∀ c ∈ cs, Printable c := by
  cases h with
  | none => exact .pure (by simp)
  | some inner branch =>
    unfold elsePart
    split
    · exact .pure (by simp)
    · refine (branch.2 (he.inner? inner)).bind ?_
      intro a ha
      exact .pure (by simpa using Printable.wrapOne ha (by decide))

theorem writeWitness_yields {e : Element} {w : String × Expr} (he : e.Clean)
    (h : WitnessForm (Expr.Reads t) e w) : (writeWitness w.1 w.2).Yields Printable := by
  obtain ⟨-, -, a, b, ha, hb, -, hlabel, hx⟩ := h
  have hlabel := (he.child? ha).attr hlabel
  unfold writeWitness
  split
  · exact .throw
  · refine (Write.typeRef_yields _).bind ?_
    intro r hr
    refine (hx.yields (he.child? hb)).bind ?_
    intro c hc
    have hid : Printable (.node "Id" [⟨"value", w.1⟩, r] []) :=
      .node (by simpa using ⟨Faithful.of hlabel (by decide), hr⟩) (by simp) (by decide)
    exact .pure (.node (by decide) (by simpa using ⟨hid, hc⟩) (by decide))

theorem writeWitnesses_yields {es : List Element} {ws : List (String × Expr)}
    (hes : ∀ e ∈ es, e.Clean) (h : List.Forall₂ (WitnessForm (Expr.Reads t)) es ws) :
    (writeWitnesses (sortByLabel ws)).Yields Printable := by
  unfold writeWitnesses Write.byLabel
  refine (Write.Yields.all (P := Printable) ?_).bind ?_
  · intro w hw
    obtain ⟨i, hi, rfl⟩ := List.mem_map.1 hw
    obtain ⟨v, hv, rfl⟩ := List.mem_map.1 (mem_sortByLabel.1 hi)
    obtain ⟨e, he, hv⟩ := exists_of_forall₂_right h (mem_sortByLabel.1 hv)
    exact writeWitness_yields (hes e he) hv
  · intro cs hcs
    split
    · exact .pure (by simpa using hcs)
    · exact .pure (.node (by decide) hcs (by decide))

theorem Equalities.clean {e : Element} {es : List Element} (h : Equalities e es) (he : e.Clean) :
    ∀ c ∈ es, c.Clean := by
  cases h with
  | one => simpa using he
  | all => exact fun c hc => he.child hc

theorem whenWriters_yield {es : List Element} {whens : List (Pred × Subst)}
    (hes : ∀ e ∈ es, e.Clean) (h : List.Forall₂ (WhenForm (Pred.Reads t) (Prints t)) es whens) :
    ∀ w ∈ whenWriters whens, w.Yields Printable := by
  induction h with
  | nil => simp [whenWriters]
  | @cons e _ _ _ hw _ ih =>
    obtain ⟨a, b, ha, hp, hb, hs⟩ := hw
    have he := hes e List.mem_cons_self
    have ih := ih fun c hc => hes c (List.mem_cons_of_mem _ hc)
    refine List.forall_mem_cons.2 ⟨?_, ih⟩
    refine (hp.yields (he.inner? ha)).bind fun c hc => (hs.2 (he.inner? hb)).bind ?_
    intro d hd
    refine .pure (.wrap ?_ (by decide))
    simpa using ⟨.wrapOne hc (by decide), .wrapOne hd (by decide)⟩

theorem writeValues_yields {e : Element} {xs : List Expr} (he : e.Clean)
    (h : List.Forall₂ (fun v x => ∃ a, v.first? "" = some a ∧ Expr.Reads t a x)
      (e.childrenNamed "Value") xs) :
    (writeValues xs).Yields fun cs => ∀ c ∈ cs, Printable c := by
  unfold writeValues
  rw [Expr.writers_eq_map]
  refine (Write.Yields.all (P := Printable) ?_).bind ?_
  · intro w hw
    obtain ⟨x, hx, rfl⟩ := List.mem_map.1 hw
    obtain ⟨v, hv, a, ha, hx⟩ := exists_of_forall₂_right h hx
    exact hx.yields ((he.childrenNamed hv).first? ha)
  · intro cs hcs
    refine .pure ?_
    intro c hc
    obtain ⟨a, ha, rfl⟩ := List.mem_map.1 hc
    exact .wrapOne (hcs a ha) (by decide)

theorem choiceWriters_yield {es : List Element} {choices : List (List Expr × Subst)}
    (hes : ∀ e ∈ es, e.Clean) (h : List.Forall₂ (ChoiceForm (Expr.Reads t) (Prints t)) es choices) :
    ∀ w ∈ choiceWriters choices, w.Yields Printable := by
  induction h with
  | nil => simp [choiceWriters]
  | @cons e _ _ _ hc _ ih =>
    obtain ⟨hvalues, -, b, hb, hs⟩ := hc
    have he := hes e List.mem_cons_self
    have ih := ih fun c hc => hes c (List.mem_cons_of_mem _ hc)
    refine List.forall_mem_cons.2 ⟨?_, ih⟩
    refine (writeValues_yields he hvalues).bind fun vs hvs => (hs.2 (he.inner? hb)).bind ?_
    intro d hd
    refine .pure (.wrap ?_ (by decide))
    rw [List.forall_mem_append]
    exact ⟨hvs, by simpa using Printable.wrapOne hd (by decide)⟩

theorem writers_yield {es : List Element} {ss : List Subst} (hes : ∀ e ∈ es, e.Clean)
    (h : List.Forall₂ (Prints t) es ss) : ∀ w ∈ writers ss, w.Yields Printable := by
  induction h with
  | nil => simp [writers]
  | @cons e _ _ _ hs _ ih =>
    have ih := ih fun c hc => hes c (List.mem_cons_of_mem _ hc)
    exact List.forall_mem_cons.2 ⟨hs.2 (hes e List.mem_cons_self), ih⟩

/-! ## Substitutions -/

theorem Form.yields {e : Element} {s : Subst}
    (h : Form t (Expr.Reads t) (Pred.Reads t) (Prints t) e s) (he : e.Clean) :
    s.write.Yields Printable := by
  cases h with
  | skip => exact .pure (.wrap (by simp) (by decide))
  | block _ first body =>
    refine (body.2 (he.first? first)).bind ?_
    intro a ha
    exact .pure (.wrapOne ha (by decide))
  | assert _ pred guard inner body | pre _ pred guard inner body =>
    refine (guard.yields (he.inner? pred)).bind fun a ha => (body.2 (he.inner? inner)).bind ?_
    intro b hb
    refine .pure (.wrap ?_ (by decide))
    simpa using ⟨.wrapOne ha (by decide), .wrapOne hb (by decide)⟩
  | ifThen _ pred cond inner body otherwise =>
    refine (cond.yields (he.inner? pred)).bind fun a ha => (body.2 (he.inner? inner)).bind ?_
    intro b hb
    refine (elsePart_yields he otherwise).bind ?_
    intro cs hcs
    refine .pure (.wrap (List.forall_mem_append.2 ⟨?_, hcs⟩) (by decide))
    simpa using ⟨.wrapOne ha (by decide), .wrapOne hb (by decide)⟩
  | assign _ first listed second values _ =>
    have hc := he.first? first
    have hd := he.first? second
    refine (Write.typedVars_yields (fun c h => hc.child h) listed (by decide)).bind ?_
    intro v hv
    refine (exprs_yield (fun c h => hd.child h) values).bind ?_
    intro cs hcs
    refine .pure (.wrap ?_ (by decide))
    simpa using ⟨hv, .wrap hcs (by decide)⟩
  | select _ first branches otherwise =>
    have hwhens := whenWriters_yield (fun c h => (he.first? first).childrenNamed h) branches
    refine (Write.Yields.all hwhens).bind ?_
    intro ws hws
    refine (elsePart_yields he otherwise).bind ?_
    intro cs hcs
    exact .pure (.wrap (List.forall_mem_cons.2 ⟨.wrap hws (by decide), hcs⟩) (by decide))
  | case _ inner value first branches otherwise =>
    have hchoices := choiceWriters_yield (fun c h => (he.first? first).childrenNamed h) branches
    refine (Write.Yields.all hchoices).bind ?_
    intro ds hds
    refine (value.yields (he.inner? inner)).bind ?_
    intro a ha
    refine (elsePart_yields he otherwise).bind ?_
    intro cs hcs
    refine .pure (.wrap (List.forall_mem_append.2 ⟨?_, hcs⟩) (by decide))
    simpa using ⟨.wrapOne ha (by decide), .wrap hds (by decide)⟩
  | any _ first listed pred guard inner body =>
    have hvars := he.first? first
    refine (Write.typedVars_yields (fun c h => hvars.child h) listed (by decide)).bind ?_
    intro v hv
    refine (guard.yields (he.inner? pred)).bind fun a ha => (body.2 (he.inner? inner)).bind ?_
    intro b hb
    refine .pure (.wrap ?_ (by decide))
    simpa using ⟨hv, .wrapOne ha (by decide), .wrapOne hb (by decide)⟩
  | witness _ given equal values _ inner body =>
    refine (writeWitnesses_yields (equal.clean (he.inner? given)) values).bind ?_
    intro a ha
    refine (body.2 (he.inner? inner)).bind ?_
    intro b hb
    refine .pure (.wrap ?_ (by decide))
    simpa using ⟨.wrapOne ha (by decide), .wrapOne hb (by decide)⟩
  | @call _ _ _ name _ _ _ _ _ _ _ named value inputs outputs operation formalOutputs formalInputs
      pre inner body _ _ =>
    have hname : Allowed name.toList := (he.inner? named).attr value
    have ho := he.first? operation
    refine (optionalInputs_yields (clean_optionalList he) inputs).bind ?_
    intro ins hins
    refine (optionalVars_yields (clean_optionalList he) outputs (by decide)).bind ?_
    intro outs houts
    refine (optionalVars_yields (clean_optionalList ho) formalOutputs (by decide)).bind ?_
    intro fouts hfouts
    refine (optionalVars_yields (clean_optionalList ho) formalInputs (by decide)).bind ?_
    intro fins hfins
    refine (optionalPrecondition_yields ho pre).bind ?_
    intro pre hpre
    refine (body.2 (ho.inner? inner)).bind ?_
    intro b hb
    have hid : Printable (.node "Id" [⟨"value", name⟩] []) :=
      .node (Faithful.singleton hname (by decide)) (by simp) (by decide)
    have hoperation : Printable (.node "Operation" [⟨"name", name⟩]
        (fouts ++ fins ++ pre ++ [.wrap "Body" [b]])) := by
      refine .node (Faithful.singleton hname (by decide)) ?_ (by decide)
      simp only [List.forall_mem_append]
      exact ⟨⟨⟨hfouts, hfins⟩, hpre⟩, by simpa using Printable.wrapOne hb (by decide)⟩
    refine .pure (.wrap (List.forall_mem_cons.2 ⟨.wrapOne hid (by decide), ?_⟩) (by decide))
    simp only [List.forall_mem_append]
    exact ⟨⟨hins, houts⟩, by simpa using hoperation⟩
  | «while» _ pred cond inner body stays invariant falls variant =>
    refine (cond.yields (he.inner? pred)).bind fun a ha => (body.2 (he.inner? inner)).bind ?_
    intro b hb
    refine (invariant.yields (he.inner? stays)).bind fun c hc =>
      (variant.yields (he.inner? falls)).bind ?_
    intro d hd
    refine .pure (.wrap ?_ (by decide))
    simpa using ⟨.wrapOne ha (by decide), .wrapOne hb (by decide), .wrapOne hc (by decide),
      .wrapOne hd (by decide)⟩
  | nary _ _ symbol parts =>
    have hop := (Operator.declared_of_ofSymbol? symbol).allowed
    refine (Write.Yields.all (writers_yield (fun c hc => he.child hc) parts)).bind ?_
    intro cs hcs
    exact .pure (.node (Faithful.singleton hop (by decide)) hcs (by decide))

theorem Reads.yields {e : Element} {s : Subst} (h : Subst.Reads t e s) (he : e.Clean) :
    s.write.Yields Printable :=
  read_induction (P := fun e s => e.Clean → s.write.Yields Printable)
    (fun _ _ h => h.yields) e s h he

end Subst

end BMethod
