import Mathlib
import BMethod.Proofs.Expr.Acceptance
import BMethod.Proofs.Subst.RoundTrip

/-!
# Which substitutions are accepted after they were written

A substitution that was written is read back exactly if the expressions and predicates in it are,
its variables are legible, its witnesses have different labels, every choice has a value, and as
many values or parameters are given as there are variables.
-/

namespace BMethod

/-! ## Legibility -/

mutual
/-- A substitution whose element is accepted when it is written. -/
def Subst.Legible : Subst → Prop
  | .absent => False
  | .skip => True
  | .block body => body.Legible
  | .assert guard body _ => guard.Legible ∧ body.Legible
  | .ifThen cond body otherwise =>
    cond.Legible ∧ body.Legible ∧ (otherwise = .absent ∨ otherwise.Legible)
  | .assign vars values =>
    TypedVar.AllLegible vars ∧ Expr.AllLegible values ∧ vars.length = values.length
  | .select whens otherwise =>
    Subst.WhensLegible whens ∧ (otherwise = .absent ∨ otherwise.Legible)
  | .case value choices otherwise =>
    value.Legible ∧ Subst.ChoicesLegible choices ∧ (otherwise = .absent ∨ otherwise.Legible)
  | .any vars guard body => TypedVar.AllLegible vars ∧ guard.Legible ∧ body.Legible
  | .witness ws body => (Expr.ItemsLegible ws ∧ (ws.map (·.1)).Nodup) ∧ body.Legible
  | .call _ inputs outputs formalInputs formalOutputs pre body =>
    Expr.AllLegible inputs ∧ TypedVar.AllLegible outputs ∧ TypedVar.AllLegible formalOutputs ∧
      TypedVar.AllLegible formalInputs ∧ (pre = .absent ∨ pre.Legible) ∧ body.Legible ∧
      formalInputs.length = inputs.length ∧ formalOutputs.length = outputs.length
  | .while cond body invariant variant =>
    cond.Legible ∧ body.Legible ∧ invariant.Legible ∧ variant.Legible
  | .nary op parts => op.Declared ∧ Subst.AllLegible parts

def Subst.WhensLegible : List (Pred × Subst) → Prop
  | [] => True
  | (guard, body) :: whens => guard.Legible ∧ body.Legible ∧ Subst.WhensLegible whens

def Subst.ChoicesLegible : List (List Expr × Subst) → Prop
  | [] => True
  | (values, body) :: choices =>
    (Expr.AllLegible values ∧ values ≠ []) ∧ body.Legible ∧ Subst.ChoicesLegible choices

def Subst.AllLegible : List Subst → Prop
  | [] => True
  | s :: ss => s.Legible ∧ Subst.AllLegible ss
end

namespace Subst

/-! ## Parts of readers -/

section
variable {t : Table} {e a : Element} {tag : String} {P Q : Prop}

theorem accepted_innerPred (h : e.inner? tag = some a) (hP : Accepted (Pred.read t a) ↔ P) :
    Accepted (innerPred t e tag) ↔ P := by
  unfold innerPred
  rw [Element.needInner_of h, ok_bind]
  exact hP

theorem accepted_innerExpr (h : e.inner? tag = some a) (hP : Accepted (Expr.read t a) ↔ P) :
    Accepted (innerExpr t e tag) ↔ P := by
  unfold innerExpr
  rw [Element.needInner_of h, ok_bind]
  exact hP

theorem accepted_then_inner {α : Type} {r : Except Fault α} {make : α → Subst → Subst}
    (hr : Accepted r ↔ P) (h : e.inner? tag = some a) (hQ : Accepted (Subst.read t a) ↔ Q) :
    Accepted (do
      let x ← r
      let c ← e.needInner tag
      let s ← Subst.read t c.1
      pure (make x s)) ↔ P ∧ Q := by
  rw [Element.needInner_of h]
  exact accepted_bind hr fun _ _ => accepted_bind_pure hQ

theorem accepted_ofAssignment {vars : List TypedVar} {values : List Expr} :
    Accepted (ofAssignment vars values) ↔ vars.length = values.length := by
  unfold Accepted
  simp [ofAssignment_eq_ok]

theorem accepted_ofCall {name : String} {inputs : List Expr}
    {outputs formalInputs formalOutputs : List TypedVar} {pre : Pred} {body : Subst} :
    Accepted (ofCall name inputs outputs formalInputs formalOutputs pre body) ↔
      formalInputs.length = inputs.length ∧ formalOutputs.length = outputs.length := by
  unfold Accepted
  simp [ofCall_eq_ok]

end

/-! ## Parts that may be left out -/

theorem optionalVars_admitted (tag : String) (vars : List TypedVar) :
    (optionalVars tag vars).Numbers (vars.map (·.ty)) fun types es => ∃ part,
      Optional tag es part ∧ (contents part).length = vars.length ∧
      (types.length ≤ 9223372036854775808 →
        (Accepted (TypedVar.readAll ⟨types⟩ (contents part)) ↔ TypedVar.AllLegible vars)) := by
  unfold optionalVars
  cases vars with
  | nil =>
    refine .pure fun types => ⟨none, ⟨rfl, nofun⟩, rfl, fun _ => ?_⟩
    exact iff_of_true (accepted_pure []) nofun
  | cons v vars =>
    refine (Write.typedVars_admitted tag (v :: vars)).bind_pure ?_
    rintro types e ⟨htag, hlength, he⟩
    exact ⟨some e, ⟨rfl, by simpa using htag⟩, hlength, he⟩

theorem optionalInputs_admitted (xs : List Expr) :
    (optionalInputs xs).Numbers (Expr.typesAll xs) fun types es => ∃ part,
      Optional "Input_Parameters" es part ∧ (contents part).length = xs.length ∧
      (types.length ≤ 9223372036854775808 →
        (Accepted (Expr.readAll ⟨types⟩ (contents part)) ↔ Expr.AllLegible xs)) := by
  unfold optionalInputs
  cases xs with
  | nil =>
    refine .pure fun types => ⟨none, ⟨rfl, nofun⟩, rfl, fun _ => ?_⟩
    rw [contents, Option.map_none, Option.getD_none, Expr.readAll]
    exact iff_of_true (accepted_pure []) trivial
  | cons x xs =>
    refine (Write.Numbers.withLength (Expr.writers_admitted (x :: xs))).bind_pure ?_
    rintro types es ⟨hlength, hes⟩
    rw [Expr.writers_eq_map, List.length_map] at hlength
    exact ⟨some (.wrap "Input_Parameters" es), ⟨rfl, by simp⟩, hlength, hes⟩

theorem optionalPrecondition_admitted (p : Pred) :
    (optionalPrecondition p).Numbers p.types fun types es => ∃ part,
      Optional "Precondition" es part ∧ (types.length ≤ 9223372036854775808 →
        ∀ e : Element, e.first? "Precondition" = part →
          (Accepted (optionalPre ⟨types⟩ e) ↔ p = .absent ∨ p.Legible)) := by
  have hnone (t : Table) (e : Element) (h : e.first? "Precondition" = none) :
      Accepted (optionalPre t e) := by
    rw [optionalPre, h]
    exact accepted_pure Pred.absent
  by_cases habsent : p = .absent
  · subst habsent
    refine .pure fun types => ⟨none, ⟨rfl, nofun⟩, fun _ e h => ?_⟩
    exact iff_of_true (hnone _ e h) (.inl rfl)
  by_cases htruth : p = .truth
  · subst htruth
    refine .pure fun types => ⟨none, ⟨rfl, nofun⟩, fun _ e h => ?_⟩
    exact iff_of_true (hnone _ e h) (.inr trivial)
  rw [optionalPrecondition_eq habsent htruth]
  refine p.write_admitted.bind_pure ?_
  intro types a ha
  refine ⟨some (.wrap "Precondition" [a]), ⟨rfl, by simp⟩, fun hsize e h => ?_⟩
  have hinner : e.inner? "Precondition" = some a := by
    rw [Element.inner?, h]
    rfl
  rw [optionalPre, h, Option.isSome_some, if_pos rfl, accepted_innerPred hinner (ha hsize),
    or_iff_right habsent]

theorem elsePart_admitted {s : Subst} (h : s.write.Admitted s.types Subst.read s.Legible) :
    (elsePart s.isAbsent s.write).Numbers s.types fun types es =>
      types.length ≤ 9223372036854775808 → ∀ tag attrs cs, (∀ c ∈ cs, Element.tag c ≠ "Else") →
        (Accepted (Subst.readElse ⟨types⟩ (.node tag attrs (cs ++ es))) ↔
          s = .absent ∨ s.Legible) := by
  have hskip : ∀ {cs : List Element}, (∀ c ∈ cs, c.tag ≠ "Else") →
      cs.find? (Element.hasTag "Else") = none := by
    intro cs hcs
    simpa [List.find?_eq_none, Element.hasTag] using hcs
  by_cases habsent : s = .absent
  · subst habsent
    refine .pure fun types _ tag attrs cs hcs => ?_
    have hnone : (Element.node tag attrs (cs ++ [])).first? "Else" = none := by
      simp [Element.first?, Element.node, hskip hcs]
    rw [Subst.readElse, hnone]
    exact iff_of_true (accepted_pure _) (.inl rfl)
  · have hs : s.isAbsent = false := by
      cases s with
      | absent => exact absurd rfl habsent
      | _ => rfl
    unfold elsePart
    rw [hs]
    refine Write.Numbers.bind_pure h ?_
    intro types a ha hsize tag attrs cs hcs
    have hfirst : (Element.node tag attrs (cs ++ [.wrap "Else" [a]])).first? "Else" =
        some (.wrap "Else" [a]) := by
      simp [Element.first?, Element.node, List.find?_append, hskip hcs, Element.hasTag]
    have hinner : (Element.node tag attrs (cs ++ [.wrap "Else" [a]])).inner? "Else" = some a := by
      rw [Element.inner?, hfirst]
      rfl
    rw [Subst.readElse, hfirst, Option.isSome_some, if_pos rfl, Element.needInner_of hinner,
      ok_bind, or_iff_right habsent]
    exact ha hsize

/-! ## Witnesses -/

theorem writeWitness_admitted (label : String) (x : Expr) :
    (writeWitness label x).Numbers x.witnessTypes fun types e => e.tag = "Exp_Comparison" ∧
      (types.length ≤ 9223372036854775808 → (Accepted (readWitness ⟨types⟩ e) ↔ x.Legible) ∧
        ∀ w, readWitness ⟨types⟩ e = .ok w → w.1 = label) := by
  unfold writeWitness Expr.witnessTypes
  cases hinfo : x.info? with
  | none => exact .throw _
  | some info =>
    refine (Write.typeRef_numbers info.ty).bind fun r => x.write_admitted.bind_pure ?_
    intro types e he _
    refine ⟨rfl, fun hsize => ⟨?_, ?_⟩⟩
    · rw [← he hsize]
      unfold Accepted
      simp only [readWitness_eq_ok]
      constructor
      · rintro ⟨w, -, -, a, b, ha, hb, -, -, hx⟩
        cases hb
        exact ⟨w.2, hx⟩
      · rintro ⟨y, hy⟩
        exact ⟨(label, y), rfl, rfl, _, e, rfl, rfl, rfl, rfl, hy⟩
    · intro w hw
      obtain ⟨-, -, a, b, ha, -, -, hlabel, -⟩ := readWitness_eq_ok.1 hw
      cases ha
      cases hlabel
      rfl

theorem equalities_witnessElement {es : List Element} (h : ∀ e ∈ es, e.tag = "Exp_Comparison") :
    equalities (witnessElement es) = .ok es := by
  rw [equalities_eq_ok]
  match es with
  | [] => exact .all rfl rfl
  | [e] => exact .one (h e List.mem_cons_self)
  | _ :: _ :: _ => exact .all rfl rfl

theorem labels_of_mapM {f : Element → Except Fault (String × Expr)} {es : List Element}
    {ws vs : List (String × Expr)}
    (h : List.Forall₂ (fun e w => ∀ v, f e = .ok v → v.1 = w.1) es ws)
    (hvs : es.mapM f = .ok vs) : vs.map (·.1) = ws.map (·.1) := by
  induction h generalizing vs with
  | nil =>
    cases hvs
    rfl
  | cons hw _ ih =>
    simp only [List.mapM_cons, bind_eq_ok, pure_eq_ok] at hvs
    obtain ⟨v, hv, vs, hvs, rfl⟩ := hvs
    rw [List.map_cons, List.map_cons, hw v hv, ih hvs]

theorem writeWitnesses_admitted (ws : List (String × Expr)) :
    (writeWitnesses ws).Numbers ((sortByLabel ws).flatMap fun w => w.2.witnessTypes) fun types a =>
      types.length ≤ 9223372036854775808 → ∀ e : Element, e.inner? "Witnesses" = some a →
        (Accepted (readWitnesses ⟨types⟩ e) ↔ Expr.ItemsLegible ws ∧ (ws.map (·.1)).Nodup) := by
  have hall := Write.Numbers.all (l := sortByLabel ws)
    (P := fun types e (w : String × Expr) => e.tag = "Exp_Comparison" ∧
      (types.length ≤ 9223372036854775808 → (Accepted (readWitness ⟨types⟩ e) ↔ w.2.Legible) ∧
        ∀ v, readWitness ⟨types⟩ e = .ok v → v.1 = w.1))
    fun w _ => writeWitness_admitted w.1 w.2
  rw [writeWitnesses_eq]
  refine hall.bind_pure ?_
  intro types es hes hsize e he
  have htags : ∀ c ∈ es, c.tag = "Exp_Comparison" := fun c hc =>
    have ⟨_, _, htag, _⟩ := exists_of_forall₂_left hes hc
    htag
  have hlabels : ∀ vs, es.mapM (readWitness ⟨types⟩) = .ok vs →
      vs.map (·.1) = (sortByLabel ws).map (·.1) := fun vs =>
    labels_of_mapM (hes.imp fun _ _ hc => (hc.2 hsize).2)
  have hsorted : (∀ w ∈ sortByLabel ws, w.2.Legible) ↔ Expr.ItemsLegible ws := by
    rw [Expr.itemsLegible_iff]
    exact forall_congr' fun w => by rw [mem_sortByLabel]
  have hnodup : ((sortByLabel ws).map (·.1)).Nodup ↔ (ws.map (·.1)).Nodup :=
    ((sortByLabel_perm ws).map _).nodup_iff
  unfold readWitnesses
  rw [Element.needInner_of he, ok_bind, equalities_witnessElement htags, ok_bind]
  refine accepted_bind ((accepted_mapM (hes.imp fun c w hc => (hc.2 hsize).1)).trans hsorted)
    fun vs hvs => accepted_bind_pure ?_
  rw [accepted_checkLabels, hlabels vs hvs, hnodup]

/-! ## Values -/

theorem mapM_values {t : Table} (es : List Element) :
    (es.map fun e => Element.wrap "Value" [e]).mapM (fun v => do
      let c ← v.needChild ""
      Expr.read t c.1) = Expr.readAll t es := by
  induction es with
  | nil =>
    rw [Expr.readAll]
    rfl
  | cons e es ih =>
    rw [List.map_cons, List.mapM_cons, ih, Expr.readAll]
    rfl

theorem writeValues_admitted (xs : List Expr) :
    (writeValues xs).Numbers (Expr.typesAll xs) fun types vs =>
      (∀ v ∈ vs, v.tag = "Value") ∧ (types.length ≤ 9223372036854775808 →
        ∀ e : Element, e.childrenNamed "Value" = vs →
          (Accepted (readValues ⟨types⟩ e) ↔ Expr.AllLegible xs ∧ xs ≠ [])) := by
  refine (Write.Numbers.withLength (Expr.writers_admitted xs)).bind_pure ?_
  rintro types es ⟨hlength, hes⟩
  refine ⟨by simp, fun hsize e he => ?_⟩
  rw [Expr.writers_eq_map, List.length_map] at hlength
  unfold readValues
  rw [he, mapM_values]
  refine accepted_bind (hes hsize) fun ys hys => ?_
  have hys := (Expr.readAll_eq_ok.1 hys).length_eq
  have hempty : ys = [] ↔ xs = [] := by
    rw [← List.length_eq_zero_iff, ← List.length_eq_zero_iff, ← hys, hlength]
  split
  · rename_i h
    exact iff_of_false (not_accepted_lacks _ _) (not_not.2 (hempty.1 (List.isEmpty_iff.1 h)))
  · rename_i h
    exact iff_of_true (accepted_pure ys) fun hxs => h (List.isEmpty_iff.2 (hempty.2 hxs))

/-! ## Assignments -/

theorem accepted_readAssignment {t : Table} {v : Element} {es : List Element}
    {vars : List TypedVar} {values : List Expr} (htag : v.tag = "Variables")
    (hvars : v.children.length = vars.length ∧
      (Accepted (TypedVar.readAll t v.children) ↔ TypedVar.AllLegible vars))
    (hvalues : es.length = values.length ∧
      (Accepted (Expr.readAll t es) ↔ Expr.AllLegible values)) :
    Accepted (readAssignment t
      (.node "Simple_Assignement_Sub" [] [v, .node "Values" [] es])) ↔
        TypedVar.AllLegible vars ∧ Expr.AllLegible values ∧ vars.length = values.length := by
  have hfirst : (Element.node "Simple_Assignement_Sub" [] [v, .node "Values" [] es]).first?
      "Variables" = some v := Element.first?_cons htag
  have hsecond : (Element.node "Simple_Assignement_Sub" [] [v, .node "Values" [] es]).first?
      "Values" = some (.node "Values" [] es) := by
    simp [Element.first?_cons, Element.first?_skip, htag]
  unfold readAssignment
  simp only [Element.needChild_of hsecond, ok_bind, Element.children_node]
  refine accepted_bind (accepted_readIn hfirst hvars.2) fun vs hvs =>
    accepted_bind hvalues.2 fun xs hxs => ?_
  -- What is read has as many members as what was written.
  obtain ⟨c, hc, hlisted⟩ := TypedVar.readIn_eq_ok.1 hvs
  obtain rfl := Option.some.inj (hfirst.symm.trans hc)
  rw [accepted_mapError, accepted_ofAssignment, ← hlisted.length_eq, hvars.1,
    ← (Expr.readAll_eq_ok.1 hxs).length_eq, hvalues.1]

/-! ## Branches -/

section
variable {t : Table} {e b : Element} {es : List Element} {P Q : Prop}

theorem accepted_when (htag : e.tag = "When") (hguard : Accepted (innerPred t e "Condition") ↔ P)
    (hthen : e.inner? "Then" = some b) (hbody : Accepted (Subst.read t b) ↔ Q) :
    Accepted (Subst.readWhens t (e :: es)) ↔ P ∧ Q ∧ Accepted (Subst.readWhens t es) := by
  rw [Subst.readWhens, if_pos htag]
  simp only [Element.needInner_of hthen, ok_bind]
  exact accepted_bind hguard fun _ _ => accepted_bind hbody fun _ _ => accepted_bind_pure .rfl

theorem accepted_choice (htag : e.tag = "Choice") (hvalues : Accepted (readValues t e) ↔ P)
    (hthen : e.inner? "Then" = some b) (hbody : Accepted (Subst.read t b) ↔ Q) :
    Accepted (Subst.readChoices t (e :: es)) ↔ P ∧ Q ∧ Accepted (Subst.readChoices t es) := by
  rw [Subst.readChoices, if_pos htag]
  simp only [Element.needInner_of hthen, ok_bind]
  exact accepted_bind hvalues fun _ _ => accepted_bind hbody fun _ _ => accepted_bind_pure .rfl

end

/-! ## Calls -/

theorem accepted_call {t : Table} {name : String} {ins outs fouts fins pres : List Element}
    {b : Element} {inPart outPart foutPart finPart prePart : Option Element} {inputs : List Expr}
    {outputs formalInputs formalOutputs : List TypedVar} {pre : Pred} {body : Subst}
    (hins : Optional "Input_Parameters" ins inPart)
    (houts : Optional "Output_Parameters" outs outPart)
    (hfouts : Optional "Output_Parameters" fouts foutPart)
    (hfins : Optional "Input_Parameters" fins finPart)
    (hpres : Optional "Precondition" pres prePart)
    (hinputs : (contents inPart).length = inputs.length ∧
      (Accepted (Expr.readAll t (contents inPart)) ↔ Expr.AllLegible inputs))
    (houtputs : (contents outPart).length = outputs.length ∧
      (Accepted (TypedVar.readAll t (contents outPart)) ↔ TypedVar.AllLegible outputs))
    (hformalOutputs : (contents foutPart).length = formalOutputs.length ∧
      (Accepted (TypedVar.readAll t (contents foutPart)) ↔ TypedVar.AllLegible formalOutputs))
    (hformalInputs : (contents finPart).length = formalInputs.length ∧
      (Accepted (TypedVar.readAll t (contents finPart)) ↔ TypedVar.AllLegible formalInputs))
    (hpre : ∀ e : Element, e.first? "Precondition" = prePart →
      (Accepted (optionalPre t e) ↔ pre = .absent ∨ pre.Legible))
    (hbody : Accepted (Subst.read t b) ↔ body.Legible) :
    Accepted (Subst.read t (callElement name ins outs fouts fins pres b)) ↔
      (Subst.call name inputs outputs formalInputs formalOutputs pre body).Legible := by
  have hname : (callElement name ins outs fouts fins pres b).inner? "Name" =
      some (.node "Id" [⟨"value", name⟩] []) := rfl
  have hvalue : (Element.node "Id" [⟨"value", name⟩] []).needAttr "value" = .ok name := rfl
  have hoperation : (callElement name ins outs fouts fins pres b).first? "Operation" =
      some (operationElement name fouts fins pres b) := by
    rw [first?_call hins houts (by decide) (by decide)]
    simp
  have hinList : optionalList (callElement name ins outs fouts fins pres b) "Input_Parameters" =
      contents inPart := by
    rw [optionalList_eq, first?_call hins houts (by decide) (by decide)]
    simp
  have houtList : optionalList (callElement name ins outs fouts fins pres b) "Output_Parameters" =
      contents outPart := by
    rw [optionalList_eq, first?_call hins houts (by decide) (by decide)]
    simp
  have hfoutList : optionalList (operationElement name fouts fins pres b) "Output_Parameters" =
      contents foutPart := by
    rw [optionalList_eq, first?_operation hfouts hfins hpres (by decide)]
    simp
  have hfinList : optionalList (operationElement name fouts fins pres b) "Input_Parameters" =
      contents finPart := by
    rw [optionalList_eq, first?_operation hfouts hfins hpres (by decide)]
    simp
  have hprecondition : (operationElement name fouts fins pres b).first? "Precondition" =
      prePart := by
    rw [first?_operation hfouts hfins hpres (by decide)]
    simp
  have hinner : (operationElement name fouts fins pres b).inner? "Body" = some b := by
    rw [Element.inner?, first?_operation hfouts hfins hpres (by decide)]
    simp
  have htag : (callElement name ins outs fouts fins pres b).tag = "Operation_Call" := rfl
  rw [Subst.read]
  simp only [htag, Element.needInner_of hname, hvalue, ok_bind, hinList, houtList,
    Element.needChild_of hoperation, hfoutList, hfinList, Element.needInner_of hinner]
  refine accepted_bind hinputs.2 fun xs hxs => accepted_bind houtputs.2 fun os hos =>
    accepted_bind hformalOutputs.2 fun fos hfos => accepted_bind hformalInputs.2 fun fis hfis =>
      accepted_bind (hpre _ hprecondition) fun p _ => accepted_bind hbody fun s _ => ?_
  -- What is read has as many members as what was written.
  have hxs := (Expr.readAll_eq_ok.1 hxs).length_eq
  have hos := (TypedVar.readAll_eq_ok.1 hos).length_eq
  have hfos := (TypedVar.readAll_eq_ok.1 hfos).length_eq
  have hfis := (TypedVar.readAll_eq_ok.1 hfis).length_eq
  rw [accepted_mapError, accepted_ofCall, ← hxs, ← hos, ← hfos, ← hfis, hinputs.1, houtputs.1,
    hformalOutputs.1, hformalInputs.1]

end Subst

/-! ## Trees -/

mutual
theorem Subst.write_admitted (s : Subst) : s.write.Admitted s.types Subst.read s.Legible := by
  cases s with
  | absent => exact .throw _
  | skip =>
    refine .pure fun types _ => iff_true_intro ?_
    rw [Subst.read]
    exact accepted_pure _
  | block body =>
    refine body.write_admitted.bind_pure ?_
    intro types b hb hsize
    rw [Subst.read]
    simp only [Element.wrap_eq, Element.tag_node, Element.needFirst_node, ok_bind]
    exact accepted_bind_pure (hb hsize)
  | assert guard body precondition =>
    cases precondition with
    | false | true =>
      refine guard.write_admitted.bind fun a => body.write_admitted.bind_pure ?_
      intro types b hb ha hsize
      rw [Element.wrap_eq, Subst.read]
      simp only [Element.tag_node]
      exact Subst.accepted_then_inner (Subst.accepted_innerPred rfl (ha hsize)) rfl (hb hsize)
  | ifThen cond body otherwise =>
    refine cond.write_admitted.bind fun a => body.write_admitted.bind fun b =>
      (Subst.elsePart_admitted otherwise.write_admitted).bind_pure ?_
    intro types es hes hb ha hsize
    have hinner : (Element.wrap "If_Sub"
        ([.wrap "Condition" [a], .wrap "Then" [b]] ++ es)).inner? "Then" = some b := rfl
    have helse := hes hsize "If_Sub" [] [.wrap "Condition" [a], .wrap "Then" [b]] (by simp)
    rw [Element.wrap_eq] at hinner ⊢
    rw [Subst.read]
    simp only [Element.tag_node, Element.needInner_of hinner, ok_bind]
    exact accepted_bind (Subst.accepted_innerPred rfl (ha hsize)) fun _ _ =>
      accepted_bind (hb hsize) fun _ _ => accepted_bind_pure helse
  | assign vars values =>
    refine (Write.typedVars_admitted _ vars).bind fun v =>
      (Write.Numbers.withLength (Expr.writers_admitted values)).bind_pure ?_
    rintro types es ⟨hlength, hes⟩ ⟨htag, hvars, hv⟩ hsize
    rw [Expr.writers_eq_map, List.length_map] at hlength
    rw [Element.wrap_eq, Subst.read]
    simp only [Element.tag_node]
    exact Subst.accepted_readAssignment htag ⟨hvars, hv hsize⟩ ⟨hlength, hes hsize⟩
  | select whens otherwise =>
    refine (Subst.whens_admitted whens).bind fun ws =>
      (Subst.elsePart_admitted otherwise.write_admitted).bind_pure ?_
    intro types es hes hws hsize
    have helse := hes hsize "Select" [] [.wrap "When_Clauses" ws] (by simp)
    have hfirst : (Element.wrap "Select" (.wrap "When_Clauses" ws :: es)).first? "When_Clauses" =
        some (.wrap "When_Clauses" ws) := rfl
    simp only [Element.wrap_eq] at hfirst helse ⊢
    rw [Subst.read]
    simp only [Element.tag_node, Element.needChild_of hfirst, ok_bind, Element.children_node]
    exact accepted_bind (hws hsize) fun _ _ => accepted_bind_pure helse
  | case value choices otherwise =>
    -- The choices are written before the value, but read after it.
    refine (Subst.choices_admitted choices).bind fun cs => value.write_admitted.bind fun a =>
      (Subst.elsePart_admitted otherwise.write_admitted).bind_pure ?_
    intro types es hes ha hcs hsize
    have helse := hes hsize "Case_Sub" [] [.wrap "Value" [a], .wrap "Choices" cs] (by simp)
    have hfirst : (Element.wrap "Case_Sub"
        ([.wrap "Value" [a], .wrap "Choices" cs] ++ es)).first? "Choices" =
          some (.wrap "Choices" cs) := rfl
    simp only [Element.wrap_eq] at hfirst helse ⊢
    rw [Subst.read]
    simp only [Element.tag_node, Element.needChild_of hfirst, ok_bind, Element.children_node]
    exact accepted_bind (Subst.accepted_innerExpr rfl (ha hsize)) fun _ _ =>
      accepted_bind (hcs hsize) fun _ _ => accepted_bind_pure helse
  | any vars guard body =>
    refine (Write.typedVars_admitted _ vars).bind fun v => guard.write_admitted.bind fun a =>
      body.write_admitted.bind_pure ?_
    rintro types b hb ha ⟨htag, -, hv⟩ hsize
    have hguard : (Element.wrap "ANY_Sub"
        [v, .wrap "Pred" [a], .wrap "Then" [b]]).inner? "Pred" = some a := by
      simp [Element.inner?_cons, Element.inner?_skip, htag]
    have hbody : (Element.wrap "ANY_Sub"
        [v, .wrap "Pred" [a], .wrap "Then" [b]]).inner? "Then" = some b := by
      simp [Element.inner?_cons, Element.inner?_skip, htag]
    rw [Element.wrap_eq] at hguard hbody ⊢
    rw [Subst.read]
    simp only [Element.tag_node]
    exact accepted_bind (accepted_readIn (Element.first?_cons htag) (hv hsize)) fun _ _ =>
      Subst.accepted_then_inner (Subst.accepted_innerPred hguard (ha hsize)) hbody (hb hsize)
  | witness ws body =>
    refine (Subst.writeWitnesses_admitted ws).bind fun w => body.write_admitted.bind_pure ?_
    intro types b hb hw hsize
    rw [Element.wrap_eq, Subst.read]
    simp only [Element.tag_node]
    exact Subst.accepted_then_inner (hw hsize _ rfl) rfl (hb hsize)
  | call name inputs outputs formalInputs formalOutputs pre body =>
    -- In the order of writing: formal outputs come before formal inputs.
    refine (Subst.optionalInputs_admitted inputs).bind fun ins => ?_
    refine (Subst.optionalVars_admitted _ outputs).bind fun outs => ?_
    refine (Subst.optionalVars_admitted _ formalOutputs).bind fun fouts => ?_
    refine (Subst.optionalVars_admitted _ formalInputs).bind fun fins => ?_
    refine (Subst.optionalPrecondition_admitted pre).bind fun pres =>
      body.write_admitted.bind_pure ?_
    rintro types b hb ⟨_, hpres, hpre⟩ ⟨_, hfins, hfinLength, hfinVars⟩
      ⟨_, hfouts, hfoutLength, hfoutVars⟩ ⟨_, houts, houtLength, houtVars⟩
      ⟨_, hins, hinLength, hxs⟩ hsize
    exact Subst.accepted_call hins houts hfouts hfins hpres ⟨hinLength, hxs hsize⟩
      ⟨houtLength, houtVars hsize⟩ ⟨hfoutLength, hfoutVars hsize⟩ ⟨hfinLength, hfinVars hsize⟩
      (hpre hsize) (hb hsize)
  | «while» cond body invariant variant =>
    refine cond.write_admitted.bind fun a => body.write_admitted.bind fun b =>
      invariant.write_admitted.bind fun c => variant.write_admitted.bind_pure ?_
    intro types d hd hc hb ha hsize
    have hinner : (Element.wrap "While" [.wrap "Condition" [a], .wrap "Body" [b],
        .wrap "Invariant" [c], .wrap "Variant" [d]]).inner? "Body" = some b := rfl
    rw [Element.wrap_eq] at hinner ⊢
    rw [Subst.read]
    simp only [Element.tag_node, Element.needInner_of hinner, ok_bind]
    exact accepted_bind (Subst.accepted_innerPred rfl (ha hsize)) fun _ _ =>
      accepted_bind (hb hsize) fun _ _ =>
        accepted_bind (Subst.accepted_innerPred rfl (hc hsize)) fun _ _ =>
          accepted_bind_pure (Subst.accepted_innerExpr rfl (hd hsize))
  | nary op parts =>
    refine (Subst.writers_admitted parts).bind_pure ?_
    intro types es hes hsize
    rw [Subst.read]
    simp only [Element.tag_node, Element.children_node]
    exact accepted_bind (accepted_readOperator rfl op.isSome_ofSymbol?_symbol) fun _ _ =>
      accepted_bind_pure (hes hsize)

theorem Subst.whens_admitted (whens : List (Pred × Subst)) :
    (Write.all (Subst.whenWriters whens)).Numbers (Subst.whenTypes whens) fun types es =>
      types.length ≤ 9223372036854775808 →
        (Accepted (Subst.readWhens ⟨types⟩ es) ↔ Subst.WhensLegible whens) := by
  cases whens with
  | nil =>
    refine .pure fun types _ => ?_
    rw [Subst.readWhens]
    exact iff_true_intro (accepted_pure [])
  | cons w whens =>
    refine (Write.Numbers.bind (Q := fun types e => types.length ≤ 9223372036854775808 →
      ∀ es, Accepted (Subst.readWhens ⟨types⟩ (e :: es)) ↔
        w.1.Legible ∧ w.2.Legible ∧ Accepted (Subst.readWhens ⟨types⟩ es))
      w.1.write_admitted fun a => w.2.write_admitted.bind_pure ?_).bind fun e =>
        (Subst.whens_admitted whens).bind_pure ?_
    · intro types b hb ha hsize es
      exact Subst.accepted_when rfl (Subst.accepted_innerPred rfl (ha hsize)) rfl (hb hsize)
    · intro types es hes he hsize
      rw [he hsize, hes hsize]
      rfl

theorem Subst.choices_admitted (choices : List (List Expr × Subst)) :
    (Write.all (Subst.choiceWriters choices)).Numbers (Subst.choiceTypes choices) fun types es =>
      types.length ≤ 9223372036854775808 →
        (Accepted (Subst.readChoices ⟨types⟩ es) ↔ Subst.ChoicesLegible choices) := by
  cases choices with
  | nil =>
    refine .pure fun types _ => ?_
    rw [Subst.readChoices]
    exact iff_true_intro (accepted_pure [])
  | cons c choices =>
    refine (Write.Numbers.bind (Q := fun types e => types.length ≤ 9223372036854775808 →
      ∀ es, Accepted (Subst.readChoices ⟨types⟩ (e :: es)) ↔
        (Expr.AllLegible c.1 ∧ c.1 ≠ []) ∧ c.2.Legible ∧ Accepted (Subst.readChoices ⟨types⟩ es))
      (Subst.writeValues_admitted c.1) fun vs => c.2.write_admitted.bind_pure ?_).bind fun e =>
        (Subst.choices_admitted choices).bind_pure ?_
    · rintro types b hb ⟨htags, hvs⟩ hsize es
      have hvalues : (Element.wrap "Choice" (vs ++ [.wrap "Then" [b]])).childrenNamed "Value" =
          vs := by
        have hkeep : vs.filter (Element.hasTag "Value") = vs :=
          List.filter_eq_self.2 fun v hv => by simp [Element.hasTag, htags v hv]
        simp [Element.childrenNamed, hkeep, Element.hasTag]
      have hthen : (Element.wrap "Choice" (vs ++ [.wrap "Then" [b]])).inner? "Then" = some b := by
        have hskip : vs.find? (Element.hasTag "Then") = none :=
          List.find?_eq_none.2 fun v hv => by simp [Element.hasTag, htags v hv]
        simp [Element.inner?, Element.first?, Element.node, List.find?_append, hskip,
          Element.hasTag]
      exact Subst.accepted_choice rfl (hvs hsize _ hvalues) hthen (hb hsize)
    · intro types es hes he hsize
      rw [he hsize, hes hsize]
      rfl

theorem Subst.writers_admitted (ss : List Subst) :
    (Write.all (Subst.writers ss)).Numbers (Subst.typesAll ss) fun types es =>
      types.length ≤ 9223372036854775808 →
        (Accepted (Subst.readAll ⟨types⟩ es) ↔ Subst.AllLegible ss) := by
  cases ss with
  | nil =>
    refine .pure fun types _ => ?_
    rw [Subst.readAll]
    exact iff_true_intro (accepted_pure [])
  | cons s ss =>
    refine s.write_admitted.bind fun e => (Subst.writers_admitted ss).bind_pure ?_
    intro types es hes he hsize
    rw [Subst.readAll]
    exact accepted_bind (he hsize) fun _ _ => accepted_bind_pure (hes hsize)
end

end BMethod
