import Mathlib
import BMethod.Proofs.Fault.Expr
import BMethod.Proofs.Goal.Reading

/-!
# Faults of substitutions and goals

Reading a substitution or a goal blames the element that is read, or an element inside it. A call
whose parameters do not agree with the operation in it is to blame itself.
-/

namespace BMethod

variable {t : Table} {e : Element} {es : List Element}

/-! ## Substitutions -/

namespace Subst

theorem blamed_innerPred (t : Table) (e : Element) (tag : String) :
    e.Blamed (innerPred t e tag) := by
  refine (e.blamed_needInner tag).bind fun c hc => ?_
  exact (Pred.blamed_read t c.1).mono (Element.holds_of_inner? (Element.needInner_eq_ok.1 hc))

theorem blamed_innerExpr (t : Table) (e : Element) (tag : String) :
    e.Blamed (innerExpr t e tag) := by
  refine (e.blamed_needInner tag).bind fun c hc => ?_
  exact (Expr.blamed_read t c.1).mono (Element.holds_of_inner? (Element.needInner_eq_ok.1 hc))

theorem blamed_optionalPre (t : Table) (e : Element) : e.Blamed (optionalPre t e) := by
  unfold optionalPre
  split
  · exact blamed_innerPred t e _
  · exact .pure _

theorem blamed_readAssignment (t : Table) (e : Element) : e.Blamed (readAssignment t e) := by
  refine (TypedVar.blamed_readIn t e _).bind fun vars _ => ?_
  refine (e.blamed_needChild "Values").bind fun c hc => ?_
  have hc := Element.holds_of_first? (Element.needChild_eq_ok.1 hc)
  refine (Expr.blamed_readAll fun d hd => (Expr.blamed_read t d).mono (hc.tail hd)).bind ?_
  intro values _
  unfold ofAssignment
  split
  · exact .pure _
  · exact e.blamed_complain (.unequalAssignment _ _)

theorem blamed_equalities (e : Element) : e.Blamed (equalities e) := by
  unfold equalities
  split
  · exact .pure _
  · dsimp only
    split
    · exact .pure _
    · exact e.blamed_complain _
  · exact e.blamed_complain _

theorem blamed_readWitness (t : Table) (e : Element) : e.Blamed (readWitness t e) := by
  unfold readWitness
  split
  · exact e.blamed_complain _
  · dsimp only
    split
    · exact e.blamed_complain _
    · refine e.blamed_needTwo.bind fun cs hcs => ?_
      obtain ⟨hfst, hsnd⟩ := Element.needTwo_eq_ok.1 hcs
      have hfst := Element.holds_of_getElem? hfst
      split
      · exact (cs.1.1.blamed_complain _).mono hfst
      · refine ((cs.1.1.blamed_needAttr "value").mono hfst).bind fun label _ => ?_
        exact ((Expr.blamed_read t cs.2.1).mono (Element.holds_of_getElem? hsnd)).bind_pure _

theorem blamed_readWitnesses (t : Table) (e : Element) : e.Blamed (readWitnesses t e) := by
  refine (e.blamed_needInner "Witnesses").bind fun c hc => ?_
  have hc := Element.holds_of_inner? (Element.needInner_eq_ok.1 hc)
  refine ((blamed_equalities c.1).mono hc).bind fun es hes => ?_
  -- The equalities are the element itself or its children.
  have hhold : ∀ d ∈ es, e.Holds d := by
    cases equalities_eq_ok.1 hes with
    | one => simpa using hc
    | all => exact fun d hd => hc.tail hd
  refine (Element.Blamed.mapM fun d hd => (blamed_readWitness t d).mono (hhold d hd)).bind ?_
  intro ws _
  exact ((c.1.blamed_checkLabels _).mono hc).bind_pure _

theorem blamed_readValues (t : Table) (e : Element) : e.Blamed (readValues t e) := by
  refine (Element.Blamed.mapM fun v hv => ?_).bind fun xs _ => ?_
  · have hv : e.Holds v := Element.holds_of_mem (List.mem_of_mem_filter hv)
    refine ((v.blamed_needChild "").mono hv).bind fun c hc => ?_
    exact (Expr.blamed_read t c.1).mono
      (hv.trans (Element.holds_of_first? (Element.needChild_eq_ok.1 hc)))
  · split
    · exact e.blamed_lacks _
    · exact .pure _

theorem blamed_readWhens (hes : ∀ c ∈ es, e.Holds c)
    (ih : ∀ c ∈ es, ∀ d : Element, sizeOf d < sizeOf c → d.Blamed (Subst.read t d)) :
    e.Blamed (Subst.readWhens t es) := by
  refine .tagged "When"
    (fun c => do
      let guard ← innerPred t c "Condition"
      let x ← c.needInner "Then"
      let body ← Subst.read t x.1
      pure (guard, body)) (by rw [Subst.readWhens]) (fun c cs => by rw [Subst.readWhens]; simp)
    fun c hc => ?_
  refine .mono (hes c hc) ((blamed_innerPred t c _).bind fun guard _ => ?_)
  refine (c.blamed_needInner "Then").bind fun x hx => ?_
  have hx' := Element.holds_of_inner? (Element.needInner_eq_ok.1 hx)
  exact ((ih c hc x.1 x.2).mono hx').bind_pure _

theorem blamed_readChoices (hes : ∀ c ∈ es, e.Holds c)
    (ih : ∀ c ∈ es, ∀ d : Element, sizeOf d < sizeOf c → d.Blamed (Subst.read t d)) :
    e.Blamed (Subst.readChoices t es) := by
  refine .tagged "Choice"
    (fun c => do
      let values ← readValues t c
      let x ← c.needInner "Then"
      let body ← Subst.read t x.1
      pure (values, body)) (by rw [Subst.readChoices]) (fun c cs => by rw [Subst.readChoices]; simp)
    fun c hc => ?_
  refine .mono (hes c hc) ((blamed_readValues t c).bind fun values _ => ?_)
  refine (c.blamed_needInner "Then").bind fun x hx => ?_
  have hx' := Element.holds_of_inner? (Element.needInner_eq_ok.1 hx)
  exact ((ih c hc x.1 x.2).mono hx').bind_pure _

theorem readAll_eq_mapM (t : Table) (es : List Element) :
    Subst.readAll t es = es.mapM (Subst.read t) := by
  induction es with
  | nil => rw [Subst.readAll, List.mapM_nil]
  | cons e es ih => rw [Subst.readAll, List.mapM_cons, ih]

theorem blamed_ofCall {name : String} {inputs : List Expr}
    {outputs formalInputs formalOutputs : List TypedVar} {pre : Pred} {body : Subst}
    {id : Element} {op : Element} (tag : e.tag = "Operation_Call")
    (hid : e.inner? "Name" = some id) (hname : id.attr? "value" = some name)
    (hinputs : Expr.readAll t (optionalList e "Input_Parameters") = .ok inputs)
    (houtputs : TypedVar.readAll t (optionalList e "Output_Parameters") = .ok outputs)
    (hop : e.first? "Operation" = some op)
    (hformalInputs : TypedVar.readAll t (optionalList op "Input_Parameters") = .ok formalInputs)
    (hformalOutputs : TypedVar.readAll t (optionalList op "Output_Parameters") = .ok formalOutputs) :
    e.Blamed ((ofCall name inputs outputs formalInputs formalOutputs pre body).mapError
      (Fault.locate e.position)) := by
  unfold ofCall Arity.check
  split
  · exact .pure _
  · rename_i hdisagree
    rintro _ ⟨⟩
    refine (Fault.about_arity ⟨tag, ?_, ?_, ?_, ⟨op, hop, ?_, ?_⟩, hdisagree⟩).pointsInto
    · simpa [hid] using hname
    · simp [(Expr.readAll_eq_ok.1 hinputs).length_eq]
    · simp [(mapM_eq_ok.1 houtputs).length_eq]
    · simp [(mapM_eq_ok.1 hformalInputs).length_eq]
    · simp [(mapM_eq_ok.1 hformalOutputs).length_eq]

theorem blamed_read_step (ih : ∀ c : Element, sizeOf c < sizeOf e → c.Blamed (Subst.read t c)) :
    e.Blamed (Subst.read t e) := by
  have inner (tag : String) {β : Type} {k : Subst → Except Fault β}
      (hk : ∀ s, e.Blamed (k s)) :
      e.Blamed (e.needInner tag >>= fun c => Subst.read t c.1 >>= k) := by
    refine (e.blamed_needInner tag).bind fun c hc => ?_
    have hc' := Element.holds_of_inner? (Element.needInner_eq_ok.1 hc)
    exact ((ih c.1 c.2).mono hc').bind fun s _ => hk s
  have otherwise : e.Blamed (Subst.readElse t e) := by
    rw [Subst.readElse]
    split
    · refine (e.blamed_needInner "Else").bind fun c hc => ?_
      exact (ih c.1 c.2).mono (Element.holds_of_inner? (Element.needInner_eq_ok.1 hc))
    · exact .pure _
  rw [Subst.read]
  split
  · exact .pure _
  · refine (e.blamed_needChild "").bind fun c hc => ?_
    have hc' := Element.holds_of_first? (Element.needChild_eq_ok.1 hc)
    exact ((ih c.1 c.2).mono hc').bind_pure _
  · exact (blamed_innerPred t e _).bind fun p _ => inner _ fun s => .pure _
  · exact (blamed_innerPred t e _).bind fun p _ => inner _ fun s => .pure _
  · exact (blamed_innerPred t e _).bind fun p _ => inner _ fun s => otherwise.bind_pure _
  · exact blamed_readAssignment t e
  · -- Selections.
    refine (e.blamed_needChild "When_Clauses").bind fun c hc => ?_
    have hc' := Element.holds_of_first? (Element.needChild_eq_ok.1 hc)
    refine (blamed_readWhens (fun d hd => hc'.tail hd) fun d hd x hx => ?_).bind fun whens _ => ?_
    · exact ih x (by have := Element.sizeOf_lt_of_mem_children hd; have := c.2; omega)
    · exact otherwise.bind_pure _
  · -- Case distinctions.
    refine (blamed_innerExpr t e _).bind fun value _ => ?_
    refine (e.blamed_needChild "Choices").bind fun c hc => ?_
    have hc' := Element.holds_of_first? (Element.needChild_eq_ok.1 hc)
    refine (blamed_readChoices (fun d hd => hc'.tail hd) fun d hd x hx => ?_).bind fun cs _ => ?_
    · exact ih x (by have := Element.sizeOf_lt_of_mem_children hd; have := c.2; omega)
    · exact otherwise.bind_pure _
  · refine (TypedVar.blamed_readIn t e _).bind fun vars _ => ?_
    exact (blamed_innerPred t e _).bind fun p _ => inner _ fun s => .pure _
  · exact (blamed_readWitnesses t e).bind fun ws _ => inner _ fun s => .pure _
  · -- Calls.
    rename_i tag
    refine (e.blamed_needInner "Name").bind fun id hid => ?_
    have hid' := Element.needInner_eq_ok.1 hid
    refine ((id.1.blamed_needAttr _).mono (Element.holds_of_inner? hid')).bind fun name hname => ?_
    refine (Expr.blamed_readAll fun c hc => (Expr.blamed_read t c).mono
      (Element.holds_of_optionalList hc)).bind fun inputs hinputs => ?_
    refine (TypedVar.blamed_readAll t fun c hc => Element.holds_of_optionalList hc).bind
      fun outputs houtputs => ?_
    refine (e.blamed_needChild "Operation").bind fun op hop => ?_
    have hop' := Element.needChild_eq_ok.1 hop
    have hhold := Element.holds_of_first? hop'
    refine (TypedVar.blamed_readAll t fun c hc => hhold.trans
      (Element.holds_of_optionalList hc)).bind fun formalOutputs hformalOutputs => ?_
    refine (TypedVar.blamed_readAll t fun c hc => hhold.trans
      (Element.holds_of_optionalList hc)).bind fun formalInputs hformalInputs => ?_
    refine ((blamed_optionalPre t op.1).mono hhold).bind fun pre _ => ?_
    refine ((op.1.blamed_needInner "Body").mono hhold).bind fun c hc => ?_
    have hc' := Element.holds_of_inner? (Element.needInner_eq_ok.1 hc)
    refine ((ih c.1 (Nat.lt_trans c.2 op.2)).mono (hhold.trans hc')).bind fun body _ => ?_
    exact blamed_ofCall tag hid' (Element.needAttr_eq_ok.1 hname) hinputs houtputs hop'
      hformalInputs hformalOutputs
  · refine (blamed_innerPred t e _).bind fun p _ => inner _ fun s => ?_
    exact (blamed_innerPred t e _).bind fun q _ => (blamed_innerExpr t e _).bind_pure _
  · refine (Expr.blamed_readOperator e _ _).bind fun op _ => ?_
    rw [readAll_eq_mapM]
    refine (Element.Blamed.mapM fun c hc => ?_).bind_pure _
    exact (ih c (Element.sizeOf_lt_of_mem_children hc)).mono (Element.holds_of_mem hc)
  · exact e.blamed_complain _

theorem blamed_read (t : Table) (e : Element) : e.Blamed (Subst.read t e) := by
  induction hn : sizeOf e using Nat.strong_induction_on generalizing e with
  | _ n ih =>
    subst hn
    exact blamed_read_step fun c hc => ih _ hc c rfl

end Subst

/-! ## Goals -/

namespace Goal

theorem blamed_readOverflow (e : Element) : e.Blamed (readOverflow e) := by
  unfold readOverflow
  split
  · exact .pure _
  · exact .pure _
  · exact .pure _
  · exact e.blamed_complain _

theorem blamed_readPossible (t : Table) (e : Element) : e.Blamed (readPossible t e) := by
  unfold readPossible
  split
  · exact e.blamed_complain _
  · rename_i sub hsub
    have hsub := Element.holds_of_first? hsub
    split
    · exact e.blamed_complain _
    · split
      · exact (sub.blamed_complain _).mono hsub
      · exact (sub.blamed_complain _).mono hsub
      · rename_i s negation rest hchildren
        have hs : e.Holds s := hsub.tail (by simp [hchildren])
        have hnegation : e.Holds negation := hsub.tail (by simp [hchildren])
        split
        · exact (sub.blamed_complain _).mono hsub
        · split
          · exact (negation.blamed_complain _).mono hnegation
          · rename_i p hp
            refine ((Subst.blamed_read t s).mono hs).bind fun s _ => ?_
            exact ((Pred.blamed_read t p).mono
              (hnegation.trans (Element.holds_of_first? hp))).bind_pure _

theorem readAll_eq_mapM (t : Table) (es : List Element) :
    Goal.readAll t es = es.mapM (Goal.read t) := by
  induction es with
  | nil => rw [Goal.readAll, List.mapM_nil]
  | cons e es ih => rw [Goal.readAll, List.mapM_cons, ih]

theorem blamed_read_step (ih : ∀ c : Element, sizeOf c < sizeOf e → c.Blamed (Goal.read t c)) :
    e.Blamed (Goal.read t e) := by
  have all : e.Blamed (Goal.readAll t e.children) := by
    rw [readAll_eq_mapM]
    exact .mapM fun c hc =>
      (ih c (Element.sizeOf_lt_of_mem_children hc)).mono (Element.holds_of_mem hc)
  have first {β : Type} {k : Goal → Except Fault β} (hk : ∀ g, e.Blamed (k g)) :
      e.Blamed (e.needChild "" >>= fun c => Goal.read t c.1 >>= k) := by
    refine (e.blamed_needChild "").bind fun c hc => ?_
    have hc' := Element.holds_of_first? (Element.needChild_eq_ok.1 hc)
    exact ((ih c.1 c.2).mono hc').bind fun g _ => hk g
  rw [Goal.read]
  refine (Connective.blamed_read? t e).bind fun k hk => ?_
  split
  case h_9 =>
    -- No connective: a form that only goals have, or an element that is no goal.
    split
    · refine (blamed_readOverflow e).bind fun overflow _ => e.blamed_needTwo.bind fun cs hcs => ?_
      obtain ⟨hfst, hsnd⟩ := Element.needTwo_eq_ok.1 hcs
      refine ((Subst.blamed_read t _).mono (Element.holds_of_getElem? hfst)).bind fun s _ => ?_
      exact ((ih cs.2.1 cs.2.2).mono (Element.holds_of_getElem? hsnd)).bind_pure _
    · exact blamed_readPossible t e
    · exact (e.blamed_needAttr _).bind fun tag _ => first fun g => .pure _
    · exact (e.blamed_needAttr _).bind fun name _ => first fun g => .pure _
    · exact e.blamed_complain _
  all_goals have hparts := Connective.holds_parts hk
  case h_1 x y | h_2 x y =>
    refine ((ih x.1 x.2).mono (hparts _ (by simp [Connective.parts]))).bind fun p _ => ?_
    exact ((ih y.1 y.2).mono (hparts _ (by simp [Connective.parts]))).bind_pure _
  case h_3 op negated x y =>
    refine ((Expr.blamed_read t x.1).mono (hparts _ (by simp [Connective.parts]))).bind ?_
    exact fun a _ =>
      ((Expr.blamed_read t y.1).mono (hparts _ (by simp [Connective.parts]))).bind_pure _
  case h_4 x | h_7 _ x | h_8 _ x =>
    exact ((ih x.1 x.2).mono (hparts _ (by simp [Connective.parts]))).bind_pure _
  case h_5 | h_6 => exact all.bind_pure _

theorem blamed_read (t : Table) (e : Element) : e.Blamed (Goal.read t e) := by
  induction hn : sizeOf e using Nat.strong_induction_on generalizing e with
  | _ n ih =>
    subst hn
    exact blamed_read_step fun c hc => ih _ hc c rfl

end Goal

end BMethod
