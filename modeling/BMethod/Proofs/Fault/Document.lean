import Mathlib
import BMethod.Check.Component
import BMethod.Proofs.Fault.Subst
import BMethod.Proofs.Obligation.References

/-!
# Faults of documents

A document of proof obligations and a component report several faults. Each of them is about the
root of the document or an element inside it, also when it was found while a set declaration was
copied.
-/

namespace BMethod

variable {t : Table} {e : Element}

namespace Obligations

/-! ## Set declarations -/

theorem about_of_collectType {f : Fault} {d : Element} {s : List Ty}
    (h : (collectType t e).run s = .error f) (hd : e.position = d.position) : f.About d := by
  have hrun : (collectType t e).run s = (do
      let ty ← t.typeOf e
      pure (toString s.length, s ++ [ty])) := by
    simp [collectType]
  rw [hrun] at h
  cases hty : t.typeOf e with
  | error g =>
    rw [hty] at h
    cases h
    exact Table.about_of_typeOf hd hty
  | ok ty =>
    rw [hty] at h
    cases h

mutual
theorem blamed_mapRefs (t : Table) (e : Element) (s : List Ty) :
    e.Blamed ((e.mapRefs (collectType t)).run s) := by
  obtain ⟨tag, attrs, text, line, children⟩ := e
  have hchildren (s : List Ty) : Element.Blamed ⟨tag, attrs, text, line, children⟩
      ((Element.mapRefsAll (collectType t) children).run s) :=
    blamed_mapRefsAll t children s fun c hc => Element.holds_of_mem hc
  cases hv : typeRef? attrs with
  | none =>
    rw [Element.mapRefs_of_none _ hv, StateT.run_bind]
    exact (hchildren s).bind fun _ _ => .pure _
  | some v =>
    rw [Element.mapRefs_of_some _ hv, StateT.run_bind]
    refine .bind (fun f hf => ?_) fun w _ => ?_
    · exact (about_of_collectType (d := ⟨tag, attrs, text, line, children⟩) hf rfl).pointsInto
    · rw [StateT.run_bind]
      exact (hchildren w.2).bind fun _ _ => .pure _

theorem blamed_mapRefsAll (t : Table) (es : List Element) (s : List Ty) {root : Element}
    (hes : ∀ c ∈ es, root.Holds c) :
    root.Blamed ((Element.mapRefsAll (collectType t) es).run s) := by
  cases es with
  | nil => exact .pure _
  | cons c cs =>
    rw [Element.mapRefsAll, StateT.run_bind]
    refine ((blamed_mapRefs t c s).mono (hes c List.mem_cons_self)).bind fun d _ => ?_
    rw [StateT.run_bind]
    refine (blamed_mapRefsAll t cs d.2 fun c hc => hes c (List.mem_cons_of_mem _ hc)).bind ?_
    exact fun _ _ => .pure _
end

theorem blamed_readSet (t : Table) (e : Element) : e.Blamed (readSet t e) :=
  (blamed_mapRefs t e []).bind_pure _

/-! ## Proof obligations -/

theorem blamed_heading (e : Element) (name : String) : e.Blamed (heading e name) := by
  unfold heading
  split
  · exact .pure _
  · exact e.blamed_complain _

theorem blamed_number (e : Element) : e.Blamed (number e) := by
  refine (blamed_heading e "num").bind fun v _ => ?_
  split
  · exact .pure _
  · exact e.blamed_complain _

theorem blamed_textOf (e : Element) (tag : String) : e.Blamed (textOf e tag) := by
  unfold textOf
  split
  · exact .pure _
  · exact e.blamed_lacks _

theorem blamed_innerPred (t : Table) (e : Element) : e.Blamed (innerPred t e) := by
  refine (e.blamed_needChild "").bind fun c hc => ?_
  exact (Pred.blamed_read t c.1).mono (Element.holds_of_first? (Element.needChild_eq_ok.1 hc))

theorem blamed_readDefineItem (t : Table) (e : Element) : e.Blamed (readDefineItem t e) := by
  unfold readDefineItem
  split
  · exact (blamed_readSet t e).map _
  · exact (Pred.blamed_read t e).map _

theorem blamed_readDefine (t : Table) (e : Element) : e.Blamed (readDefine t e) := by
  refine (blamed_heading e "name").bind fun name _ => (Element.Blamed.mapM ?_).bind_pure _
  exact fun c hc => (blamed_readDefineItem t c).mono (Element.holds_of_mem hc)

theorem blamed_readLocalHyp (t : Table) (e : Element) : e.Blamed (readLocalHyp t e) :=
  (blamed_number e).bind fun _ _ => (blamed_innerPred t e).bind_pure _

theorem blamed_childrenNamed {α : Type} {read : Element → Except Fault α} (tag : String)
    (h : ∀ c : Element, c.Blamed (read c)) : e.Blamed ((e.childrenNamed tag).mapM read) :=
  .mapM fun c hc => (h c).mono (Element.holds_of_mem (List.mem_of_mem_filter hc))

theorem blamed_readGoal (t : Table) (e : Element) : e.Blamed (readGoal t e) := by
  refine (blamed_textOf e "Tag").bind fun tag _ => ?_
  refine (blamed_childrenNamed "Ref_Hyp" blamed_number).bind fun refs _ => ?_
  refine (e.blamed_needChild "Goal").bind fun c hc => ?_
  have hc' := Element.holds_of_first? (Element.needChild_eq_ok.1 hc)
  exact ((blamed_innerPred t c.1).mono hc').bind_pure _

theorem blamed_readObligation (t : Table) (e : Element) : e.Blamed (readObligation t e) := by
  refine (blamed_textOf e "Tag").bind fun tag _ => ?_
  refine (blamed_childrenNamed "Definition" (blamed_heading · "name")).bind fun names _ => ?_
  refine (blamed_childrenNamed "Hypothesis" (blamed_innerPred t)).bind fun hyps _ => ?_
  refine (blamed_childrenNamed "Local_Hyp" (blamed_readLocalHyp t)).bind fun locals _ => ?_
  exact (blamed_childrenNamed "Simple_Goal" (blamed_readGoal t)).bind_pure _

theorem mem_faultsOf {α : Type} {rs : List (Except Fault α)} {f : Fault} :
    f ∈ faultsOf rs ↔ .error f ∈ rs := by
  unfold faultsOf
  rw [List.mem_filterMap]
  constructor
  · rintro ⟨r, hr, hf⟩
    cases r with
    | error g => cases hf; exact hr
    | ok a => cases hf
  · exact fun hr => ⟨_, hr, rfl⟩

theorem pointsInto_of_read {fs : List Fault} (h : Obligations.read e = .error fs) :
    ∀ f ∈ fs, f.PointsInto e := by
  unfold Obligations.read at h
  split at h
  · cases h
    simpa using (Fault.about_complaint rfl _).pointsInto
  · cases ht : Table.read e with
    | error g =>
      rw [ht] at h
      cases h
      simpa using Table.blamed_read e g ht
    | ok t =>
      rw [ht] at h
      replace h : readBody t e = .error fs := h
      unfold readBody at h
      dsimp only at h
      split at h
      · cases h
      · cases h
        intro f hf
        have hnamed {α : Type} {read : Element → Except Fault α} {tag : String}
            (hread : ∀ c : Element, c.Blamed (read c))
            (hf : f ∈ faultsOf ((e.childrenNamed tag).map read)) : f.PointsInto e := by
          obtain ⟨c, hc, hcf⟩ := List.mem_map.1 (mem_faultsOf.1 hf)
          exact (hread c f hcf).mono (Element.holds_of_mem (List.mem_of_mem_filter hc))
        obtain hf | hf := List.mem_append.1 hf
        · exact hnamed (blamed_readDefine t) hf
        · exact hnamed (blamed_readObligation t) hf

end Obligations

/-! ## Components -/

namespace Check

theorem blamed_checked {α : Type} {r : Except Fault α} (h : e.Blamed r) : e.Blamed (checked r) :=
  h.map _

theorem blamed_forM {es : List Element} {read : Element → Except Fault Unit}
    (h : ∀ c ∈ es, e.Blamed (read c)) : e.Blamed (es.forM read) := by
  induction es with
  | nil => exact .pure _
  | cons c cs ih =>
    refine (h c List.mem_cons_self).bind fun _ _ => ?_
    exact ih fun d hd => h d (List.mem_cons_of_mem _ hd)

theorem blamed_checkOperation (t : Table) (e : Element) : e.Blamed (checkOperation t e) := by
  have hrest : e.Blamed (do
      let body ← e.needChild "Body"
      let s ← body.1.needChild ""
      checked (Subst.read t s.1)) := by
    refine (e.blamed_needChild "Body").bind fun body hbody => ?_
    have hbody := Element.holds_of_first? (Element.needChild_eq_ok.1 hbody)
    refine ((body.1.blamed_needChild "").mono hbody).bind fun s hs => ?_
    have hs := Element.holds_of_first? (Element.needChild_eq_ok.1 hs)
    exact blamed_checked ((Subst.blamed_read t s.1).mono (hbody.trans hs))
  unfold checkOperation
  split
  · rename_i pre hpre
    refine (blamed_forM fun c hc => ?_).bind fun _ _ => hrest
    exact blamed_checked ((Pred.blamed_read t c).mono ((Element.holds_of_first? hpre).tail hc))
  · exact hrest

theorem holds_sectionContents {c : Element} {tag : String} (h : c ∈ sectionContents e tag) :
    e.Holds c := by
  obtain ⟨s, hs, hc⟩ := List.mem_flatMap.1 h
  exact (Element.holds_of_mem (List.mem_of_mem_filter hs)).tail hc

theorem holds_operationsIn {c : Element} {tag : String} (h : c ∈ operationsIn e tag) :
    e.Holds c := by
  unfold operationsIn at h
  split at h
  · rename_i ops hops
    exact (Element.holds_of_first? hops).tail (List.mem_of_mem_filter h)
  · cases h

theorem blamed_checkItems {r : Except Fault Unit} (h : r ∈ checkItems t e) : e.Blamed r := by
  unfold checkItems at h
  simp only [List.mem_append, List.mem_map, List.mem_flatMap] at h
  obtain (⟨c, ⟨tag, -, hc⟩, rfl⟩ | ⟨c, hc, rfl⟩) | ⟨c, ⟨tag, -, hc⟩, rfl⟩ := h
  · exact blamed_checked ((Pred.blamed_read t c).mono (holds_sectionContents hc))
  · exact blamed_checked ((Subst.blamed_read t c).mono (holds_sectionContents hc))
  · exact (blamed_checkOperation t c).mono (holds_operationsIn hc)

theorem pointsInto_of_checkComponent {fs : List Fault} (h : checkComponent e = .error fs) :
    ∀ f ∈ fs, f.PointsInto e := by
  unfold checkComponent at h
  cases ht : Table.read e with
  | error g =>
    rw [ht] at h
    cases h
    simpa using Table.blamed_read e g ht
  | ok t =>
    rw [ht] at h
    dsimp only [Except.mapError, ok_bind] at h
    split at h
    · cases h
    · cases h
      exact fun f hf => blamed_checkItems (Obligations.mem_faultsOf.1 hf) f rfl

end Check

/-- Every fault of a reader points into what was read: it is about one element of the tree, at whose
position it is and nowhere else, it has one category, an absent child is absent from that element,
and parameters that do not agree are those of that element, which is a call. So is every fault of a
document of proof obligations and of a component. -/
theorem faults_point_into_document (t : Table) (e : Element) :
    (∀ f, Table.read e = .error f → f.PointsInto e) ∧
      (∀ f, Expr.read t e = .error f → f.PointsInto e) ∧
      (∀ f, Pred.read t e = .error f → f.PointsInto e) ∧
      (∀ f, Goal.read t e = .error f → f.PointsInto e) ∧
      (∀ f, Subst.read t e = .error f → f.PointsInto e) ∧
      (∀ fs, Obligations.read e = .error fs → ∀ f ∈ fs, f.PointsInto e) ∧
      ∀ fs, Check.checkComponent e = .error fs → ∀ f ∈ fs, f.PointsInto e :=
  ⟨Table.blamed_read e, Expr.blamed_read t e, Pred.blamed_read t e, Goal.blamed_read t e,
    Subst.blamed_read t e, fun _ h => Obligations.pointsInto_of_read h,
    fun _ h => Check.pointsInto_of_checkComponent h⟩

/-- Proof obligations with two faults: a set whose type is not declared, and an obligation without
its tag. -/
def sampleFaulty : Element :=
  { tag := "Proof_Obligations", line := 1
    children :=
      [{ tag := "Proof_Obligation", line := 2 },
        { tag := "Define", attrs := [⟨"name", "ctx"⟩], line := 3
          children :=
            [{ tag := "Set", line := 4
               children := [{ tag := "Id", attrs := [⟨"typref", "7"⟩], line := 5 }] }] }] }

theorem faults_point_into_document_sample :
    ∃ f g, Obligations.read sampleFaulty = .error [f, g] ∧
      f.positions = [⟨5, "Id"⟩] ∧ f.PointsInto sampleFaulty ∧
      g.missing? = some ("Tag", "Proof_Obligation") ∧ g.positions = [⟨2, "Proof_Obligation"⟩] ∧
      g.PointsInto sampleFaulty := by
  have hread : Obligations.read sampleFaulty =
      .error [(Complaint.typeRefOutOfRange 7 0).fault.locate ⟨5, "Id"⟩,
        .locate ⟨2, "Proof_Obligation"⟩ (.missing "Tag" "Proof_Obligation")] := by
    rfl
  have hpoint := (faults_point_into_document .empty sampleFaulty).2.2.2.2.2.1 _ hread
  exact ⟨_, _, hread, rfl, hpoint _ (by simp), rfl, rfl, hpoint _ (by simp)⟩

end BMethod
