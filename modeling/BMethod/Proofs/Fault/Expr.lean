import Mathlib
import BMethod.Proofs.Expr.Reading
import BMethod.Proofs.Fault.Blame

/-!
# Faults of types, expressions and predicates

Reading a type table, an expression or a predicate blames the element that is read, or an element
inside it.
-/

namespace BMethod

variable {t : Table} {e : Element} {es : List Element}

/-! ## Types -/

namespace Ty

theorem blamed_readIdentifier (e : Element) : e.Blamed (readIdentifier e) := by
  unfold readIdentifier
  refine (e.blamed_needAttr "value").bind fun name _ => ?_
  split
  · exact .pure _
  · split
    · exact e.blamed_complain _
    · exact .pure _

theorem blamed_checkOperator (e : Element) (wanted : String) :
    e.Blamed (checkOperator e wanted) := by
  unfold checkOperator
  split
  · exact .pure _
  · exact e.blamed_complain _

theorem blamed_readFields (hes : ∀ c ∈ es, e.Holds c)
    (ih : ∀ c ∈ es, ∀ d : Element, sizeOf d < sizeOf c → d.Blamed (readTerm d)) :
    e.Blamed (readFields es) := by
  refine .tagged "Record_Item"
    (fun c => do
      let label ← c.needAttr "label"
      let x ← c.needChild ""
      let t ← readTerm x.1
      pure (label, t)) (by rw [readFields]) (fun c cs => by rw [readFields]; simp) fun c hc => ?_
  refine .mono (hes c hc) ((c.blamed_needAttr "label").bind fun label _ => ?_)
  refine (c.blamed_needChild "").bind fun x hx => ?_
  have hx' := Element.holds_of_first? (Element.needChild_eq_ok.1 hx)
  exact ((ih c hc x.1 x.2).mono hx').bind_pure _

theorem blamed_readTerm (e : Element) : e.Blamed (readTerm e) := by
  induction hn : sizeOf e using Nat.strong_induction_on generalizing e with
  | _ n ih =>
    subst hn
    have inside {c : Element} (hc : e.Holds c) (hlt : sizeOf c < sizeOf e) :
        e.Blamed (readTerm c) :=
      (ih _ hlt c rfl).mono hc
    rw [readTerm]
    split
    · exact blamed_readIdentifier e
    · refine (blamed_checkOperator e "POW").bind fun _ _ => ?_
      refine e.blamed_needOne.bind fun x hx => ?_
      exact (inside (Element.holds_of_getElem? (Element.needOne_eq_ok.1 hx)) x.2).bind_pure _
    · refine (blamed_checkOperator e "*").bind fun _ _ => ?_
      refine e.blamed_needTwo.bind fun xs hxs => ?_
      obtain ⟨hfst, hsnd⟩ := Element.needTwo_eq_ok.1 hxs
      refine (inside (Element.holds_of_getElem? hfst) xs.1.2).bind fun _ _ => ?_
      exact (inside (Element.holds_of_getElem? hsnd) xs.2.2).bind_pure _
    · refine (blamed_readFields (fun c hc => Element.holds_of_mem hc) ?_).bind fun fields _ => ?_
      · intro c hc d hd
        exact ih _ (Nat.lt_trans hd (Element.sizeOf_lt_of_mem_children hc)) d rfl
      · exact (e.blamed_checkLabels _).bind_pure _
    · exact e.blamed_complain _

end Ty

namespace Table

theorem blamed_readDeclaration (n : Nat) (e : Element) : e.Blamed (readDeclaration n e) := by
  unfold readDeclaration
  split
  · exact e.blamed_complain _
  · split
    · exact e.blamed_complain _
    · split
      · exact e.blamed_complain _
      · split
        · exact e.blamed_complain _
        · refine (e.blamed_needChild "").bind fun x hx => ?_
          exact (Ty.blamed_readTerm x.1).mono
            (Element.holds_of_first? (Element.needChild_eq_ok.1 hx))

theorem blamed_readDeclarations (n : Nat) (hes : ∀ c ∈ es, e.Holds c) :
    e.Blamed (readDeclarations n es) := by
  induction es generalizing n with
  | nil => exact .pure _
  | cons c cs ih =>
    refine ((blamed_readDeclaration n c).mono (hes c List.mem_cons_self)).bind fun ty _ => ?_
    exact (ih (n + 1) fun d hd => hes d (List.mem_cons_of_mem _ hd)).bind_pure _

theorem blamed_read (e : Element) : e.Blamed (Table.read e) := by
  unfold Table.read
  split
  · rename_i d hd
    have hd : e.Holds d := by
      unfold declarations? at hd
      split at hd
      · cases hd
        exact .refl
      · exact Element.holds_of_first? hd
    exact (blamed_readDeclarations 0 fun c hc => hd.tail hc).map _
  · exact .pure _

theorem about_of_typeOf {f : Fault} {d : Element} (hd : e.position = d.position)
    (h : t.typeOf e = .error f) : f.About d := by
  unfold typeOf at h
  split at h
  · cases h
    exact Fault.about_complaint hd _
  · split at h
    · cases h
      exact Fault.about_complaint hd _
    · split at h
      · cases h
        exact Fault.about_complaint hd _
      · cases h

theorem blamed_typeOf (t : Table) (e : Element) : e.Blamed (t.typeOf e) :=
  fun _ hf => (about_of_typeOf rfl hf).pointsInto

end Table

/-! ## Variables -/

theorem Info.blamed_read (t : Table) (e : Element) : e.Blamed (Info.read t e) :=
  (t.blamed_typeOf e).bind_pure _

theorem VarName.blamed_read (e : Element) : e.Blamed (VarName.read e) := by
  unfold VarName.read
  split
  · refine (e.blamed_needAttr "value").bind fun stem _ => ?_
    split
    · exact .pure _
    · refine (e.blamed_needInt "suffix").bind fun suffix _ => ?_
      split
      · exact e.blamed_complain _
      · exact .pure _
  · exact (e.blamed_needAttr "ref").bind_pure _
  · exact e.blamed_complain _

theorem TypedVar.blamed_read (t : Table) (e : Element) : e.Blamed (TypedVar.read t e) :=
  (VarName.blamed_read e).bind fun _ _ => (t.blamed_typeOf e).bind_pure _

theorem TypedVar.blamed_readAll (t : Table) (hes : ∀ c ∈ es, e.Holds c) :
    e.Blamed (TypedVar.readAll t es) :=
  .mapM fun c hc => (TypedVar.blamed_read t c).mono (hes c hc)

theorem TypedVar.blamed_readIn (t : Table) (e : Element) (tag : String) :
    e.Blamed (TypedVar.readIn t e tag) := by
  refine (e.blamed_needChild tag).bind fun c hc => ?_
  have hc := Element.holds_of_first? (Element.needChild_eq_ok.1 hc)
  exact TypedVar.blamed_readAll t fun d hd => hc.tail hd

/-! ## Connectives -/

namespace Connective

/-- The elements of the formulas and expressions inside a connective. -/
def parts : Connective e → List Element
  | .implies x y | .equiv x y | .compare _ _ x y => [x.1, y.1]
  | .not x | .forAll _ x | .forSome _ x => [x.1]
  | .and | .or => e.children

theorem blamed_read? (t : Table) (e : Element) : e.Blamed (read? t e) := by
  unfold read?
  split
  · refine .map _ ((e.blamed_needAttr "op").bind fun op _ => ?_)
    split
    · exact e.blamed_needTwo.bind_pure _
    · split
      · exact e.blamed_needTwo.bind_pure _
      · exact e.blamed_complain _
  · refine .map _ ((e.blamed_needAttr "op").bind fun symbol _ => ?_)
    split
    · exact e.blamed_complain _
    · exact e.blamed_needTwo.bind_pure _
  · refine .map _ ((e.blamed_needAttr "type").bind fun kind _ => ?_)
    have hvars := TypedVar.blamed_readIn t e "Variables"
    split
    · exact hvars.bind fun vars _ => (e.blamed_needInner "Body").bind_pure _
    · split
      · exact hvars.bind fun vars _ => (e.blamed_needInner "Body").bind_pure _
      · exact e.blamed_complain _
  · refine .map _ ((e.blamed_needAttr "op").bind fun op _ => ?_)
    split
    · exact e.blamed_needOne.bind_pure _
    · exact e.blamed_complain _
  · refine .map _ ((e.blamed_needAttr "op").bind fun op _ => ?_)
    split
    · exact .pure _
    · split
      · exact .pure _
      · exact e.blamed_complain _
  · exact .pure _

theorem holds_two {xs : e.Inside × e.Inside} (h : e.needTwo = .ok xs) :
    ∀ c ∈ [xs.1.1, xs.2.1], e.Holds c := by
  obtain ⟨hfst, hsnd⟩ := Element.needTwo_eq_ok.1 h
  simpa using ⟨Element.holds_of_getElem? hfst, Element.holds_of_getElem? hsnd⟩

theorem holds_body {x : e.Inside} (h : e.needInner "Body" = .ok x) : ∀ c ∈ [x.1], e.Holds c := by
  simpa using Element.holds_of_inner? (Element.needInner_eq_ok.1 h)

theorem holds_parts {k : Connective e} (h : read? t e = .ok (some k)) :
    ∀ c ∈ k.parts, e.Holds c := by
  unfold read? at h
  split at h
  · obtain ⟨k, hk, ⟨⟩⟩ := map_eq_ok.1 h
    obtain ⟨op, -, hk⟩ := bind_eq_ok.1 hk
    split at hk
    · obtain ⟨xs, hxs, ⟨⟩⟩ := bind_eq_ok.1 hk
      exact holds_two hxs
    · split at hk
      · obtain ⟨xs, hxs, ⟨⟩⟩ := bind_eq_ok.1 hk
        exact holds_two hxs
      · exact absurd hk (Element.complain_ne_ok _ _ _)
  · obtain ⟨k, hk, ⟨⟩⟩ := map_eq_ok.1 h
    obtain ⟨symbol, -, hk⟩ := bind_eq_ok.1 hk
    split at hk
    · exact absurd hk (Element.complain_ne_ok _ _ _)
    · obtain ⟨xs, hxs, ⟨⟩⟩ := bind_eq_ok.1 hk
      exact holds_two hxs
  · obtain ⟨k, hk, ⟨⟩⟩ := map_eq_ok.1 h
    obtain ⟨kind, -, hk⟩ := bind_eq_ok.1 hk
    split at hk
    · obtain ⟨vars, -, hk⟩ := bind_eq_ok.1 hk
      obtain ⟨x, hx, ⟨⟩⟩ := bind_eq_ok.1 hk
      exact holds_body hx
    · split at hk
      · obtain ⟨vars, -, hk⟩ := bind_eq_ok.1 hk
        obtain ⟨x, hx, ⟨⟩⟩ := bind_eq_ok.1 hk
        exact holds_body hx
      · exact absurd hk (Element.complain_ne_ok _ _ _)
  · obtain ⟨k, hk, ⟨⟩⟩ := map_eq_ok.1 h
    obtain ⟨op, -, hk⟩ := bind_eq_ok.1 hk
    split at hk
    · obtain ⟨x, hx, ⟨⟩⟩ := bind_eq_ok.1 hk
      simpa [parts] using Element.holds_of_getElem? (Element.needOne_eq_ok.1 hx)
    · exact absurd hk (Element.complain_ne_ok _ _ _)
  · obtain ⟨k, hk, ⟨⟩⟩ := map_eq_ok.1 h
    obtain ⟨op, -, hk⟩ := bind_eq_ok.1 hk
    split at hk
    · cases hk
      exact fun c => Element.holds_of_mem
    · split at hk
      · cases hk
        exact fun c => Element.holds_of_mem
      · exact absurd hk (Element.complain_ne_ok _ _ _)
  · cases h

end Connective

/-! ## Expressions and predicates -/

namespace Expr

theorem readAll_eq_mapM (t : Table) (es : List Element) :
    Expr.readAll t es = es.mapM (Expr.read t) := by
  induction es with
  | nil => rw [Expr.readAll, List.mapM_nil]
  | cons e es ih => rw [Expr.readAll, List.mapM_cons, ih]

theorem blamed_readAll (h : ∀ c ∈ es, e.Blamed (Expr.read t c)) :
    e.Blamed (Expr.readAll t es) := by
  rw [readAll_eq_mapM]
  exact .mapM h

theorem blamed_readConstant (t : Table) (e : Element) (kind : Constant) :
    e.Blamed (readConstant t e kind) :=
  (Info.blamed_read t e).bind_pure _

theorem blamed_readVariable (t : Table) (e : Element) : e.Blamed (readVariable t e) :=
  (VarName.blamed_read e).bind fun _ _ => (Info.blamed_read t e).bind_pure _

theorem blamed_readIdentifier (t : Table) (e : Element) : e.Blamed (readIdentifier t e) := by
  refine (e.blamed_needAttr "value").bind fun value _ => ?_
  split
  · exact blamed_readConstant t e _
  · exact blamed_readVariable t e

theorem blamed_readBooleanLiteral (t : Table) (e : Element) :
    e.Blamed (readBooleanLiteral t e) := by
  refine (e.blamed_needAttr "value").bind fun value _ => ?_
  split
  · exact blamed_readConstant t e _
  · split
    · exact blamed_readConstant t e _
    · exact e.blamed_complain _

theorem blamed_readLiteral (t : Table) (e : Element) (make : Info → String → Expr) :
    e.Blamed (readLiteral t e make) :=
  (e.blamed_needAttr "value").bind fun _ _ => (Info.blamed_read t e).bind_pure _

theorem blamed_readOperator {α : Type} (e : Element) (name : String)
    (ofSymbol? : String → Option α) : e.Blamed (readOperator e name ofSymbol?) := by
  refine (e.blamed_needAttr name).bind fun symbol _ => ?_
  split
  · exact .pure _
  · exact e.blamed_complain _

theorem blamed_readItems (hes : ∀ c ∈ es, e.Holds c)
    (ih : ∀ c ∈ es, ∀ d : Element, sizeOf d < sizeOf c → d.Blamed (Expr.read t d)) :
    e.Blamed (Expr.readItems t es) := by
  refine .tagged "Record_Item"
    (fun c => do
      let label ← c.needAttr "label"
      let x ← c.needChild ""
      let x ← Expr.read t x.1
      pure (label, x)) (by rw [Expr.readItems]) (fun c cs => by rw [Expr.readItems]; simp)
    fun c hc => ?_
  refine .mono (hes c hc) ((c.blamed_needAttr "label").bind fun label _ => ?_)
  refine (c.blamed_needChild "").bind fun x hx => ?_
  have hx' := Element.holds_of_first? (Element.needChild_eq_ok.1 hx)
  exact ((ih c hc x.1 x.2).mono hx').bind_pure _

theorem blamed_read_step (hexpr : ∀ c : Element, sizeOf c < sizeOf e → c.Blamed (Expr.read t c))
    (hpred : ∀ c : Element, sizeOf c < sizeOf e → c.Blamed (Pred.read t c)) :
    e.Blamed (Expr.read t e) := by
  have expr {c : Element} (hc : e.Holds c) (hlt : sizeOf c < sizeOf e) :
      e.Blamed (Expr.read t c) := (hexpr c hlt).mono hc
  have pred {c : Element} (hc : e.Holds c) (hlt : sizeOf c < sizeOf e) :
      e.Blamed (Pred.read t c) := (hpred c hlt).mono hc
  have info := Info.blamed_read t e
  have items : e.Blamed (Expr.readItems t e.children) := by
    refine blamed_readItems (fun c hc => Element.holds_of_mem hc) fun c hc d hd => ?_
    exact hexpr d (Nat.lt_trans hd (Element.sizeOf_lt_of_mem_children hc))
  rw [Expr.read]
  split
  · exact blamed_readIdentifier t e
  · exact blamed_readVariable t e
  · exact blamed_readBooleanLiteral t e
  · exact blamed_readConstant t e _
  · exact blamed_readConstant t e _
  · exact blamed_readLiteral t e _
  · exact blamed_readLiteral t e _
  · exact blamed_readLiteral t e _
  · exact blamed_readLiteral t e _
  · -- Unary operators.
    refine (blamed_readOperator e _ _).bind fun op _ => info.bind fun i _ => ?_
    refine e.blamed_needOne.bind fun c hc => ?_
    exact (expr (Element.holds_of_getElem? (Element.needOne_eq_ok.1 hc)) c.2).bind_pure _
  · -- Binary operators.
    refine (blamed_readOperator e _ _).bind fun op _ => info.bind fun i _ => ?_
    refine e.blamed_needTwo.bind fun cs hcs => ?_
    obtain ⟨hfst, hsnd⟩ := Element.needTwo_eq_ok.1 hcs
    refine (expr (Element.holds_of_getElem? hfst) cs.1.2).bind fun x _ => ?_
    exact (expr (Element.holds_of_getElem? hsnd) cs.2.2).bind_pure _
  · -- Ternary operators.
    refine (blamed_readOperator e _ _).bind fun op _ => info.bind fun i _ => ?_
    refine e.blamed_needThree.bind fun cs hcs => ?_
    obtain ⟨hfst, hsnd, hthd⟩ := Element.needThree_eq_ok.1 hcs
    refine (expr (Element.holds_of_getElem? hfst) cs.1.2).bind fun x _ => ?_
    refine (expr (Element.holds_of_getElem? hsnd) cs.2.1.2).bind fun y _ => ?_
    exact (expr (Element.holds_of_getElem? hthd) cs.2.2.2).bind_pure _
  · -- Lists.
    refine (blamed_readOperator e _ _).bind fun op _ => info.bind fun i _ => ?_
    refine (blamed_readAll fun c hc => ?_).bind_pure _
    exact expr (Element.holds_of_mem hc) (Element.sizeOf_lt_of_mem_children hc)
  · -- Predicates as values.
    refine info.bind fun i _ => (e.blamed_needChild "").bind fun c hc => ?_
    exact (pred (Element.holds_of_first? (Element.needChild_eq_ok.1 hc)) c.2).bind_pure _
  · exact info.bind fun i _ => items.bind fun xs _ => (e.blamed_checkLabels _).bind_pure _
  · exact info.bind fun i _ => items.bind fun xs _ => (e.blamed_checkLabels _).bind_pure _
  · -- Quantified expressions.
    refine (blamed_readOperator e _ _).bind fun op _ => info.bind fun i _ => ?_
    refine (TypedVar.blamed_readIn t e _).bind fun vars _ => ?_
    refine (e.blamed_needInner "Pred").bind fun g hg => ?_
    refine (pred (Element.holds_of_inner? (Element.needInner_eq_ok.1 hg)) g.2).bind fun p _ => ?_
    refine (e.blamed_needInner "Body").bind fun c hc => ?_
    exact (expr (Element.holds_of_inner? (Element.needInner_eq_ok.1 hc)) c.2).bind_pure _
  · -- Sets of all values that satisfy a predicate.
    refine info.bind fun i _ => (TypedVar.blamed_readIn t e _).bind fun vars _ => ?_
    refine (e.blamed_needInner "Body").bind fun c hc => ?_
    exact (pred (Element.holds_of_inner? (Element.needInner_eq_ok.1 hc)) c.2).bind_pure _
  · -- Fields.
    refine (e.blamed_needAttr "label").bind fun label _ => info.bind fun i _ => ?_
    refine e.blamed_needOne.bind fun c hc => ?_
    exact (expr (Element.holds_of_getElem? (Element.needOne_eq_ok.1 hc)) c.2).bind_pure _
  · -- Updates.
    refine (e.blamed_needAttr "label").bind fun label _ => info.bind fun i _ => ?_
    refine e.blamed_needTwo.bind fun cs hcs => ?_
    obtain ⟨hfst, hsnd⟩ := Element.needTwo_eq_ok.1 hcs
    refine (expr (Element.holds_of_getElem? hfst) cs.1.2).bind fun x _ => ?_
    exact (expr (Element.holds_of_getElem? hsnd) cs.2.2).bind_pure _
  · exact e.blamed_complain _

end Expr

namespace Pred

theorem readAll_eq_mapM (t : Table) (es : List Element) :
    Pred.readAll t es = es.mapM (Pred.read t) := by
  induction es with
  | nil => rw [Pred.readAll, List.mapM_nil]
  | cons e es ih => rw [Pred.readAll, List.mapM_cons, ih]

theorem blamed_read_step (hexpr : ∀ c : Element, sizeOf c < sizeOf e → c.Blamed (Expr.read t c))
    (hpred : ∀ c : Element, sizeOf c < sizeOf e → c.Blamed (Pred.read t c)) :
    e.Blamed (Pred.read t e) := by
  have all : e.Blamed (Pred.readAll t e.children) := by
    rw [readAll_eq_mapM]
    exact .mapM fun c hc =>
      (hpred c (Element.sizeOf_lt_of_mem_children hc)).mono (Element.holds_of_mem hc)
  rw [Pred.read]
  refine (Connective.blamed_read? t e).bind fun k hk => ?_
  split
  case h_9 =>
    -- No connective: a tag, or an element that is no predicate.
    split
    · refine (e.blamed_needChild "").bind fun c hc => ?_
      exact (hpred c.1 c.2).mono (Element.holds_of_first? (Element.needChild_eq_ok.1 hc))
    · exact e.blamed_complain _
  all_goals have hparts := Connective.holds_parts hk
  case h_1 x y | h_2 x y =>
    refine ((hpred x.1 x.2).mono (hparts _ (by simp [Connective.parts]))).bind fun p _ => ?_
    exact ((hpred y.1 y.2).mono (hparts _ (by simp [Connective.parts]))).bind_pure _
  case h_3 op negated x y =>
    refine ((hexpr x.1 x.2).mono (hparts _ (by simp [Connective.parts]))).bind fun a _ => ?_
    exact ((hexpr y.1 y.2).mono (hparts _ (by simp [Connective.parts]))).bind_pure _
  case h_4 x | h_7 _ x | h_8 _ x =>
    exact ((hpred x.1 x.2).mono (hparts _ (by simp [Connective.parts]))).bind_pure _
  case h_5 | h_6 => exact all.bind_pure _

end Pred

theorem blamed_read_formulas (t : Table) (e : Element) :
    e.Blamed (Expr.read t e) ∧ e.Blamed (Pred.read t e) := by
  induction hn : sizeOf e using Nat.strong_induction_on generalizing e with
  | _ n ih =>
    subst hn
    have hexpr (c : Element) (hc : sizeOf c < sizeOf e) := (ih _ hc c rfl).1
    have hpred (c : Element) (hc : sizeOf c < sizeOf e) := (ih _ hc c rfl).2
    exact ⟨Expr.blamed_read_step hexpr hpred, Pred.blamed_read_step hexpr hpred⟩

theorem Expr.blamed_read (t : Table) (e : Element) : e.Blamed (Expr.read t e) :=
  (blamed_read_formulas t e).1

theorem Pred.blamed_read (t : Table) (e : Element) : e.Blamed (Pred.read t e) :=
  (blamed_read_formulas t e).2

end BMethod
