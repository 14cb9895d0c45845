import Mathlib
import BMethod.Proofs.Element.Parts
import BMethod.Proofs.Formula.Typing
import BMethod.Subst.Read

/-!
# Which element is to blame

A fault of a reader is about one element of the tree that was read. The rules here say that each
step of a reader blames the element it works on, or an element inside it.
-/

namespace BMethod

namespace Fault

/-- All positions that a fault carries, the outermost first. -/
def positions : Fault → List Position
  | explained _ cause => cause.positions
  | labelled _ cause => cause.positions
  | located position cause => position :: cause.positions
  | _ => []

theorem locate_eq {f : Fault} (p : Position) (h : f.position? = none) :
    f.locate p = .located p f := by
  simp [locate, h]

end Fault

namespace Element

/-- An element is another one or stands somewhere inside it. -/
abbrev Holds : Element → Element → Prop :=
  Relation.ReflTransGen fun e c => c ∈ e.children

variable {e c : Element}

theorem holds_of_mem (h : c ∈ e.children) : e.Holds c :=
  .single h

theorem holds_of_getElem? {i : Nat} (h : e.children[i]? = some c) : e.Holds c :=
  holds_of_mem (List.mem_of_getElem? h)

theorem holds_of_first? {tag : String} (h : e.first? tag = some c) : e.Holds c :=
  holds_of_mem (mem_children_of_first? h)

theorem holds_of_inner? {tag : String} (h : e.inner? tag = some c) : e.Holds c := by
  obtain ⟨w, hw, hc⟩ := Option.bind_eq_some_iff.1 h
  exact (holds_of_first? hw).trans (holds_of_first? hc)

theorem holds_of_optionalList {tag : String} (h : c ∈ Subst.optionalList e tag) : e.Holds c := by
  unfold Subst.optionalList at h
  split at h
  · rename_i w hw
    exact (holds_of_first? hw).tail h
  · cases h

/-- The parameters that the element of a call gives to the operation in it, and those that the
operation declares. -/
structure CallCounts (e : Element) (a : Arity) : Prop where
  tag : e.tag = "Operation_Call"
  callee : (e.inner? "Name").bind (·.attr? "value") = some a.callee
  inputs : a.inputs = (Subst.optionalList e "Input_Parameters").length
  outputs : a.outputs = (Subst.optionalList e "Output_Parameters").length
  formals : ∃ op, e.first? "Operation" = some op ∧
    a.formalInputs = (Subst.optionalList op "Input_Parameters").length ∧
    a.formalOutputs = (Subst.optionalList op "Output_Parameters").length
  disagree : ¬a.Agrees

end Element

namespace Fault

/-- A fault is about an element: its only position is that of the element, it has one category, an
absent child is absent from the element, and parameters that do not agree are those of the element,
which is a call. -/
structure About (f : Fault) (e : Element) : Prop where
  positions : f.positions = [e.position]
  category : ∃! c, f.category? = some c
  missing : ∀ child within, f.missing? = some (child, within) → within = e.tag
  arity : ∀ a, f.arity? = some a → e.CallCounts a

/-- A fault is about an element or about one inside it. -/
def PointsInto (f : Fault) (e : Element) : Prop :=
  ∃ d, e.Holds d ∧ f.About d

theorem About.pointsInto {f : Fault} {e : Element} (h : f.About e) : f.PointsInto e :=
  ⟨e, .refl, h⟩

theorem PointsInto.mono {f : Fault} {e c : Element} (hc : e.Holds c) (h : f.PointsInto c) :
    f.PointsInto e :=
  let ⟨d, hd, hf⟩ := h
  ⟨d, hc.trans hd, hf⟩

theorem about_complaint {e : Element} {p : Position} (hp : p = e.position) (c : Complaint) :
    (c.fault.locate p).About e where
  positions := by rw [locate_eq p rfl, hp]; rfl
  category := ⟨c.category, rfl, fun _ h => (Option.some.inj h).symm⟩
  missing _ _ h := by cases h
  arity _ h := by cases h

theorem about_missing (e : Element) (child : String) :
    (locate e.position (.missing child e.tag)).About e where
  positions := by rw [locate_eq _ rfl]; rfl
  category := ⟨.missingChild, rfl, fun _ h => (Option.some.inj h).symm⟩
  missing _ _ h := by cases h; rfl
  arity _ h := by cases h

theorem about_arity {e : Element} {a : Arity} (h : e.CallCounts a) :
    (locate e.position (.arity a)).About e where
  positions := by rw [locate_eq _ rfl]; rfl
  category := ⟨.arityMismatch, rfl, fun _ h => (Option.some.inj h).symm⟩
  missing _ _ h := by cases h
  arity _ ha := by cases ha; exact h

end Fault

/-! ## Rules for readers -/

/-- Whatever goes wrong is about the element or about one inside it. -/
def Element.Blamed {α : Type} (e : Element) (r : Except Fault α) : Prop :=
  ∀ f, r = .error f → f.PointsInto e

namespace Element.Blamed

variable {α β : Type} {e c : Element} {r : Except Fault α}

theorem mono (hc : e.Holds c) (h : c.Blamed r) : e.Blamed r :=
  fun f hf => (h f hf).mono hc

theorem pure (a : α) : e.Blamed (Pure.pure a) :=
  nofun

theorem bind {k : α → Except Fault β} (hr : e.Blamed r) (hk : ∀ a, r = .ok a → e.Blamed (k a)) :
    e.Blamed (r >>= k) := by
  cases r with
  | error f => exact fun g hg => hr g (by cases hg; rfl)
  | ok a => exact hk a rfl

theorem map (f : α → β) (h : e.Blamed r) : e.Blamed (f <$> r) := by
  cases r with
  | error g => exact fun g hg => h g (by cases hg; rfl)
  | ok a => exact nofun

theorem bind_pure (f : α → β) (h : e.Blamed r) : e.Blamed (do let a ← r; Pure.pure (f a)) :=
  h.bind fun a _ => .pure (f a)

theorem mapM {as : List β} {k : β → Except Fault α} (h : ∀ a ∈ as, e.Blamed (k a)) :
    e.Blamed (as.mapM k) := by
  induction as with
  | nil => exact .pure []
  | cons a as ih =>
    rw [List.mapM_cons]
    refine (h a List.mem_cons_self).bind fun b _ => ?_
    exact (ih fun a ha => h a (List.mem_cons_of_mem _ ha)).bind_pure _

theorem tagged (tag : String) (one : Element → Except Fault α)
    {all : List Element → Except Fault (List α)} {es : List Element} (hnil : all [] = Pure.pure [])
    (hcons : ∀ c cs, all (c :: cs) =
      if c.tag = tag then do let a ← one c; let as ← all cs; Pure.pure (a :: as) else all cs)
    (h : ∀ c ∈ es, e.Blamed (one c)) : e.Blamed (all es) := by
  induction es with
  | nil =>
    rw [hnil]
    exact .pure []
  | cons c cs ih =>
    have hcs := ih fun d hd => h d (List.mem_cons_of_mem _ hd)
    rw [hcons]
    split
    · exact (h c List.mem_cons_self).bind fun a _ => hcs.bind_pure _
    · exact hcs

end Element.Blamed

/-! ## Demands on an element -/

namespace Element

variable {α : Type} (e : Element)

theorem blamed_complain (c : Complaint) : e.Blamed (e.complain c : Except Fault α) := by
  rintro _ ⟨⟩
  exact (Fault.about_complaint rfl c).pointsInto

theorem blamed_lacks (child : String) : e.Blamed (e.lacks child : Except Fault α) := by
  rintro _ ⟨⟩
  exact (Fault.about_missing e child).pointsInto

theorem blamed_needAttr (name : String) : e.Blamed (e.needAttr name) := by
  unfold needAttr
  split
  · exact .pure _
  · exact e.blamed_complain _

theorem blamed_needInt (name : String) : e.Blamed (e.needInt name) := by
  unfold needInt
  refine (e.blamed_needAttr name).bind fun v _ => ?_
  split
  · exact .pure _
  · exact e.blamed_complain _

theorem blamed_needChild (tag : String) : e.Blamed (e.needChild tag) := by
  unfold needChild
  split
  · exact .pure _
  · exact e.blamed_lacks _

theorem blamed_needInner (tag : String) : e.Blamed (e.needInner tag) := by
  unfold needInner
  refine (e.blamed_needChild tag).bind fun w _ => ?_
  split
  · exact .pure _
  · exact e.blamed_lacks _

theorem blamed_needOne : e.Blamed e.needOne := by
  unfold needOne
  split
  · exact .pure _
  · exact e.blamed_lacks _

theorem blamed_needTwo : e.Blamed e.needTwo := by
  unfold needTwo
  split
  · exact .pure _
  · exact e.blamed_lacks _

theorem blamed_needThree : e.Blamed e.needThree := by
  unfold needThree
  split
  · exact .pure _
  · exact e.blamed_lacks _

theorem blamed_checkLabels (labels : List String) : e.Blamed (Ty.checkLabels e labels) := by
  unfold Ty.checkLabels
  split
  · exact e.blamed_complain _
  · exact .pure _

end Element

end BMethod
