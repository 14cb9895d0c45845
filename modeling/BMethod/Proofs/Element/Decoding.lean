import Mathlib
import BMethod.Element.Decode
import BMethod.Proofs.Element.Parts

/-!
# What decoding carries on

A document is built token by token. What its tokens bring along, what open elements keep when text
and children are added to them, and what finished elements have then, the root element has as well.
-/

namespace BMethod.Element

/-- Properties of tokens, of open elements and of finished ones, each of which leads to the next. -/
structure Carried (T : Xml.Token → Prop) (O : Opened → Prop) (P : Element → Prop) : Prop where
  start : ∀ {line name attrs}, T (.start line name attrs) → O (.start line name attrs)
  addText : ∀ {o s}, O o → T (.text s) → O { o with text := o.text ++ s }
  addChild : ∀ {o e}, O o → P e → O { o with children := o.children ++ [e] }
  finish : ∀ {o}, O o → P o.finish

/-- All elements of a document that is read in part have the properties. -/
structure Draft.Holds (O : Opened → Prop) (P : Element → Prop) (d : Draft) : Prop where
  root : ∀ e, d.root = some e → P e
  stack : ∀ o ∈ d.stack, O o

namespace Carried

variable {T : Xml.Token → Prop} {O : Opened → Prop} {P : Element → Prop} {d d' : Draft}

theorem attach (h : Carried T O P) {root : Option Element} {os : List Opened} {e : Element}
    (hd : Draft.Holds O P ⟨root, os⟩) (he : P e) : (Draft.attach e root os).Holds O P := by
  cases os with
  | nil =>
    refine ⟨?_, by simp [Draft.attach]⟩
    intro e' he'
    cases he'
    exact he
  | cons o os =>
    refine ⟨hd.root, ?_⟩
    intro o' ho'
    rcases List.mem_cons.1 ho' with rfl | ho'
    · exact h.addChild (hd.stack o List.mem_cons_self) he
    · exact hd.stack o' (List.mem_cons_of_mem _ ho')

theorem step (h : Carried T O P) {t : Xml.Token} (hd : d.Holds O P) (ht : T t)
    (hstep : d.step t = .ok d') : d'.Holds O P := by
  cases t with
  | start line name attrs =>
    rw [Draft.step] at hstep
    split at hstep
    · cases hstep
    · cases hstep
      refine ⟨hd.root, ?_⟩
      intro o ho
      rcases List.mem_cons.1 ho with rfl | ho
      · exact h.start ht
      · exact hd.stack o ho
  | stop line name =>
    obtain ⟨root, stack⟩ := d
    cases stack with
    | nil => cases hstep
    | cons o os =>
      simp only [Draft.step] at hstep
      split at hstep
      · cases hstep
      · -- The innermost element is finished and goes into the one around it, or becomes the root.
        cases hstep
        refine h.attach ⟨hd.root, ?_⟩ (h.finish (hd.stack o List.mem_cons_self))
        intro o' ho'
        exact hd.stack o' (List.mem_cons_of_mem _ ho')
  | text s =>
    obtain ⟨root, stack⟩ := d
    cases stack with
    | nil =>
      cases hstep
      exact hd
    | cons o os =>
      cases hstep
      refine ⟨hd.root, ?_⟩
      intro o' ho'
      rcases List.mem_cons.1 ho' with rfl | ho'
      · exact h.addText (hd.stack o List.mem_cons_self) ht
      · exact hd.stack o' (List.mem_cons_of_mem _ ho')
  | aside =>
    cases hstep
    exact hd

theorem foldlM (h : Carried T O P) {ts : List Xml.Token} (hd : d.Holds O P)
    (hts : ∀ t ∈ ts, T t) (hfold : ts.foldlM Draft.step d = .ok d') : d'.Holds O P := by
  induction ts generalizing d with
  | nil =>
    cases hfold
    exact hd
  | cons t ts ih =>
    rw [List.foldlM_cons] at hfold
    obtain ⟨e, he, hfold⟩ := bind_eq_ok.1 hfold
    have hstep := h.step hd (hts t List.mem_cons_self) he
    exact ih hstep (fun t ht => hts t (List.mem_cons_of_mem _ ht)) hfold

theorem decode (h : Carried T O P) {document : List Text.Scalar} {e : Element}
    (htokens : ∀ t ∈ (Xml.tokens document).tokens, T t)
    (hdecode : Element.decode document = .ok e) : P e := by
  obtain ⟨d, hd, hfinish⟩ := bind_eq_ok.1 hdecode
  have hempty : Draft.empty.Holds O P := ⟨by simp [Draft.empty], by simp [Draft.empty]⟩
  have hholds := h.foldlM hempty htokens hd
  unfold Draft.finish at hfinish
  split at hfinish
  · cases hfinish
  · split at hfinish
    · split at hfinish
      · cases hfinish
        exact hholds.root _ ‹_›
      · cases hfinish
    · cases hfinish

end Carried

end BMethod.Element
