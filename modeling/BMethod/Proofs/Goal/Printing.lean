import Mathlib
import BMethod.Proofs.Goal.Image
import BMethod.Proofs.Subst.Printing

/-!
# Goals that were read can stand in a document

What is written for a goal that was read from a document can be read back from its text.
-/

namespace BMethod

open Element (Clean Printable)
open Xml (Allowed Faithful PlainName)

variable {t : Table}

namespace Goal

/-- What every step of reading a goal from a document preserves. -/
abbrev Prints (t : Table) (c : Element) (g : Goal) : Prop :=
  Reads t c g ∧ (c.Clean → g.write.Yields Printable)

theorem not_yields {g : Goal} (h : g.write.Yields Printable) :
    (Goal.not g).write.Yields Printable := by
  cases g with
  | compare op x y => exact Write.negated_yields h
  | _ => exact Write.one_yields (by decide) h (by decide)

theorem writers_yield {es : List Element} {gs : List Goal} (hes : ∀ e ∈ es, e.Clean)
    (h : List.Forall₂ (Prints t) es gs) : ∀ w ∈ writers gs, w.Yields Printable := by
  induction h with
  | nil => simp [writers]
  | @cons e _ _ _ hg _ ih =>
    have ih := ih fun c hc => hes c (List.mem_cons_of_mem _ hc)
    exact List.forall_mem_cons.2 ⟨hg.2 (hes e List.mem_cons_self), ih⟩

theorem Form.yields {e : Element} {g : Goal}
    (h : Form t (Expr.Reads t) (Pred.Reads t) (Subst.Reads t) (Prints t) e g) (he : e.Clean) :
    g.write.Yields Printable := by
  cases h with
  | joined joins =>
    cases joins with
    | implies _ _ fst snd left right | equiv _ _ fst snd left right =>
      exact Write.two_yield (by decide) (left.2 (he.child? fst))
        (right.2 (he.child? snd)) (by decide)
    | @compare _ _ _ op negated x y _ _ symbol fst snd left right =>
      have hop := (Comparison.declared_of_ofSymbol? symbol).allowed
      have hcompare : (Goal.compare op x y).write.Yields Printable :=
        Write.two_yield (Faithful.singleton hop (by decide))
          (left.yields (he.child? fst)) (right.yields (he.child? snd)) (by decide)
      cases negated with
      | false => exact hcompare
      | true => exact not_yields hcompare
    | not _ _ fst arg => exact not_yields (arg.2 (he.child? fst))
    | and _ _ args | or _ _ args =>
      refine (Write.Yields.all (writers_yield (fun c hc => he.child hc) args)).bind ?_
      intro cs hcs
      exact .pure (.node (by decide) hcs (by decide))
    | forAll _ _ first listed inner body | forSome _ _ first listed inner body =>
      exact Write.bound_yields (he.first? first) listed (by decide)
        (body.2 (he.inner? inner)) (by decide)
  | @after _ _ _ _ overflow _ _ fst snd subst goal =>
    have hmark : Allowed (if overflow then "true" else "false").toList := by
      cases overflow <;> decide
    exact Write.two_yield (Faithful.singleton hmark (by decide))
      (subst.yields (he.child? fst)) (goal.2 (he.child? snd)) (by decide)
  | possible _ first _ fst snd _ inner subst pred =>
    have hc := he.first? first
    refine (subst.yields (hc.child? fst)).bind fun a ha =>
      (pred.yields ((hc.child? snd).first? inner)).bind ?_
    intro b hb
    have hcalculus : Printable (.wrap "Sub_Calculus" [a, .wrap "Not" [b]]) :=
      .wrap (by simpa using ⟨ha, .wrapOne hb (by decide)⟩) (by decide)
    exact .pure (.wrapOne hcalculus (by decide))
  | tagged _ attr first goal | letFresh _ attr first goal =>
    exact Write.one_yields (Faithful.singleton (he.attr attr) (by decide))
      (goal.2 (he.first? first)) (by decide)

theorem Reads.yields {e : Element} {g : Goal} (h : Goal.Reads t e g) (he : e.Clean) :
    g.write.Yields Printable :=
  read_induction (P := fun e g => e.Clean → g.write.Yields Printable)
    (fun _ _ h => h.yields) e g h he

end Goal

end BMethod
