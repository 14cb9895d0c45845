import Mathlib
import BMethod.Proofs.Expr.Outcome
import BMethod.Proofs.Subst.Normal

/-!
# Outcomes of writing substitutions

The parts of a substitution that may be refused, in the order in which they are met. An absent branch
for when nothing else applies and an absent precondition are left out, so they are not among them.
Substitutions are written in the same way on all pools, but for the numbers of types.
-/

namespace BMethod

/-! ## Parts -/

def Pred.givenParts : Pred → List Part
  | .absent => []
  | p => p.parts

/-- The parts of a witness. Its type is asked for before it is written, so it must not be absent. -/
def Expr.witnessParts : Expr → List Part
  | .absent => [.noWitness]
  | x => x.parts

def Subst.branchParts (none : Bool) (parts : List Part) : List Part :=
  if none then [] else parts

mutual
def Subst.parts : Subst → List Part
  | .absent => [.noSubstitution]
  | .skip => []
  | .block body => body.parts
  | .assert guard body _ => guard.parts ++ body.parts
  | .ifThen cond body otherwise =>
    cond.parts ++ (body.parts ++ Subst.branchParts otherwise.isAbsent otherwise.parts)
  | .assign vars values => TypedVar.parts vars ++ Expr.partsAll values
  | .select whens otherwise =>
    Subst.whenParts whens ++ Subst.branchParts otherwise.isAbsent otherwise.parts
  | .case value choices otherwise =>
    Subst.choiceParts choices ++
      (value.parts ++ Subst.branchParts otherwise.isAbsent otherwise.parts)
  | .any vars guard body => TypedVar.parts vars ++ (guard.parts ++ body.parts)
  | .witness ws body => ((sortByLabel ws).flatMap fun w => w.2.witnessParts) ++ body.parts
  | .call _ inputs outputs formalInputs formalOutputs pre body =>
    Expr.partsAll inputs ++ (TypedVar.parts outputs ++ (TypedVar.parts formalOutputs ++
      (TypedVar.parts formalInputs ++ (pre.givenParts ++ body.parts))))
  | .while cond body invariant variant =>
    cond.parts ++ (body.parts ++ (invariant.parts ++ variant.parts))
  | .nary _ parts => Subst.partsAll parts

def Subst.whenParts : List (Pred × Subst) → List Part
  | [] => []
  | (guard, body) :: whens => (guard.parts ++ body.parts) ++ Subst.whenParts whens

def Subst.choiceParts : List (List Expr × Subst) → List Part
  | [] => []
  | (values, body) :: choices => (Expr.partsAll values ++ body.parts) ++ Subst.choiceParts choices

def Subst.partsAll : List Subst → List Part
  | [] => []
  | s :: ss => s.parts ++ Subst.partsAll ss
end

namespace Subst

/-! ## Parts that may be left out -/

theorem optionalVars_portable (tag : String) (vars : List TypedVar) :
    (optionalVars tag vars).PortableAll (TypedVar.parts vars) (vars.map (·.ty)) := by
  unfold optionalVars
  cases vars with
  | nil => exact .pure fun us us' => .nil
  | cons v vars =>
    refine (Write.typedVars_portable tag (v :: vars)).bind_pure ?_
    intro us us' e e' he
    exact .cons he .nil

theorem optionalInputs_portable (xs : List Expr) :
    (optionalInputs xs).PortableAll (Expr.partsAll xs) (Expr.typesAll xs) := by
  unfold optionalInputs
  cases xs with
  | nil => exact .pure fun us us' => .nil
  | cons x xs =>
    refine (Expr.writers_portable (x :: xs)).bind_pure ?_
    intro us us' es es' hes
    exact .cons (.wrap hes) .nil

theorem optionalPrecondition_portable (p : Pred) :
    (optionalPrecondition p).PortableAll p.givenParts p.types := by
  have hwritten : Write.PortableAll (p.write >>= fun e => pure [.wrap "Precondition" [e]])
      p.parts p.types := by
    refine p.write_portable.bind_pure ?_
    intro us us' e e' he
    exact .cons (.wrap (.cons he .nil)) .nil
  cases p with
  | absent | truth => exact .pure fun us us' => .nil
  | _ => exact hwritten

theorem elsePart_portable {s : Subst} (h : s.write.Portable s.parts s.types) :
    (elsePart s.isAbsent s.write).PortableAll (branchParts s.isAbsent s.parts) s.types := by
  have hwritten : Write.PortableAll (s.write >>= fun e => pure [.wrap "Else" [e]])
      s.parts s.types := by
    refine h.bind_pure ?_
    intro us us' e e' he
    exact .cons (.wrap (.cons he .nil)) .nil
  cases s with
  | absent => exact .pure fun us us' => .nil
  | _ => exact hwritten

/-! ## Witnesses and values -/

theorem writeWitness_portable (label : String) (x : Expr) :
    (writeWitness label x).Portable x.witnessParts x.witnessTypes := by
  unfold writeWitness Expr.witnessTypes
  cases hinfo : x.info? with
  | none =>
    obtain rfl : x = .absent := by cases x <;> first | rfl | cases hinfo
    exact .throw .noWitness trivial []
  | some info =>
    have hparts : x.witnessParts = x.parts := by cases x <;> first | rfl | cases hinfo
    rw [hparts]
    refine ((Write.typeRef_matched info.ty).bind fun r r' =>
      x.write_portable.bind_pure ?_).of_eq (List.nil_append _) rfl
    intro us us' e e' he hr
    refine .group (.cons (.mk (.cons (.kept ?_) (.cons hr .nil)) .nil) (.cons he .nil)) ?_
    all_goals simp

theorem witnessElement_counterpart {us us' : List Ty} {es es' : List Element}
    (h : List.Forall₂ (Element.Counterpart us us') es es') :
    Element.Counterpart us us' (witnessElement es) (witnessElement es') := by
  match es, es', h with
  | [], [], .nil => exact .group .nil (by simp)
  | [_], [_], .cons he .nil => exact he
  | _ :: _ :: _, _ :: _ :: _, .cons he hes => exact .group (.cons he hes) (by simp)

theorem writeWitnesses_portable (ws : List (String × Expr)) :
    (writeWitnesses ws).Portable ((sortByLabel ws).flatMap fun w => w.2.witnessParts)
      ((sortByLabel ws).flatMap fun w => w.2.witnessTypes) := by
  have hall : (Write.all ((sortByLabel ws).map fun w => writeWitness w.1 w.2)).PortableAll _ _ :=
    .all fun w _ => writeWitness_portable w.1 w.2
  rw [writeWitnesses_eq]
  exact hall.bind_pure fun _ _ _ _ => witnessElement_counterpart

theorem writeValues_portable (xs : List Expr) :
    (writeValues xs).PortableAll (Expr.partsAll xs) (Expr.typesAll xs) := by
  refine (Expr.writers_portable xs).bind_pure ?_
  intro us us' es es' hes
  rw [List.forall₂_map_left_iff, List.forall₂_map_right_iff]
  exact hes.imp fun e e' he => .wrap (.cons he .nil)

end Subst

/-! ## Trees -/

mutual
theorem Subst.write_portable (s : Subst) : s.write.Portable s.parts s.types := by
  cases s with
  | absent => exact .throw .noSubstitution trivial []
  | skip => exact .pure fun us us' => .wrap .nil
  | block body =>
    refine body.write_portable.bind_pure ?_
    intro us us' b b' hb
    exact .wrap (.cons hb .nil)
  | assert guard body precondition =>
    cases precondition with
    | false | true =>
      refine guard.write_portable.bind fun a a' => body.write_portable.bind_pure ?_
      intro us us' b b' hb ha
      exact .wrap (.cons (.wrap (.cons ha .nil)) (.cons (.wrap (.cons hb .nil)) .nil))
  | ifThen cond body otherwise =>
    refine cond.write_portable.bind fun a a' => body.write_portable.bind fun b b' =>
      (Subst.elsePart_portable otherwise.write_portable).bind_pure ?_
    intro us us' es es' hes hb ha
    exact .wrap (.cons (.wrap (.cons ha .nil)) (.cons (.wrap (.cons hb .nil)) hes))
  | assign vars values =>
    refine (Write.typedVars_portable _ vars).bind fun v v' =>
      (Expr.writers_portable values).bind_pure ?_
    intro us us' es es' hes hv
    exact .wrap (.cons hv (.cons (.wrap hes) .nil))
  | select whens otherwise =>
    refine (Subst.whens_portable whens).bind fun ws ws' =>
      (Subst.elsePart_portable otherwise.write_portable).bind_pure ?_
    intro us us' es es' hes hws
    exact .wrap (.cons (.wrap hws) hes)
  | case value choices otherwise =>
    refine (Subst.choices_portable choices).bind fun cs cs' => value.write_portable.bind fun a a' =>
      (Subst.elsePart_portable otherwise.write_portable).bind_pure ?_
    intro us us' es es' hes ha hcs
    exact .wrap (.cons (.wrap (.cons ha .nil)) (.cons (.wrap hcs) hes))
  | any vars guard body =>
    refine (Write.typedVars_portable _ vars).bind fun v v' => guard.write_portable.bind fun a a' =>
      body.write_portable.bind_pure ?_
    intro us us' b b' hb ha hv
    exact .wrap
      (.cons hv (.cons (.wrap (.cons ha .nil)) (.cons (.wrap (.cons hb .nil)) .nil)))
  | witness ws body =>
    refine (Subst.writeWitnesses_portable ws).bind fun w w' => body.write_portable.bind_pure ?_
    intro us us' b b' hb hw
    exact .wrap (.cons (.wrap (.cons hw .nil)) (.cons (.wrap (.cons hb .nil)) .nil))
  | call name inputs outputs formalInputs formalOutputs pre body =>
    refine (Subst.optionalInputs_portable inputs).bind fun ins ins' => ?_
    refine (Subst.optionalVars_portable _ outputs).bind fun outs outs' => ?_
    refine (Subst.optionalVars_portable _ formalOutputs).bind fun fouts fouts' => ?_
    refine (Subst.optionalVars_portable _ formalInputs).bind fun fins fins' => ?_
    refine (Subst.optionalPrecondition_portable pre).bind fun pres pres' =>
      body.write_portable.bind_pure ?_
    intro us us' b b' hb hpres hfins hfouts houts hins
    have hname : Element.Counterpart us us'
        (.wrap "Name" [.node "Id" [⟨"value", name⟩] []])
        (.wrap "Name" [.node "Id" [⟨"value", name⟩] []]) :=
      .wrap (.cons (.group .nil (by simp)) .nil)
    have hparts := List.rel_append (List.rel_append hfouts hfins) hpres
    have hop : Element.Counterpart us us'
        (.node "Operation" [⟨"name", name⟩] (fouts ++ fins ++ pres ++ [.wrap "Body" [b]]))
        (.node "Operation" [⟨"name", name⟩] (fouts' ++ fins' ++ pres' ++ [.wrap "Body" [b']])) :=
      .group (List.rel_append hparts (.cons (.wrap (.cons hb .nil)) .nil)) (by simp)
    exact .wrap (.cons hname
      (List.rel_append (List.rel_append hins houts) (.cons hop .nil)))
  | «while» cond body invariant variant =>
    refine cond.write_portable.bind fun a a' => body.write_portable.bind fun b b' =>
      invariant.write_portable.bind fun c c' => variant.write_portable.bind_pure ?_
    intro us us' d d' hd hc hb ha
    exact .wrap (.cons (.wrap (.cons ha .nil)) (.cons (.wrap (.cons hb .nil))
      (.cons (.wrap (.cons hc .nil)) (.cons (.wrap (.cons hd .nil)) .nil))))
  | nary op parts =>
    refine (Subst.writers_portable parts).bind_pure ?_
    intro us us' es es' hes
    exact .group hes (by simp)

theorem Subst.whens_portable (whens : List (Pred × Subst)) :
    (Write.all (Subst.whenWriters whens)).PortableAll (Subst.whenParts whens)
      (Subst.whenTypes whens) := by
  cases whens with
  | nil => exact .pure fun us us' => .nil
  | cons w whens =>
    have hw : Write.Portable (w.1.write >>= fun a => w.2.write >>= fun b =>
        pure (.wrap "When" [.wrap "Condition" [a], .wrap "Then" [b]]))
        (w.1.parts ++ w.2.parts) (w.1.types ++ w.2.types) := by
      refine w.1.write_portable.bind fun a a' => w.2.write_portable.bind_pure ?_
      intro us us' b b' hb ha
      exact .wrap (.cons (.wrap (.cons ha .nil)) (.cons (.wrap (.cons hb .nil)) .nil))
    refine hw.bind fun e e' => (Subst.whens_portable whens).bind_pure ?_
    intro us us' es es' hes he
    exact .cons he hes

theorem Subst.choices_portable (choices : List (List Expr × Subst)) :
    (Write.all (Subst.choiceWriters choices)).PortableAll (Subst.choiceParts choices)
      (Subst.choiceTypes choices) := by
  cases choices with
  | nil => exact .pure fun us us' => .nil
  | cons c choices =>
    have hc : Write.Portable (Subst.writeValues c.1 >>= fun vs => c.2.write >>= fun b =>
        pure (.wrap "Choice" (vs ++ [.wrap "Then" [b]])))
        (Expr.partsAll c.1 ++ c.2.parts) (Expr.typesAll c.1 ++ c.2.types) := by
      refine (Subst.writeValues_portable c.1).bind fun vs vs' => c.2.write_portable.bind_pure ?_
      intro us us' b b' hb hvs
      exact .wrap (List.rel_append hvs (.cons (.wrap (.cons hb .nil)) .nil))
    refine hc.bind fun e e' => (Subst.choices_portable choices).bind_pure ?_
    intro us us' es es' hes he
    exact .cons he hes

theorem Subst.writers_portable (ss : List Subst) :
    (Write.all (Subst.writers ss)).PortableAll (Subst.partsAll ss) (Subst.typesAll ss) := by
  cases ss with
  | nil => exact .pure fun us us' => .nil
  | cons s ss =>
    refine s.write_portable.bind fun e e' => (Subst.writers_portable ss).bind_pure ?_
    intro us us' es es' hes he
    exact .cons he hes
end

end BMethod
