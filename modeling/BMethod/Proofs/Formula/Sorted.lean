import Mathlib
import BMethod.Proofs.Expr.Image
import BMethod.Proofs.Subst.RoundTrip
import BMethod.Proofs.Goal.Reading
import BMethod.Proofs.Goal.Lift
import BMethod.Proofs.Ty.Label
import BMethod.Proofs.Text.Order

/-!
# Records that were read are sorted

The items of every record and every record set that was read have increasing labels, in the order of
their bytes, wherever in an expression, a predicate, a substitution or a goal they are.
-/

namespace BMethod

/-- The labels increase, in the order of their bytes. -/
def Increasing {α : Type} (items : List (String × α)) : Prop :=
  items.Pairwise fun i j => Text.BytesLt i.1 j.1

theorem increasing_sortByLabel {α : Type} {items : List (String × α)}
    (h : (items.map (·.1)).Nodup) : Increasing (sortByLabel items) := by
  have hnodup := (((sortByLabel_perm items).map (·.1)).nodup_iff).2 h
  exact (lt_of_sorted (sorted_sortByLabel items) hnodup).imp Text.bytesLt_of_lt

/-! ## Expressions and predicates -/

mutual
/-- All records and record sets in the expression have increasing labels. -/
inductive Expr.Sorted : Expr → Prop
  | absent : Expr.Sorted .absent
  | constant {info : Info} {kind : Constant} : Expr.Sorted (.constant info kind)
  | ident {info : Info} {name : VarName} : Expr.Sorted (.ident info name)
  | integer {info : Info} {digits : String} : Expr.Sorted (.integer info digits)
  | string {info : Info} {value : String} : Expr.Sorted (.string info value)
  | real {info : Info} {whole fraction : String} : Expr.Sorted (.real info whole fraction)
  | unary {info : Info} {op : UnaryOp} {x : Expr} (hx : Expr.Sorted x) :
      Expr.Sorted (.unary info op x)
  | binary {info : Info} {op : BinaryOp} {x y : Expr} (hx : Expr.Sorted x) (hy : Expr.Sorted y) :
      Expr.Sorted (.binary info op x y)
  | ternary {info : Info} {op : TernaryOp} {x y z : Expr} (hx : Expr.Sorted x) (hy : Expr.Sorted y)
      (hz : Expr.Sorted z) : Expr.Sorted (.ternary info op x y z)
  | nary {info : Info} {op : NaryOp} {xs : List Expr} (hxs : ∀ x ∈ xs, Expr.Sorted x) :
      Expr.Sorted (.nary info op xs)
  | bool {info : Info} {p : Pred} (hp : Pred.Sorted p) : Expr.Sorted (.bool info p)
  | struct {info : Info} {items : List (String × Expr)} (labels : Increasing items)
      (hitems : ∀ i ∈ items, Expr.Sorted i.2) : Expr.Sorted (.struct info items)
  | record {info : Info} {items : List (String × Expr)} (labels : Increasing items)
      (hitems : ∀ i ∈ items, Expr.Sorted i.2) : Expr.Sorted (.record info items)
  | quantified {info : Info} {op : QuantifiedOp} {vars : List TypedVar} {guard : Pred} {body : Expr}
      (hguard : Pred.Sorted guard) (hbody : Expr.Sorted body) :
      Expr.Sorted (.quantified info op vars guard body)
  | comprehension {info : Info} {vars : List TypedVar} {body : Pred} (hbody : Pred.Sorted body) :
      Expr.Sorted (.comprehension info vars body)
  | field {info : Info} {label : String} {x : Expr} (hx : Expr.Sorted x) :
      Expr.Sorted (.field info label x)
  | update {info : Info} {label : String} {x value : Expr} (hx : Expr.Sorted x)
      (hvalue : Expr.Sorted value) : Expr.Sorted (.update info label x value)

/-- All records and record sets in the predicate have increasing labels. -/
inductive Pred.Sorted : Pred → Prop
  | absent : Pred.Sorted .absent
  | truth : Pred.Sorted .truth
  | falsity : Pred.Sorted .falsity
  | implies {p q : Pred} (hp : Pred.Sorted p) (hq : Pred.Sorted q) : Pred.Sorted (.implies p q)
  | equiv {p q : Pred} (hp : Pred.Sorted p) (hq : Pred.Sorted q) : Pred.Sorted (.equiv p q)
  | compare {op : Comparison} {x y : Expr} (hx : Expr.Sorted x) (hy : Expr.Sorted y) :
      Pred.Sorted (.compare op x y)
  | not {p : Pred} (hp : Pred.Sorted p) : Pred.Sorted (.not p)
  | and {ps : List Pred} (hps : ∀ p ∈ ps, Pred.Sorted p) : Pred.Sorted (.and ps)
  | or {ps : List Pred} (hps : ∀ p ∈ ps, Pred.Sorted p) : Pred.Sorted (.or ps)
  | forAll {vars : List TypedVar} {body : Pred} (hbody : Pred.Sorted body) :
      Pred.Sorted (.forAll vars body)
  | forSome {vars : List TypedVar} {body : Pred} (hbody : Pred.Sorted body) :
      Pred.Sorted (.forSome vars body)
end

variable {t : Table} {e : Element}

theorem Expr.sorted_items {items : List (String × Expr)} (h : ∀ i ∈ items, i.2.Sorted) :
    ∀ i ∈ sortByLabel items, i.2.Sorted :=
  fun i hi => h i (mem_sortByLabel.1 hi)

theorem Expr.Form.sorted {x : Expr}
    (h : Expr.Form t (fun c y => Expr.Reads t c y ∧ y.Sorted)
      (fun c q => Pred.Reads t c q ∧ q.Sorted) e x) : x.Sorted := by
  cases h with
  | named | truth | falsity | emptySet | emptySeq => exact .constant
  | ident | fresh => exact .ident
  | integer => exact .integer
  | string => exact .string
  | real => exact .real
  | unary _ _ _ _ _ arg => exact .unary arg.2
  | binary _ _ _ _ _ _ left right => exact .binary left.2 right.2
  | ternary _ _ _ _ _ _ _ left middle right => exact .ternary left.2 middle.2 right.2
  | nary _ _ _ _ args => exact .nary (forall_of_forall₂ args)
  | bool _ _ _ arg => exact .bool arg.2
  | struct _ _ fields nodup =>
    exact .struct (increasing_sortByLabel nodup) (Expr.sorted_items fields.forall)
  | record _ _ fields nodup =>
    exact .record (increasing_sortByLabel nodup) (Expr.sorted_items fields.forall)
  | quantified _ _ _ _ _ _ _ guard _ body => exact .quantified guard.2 body.2
  | comprehension _ _ _ _ _ body => exact .comprehension body.2
  | field _ _ _ _ arg => exact .field arg.2
  | update _ _ _ _ _ left right => exact .update left.2 right.2

theorem Pred.Form.sorted {p : Pred}
    (h : Pred.Form t (fun c y => Expr.Reads t c y ∧ y.Sorted)
      (fun c q => Pred.Reads t c q ∧ q.Sorted) e p) : p.Sorted := by
  cases h with
  | tagged _ _ arg => exact arg.2
  | joined joins =>
    cases joins with
    | implies _ _ _ _ left right => exact .implies left.2 right.2
    | equiv _ _ _ _ left right => exact .equiv left.2 right.2
    | @compare _ _ _ op negated x y _ _ _ _ _ left right =>
      have hcompare : (Pred.compare op x y).Sorted := .compare left.2 right.2
      cases negated with
      | false => exact hcompare
      | true => exact .not hcompare
    | not _ _ _ arg => exact .not arg.2
    | @and ps _ _ args =>
      cases ps with
      | nil => exact .truth
      | cons => exact .and (forall_of_forall₂ args)
    | @or ps _ _ args =>
      cases ps with
      | nil => exact .falsity
      | cons => exact .or (forall_of_forall₂ args)
    | forAll _ _ _ _ _ body => exact .forAll body.2
    | forSome _ _ _ _ _ body => exact .forSome body.2

theorem reads_sorted (e : Element) :
    (∀ x, Expr.Reads t e x → x.Sorted) ∧ ∀ p, Pred.Reads t e p → p.Sorted :=
  Expr.read_induction (P := fun _ x => x.Sorted) (Q := fun _ p => p.Sorted)
    (fun _ _ h => h.sorted) (fun _ _ h => h.sorted) e

theorem Expr.Reads.sorted {x : Expr} (h : Expr.Reads t e x) : x.Sorted :=
  (reads_sorted e).1 x h

theorem Pred.Reads.sorted {p : Pred} (h : Pred.Reads t e p) : p.Sorted :=
  (reads_sorted e).2 p h

/-! ## Substitutions -/

namespace Subst

/-- All records and record sets in the substitution have increasing labels. -/
inductive Sorted : Subst → Prop
  | absent : Sorted .absent
  | skip : Sorted .skip
  | block {body : Subst} (hbody : Sorted body) : Sorted (.block body)
  | assert {guard : Pred} {body : Subst} {precondition : Bool} (hguard : guard.Sorted)
      (hbody : Sorted body) : Sorted (.assert guard body precondition)
  | ifThen {cond : Pred} {body otherwise : Subst} (hcond : cond.Sorted) (hbody : Sorted body)
      (hotherwise : Sorted otherwise) : Sorted (.ifThen cond body otherwise)
  | assign {vars : List TypedVar} {values : List Expr} (hvalues : ∀ x ∈ values, x.Sorted) :
      Sorted (.assign vars values)
  | select {whens : List (Pred × Subst)} {otherwise : Subst}
      (hguards : ∀ w ∈ whens, w.1.Sorted) (hbodies : ∀ w ∈ whens, Sorted w.2)
      (hotherwise : Sorted otherwise) : Sorted (.select whens otherwise)
  | case {value : Expr} {choices : List (List Expr × Subst)} {otherwise : Subst}
      (hvalue : value.Sorted) (hvalues : ∀ c ∈ choices, ∀ x ∈ c.1, x.Sorted)
      (hbodies : ∀ c ∈ choices, Sorted c.2) (hotherwise : Sorted otherwise) :
      Sorted (.case value choices otherwise)
  | any {vars : List TypedVar} {guard : Pred} {body : Subst} (hguard : guard.Sorted)
      (hbody : Sorted body) : Sorted (.any vars guard body)
  | witness {witnesses : List (String × Expr)} {body : Subst}
      (hwitnesses : ∀ w ∈ witnesses, w.2.Sorted) (hbody : Sorted body) :
      Sorted (.witness witnesses body)
  | call {name : String} {inputs : List Expr} {outputs formalInputs formalOutputs : List TypedVar}
      {pre : Pred} {body : Subst} (hinputs : ∀ x ∈ inputs, x.Sorted) (hpre : pre.Sorted)
      (hbody : Sorted body) : Sorted (.call name inputs outputs formalInputs formalOutputs pre body)
  | while {cond invariant : Pred} {body : Subst} {variant : Expr} (hcond : cond.Sorted)
      (hbody : Sorted body) (hinvariant : invariant.Sorted) (hvariant : variant.Sorted) :
      Sorted (.while cond body invariant variant)
  | nary {op : Composition} {parts : List Subst} (hparts : ∀ s ∈ parts, Sorted s) :
      Sorted (.nary op parts)

theorem ElseForm.sorted {o : Subst}
    (h : ElseForm (fun c s => Subst.Reads t c s ∧ s.Sorted) e o) : o.Sorted := by
  cases h with
  | none => exact .absent
  | some _ branch => exact branch.2

theorem PreForm.sorted {p : Pred} (h : PreForm (Pred.Reads t) e p) : (givenPre p).Sorted := by
  cases h with
  | none => exact .truth
  | some _ pre =>
    rw [givenPre_of_wellFormed pre.normal.wellFormed]
    exact pre.sorted

theorem exprs_sorted {es : List Element} {xs : List Expr} (h : List.Forall₂ (Expr.Reads t) es xs) :
    ∀ x ∈ xs, x.Sorted := by
  intro x hx
  obtain ⟨e, -, hx⟩ := exists_of_forall₂_right h hx
  exact hx.sorted

theorem Form.sorted {s : Subst}
    (h : Form t (Expr.Reads t) (Pred.Reads t) (fun c s => Subst.Reads t c s ∧ s.Sorted) e s) :
    s.Sorted := by
  cases h with
  | skip => exact .skip
  | block _ _ body => exact .block body.2
  | assert _ _ guard _ body | pre _ _ guard _ body => exact .assert guard.sorted body.2
  | ifThen _ _ cond _ body otherwise => exact .ifThen cond.sorted body.2 otherwise.sorted
  | assign _ _ _ _ values => exact .assign (exprs_sorted values)
  | select _ _ branches otherwise =>
    refine .select ?_ ?_ otherwise.sorted
    all_goals
      intro w hw
      obtain ⟨c, -, a, b, -, hguard, -, hbody⟩ := exists_of_forall₂_right branches hw
    · exact hguard.sorted
    · exact hbody.2
  | case _ _ value _ branches otherwise =>
    refine .case value.sorted ?_ ?_ otherwise.sorted
    all_goals
      intro c hc
      obtain ⟨d, -, hvalues, -, b, -, hbody⟩ := exists_of_forall₂_right branches hc
    · intro x hx
      obtain ⟨v, -, a, -, hx⟩ := exists_of_forall₂_right hvalues hx
      exact hx.sorted
    · exact hbody.2
  | any _ _ _ _ guard _ body => exact .any guard.sorted body.2
  | witness _ _ _ values _ _ body =>
    refine .witness (Expr.sorted_items ?_) body.2
    intro w hw
    obtain ⟨d, -, -, -, a, b, -, -, -, -, hx⟩ := exists_of_forall₂_right values hw
    exact hx.sorted
  | call _ _ _ inputs _ _ _ _ pre _ body =>
    exact .call (exprs_sorted inputs) pre.sorted body.2
  | «while» _ _ cond _ body _ invariant _ variant =>
    exact .while cond.sorted body.2 invariant.sorted variant.sorted
  | nary _ _ _ parts => exact .nary (forall_of_forall₂ parts)

theorem Reads.sorted {s : Subst} (h : Subst.Reads t e s) : s.Sorted :=
  read_induction (P := fun _ s => s.Sorted) (fun _ _ h => h.sorted) e s h

end Subst

/-! ## Goals -/

namespace Goal

/-- All records and record sets in the goal have increasing labels. -/
inductive Sorted : Goal → Prop
  | absent : Sorted .absent
  | implies {p q : Goal} (hp : Sorted p) (hq : Sorted q) : Sorted (.implies p q)
  | equiv {p q : Goal} (hp : Sorted p) (hq : Sorted q) : Sorted (.equiv p q)
  | compare {op : Comparison} {x y : Expr} (hx : x.Sorted) (hy : y.Sorted) :
      Sorted (.compare op x y)
  | not {p : Goal} (hp : Sorted p) : Sorted (.not p)
  | and {ps : List Goal} (hps : ∀ p ∈ ps, Sorted p) : Sorted (.and ps)
  | or {ps : List Goal} (hps : ∀ p ∈ ps, Sorted p) : Sorted (.or ps)
  | forAll {vars : List TypedVar} {body : Goal} (hbody : Sorted body) : Sorted (.forAll vars body)
  | forSome {vars : List TypedVar} {body : Goal} (hbody : Sorted body) :
      Sorted (.forSome vars body)
  | after {s : Subst} {goal : Goal} {overflow : Bool} (hs : s.Sorted) (hgoal : Sorted goal) :
      Sorted (.after s goal overflow)
  | possible {s : Subst} {p : Pred} (hs : s.Sorted) (hp : p.Sorted) : Sorted (.possible s p)
  | tagged {tag : String} {goal : Goal} (hgoal : Sorted goal) : Sorted (.tagged tag goal)
  | letFresh {name : String} {goal : Goal} (hgoal : Sorted goal) : Sorted (.letFresh name goal)

theorem Form.sorted {g : Goal}
    (h : Form t (Expr.Reads t) (Pred.Reads t) (Subst.Reads t)
      (fun c g => Reads t c g ∧ g.Sorted) e g) : g.Sorted := by
  cases h with
  | joined joins =>
    cases joins with
    | implies _ _ _ _ left right => exact .implies left.2 right.2
    | equiv _ _ _ _ left right => exact .equiv left.2 right.2
    | @compare _ _ _ op negated x y _ _ _ _ _ left right =>
      have hcompare : (Goal.compare op x y).Sorted := .compare left.sorted right.sorted
      cases negated with
      | false => exact hcompare
      | true => exact .not hcompare
    | not _ _ _ arg => exact .not arg.2
    | and _ _ args => exact .and (forall_of_forall₂ args)
    | or _ _ args => exact .or (forall_of_forall₂ args)
    | forAll _ _ _ _ _ body => exact .forAll body.2
    | forSome _ _ _ _ _ body => exact .forSome body.2
  | after _ _ _ _ subst goal => exact .after subst.sorted goal.2
  | possible _ _ _ _ _ _ _ subst pred => exact .possible subst.sorted pred.sorted
  | tagged _ _ _ goal => exact .tagged goal.2
  | letFresh _ _ _ goal => exact .letFresh goal.2

theorem Reads.sorted {g : Goal} (h : Goal.Reads t e g) : g.Sorted :=
  read_induction (P := fun _ g => g.Sorted) (fun _ _ h => h.sorted) e g h

end Goal

/-! ## Predicates as goals -/

theorem Pred.Sorted.lift {p : Pred} (h : p.Sorted) : p.lift.Sorted := by
  cases h with
  | absent => exact .absent
  | truth => exact .and (by simp)
  | falsity => exact .or (by simp)
  | implies hp hq => exact .implies hp.lift hq.lift
  | equiv hp hq => exact .equiv hp.lift hq.lift
  | compare hx hy => exact .compare hx hy
  | not hp => exact .not hp.lift
  | and hps =>
    rw [Pred.lift, Pred.liftAll_eq_map]
    exact .and (List.forall_mem_map.2 fun p hp => (hps p hp).lift)
  | or hps =>
    rw [Pred.lift, Pred.liftAll_eq_map]
    exact .or (List.forall_mem_map.2 fun p hp => (hps p hp).lift)
  | forAll hbody => exact .forAll hbody.lift
  | forSome hbody => exact .forSome hbody.lift

end BMethod
