import Mathlib
import BMethod.Proofs.Expr.Image
import BMethod.Proofs.Formula.Printing

/-!
# Expressions and predicates that were read can stand in a document

What is written for an expression or a predicate that was read from a document can be read back from
its text.
-/

namespace BMethod

open Element (Clean Printable)
open Xml (Allowed Faithful PlainName)

variable {t : Table}

/-! ## Expressions -/

theorem Write.constant_yields {e : Element} {info : Info} {kind : Constant} (he : e.Clean)
    (hinfo : Info.read t e = .ok info) (hkind : kind.Declared) :
    (Write.constant info kind).Yields Printable := by
  unfold Write.constant
  split_ifs
  · exact leaf_yields he hinfo (by simp) (by decide)
  · exact leaf_yields he hinfo (by simp) (by decide)
  · exact leaf_yields he hinfo (by decide) (by decide)
  · exact leaf_yields he hinfo (by decide) (by decide)
  · exact leaf_yields he hinfo
      (Faithful.singleton (hkind.allowed) (by decide)) (by decide)

theorem Write.ident_yields {e : Element} {info : Info} {name : VarName} (he : e.Clean)
    (hinfo : Info.read t e = .ok info) (hname : VarName.Form e name) :
    (Write.ident info name).Yields Printable := by
  refine (varAttrs_yields he hname).bind ?_
  rintro ⟨tag, attrs⟩ ⟨htag, hattrs⟩
  exact leaf_yields he hinfo hattrs htag

/-! ## Real literals and items -/

theorem Expr.allowed_realText {text : String} (h : Allowed text.toList) :
    Allowed (Expr.realText (Expr.splitReal text).1 (Expr.splitReal text).2).toList := by
  have hwhole : Allowed (Expr.splitReal text).1.toList := by
    intro c hc
    rw [Expr.splitReal, String.toList_ofList] at hc
    exact h c ((List.takeWhile_sublist _).subset hc)
  have hfraction : Allowed (Expr.splitReal text).2.toList := by
    intro c hc
    rw [Expr.splitReal, String.toList_ofList] at hc
    exact h c ((List.dropWhile_sublist _).subset ((List.drop_sublist _ _).subset hc))
  unfold Expr.realText
  split
  · exact hwhole
  · intro c hc
    simp only [String.toList_append, List.mem_append] at hc
    rcases hc with (hc | hc) | hc
    · exact hwhole c hc
    · rw [List.mem_singleton.1 hc]
      decide
    · exact hfraction c hc

theorem Expr.items_yield {e : Element} {R : Element → Expr → Prop} {items : List (String × Expr)}
    (he : e.Clean)
    (h : e.Items (fun c x => R c x ∧ (c.Clean → x.write.Yields Printable)) items) :
    (Write.byLabel (Expr.itemWriters (sortByLabel items))).Yields fun es =>
      ∀ a ∈ es, Printable a := by
  rw [Expr.byLabel_itemWriters, sortByLabel_sortByLabel]
  refine .all ?_
  intro w hw
  obtain ⟨i, hi, rfl⟩ := List.mem_map.1 hw
  obtain ⟨c, hc, hlabel, d, hd, -, hx⟩ := exists_of_forall₂_right h (mem_sortByLabel.1 hi)
  have hc := he.childrenNamed hc
  refine (hx (hc.first? hd)).bind ?_
  intro a ha
  exact .pure (.node (Faithful.singleton (hc.attr hlabel) (by decide))
    (by simpa using ha) (by decide))

theorem Expr.writers_yield {es : List Element} {R : Element → Expr → Prop} {xs : List Expr}
    (hes : ∀ e ∈ es, e.Clean)
    (h : List.Forall₂ (fun c x => R c x ∧ (c.Clean → x.write.Yields Printable)) es xs) :
    (Write.all (Expr.writers xs)).Yields fun cs => ∀ c ∈ cs, Printable c := by
  rw [Expr.writers_eq_map]
  refine .all ?_
  intro w hw
  obtain ⟨x, hx, rfl⟩ := List.mem_map.1 hw
  obtain ⟨e, he, -, hx⟩ := exists_of_forall₂_right h hx
  exact hx (hes e he)

/-! ## Steps -/

/-- What every step of reading an expression from a document preserves. -/
abbrev Expr.Prints (t : Table) (c : Element) (x : Expr) : Prop :=
  Expr.Reads t c x ∧ (c.Clean → x.write.Yields Printable)

/-- What every step of reading a predicate from a document preserves. -/
abbrev Pred.Prints (t : Table) (c : Element) (p : Pred) : Prop :=
  Pred.Reads t c p ∧ (c.Clean → p.write.Yields Printable)

theorem Expr.Form.yields {e : Element} {x : Expr}
    (h : Expr.Form t (Expr.Prints t) (Pred.Prints t) e x) (he : e.Clean) :
    x.write.Yields Printable := by
  cases h with
  | named _ _ known carries =>
    exact Write.constant_yields he carries (Constant.ofName?_eq_some known)
  | ident _ _ _ form carries | fresh _ form carries => exact Write.ident_yields he carries form
  | truth _ _ _ carries | falsity _ _ _ _ carries | emptySet _ carries | emptySeq _ carries =>
    exact Write.constant_yields he carries (by decide)
  | integer _ value carries | string _ value carries =>
    exact Write.leaf_yields he carries (Faithful.singleton (he.attr value) (by decide)) (by decide)
  | real _ value carries =>
    exact Write.leaf_yields he carries
      (Faithful.singleton (Expr.allowed_realText (he.attr value)) (by decide)) (by decide)
  | unary _ _ symbol carries fst arg =>
    have hop := (Operator.declared_of_ofSymbol? symbol).allowed
    refine (Write.infoAttrs_yields he carries (Faithful.singleton hop (by decide))).bind ?_
    intro attrs hattrs
    refine (arg.2 (he.child? fst)).bind ?_
    intro a ha
    exact .pure (.node hattrs (by simpa using ha) (by decide))
  | binary _ _ symbol carries fst snd left right =>
    have hop := (BinaryOp.declared_of_ofSymbol? symbol).allowed
    refine (Write.infoAttrs_yields he carries (Faithful.singleton hop (by decide))).bind ?_
    intro attrs hattrs
    refine (left.2 (he.child? fst)).bind fun a ha => (right.2 (he.child? snd)).bind ?_
    intro b hb
    exact .pure (.node hattrs (by simpa using ⟨ha, hb⟩) (by decide))
  | ternary _ _ symbol carries fst snd thd left middle right =>
    have hop := (Operator.declared_of_ofSymbol? symbol).allowed
    refine (Write.infoAttrs_yields he carries (Faithful.singleton hop (by decide))).bind ?_
    intro attrs hattrs
    refine (left.2 (he.child? fst)).bind fun a ha => (middle.2 (he.child? snd)).bind fun b hb =>
      (right.2 (he.child? thd)).bind ?_
    intro c hc
    exact .pure (.node hattrs (by simpa using ⟨ha, hb, hc⟩) (by decide))
  | nary _ _ symbol carries args =>
    have hop := (Operator.declared_of_ofSymbol? symbol).allowed
    refine (Write.infoAttrs_yields he carries (Faithful.singleton hop (by decide))).bind ?_
    intro attrs hattrs
    refine (Expr.writers_yield (fun c hc => he.child hc) args).bind ?_
    intro cs hcs
    exact .pure (.node hattrs hcs (by decide))
  | bool _ carries first arg =>
    refine (Write.infoAttrs_yields he carries (by simp)).bind ?_
    intro attrs hattrs
    refine (arg.2 (he.first? first)).bind ?_
    intro a ha
    exact .pure (.node hattrs (by simpa using ha) (by decide))
  | struct _ carries fields _ | record _ carries fields _ =>
    refine (Write.infoAttrs_yields he carries (by simp)).bind ?_
    intro attrs hattrs
    refine (Expr.items_yield he fields).bind ?_
    intro cs hcs
    exact .pure (.node hattrs hcs (by decide))
  | quantified _ _ symbol carries first listed pred guard inner body =>
    have hop := (Operator.declared_of_ofSymbol? symbol).allowed
    refine (Write.infoAttrs_yields he carries (Faithful.singleton hop (by decide))).bind ?_
    intro attrs hattrs
    have hvars := he.first? first
    refine (Write.typedVars_yields (fun c hc => hvars.child hc) listed (by decide)).bind ?_
    intro v hv
    refine (guard.2 (he.inner? pred)).bind fun a ha => (body.2 (he.inner? inner)).bind ?_
    intro b hb
    refine .pure (.node hattrs ?_ (by decide))
    simpa using ⟨hv, .wrapOne ha (by decide), .wrapOne hb (by decide)⟩
  | comprehension _ carries first listed inner body =>
    refine (Write.infoAttrs_yields he carries (by simp)).bind ?_
    intro attrs hattrs
    have hvars := he.first? first
    refine (Write.typedVars_yields (fun c hc => hvars.child hc) listed (by decide)).bind ?_
    intro v hv
    refine (body.2 (he.inner? inner)).bind ?_
    intro b hb
    refine .pure (.node hattrs ?_ (by decide))
    simpa using ⟨hv, .wrapOne hb (by decide)⟩
  | field _ attr carries fst arg =>
    refine (Write.infoAttrs_yields he carries
      (Faithful.singleton (he.attr attr) (by decide))).bind ?_
    intro attrs hattrs
    refine (arg.2 (he.child? fst)).bind ?_
    intro a ha
    exact .pure (.node hattrs (by simpa using ha) (by decide))
  | update _ attr carries fst snd left right =>
    refine (Write.infoAttrs_yields he carries
      (Faithful.singleton (he.attr attr) (by decide))).bind ?_
    intro attrs hattrs
    refine (left.2 (he.child? fst)).bind fun a ha => (right.2 (he.child? snd)).bind ?_
    intro b hb
    exact .pure (.node hattrs (by simpa using ⟨ha, hb⟩) (by decide))

/-! ## Connectives -/

namespace Write

variable {w w' : Write Element} {tag : String} {attrs : List Attr}

theorem one_yields (hattrs : ∀ a ∈ attrs, Faithful a) (hw : w.Yields Printable)
    (htag : PlainName tag) : (do
      let a ← w
      pure (.node tag attrs [a]) : Write Element).Yields Printable := by
  refine hw.bind ?_
  intro a ha
  exact .pure (.node hattrs (by simpa using ha) htag)

theorem two_yield (hattrs : ∀ a ∈ attrs, Faithful a) (hw : w.Yields Printable)
    (hw' : w'.Yields Printable) (htag : PlainName tag) : (do
      let a ← w
      let b ← w'
      pure (.node tag attrs [a, b]) : Write Element).Yields Printable := by
  refine hw.bind fun a ha => hw'.bind ?_
  intro b hb
  exact .pure (.node hattrs (by simpa using ⟨ha, hb⟩) htag)

theorem bound_yields {e : Element} {vars : List TypedVar} (he : e.Clean)
    (hvars : TypedVar.Listed t e.children vars) (hattrs : ∀ a ∈ attrs, Faithful a)
    (hw : w.Yields Printable) (htag : PlainName tag) : (do
      let v ← typedVars "Variables" vars
      let b ← w
      pure (.node tag attrs [v, .wrap "Body" [b]]) : Write Element).Yields Printable := by
  refine (typedVars_yields (fun c hc => he.child hc) hvars (by decide)).bind ?_
  intro v hv
  refine hw.bind ?_
  intro b hb
  exact .pure (.node hattrs (by simpa using ⟨hv, .wrapOne hb (by decide)⟩) htag)

theorem negated_yields {op : Comparison} (h : (do
      let a ← w
      let b ← w'
      pure (.node "Exp_Comparison" [⟨"op", op.symbol⟩] [a, b]) : Write Element).Yields Printable) :
    (do
      let negated ← negatedSymbol? op
      let a ← w
      let b ← w'
      pure (negation op negated a b) : Write Element).Yields Printable := by
  intro p e q he
  obtain ⟨negated, _, hs, he⟩ := bind_on_eq_ok he
  obtain ⟨a, r, ha, he⟩ := bind_on_eq_ok he
  obtain ⟨b, s, hb, he⟩ := bind_on_eq_ok he
  have hnode := h _ _ s (by rw [on_bind_of_ok ha, on_bind_of_ok hb, on_pure])
  cases he
  cases negated with
  | some symbol =>
    have hsymbol := (Comparison.negatedSymbol?_eq_ok.1 (negatedSymbol?_of_on hs).1).2
    have hallowed : Allowed symbol.toList := Operator.allowed_of_symbolAt? hsymbol
    exact .node (Faithful.singleton hallowed (by decide)) (fun c hc => hnode.child hc) (by decide)
  | none => exact .node (by decide) (by simpa using hnode) (by decide)

end Write

theorem Pred.not_yields {p : Pred} (h : p.write.Yields Printable) :
    (Pred.not p).write.Yields Printable := by
  cases p with
  | compare op x y => exact Write.negated_yields h
  | _ => exact Write.one_yields (by decide) h (by decide)

theorem Pred.writers_yield {es : List Element} {ps : List Pred} (hes : ∀ e ∈ es, e.Clean)
    (h : List.Forall₂ (Pred.Prints t) es ps) :
    (Write.all (Pred.writers ps)).Yields fun cs => ∀ c ∈ cs, Printable c := by
  rw [Pred.writers_eq_map]
  refine .all ?_
  intro w hw
  obtain ⟨p, hp, rfl⟩ := List.mem_map.1 hw
  obtain ⟨e, he, -, hp⟩ := exists_of_forall₂_right h hp
  exact hp (hes e he)

theorem Pred.Form.yields {e : Element} {p : Pred}
    (h : Pred.Form t (Expr.Prints t) (Pred.Prints t) e p) (he : e.Clean) :
    p.write.Yields Printable := by
  cases h with
  | tagged _ first arg => exact arg.2 (he.first? first)
  | joined joins =>
    cases joins with
    | implies _ _ fst snd left right | equiv _ _ fst snd left right =>
      exact Write.two_yield (by decide) (left.2 (he.child? fst))
        (right.2 (he.child? snd)) (by decide)
    | @compare _ _ _ op negated x y _ _ symbol fst snd left right =>
      have hop := (Comparison.declared_of_ofSymbol? symbol).allowed
      have hcompare : (Pred.compare op x y).write.Yields Printable :=
        Write.two_yield (Faithful.singleton hop (by decide))
          (left.2 (he.child? fst)) (right.2 (he.child? snd)) (by decide)
      cases negated with
      | false => exact hcompare
      | true => exact Pred.not_yields hcompare
    | not _ _ fst arg => exact Pred.not_yields (arg.2 (he.child? fst))
    | @and ps _ _ args =>
      have hargs := Pred.writers_yield (fun c hc => he.child hc) args
      cases ps with
      | nil => exact .pure (.node (by decide) (by simp) (by decide))
      | cons p ps => exact hargs.bind fun cs hcs => .pure (.node (by decide) hcs (by decide))
    | @or ps _ _ args =>
      have hargs := Pred.writers_yield (fun c hc => he.child hc) args
      cases ps with
      | nil => exact .pure (.node (by decide) (by simp) (by decide))
      | cons p ps => exact hargs.bind fun cs hcs => .pure (.node (by decide) hcs (by decide))
    | forAll _ _ first listed inner body | forSome _ _ first listed inner body =>
      exact Write.bound_yields (he.first? first) listed (by decide)
        (body.2 (he.inner? inner)) (by decide)

theorem reads_yield (e : Element) :
    (∀ x, Expr.Reads t e x → e.Clean → x.write.Yields Printable) ∧
      ∀ p, Pred.Reads t e p → e.Clean → p.write.Yields Printable :=
  Expr.read_induction (P := fun e x => e.Clean → x.write.Yields Printable)
    (Q := fun e p => e.Clean → p.write.Yields Printable) (fun _ _ h => h.yields)
    (fun _ _ h => h.yields) e

theorem Expr.Reads.yields {e : Element} {x : Expr} (h : Expr.Reads t e x) (he : e.Clean) :
    x.write.Yields Printable :=
  (reads_yield e).1 x h he

theorem Pred.Reads.yields {e : Element} {p : Pred} (h : Pred.Reads t e p) (he : e.Clean) :
    p.write.Yields Printable :=
  (reads_yield e).2 p h he

end BMethod
