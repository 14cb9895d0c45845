import Mathlib
import BMethod.Expr.Read
import BMethod.Proofs.Formula.Connective
import BMethod.Proofs.Operator
import BMethod.Proofs.Ty.Label

/-!
# What expressions and predicates are read from

One step of reading as a relation: what an element says about an expression or a predicate, when the
relations for the elements inside it are known. The readers are the least solution, so what holds
of every step holds of everything that is read.
-/

namespace BMethod

/-- What an element says about an expression, when `R` is what the elements inside it say about
expressions and `S` what they say about predicates. -/
inductive Expr.Form (t : Table) (R : Element → Expr → Prop) (S : Element → Pred → Prop)
    (e : Element) : Expr → Prop
  | named {info : Info} {name : String} {kind : Constant} (tag : e.tag = "Id")
      (value : e.attr? "value" = some name) (known : Constant.ofName? name = some kind)
      (carries : Info.read t e = .ok info) : Form t R S e (.constant info kind)
  | ident {info : Info} {stem : String} {name : VarName} (tag : e.tag = "Id")
      (value : e.attr? "value" = some stem) (unknown : Constant.ofName? stem = none)
      (form : VarName.Form e name) (carries : Info.read t e = .ok info) :
      Form t R S e (.ident info name)
  | fresh {info : Info} {name : VarName} (tag : e.tag = "Fresh_Id")
      (form : VarName.Form e name) (carries : Info.read t e = .ok info) :
      Form t R S e (.ident info name)
  | truth {info : Info} {v : String} (tag : e.tag = "Boolean_Literal")
      (value : e.attr? "value" = some v) (word : Text.isWord "TRUE" v = true)
      (carries : Info.read t e = .ok info) : Form t R S e (.constant info .truth)
  | falsity {info : Info} {v : String} (tag : e.tag = "Boolean_Literal")
      (value : e.attr? "value" = some v) (other : Text.isWord "TRUE" v = false)
      (word : Text.isWord "FALSE" v = true) (carries : Info.read t e = .ok info) :
      Form t R S e (.constant info .falsity)
  | emptySet {info : Info} (tag : e.tag = "EmptySet") (carries : Info.read t e = .ok info) :
      Form t R S e (.constant info .emptySet)
  | emptySeq {info : Info} (tag : e.tag = "EmptySeq") (carries : Info.read t e = .ok info) :
      Form t R S e (.constant info .emptySeq)
  | integer {info : Info} {v : String} (tag : e.tag = "Integer_Literal")
      (value : e.attr? "value" = some v) (carries : Info.read t e = .ok info) :
      Form t R S e (.integer info v)
  | string {info : Info} {v : String} (tag : e.tag = "STRING_Literal" ∨ e.tag = "String_Literal")
      (value : e.attr? "value" = some v) (carries : Info.read t e = .ok info) :
      Form t R S e (.string info v)
  | real {info : Info} {v : String} (tag : e.tag = "Real_Literal")
      (value : e.attr? "value" = some v) (carries : Info.read t e = .ok info) :
      Form t R S e (.ofRealText info v)
  | unary {info : Info} {s : String} {op : UnaryOp} {a : Element} {x : Expr}
      (tag : e.tag = "Unary_Exp") (attr : e.attr? "op" = some s)
      (symbol : Operator.ofSymbol? .unary s = some op) (carries : Info.read t e = .ok info)
      (fst : e.children[0]? = some a) (arg : R a x) : Form t R S e (.unary info op x)
  | binary {info : Info} {s : String} {op : BinaryOp} {a b : Element} {x y : Expr}
      (tag : e.tag = "Binary_Exp") (attr : e.attr? "op" = some s)
      (symbol : BinaryOp.ofSymbol? s = some op) (carries : Info.read t e = .ok info)
      (fst : e.children[0]? = some a) (snd : e.children[1]? = some b) (left : R a x)
      (right : R b y) : Form t R S e (.binary info op x y)
  | ternary {info : Info} {s : String} {op : TernaryOp} {a b c : Element} {x y z : Expr}
      (tag : e.tag = "Ternary_Exp") (attr : e.attr? "op" = some s)
      (symbol : Operator.ofSymbol? .ternary s = some op) (carries : Info.read t e = .ok info)
      (fst : e.children[0]? = some a) (snd : e.children[1]? = some b)
      (thd : e.children[2]? = some c) (left : R a x) (middle : R b y) (right : R c z) :
      Form t R S e (.ternary info op x y z)
  | nary {info : Info} {s : String} {op : NaryOp} {xs : List Expr} (tag : e.tag = "Nary_Exp")
      (attr : e.attr? "op" = some s) (symbol : Operator.ofSymbol? .nary s = some op)
      (carries : Info.read t e = .ok info) (args : List.Forall₂ R e.children xs) :
      Form t R S e (.nary info op xs)
  | bool {info : Info} {a : Element} {p : Pred} (tag : e.tag = "Boolean_Exp")
      (carries : Info.read t e = .ok info) (first : e.first? "" = some a) (arg : S a p) :
      Form t R S e (.bool info p)
  | struct {info : Info} {items : List (String × Expr)} (tag : e.tag = "Struct")
      (carries : Info.read t e = .ok info) (fields : e.Items R items)
      (nodup : (items.map (·.1)).Nodup) : Form t R S e (.ofStructItems info items)
  | record {info : Info} {items : List (String × Expr)} (tag : e.tag = "Record")
      (carries : Info.read t e = .ok info) (fields : e.Items R items)
      (nodup : (items.map (·.1)).Nodup) : Form t R S e (.ofRecordItems info items)
  | quantified {info : Info} {s : String} {op : QuantifiedOp} {c a b : Element}
      {vars : List TypedVar} {p : Pred} {x : Expr} (tag : e.tag = "Quantified_Exp")
      (attr : e.attr? "type" = some s) (symbol : Operator.ofSymbol? .quantified s = some op)
      (carries : Info.read t e = .ok info) (first : e.first? "Variables" = some c)
      (listed : TypedVar.Listed t c.children vars) (pred : e.inner? "Pred" = some a)
      (guard : S a p) (inner : e.inner? "Body" = some b) (body : R b x) :
      Form t R S e (.quantified info op vars p x)
  | comprehension {info : Info} {c a : Element} {vars : List TypedVar} {p : Pred}
      (tag : e.tag = "Quantified_Set") (carries : Info.read t e = .ok info)
      (first : e.first? "Variables" = some c) (listed : TypedVar.Listed t c.children vars)
      (inner : e.inner? "Body" = some a) (body : S a p) : Form t R S e (.comprehension info vars p)
  | field {info : Info} {label : String} {a : Element} {x : Expr}
      (tag : e.tag = "Record_Field_Access") (attr : e.attr? "label" = some label)
      (carries : Info.read t e = .ok info) (fst : e.children[0]? = some a) (arg : R a x) :
      Form t R S e (.field info label x)
  | update {info : Info} {label : String} {a b : Element} {x y : Expr}
      (tag : e.tag = "Record_Update") (attr : e.attr? "label" = some label)
      (carries : Info.read t e = .ok info) (fst : e.children[0]? = some a)
      (snd : e.children[1]? = some b) (left : R a x) (right : R b y) :
      Form t R S e (.update info label x y)

/-- The predicate that a connective makes. Without members a conjunction is truth and a disjunction
falsity. -/
def Pred.ofJoined : Joined Pred → Pred
  | .implies p q => .implies p q
  | .equiv p q => .equiv p q
  | .compare op negated x y => if negated then .not (.compare op x y) else .compare op x y
  | .not p => .not p
  | .and ps => if ps.isEmpty then .truth else .and ps
  | .or ps => if ps.isEmpty then .falsity else .or ps
  | .forAll vars p => .forAll vars p
  | .forSome vars p => .forSome vars p

/-- What an element says about a predicate, with `R` and `S` as for expressions. -/
inductive Pred.Form (t : Table) (R : Element → Expr → Prop) (S : Element → Pred → Prop)
    (e : Element) : Pred → Prop
  | joined {j : Joined Pred} (joins : Joins t R S e j) : Form t R S e (.ofJoined j)
  | tagged {a : Element} {p : Pred} (tag : e.tag = "Tag") (first : e.first? "" = some a)
      (arg : S a p) : Form t R S e p

/-! ## Only what is inside matters -/

section
variable {t : Table} {R R' : Element → Expr → Prop} {S S' : Element → Pred → Prop} {e : Element}

theorem Expr.Form.imp {x : Expr} (hR : ∀ c x, sizeOf c < sizeOf e → R c x → R' c x)
    (hS : ∀ c p, sizeOf c < sizeOf e → S c p → S' c p) (h : Expr.Form t R S e x) :
    Expr.Form t R' S' e x := by
  have hat : ∀ {i : Nat} {a x}, e.children[i]? = some a → R a x → R' a x :=
    fun h => hR _ _ (Element.sizeOf_lt_of_getElem? h)
  cases h with
  | named tag value known carries => exact .named tag value known carries
  | ident tag value unknown form carries => exact .ident tag value unknown form carries
  | fresh tag form carries => exact .fresh tag form carries
  | truth tag value word carries => exact .truth tag value word carries
  | falsity tag value other word carries => exact .falsity tag value other word carries
  | emptySet tag carries => exact .emptySet tag carries
  | emptySeq tag carries => exact .emptySeq tag carries
  | integer tag value carries => exact .integer tag value carries
  | string tag value carries => exact .string tag value carries
  | real tag value carries => exact .real tag value carries
  | unary tag attr symbol carries fst arg =>
    exact .unary tag attr symbol carries fst (hat fst arg)
  | binary tag attr symbol carries fst snd left right =>
    exact .binary tag attr symbol carries fst snd (hat fst left) (hat snd right)
  | ternary tag attr symbol carries fst snd thd left middle right =>
    exact .ternary tag attr symbol carries fst snd thd (hat fst left) (hat snd middle)
      (hat thd right)
  | nary tag attr symbol carries args =>
    refine .nary tag attr symbol carries (forall₂_imp_of_mem ?_ args)
    exact fun c hc x hx => hR c x (Element.sizeOf_lt_of_mem_children hc) hx
  | bool tag carries first arg =>
    exact .bool tag carries first (hS _ _ (Element.sizeOf_lt_of_first? first) arg)
  | struct tag carries fields nodup => exact .struct tag carries (fields.imp hR) nodup
  | record tag carries fields nodup => exact .record tag carries (fields.imp hR) nodup
  | quantified tag attr symbol carries first listed pred guard inner body =>
    exact .quantified tag attr symbol carries first listed pred
      (hS _ _ (Element.sizeOf_lt_of_inner? pred) guard) inner
      (hR _ _ (Element.sizeOf_lt_of_inner? inner) body)
  | comprehension tag carries first listed inner body =>
    exact .comprehension tag carries first listed inner
      (hS _ _ (Element.sizeOf_lt_of_inner? inner) body)
  | field tag attr carries fst arg => exact .field tag attr carries fst (hat fst arg)
  | update tag attr carries fst snd left right =>
    exact .update tag attr carries fst snd (hat fst left) (hat snd right)

theorem Pred.Form.imp {p : Pred} (hR : ∀ c x, sizeOf c < sizeOf e → R c x → R' c x)
    (hS : ∀ c p, sizeOf c < sizeOf e → S c p → S' c p) (h : Pred.Form t R S e p) :
    Pred.Form t R' S' e p := by
  cases h with
  | joined joins => exact .joined (joins.imp hR hS)
  | tagged tag first arg =>
    exact .tagged tag first (hS _ _ (Element.sizeOf_lt_of_first? first) arg)

end

/-! ## The readers -/

abbrev Expr.Reads (t : Table) (e : Element) (x : Expr) : Prop :=
  Expr.read t e = .ok x

abbrev Pred.Reads (t : Table) (e : Element) (p : Pred) : Prop :=
  Pred.read t e = .ok p

section
variable {t : Table} {e : Element} {es : List Element}

theorem Expr.readAll_eq_ok {xs : List Expr} :
    Expr.readAll t es = .ok xs ↔ List.Forall₂ (Expr.Reads t) es xs := by
  induction es generalizing xs with
  | nil => cases xs <;> simp [Expr.readAll, pure_eq_ok]
  | cons e es ih =>
    rw [Expr.readAll]
    simp only [bind_eq_ok, pure_eq_ok, ih]
    constructor
    · rintro ⟨x, hx, xs, hxs, rfl⟩
      exact .cons hx hxs
    · rintro (_ | ⟨hx, hxs⟩)
      exact ⟨_, hx, _, hxs, rfl⟩

theorem Pred.readAll_eq_ok {ps : List Pred} :
    Pred.readAll t es = .ok ps ↔ List.Forall₂ (Pred.Reads t) es ps := by
  induction es generalizing ps with
  | nil => cases ps <;> simp [Pred.readAll, pure_eq_ok]
  | cons e es ih =>
    rw [Pred.readAll]
    simp only [bind_eq_ok, pure_eq_ok, ih]
    constructor
    · rintro ⟨p, hp, ps, hps, rfl⟩
      exact .cons hp hps
    · rintro (_ | ⟨hp, hps⟩)
      exact ⟨_, hp, _, hps, rfl⟩

theorem Expr.readItems_eq_ok {items : List (String × Expr)} :
    Expr.readItems t es = .ok items ↔
      List.Forall₂ (Element.Labels (Expr.Reads t)) (es.filter (Element.hasTag "Record_Item"))
        items := by
  induction es generalizing items with
  | nil => cases items <;> simp [Expr.readItems, pure_eq_ok]
  | cons e es ih =>
    rw [Expr.readItems]
    split
    · rename_i htag
      have hkeep : Element.hasTag "Record_Item" e = true := by simp [Element.hasTag, htag]
      simp only [bind_eq_ok, pure_eq_ok, ih, Element.needAttr_eq_ok, Element.needChild_eq_ok]
      rw [List.filter_cons_of_pos hkeep]
      constructor
      · rintro ⟨label, hlabel, c, hc, x, hx, items, hitems, rfl⟩
        exact .cons ⟨hlabel, c.1, hc, hx⟩ hitems
      · rintro (_ | ⟨⟨hlabel, c, hc, hx⟩, hitems⟩)
        exact ⟨_, hlabel, ⟨c, Element.sizeOf_lt_of_first? hc⟩, hc, _, hx, _, hitems, rfl⟩
    · rename_i htag
      have hdrop : ¬Element.hasTag "Record_Item" e = true := by simp [Element.hasTag, htag]
      rw [List.filter_cons_of_neg hdrop, ih]

theorem Expr.readOperator_eq_ok {α : Type} {name : String} {ofSymbol? : String → Option α}
    {op : α} :
    Expr.readOperator e name ofSymbol? = .ok op ↔
      ∃ s, e.attr? name = some s ∧ ofSymbol? s = some op := by
  unfold Expr.readOperator
  simp only [bind_eq_ok, Element.needAttr_eq_ok]
  refine exists_congr fun s => and_congr_right fun _ => ?_
  split
  · rename_i op' hop
    simp [hop, pure_eq_ok]
  · rename_i hnone
    simp [hnone, Element.complain_ne_ok]

theorem Expr.form_of_readIdentifier {x : Expr} (tag : e.tag = "Id")
    (h : Expr.readIdentifier t e = .ok x) : Expr.Form t (Expr.Reads t) (Pred.Reads t) e x := by
  unfold Expr.readIdentifier at h
  simp only [bind_eq_ok, Element.needAttr_eq_ok] at h
  obtain ⟨name, value, h⟩ := h
  split at h
  · rename_i kind known
    simp only [Expr.readConstant, bind_eq_ok, pure_eq_ok] at h
    obtain ⟨info, carries, rfl⟩ := h
    exact .named tag value known carries
  · rename_i unknown
    simp only [Expr.readVariable, bind_eq_ok, pure_eq_ok, VarName.read_eq_ok] at h
    obtain ⟨name, form, info, carries, rfl⟩ := h
    exact .ident tag value unknown form carries

theorem Expr.form_of_readBooleanLiteral {x : Expr} (tag : e.tag = "Boolean_Literal")
    (h : Expr.readBooleanLiteral t e = .ok x) : Expr.Form t (Expr.Reads t) (Pred.Reads t) e x := by
  unfold Expr.readBooleanLiteral at h
  simp only [bind_eq_ok, Element.needAttr_eq_ok] at h
  obtain ⟨v, value, h⟩ := h
  split at h
  · rename_i word
    simp only [Expr.readConstant, bind_eq_ok, pure_eq_ok] at h
    obtain ⟨info, carries, rfl⟩ := h
    exact .truth tag value word carries
  · rename_i other
    split at h
    · rename_i word
      simp only [Expr.readConstant, bind_eq_ok, pure_eq_ok] at h
      obtain ⟨info, carries, rfl⟩ := h
      exact .falsity tag value (by simpa using other) word carries
    · exact absurd h (Element.complain_ne_ok _ _ _)

theorem Expr.form_of_read {x : Expr} (h : Expr.read t e = .ok x) :
    Expr.Form t (Expr.Reads t) (Pred.Reads t) e x := by
  rw [Expr.read] at h
  split at h <;> rename_i tag
  · exact Expr.form_of_readIdentifier tag h
  · simp only [Expr.readVariable, bind_eq_ok, pure_eq_ok, VarName.read_eq_ok] at h
    obtain ⟨name, form, info, carries, rfl⟩ := h
    exact .fresh tag form carries
  · exact Expr.form_of_readBooleanLiteral tag h
  · simp only [Expr.readConstant, bind_eq_ok, pure_eq_ok] at h
    obtain ⟨info, carries, rfl⟩ := h
    exact .emptySet tag carries
  · simp only [Expr.readConstant, bind_eq_ok, pure_eq_ok] at h
    obtain ⟨info, carries, rfl⟩ := h
    exact .emptySeq tag carries
  · simp only [Expr.readLiteral, bind_eq_ok, pure_eq_ok, Element.needAttr_eq_ok] at h
    obtain ⟨v, value, info, carries, rfl⟩ := h
    exact .integer tag value carries
  · simp only [Expr.readLiteral, bind_eq_ok, pure_eq_ok, Element.needAttr_eq_ok] at h
    obtain ⟨v, value, info, carries, rfl⟩ := h
    exact .string (.inl tag) value carries
  · simp only [Expr.readLiteral, bind_eq_ok, pure_eq_ok, Element.needAttr_eq_ok] at h
    obtain ⟨v, value, info, carries, rfl⟩ := h
    exact .string (.inr tag) value carries
  · simp only [Expr.readLiteral, bind_eq_ok, pure_eq_ok, Element.needAttr_eq_ok] at h
    obtain ⟨v, value, info, carries, rfl⟩ := h
    exact .real tag value carries
  · simp only [bind_eq_ok, pure_eq_ok, Expr.readOperator_eq_ok, Element.needOne_eq_ok] at h
    obtain ⟨op, ⟨s, attr, symbol⟩, info, carries, c, fst, x, arg, rfl⟩ := h
    exact .unary tag attr symbol carries fst arg
  · simp only [bind_eq_ok, pure_eq_ok, Expr.readOperator_eq_ok, Element.needTwo_eq_ok] at h
    obtain ⟨op, ⟨s, attr, symbol⟩, info, carries, cs, ⟨fst, snd⟩, x, left, y, right, rfl⟩ := h
    exact .binary tag attr symbol carries fst snd left right
  · simp only [bind_eq_ok, pure_eq_ok, Expr.readOperator_eq_ok, Element.needThree_eq_ok] at h
    obtain ⟨op, ⟨s, attr, symbol⟩, info, carries, cs, ⟨fst, snd, thd⟩, x, left, y, middle, z, right,
      rfl⟩ := h
    exact .ternary tag attr symbol carries fst snd thd left middle right
  · simp only [bind_eq_ok, pure_eq_ok, Expr.readOperator_eq_ok, Expr.readAll_eq_ok] at h
    obtain ⟨op, ⟨s, attr, symbol⟩, info, carries, xs, args, rfl⟩ := h
    exact .nary tag attr symbol carries args
  · simp only [bind_eq_ok, pure_eq_ok, Element.needChild_eq_ok] at h
    obtain ⟨info, carries, c, first, p, arg, rfl⟩ := h
    exact .bool tag carries first arg
  · simp only [bind_eq_ok, pure_eq_ok, Expr.readItems_eq_ok, Ty.checkLabels_eq_ok] at h
    obtain ⟨info, carries, items, fields, u, nodup, rfl⟩ := h
    exact .struct tag carries fields nodup
  · simp only [bind_eq_ok, pure_eq_ok, Expr.readItems_eq_ok, Ty.checkLabels_eq_ok] at h
    obtain ⟨info, carries, items, fields, u, nodup, rfl⟩ := h
    exact .record tag carries fields nodup
  · simp only [bind_eq_ok, pure_eq_ok, Expr.readOperator_eq_ok, TypedVar.readIn_eq_ok,
      Element.needInner_eq_ok] at h
    obtain ⟨op, ⟨s, attr, symbol⟩, info, carries, vars, ⟨c, first, listed⟩, a, pred, p, guard, b,
      inner, x, body, rfl⟩ := h
    exact .quantified tag attr symbol carries first listed pred guard inner body
  · simp only [bind_eq_ok, pure_eq_ok, TypedVar.readIn_eq_ok, Element.needInner_eq_ok] at h
    obtain ⟨info, carries, vars, ⟨c, first, listed⟩, a, inner, p, body, rfl⟩ := h
    exact .comprehension tag carries first listed inner body
  · simp only [bind_eq_ok, pure_eq_ok, Element.needAttr_eq_ok, Element.needOne_eq_ok] at h
    obtain ⟨label, attr, info, carries, c, fst, x, arg, rfl⟩ := h
    exact .field tag attr carries fst arg
  · simp only [bind_eq_ok, pure_eq_ok, Element.needAttr_eq_ok, Element.needTwo_eq_ok] at h
    obtain ⟨label, attr, info, carries, cs, ⟨fst, snd⟩, x, left, y, right, rfl⟩ := h
    exact .update tag attr carries fst snd left right
  · exact absurd h (Element.complain_ne_ok _ _ _)

theorem Expr.read_of_form {x : Expr} (h : Expr.Form t (Expr.Reads t) (Pred.Reads t) e x) :
    Expr.read t e = .ok x := by
  rw [Expr.read]
  cases h with
  | named tag value known carries =>
    simp [tag, Expr.readIdentifier, Element.needAttr_eq_ok.2 value, known, Expr.readConstant,
      carries]
  | ident tag value unknown form carries =>
    simp [tag, Expr.readIdentifier, Element.needAttr_eq_ok.2 value, unknown, Expr.readVariable,
      VarName.read_eq_ok.2 form, carries]
  | fresh tag form carries =>
    simp [tag, Expr.readVariable, VarName.read_eq_ok.2 form, carries]
  | truth tag value word carries =>
    simp [tag, Expr.readBooleanLiteral, Element.needAttr_eq_ok.2 value, word, Expr.readConstant,
      carries]
  | falsity tag value other word carries =>
    simp [tag, Expr.readBooleanLiteral, Element.needAttr_eq_ok.2 value, other, word,
      Expr.readConstant, carries]
  | emptySet tag carries => simp [tag, Expr.readConstant, carries]
  | emptySeq tag carries => simp [tag, Expr.readConstant, carries]
  | integer tag value carries =>
    simp [tag, Expr.readLiteral, Element.needAttr_eq_ok.2 value, carries]
  | string tag value carries =>
    rcases tag with tag | tag <;>
      simp [tag, Expr.readLiteral, Element.needAttr_eq_ok.2 value, carries]
  | real tag value carries =>
    simp [tag, Expr.readLiteral, Element.needAttr_eq_ok.2 value, carries]
  | unary tag attr symbol carries fst arg =>
    have hop := Expr.readOperator_eq_ok.2 ⟨_, attr, symbol⟩
    simp [tag, hop, carries, Element.needOne_of fst, arg]
  | binary tag attr symbol carries fst snd left right =>
    have hop := Expr.readOperator_eq_ok.2 ⟨_, attr, symbol⟩
    simp [tag, hop, carries, Element.needTwo_of fst snd, left, right]
  | ternary tag attr symbol carries fst snd thd left middle right =>
    have hop := Expr.readOperator_eq_ok.2 ⟨_, attr, symbol⟩
    simp [tag, hop, carries, Element.needThree_of fst snd thd, left, middle, right]
  | nary tag attr symbol carries args =>
    have hop := Expr.readOperator_eq_ok.2 ⟨_, attr, symbol⟩
    simp [tag, hop, carries, Expr.readAll_eq_ok.2 args]
  | bool tag carries first arg =>
    simp [tag, carries, Element.needChild_of first, arg]
  | struct tag carries fields nodup =>
    have hlabels : Ty.checkLabels e _ = .ok () := Ty.checkLabels_eq_ok.2 nodup
    simp [tag, carries, Expr.readItems_eq_ok.2 fields, hlabels]
  | record tag carries fields nodup =>
    have hlabels : Ty.checkLabels e _ = .ok () := Ty.checkLabels_eq_ok.2 nodup
    simp [tag, carries, Expr.readItems_eq_ok.2 fields, hlabels]
  | quantified tag attr symbol carries first listed pred guard inner body =>
    have hop := Expr.readOperator_eq_ok.2 ⟨_, attr, symbol⟩
    have hvars := TypedVar.readIn_eq_ok.2 ⟨_, first, listed⟩
    simp [tag, hop, carries, hvars, Element.needInner_of pred, guard, Element.needInner_of inner,
      body]
  | comprehension tag carries first listed inner body =>
    have hvars := TypedVar.readIn_eq_ok.2 ⟨_, first, listed⟩
    simp [tag, carries, hvars, Element.needInner_of inner, body]
  | field tag attr carries fst arg =>
    simp [tag, Element.needAttr_eq_ok.2 attr, carries, Element.needOne_of fst, arg]
  | update tag attr carries fst snd left right =>
    simp [tag, Element.needAttr_eq_ok.2 attr, carries, Element.needTwo_of fst snd, left, right]

theorem Expr.read_eq_ok {x : Expr} :
    Expr.read t e = .ok x ↔ Expr.Form t (Expr.Reads t) (Pred.Reads t) e x :=
  ⟨Expr.form_of_read, Expr.read_of_form⟩

theorem Pred.form_of_read {p : Pred} (h : Pred.read t e = .ok p) :
    Pred.Form t (Expr.Reads t) (Pred.Reads t) e p := by
  rw [Pred.read] at h
  obtain ⟨k, hk, h⟩ := bind_eq_ok.1 h
  have join {j : Joined Pred} {k' : Connective e} (heq : k = some k')
      (hj : k'.Resolves (Expr.Reads t) (Pred.Reads t) j) :
      Pred.Form t (Expr.Reads t) (Pred.Reads t) e (.ofJoined j) := by
    subst heq
    exact .joined (Connective.joins_iff.2 ⟨k', hk, hj⟩)
  split at h
  · simp only [bind_eq_ok, pure_eq_ok] at h
    obtain ⟨p, hp, q, hq, rfl⟩ := h
    exact join (j := .implies p q) rfl ⟨hp, hq⟩
  · simp only [bind_eq_ok, pure_eq_ok] at h
    obtain ⟨p, hp, q, hq, rfl⟩ := h
    exact join (j := .equiv p q) rfl ⟨hp, hq⟩
  · rename_i op negated a b
    simp only [bind_eq_ok, pure_eq_ok] at h
    obtain ⟨x, hx, y, hy, rfl⟩ := h
    exact join (j := .compare op negated x y) rfl ⟨rfl, rfl, hx, hy⟩
  · simp only [bind_eq_ok, pure_eq_ok] at h
    obtain ⟨p, hp, rfl⟩ := h
    exact join (j := .not p) rfl hp
  · simp only [bind_eq_ok, pure_eq_ok, Pred.readAll_eq_ok] at h
    obtain ⟨ps, hps, rfl⟩ := h
    exact join (j := .and ps) rfl hps
  · simp only [bind_eq_ok, pure_eq_ok, Pred.readAll_eq_ok] at h
    obtain ⟨ps, hps, rfl⟩ := h
    exact join (j := .or ps) rfl hps
  · rename_i vars a
    simp only [bind_eq_ok, pure_eq_ok] at h
    obtain ⟨p, hp, rfl⟩ := h
    exact join (j := .forAll vars p) rfl ⟨rfl, hp⟩
  · rename_i vars a
    simp only [bind_eq_ok, pure_eq_ok] at h
    obtain ⟨p, hp, rfl⟩ := h
    exact join (j := .forSome vars p) rfl ⟨rfl, hp⟩
  · split at h
    · rename_i tag
      simp only [bind_eq_ok, Element.needChild_eq_ok] at h
      obtain ⟨a, first, arg⟩ := h
      exact .tagged tag first arg
    · exact absurd h (Element.complain_ne_ok _ _ _)

theorem Pred.read_of_form {p : Pred} (h : Pred.Form t (Expr.Reads t) (Pred.Reads t) e p) :
    Pred.read t e = .ok p := by
  rw [Pred.read]
  cases h with
  | @joined j joins =>
    obtain ⟨k, hk, hj⟩ := Connective.joins_iff.1 joins
    rw [hk]
    cases k <;> cases j <;> simp only [Connective.Resolves] at hj
    · simp [hj.1, hj.2, Pred.ofJoined]
    · simp [hj.1, hj.2, Pred.ofJoined]
    · obtain ⟨rfl, rfl, hx, hy⟩ := hj
      simp [hx, hy, Pred.ofJoined]
    · simp [hj, Pred.ofJoined]
    · simp [Pred.readAll_eq_ok.2 hj, Pred.ofJoined]
    · simp [Pred.readAll_eq_ok.2 hj, Pred.ofJoined]
    · simp [hj.1, hj.2, Pred.ofJoined]
    · simp [hj.1, hj.2, Pred.ofJoined]
  | tagged tag first arg =>
    have hnone : Connective.read? t e = .ok none := by
      rw [Connective.read?_eq_none, tag]
      decide
    simp [hnone, tag, Element.needChild_of first, arg]

theorem Pred.read_eq_ok {p : Pred} :
    Pred.read t e = .ok p ↔ Pred.Form t (Expr.Reads t) (Pred.Reads t) e p :=
  ⟨Pred.form_of_read, Pred.read_of_form⟩

/-! ## Induction over what is read -/

/-- What every step of reading preserves holds of all expressions and predicates that are read. -/
theorem Expr.read_induction {P : Element → Expr → Prop} {Q : Element → Pred → Prop}
    (hP : ∀ e x, Expr.Form t (fun c y => Expr.Reads t c y ∧ P c y)
      (fun c q => Pred.Reads t c q ∧ Q c q) e x → P e x)
    (hQ : ∀ e p, Pred.Form t (fun c y => Expr.Reads t c y ∧ P c y)
      (fun c q => Pred.Reads t c q ∧ Q c q) e p → Q e p) (e : Element) :
    (∀ x, Expr.Reads t e x → P e x) ∧ ∀ p, Pred.Reads t e p → Q e p := by
  -- Expressions and predicates are inside each other, so both parts go down together.
  induction hn : sizeOf e using Nat.strong_induction_on generalizing e with
  | _ n ih =>
    subst hn
    have hR : ∀ c x, sizeOf c < sizeOf e → Expr.Reads t c x → Expr.Reads t c x ∧ P c x :=
      fun c x hc hx => ⟨hx, (ih _ hc c rfl).1 x hx⟩
    have hS : ∀ c p, sizeOf c < sizeOf e → Pred.Reads t c p → Pred.Reads t c p ∧ Q c p :=
      fun c p hc hp => ⟨hp, (ih _ hc c rfl).2 p hp⟩
    exact ⟨fun x hx => hP e x ((Expr.form_of_read hx).imp hR hS),
      fun p hp => hQ e p ((Pred.form_of_read hp).imp hR hS)⟩

end

end BMethod
