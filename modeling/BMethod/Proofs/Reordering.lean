import Mathlib
import BMethod.Proofs.Document
import BMethod.Proofs.Formula.Sorted
import BMethod.Proofs.Ty.Table

/-!
# Documents in another order

The items of records, and the equalities that give witnesses, may stand in any order, wherever in a
document they are. The same types and the same items are read, and their records are sorted.
-/

namespace BMethod

open Element (Agrees Rearranged)

/-! ## Elements in another order -/

/-- The elements are equal but for their lines, the order of the items of records, and the order of
the equalities that give witnesses. -/
inductive Element.Reordered : Element → Element → Prop
  | mk {tag text : String} {attrs : List Attr} {line line' : Int}
      {children middle children' : List Element}
      (below : List.Forall₂ Reordered children middle) (order : Rearranged tag middle children') :
      Reordered ⟨tag, attrs, text, line, children⟩ ⟨tag, attrs, text, line', children'⟩

namespace Element

mutual
theorem Reordered.refl : ∀ e : Element, e.Reordered e
  | ⟨_, _, _, _, children⟩ => .mk (Reordered.reflAll children) .same

theorem Reordered.reflAll : ∀ es : List Element, List.Forall₂ Reordered es es
  | [] => .nil
  | e :: es => .cons (Reordered.refl e) (Reordered.reflAll es)
end

theorem Reordered.of_children {tag text : String} {attrs : List Attr} {line : Int}
    {cs cs' : List Element} (order : Rearranged tag cs cs') :
    Reordered ⟨tag, attrs, text, line, cs⟩ ⟨tag, attrs, text, line, cs'⟩ :=
  .mk (Reordered.reflAll cs) order

theorem Reordered.inside {tag text : String} {attrs : List Attr} {line : Int}
    {cs cs' : List Element} (below : List.Forall₂ Reordered cs cs') :
    Reordered ⟨tag, attrs, text, line, cs⟩ ⟨tag, attrs, text, line, cs'⟩ :=
  .mk below .same

mutual
theorem Reordered.agrees (t : Table) :
    ∀ {e e' : Element}, Reordered e e' → Agrees t t e e'
  | ⟨_, _, _, _, _⟩, ⟨_, _, _, _, _⟩, .mk below order => by
    refine .mk rfl (fun _ _ => rfl) ?_ (Reordered.allAgree t below) order
    intro ty hty
    rw [Table.typeOf_eq_ok] at hty ⊢
    exact hty

theorem Reordered.allAgree (t : Table) : ∀ {es es' : List Element},
    List.Forall₂ Reordered es es' → List.Forall₂ (Agrees t t) es es'
  | [], [], .nil => .nil
  | _ :: _, _ :: _, .cons he hes => .cons (he.agrees t) (Reordered.allAgree t hes)
end

end Element

/-! ## Sorted items -/

namespace Item

variable {k : ItemKind} {t : Table} {e : Element} {item : Item}

/-- All records and record sets in the item have increasing labels. -/
def Sorted : Item → Prop
  | expr x => x.Sorted
  | pred p => p.Sorted
  | goal g => g.Sorted
  | subst s => s.Sorted

theorem Form.sorted (h : Form t e k item) : item.Sorted := by
  cases h with
  | expr formula => exact formula.sorted
  | pred formula => exact formula.sorted
  | goal formula => exact formula.sorted
  | subst formula => exact formula.sorted
  | lift formula => exact formula.sorted.lift

end Item

theorem Table.increasing_of_read {e : Element} {t : Table} (h : Table.read e = .ok t) {ty : Ty}
    (hty : ty ∈ t.types) : ty.EachRecord Increasing :=
  (canonical_of_read h ty hty).eachRecord.imp fun _ hsorted => hsorted.imp Text.bytesLt_of_lt

/-! ## The order does not matter -/

/-- From elements that differ in the order of the items of records, and of the equalities that give
witnesses, the same types are read, and the same items, so that the same is written for them. The
labels of all records increase, those of types as well. -/
theorem order_irrelevant {e e' : Element} (h : e.Reordered e') :
    (∀ t, Table.read e = .ok t →
      Table.read e' = .ok t ∧ ∀ ty ∈ t.types, ty.EachRecord Increasing) ∧
    ∀ (k : ItemKind) (t : Table) (item : Item), Item.read k t e = .ok item →
      Item.read k t e' = .ok item ∧ item.Sorted ∧
      (∀ root, Table.read root = .ok t → ∀ ty ∈ item.types, ty.EachRecord Increasing) ∧
      ∀ item', Item.read k t e' = .ok item' → ∀ p q d, item.write.on p = (.ok d, q) →
        ∃ d', item'.write.on p = (.ok d', q) ∧ d.same d' = true := by
  refine ⟨?_, ?_⟩
  · intro t ht
    refine ⟨Table.read_agrees (h.agrees t) ht, ?_⟩
    intro ty hty
    exact Table.increasing_of_read ht hty
  · intro k t item hitem
    have hform := Item.read_eq_ok.1 hitem
    have hread : Item.read k t e' = .ok item :=
      Item.read_eq_ok.2 (hform.agrees (h.agrees t))
    refine ⟨hread, hform.sorted, ?_, ?_⟩
    · intro root hroot ty hty
      exact Table.increasing_of_read hroot (hform.types_subset hty)
    · intro item' hitem' p q d hd
      obtain rfl := Except.ok.inj (hread.symm.trans hitem')
      exact ⟨d, hd, Element.same_self d⟩

def labelled (label : String) (inner : Element) : Element :=
  .node "Record_Item" [⟨"label", label⟩] [inner]

/-- The declarations of the integers and of a record type with the fields. -/
def pairDeclarations (fields : List Element) : Element :=
  .wrap "TypeInfos" [.node "Type" [⟨"id", "0"⟩] [Ty.integer.term],
    .node "Type" [⟨"id", "1"⟩] [.wrap "Struct" fields]]

def pairFields : List Element :=
  [labelled "b" Ty.integer.term, labelled "a" Ty.integer.term]

def pairType : Ty :=
  .ofFields [("b", .integer), ("a", .integer)]

def pairTable : Table :=
  ⟨[.integer, pairType]⟩

theorem read_pairDeclarations : Table.read (pairDeclarations pairFields) = .ok pairTable := by
  with_unfolding_all rfl

theorem pairDeclarations_reordered :
    (pairDeclarations pairFields).Reordered (pairDeclarations pairFields.reverse) := by
  refine .inside (.cons (.refl _) (.cons (.inside (.cons ?_ .nil)) .nil))
  exact .of_children (.items (.inl rfl) (.swap _ _ _) rfl)

def integerLiteral (digits : String) : Element :=
  .node "Integer_Literal" [⟨"value", digits⟩, ⟨"typref", "0"⟩] []

/-- A record of two integers, with its items in either order. -/
def pairElement (items : List Element) : Element :=
  .node "Record" [⟨"typref", "1"⟩] items

def pairItems : List Element :=
  [labelled "b" (integerLiteral "2"), labelled "a" (integerLiteral "1")]

def witnessEquality (name : String) (value : Element) : Element :=
  .node "Exp_Comparison" [⟨"op", "="⟩] [.node "Id" [⟨"value", name⟩] [], value]

def witnessing (equalities : List Element) : Element :=
  .wrap "Witness" [.wrap "Witnesses" [.node "Nary_Pred" [⟨"op", "&"⟩] equalities],
    .wrap "Body" [.wrap "Skip" []]]

def pairWitnesses (items : List Element) : List Element :=
  [witnessEquality "y" (integerLiteral "3"), witnessEquality "x" (pairElement items)]

def pairRecord : Expr :=
  .ofRecordItems ⟨pairType, []⟩
    [("b", .integer ⟨.integer, []⟩ "2"), ("a", .integer ⟨.integer, []⟩ "1")]

def pairWitness : Item :=
  .subst (.witness (sortByLabel [("y", .integer ⟨.integer, []⟩ "3"), ("x", pairRecord)]) .skip)

theorem read_pairWitness :
    Item.read .subst pairTable (witnessing (pairWitnesses pairItems)) = .ok pairWitness := by
  have hx : Expr.Reads pairTable (pairElement pairItems) pairRecord := by
    with_unfolding_all rfl
  have hy : Expr.Reads pairTable (integerLiteral "3") (.integer ⟨.integer, []⟩ "3") := by
    with_unfolding_all rfl
  refine Item.read_eq_ok.2 (.subst (Subst.read_of_form ?_))
  refine .witness rfl rfl (.all rfl rfl) ?_ (by decide) rfl (Subst.read_of_form (.skip rfl))
  exact .cons ⟨rfl, rfl, _, _, rfl, rfl, rfl, rfl, hy⟩
    (.cons ⟨rfl, rfl, _, _, rfl, rfl, rfl, rfl, hx⟩ .nil)

theorem pairWitness_reordered : (witnessing (pairWitnesses pairItems)).Reordered
    (witnessing (pairWitnesses pairItems.reverse).reverse) := by
  have hrecord : (pairElement pairItems).Reordered (pairElement pairItems.reverse) :=
    .of_children (.items (.inr rfl) (.swap _ _ _) rfl)
  have hequalities : List.Forall₂ Element.Reordered (pairWitnesses pairItems)
      (pairWitnesses pairItems.reverse) :=
    .cons (.refl _) (.cons (.inside (.cons (.refl _) (.cons hrecord .nil))) .nil)
  refine .inside (.cons (.mk (.cons (.inside hequalities) .nil) ?_) (.cons (.refl _) .nil))
  exact .witnesses (.cons (.members rfl (.swap _ _ _)) .nil)

theorem order_irrelevant_sample :
    Table.read (pairDeclarations pairFields.reverse) = .ok pairTable ∧
      (∀ ty ∈ pairTable.types, ty.EachRecord Increasing) ∧
      Item.read .subst pairTable (witnessing (pairWitnesses pairItems.reverse).reverse) =
        .ok pairWitness ∧ pairWitness.Sorted := by
  obtain ⟨htable, hincreasing⟩ :=
    (order_irrelevant pairDeclarations_reordered).1 _ read_pairDeclarations
  obtain ⟨hitem, hsorted, -⟩ := (order_irrelevant pairWitness_reordered).2 _ _ _ read_pairWitness
  exact ⟨htable, hincreasing, hitem, hsorted⟩

end BMethod
