import Mathlib
import BMethod.Proofs.Expr.Numbering
import BMethod.Proofs.Obligation.RoundTrip

/-!
# Numbers of types in documents of proof obligations

A written document numbers its types from zero, in the order in which its elements refer to them
first. Every declared type is referred to, every reference is to a declared type, and it is the type
of what the element stands for.
-/

namespace BMethod

/-! ## References in set declarations -/

theorem typeRef?_eq_head? (attrs : List Attr) : typeRef? attrs = (refValues attrs).head? := by
  rw [typeRef?, refValues, List.head?_map, List.head?_filter]

theorem refValues_setAttr {attrs : List Attr} {v : String} (w : String)
    (h : typeRef? attrs = some v) :
    refValues (setAttr "typref" w attrs) = w :: (refValues attrs).tail := by
  unfold typeRef? at h
  unfold refValues
  induction attrs with
  | nil => simp at h
  | cons a as ih =>
    by_cases ha : a.name = "typref"
    · simp [setAttr, ha]
    · rw [List.find?_cons_of_neg (by simpa using ha)] at h
      simpa [setAttr, ha] using ih h

/-- An element with at most one reference to a type in each element, at every depth. -/
inductive Element.SingleRefs : Element → Prop
  | mk {tag text : String} {attrs : List Attr} {line : Int} {children : List Element}
      (own : (refValues attrs).length ≤ 1) (below : ∀ c ∈ children, SingleRefs c) :
      SingleRefs ⟨tag, attrs, text, line, children⟩

namespace SetDeclaration

def typeAt? (s : SetDeclaration) (v : String) : Option Ty :=
  (Text.readInt? v).bind (Table.mk s.types).at?

mutual
/-- The types of an element of a declaration. -/
def treeOf (s : SetDeclaration) : Element → TypeTree
  | ⟨_, attrs, _, _, children⟩ => .node ((typeRef? attrs).bind s.typeAt?) (treesOf s children)

def treesOf (s : SetDeclaration) : List Element → List TypeTree
  | [] => []
  | e :: es => treeOf s e :: treesOf s es
end

def typeTree (s : SetDeclaration) : TypeTree :=
  s.treeOf s.elem

end SetDeclaration

namespace Obligations

theorem placeType_numbers {s : SetDeclaration} {tag text v : String} {attrs : List Attr}
    {line : Int} (hv : typeRef? attrs = some v) :
    (placeType s ⟨tag, attrs, text, line, []⟩).Numbers (s.typeAt? v).toList fun types w =>
      ∃ (ty : Ty) (n : Nat), s.typeAt? v = some ty ∧ w = toString n ∧ types[n]? = some ty := by
  have hattr : Element.attr? ⟨tag, attrs, text, line, []⟩ "typref" = some v := hv
  unfold placeType SetDeclaration.typeAt?
  simp only [hattr, Option.getD_some]
  cases hty : (Text.readInt? v).bind (Table.mk s.types).at? with
  | none => exact .throw _
  | some ty =>
    refine (Write.ref_numbers ty).bind_pure ?_
    intro types n hn
    exact ⟨ty, n, rfl, rfl, hn⟩

mutual
theorem mapRefs_emits (s : SetDeclaration) : ∀ {e : Element}, e.SingleRefs →
    (e.mapRefs (placeType s)).Emits (s.treeOf e)
  | ⟨tag, attrs, text, line, children⟩, .mk own below => by
    unfold SetDeclaration.treeOf
    cases hv : typeRef? attrs with
    | none =>
      rw [Element.mapRefs_of_none _ hv]
      refine ((mapRefsAll_emits s below).bind_pure ?_).of_eq (by simp)
      intro types es hes
      refine .mk ?_ hes
      rwa [typeRef?_eq_head?, List.head?_eq_none_iff] at hv
    | some v =>
      rw [Element.mapRefs_of_some _ hv]
      refine ((placeType_numbers hv).bind fun w => (mapRefsAll_emits s below).bind_pure ?_).of_eq
        (by simp)
      rintro types es hes ⟨ty, n, hty, rfl, hn⟩
      rw [Option.bind_some, hty]
      refine .mk ⟨n, ?_, hn⟩ hes
      -- There is no other reference than the one that is replaced.
      have htail : (refValues attrs).tail = [] := by
        rw [← List.length_eq_zero_iff, List.length_tail]
        omega
      rw [refValues_setAttr _ hv, htail]

theorem mapRefsAll_emits (s : SetDeclaration) : ∀ {es : List Element}, (∀ e ∈ es, e.SingleRefs) →
    (Element.mapRefsAll (placeType s) es).EmitsAll (s.treesOf es)
  | [], _ => .pure fun types => .nil
  | e :: es, h => by
    have he := mapRefs_emits s (h e List.mem_cons_self)
    have hes := mapRefsAll_emits s fun c hc => h c (List.mem_cons_of_mem _ hc)
    refine he.bind fun c => hes.bind_pure ?_
    intro types cs hcs hc
    exact .cons hc hcs
end

end Obligations

/-! ## Trees of types -/

def DefineItem.typeTree : DefineItem → TypeTree
  | pred p => p.typeTree
  | set s => s.typeTree

def Define.typeTree (d : Define) : TypeTree :=
  .group (d.items.map DefineItem.typeTree)

def LocalHyp.typeTree (h : LocalHyp) : TypeTree :=
  .group [h.pred.typeTree]

/-- The types of a goal, after its tag and the references to hypotheses. -/
def SimpleGoal.typeTree (g : SimpleGoal) : TypeTree :=
  .group (.group [] :: (g.refs.map (fun _ => .group []) ++ [.group [g.goal.typeTree]]))

/-- The types of an obligation, after its tag and the names of definitions. -/
def Obligation.typeTree (o : Obligation) : TypeTree :=
  .group (.group [] :: (o.definitions.map (fun _ => .group []) ++
    (o.hypotheses.map (fun p => .group [p.typeTree]) ++
      (o.localHyps.map LocalHyp.typeTree ++ o.goals.map SimpleGoal.typeTree))))

/-- The types of a document: those of its groups of definitions, then those of its obligations. -/
def Obligations.typeTrees (d : Obligations) : List TypeTree :=
  d.defines.map Define.typeTree ++ d.obligations.map Obligation.typeTree

/-- Whether the declarations of sets have at most one reference to a type in each element. -/
def Obligations.SingleRefs (d : Obligations) : Prop :=
  ∀ c ∈ d.defines, ∀ s, DefineItem.set s ∈ c.items → s.elem.SingleRefs

/-! ## Writing -/

namespace Obligations

theorem forall₂_untyped {γ : Type} {types : List Ty} {l : List γ} {f : γ → Element}
    (h : ∀ c ∈ l, (f c).Typed types (.group [])) :
    List.Forall₂ (Element.Typed types) (l.map f) (l.map fun _ => .group []) := by
  rw [List.forall₂_map_left_iff, List.forall₂_map_right_iff]
  exact List.forall₂_same.2 h

theorem writeDefine_emits {d : Define} (h : ∀ s, DefineItem.set s ∈ d.items → s.elem.SingleRefs) :
    (writeDefine d).Emits d.typeTree := by
  have hitems : (Write.all (d.items.map writeDefineItem)).EmitsAll
      (d.items.map DefineItem.typeTree) := by
    refine .all fun i hi => ?_
    cases i with
    | pred p => exact p.write_emits
    | set s => exact mapRefs_emits s (h s hi)
  refine (hitems.bind_pure ?_).of_eq (by simp [Define.typeTree])
  intro types es hes
  exact .group hes rfl

theorem writeHypothesis_emits (p : Pred) :
    (writeHypothesis p).Emits (.group [p.typeTree]) := by
  refine (p.write_emits.bind_pure ?_).of_eq (by simp)
  intro types e he
  exact .group (.cons he .nil) rfl

theorem writeLocalHyp_emits (h : LocalHyp) : (writeLocalHyp h).Emits h.typeTree := by
  refine (h.pred.write_emits.bind_pure ?_).of_eq (by simp [LocalHyp.typeTree])
  intro types e he
  exact .group (.cons he .nil) rfl

theorem writeGoal_emits (g : SimpleGoal) : (writeGoal g).Emits g.typeTree := by
  refine (g.goal.write_emits.bind_pure ?_).of_eq (by simp [SimpleGoal.typeTree])
  intro types e he
  refine .group (.cons (.group .nil rfl) (List.rel_append ?_ ?_)) rfl
  · exact forall₂_untyped fun n _ => .group .nil rfl
  · exact .cons (.group (.cons he .nil) rfl) .nil

theorem writeObligation_emits (o : Obligation) : (writeObligation o).Emits o.typeTree := by
  have hhs : (Write.all (o.hypotheses.map writeHypothesis)).EmitsAll
      (o.hypotheses.map fun p => .group [p.typeTree]) := .all fun p _ => writeHypothesis_emits p
  have hls : (Write.all (o.localHyps.map writeLocalHyp)).EmitsAll
      (o.localHyps.map LocalHyp.typeTree) := .all fun h _ => writeLocalHyp_emits h
  have hgs : (Write.all (o.goals.map writeGoal)).EmitsAll (o.goals.map SimpleGoal.typeTree) :=
    .all fun g _ => writeGoal_emits g
  refine (hhs.bind fun hs => hls.bind fun ls => hgs.bind_pure ?_).of_eq
    (by simp [Obligation.typeTree])
  intro types gs hgs hls hhs
  refine .group (.cons (.group .nil rfl) (List.rel_append ?_ ?_)) rfl
  · exact forall₂_untyped fun n _ => .group .nil rfl
  · exact List.rel_append hhs (List.rel_append hls hgs)

theorem writeBody_emits {d : Obligations} (h : d.SingleRefs) :
    d.writeBody.EmitsAll d.typeTrees := by
  have hds : (Write.all (d.defines.map writeDefine)).EmitsAll (d.defines.map Define.typeTree) :=
    .all fun c hc => writeDefine_emits (h c hc)
  have hos : (Write.all (d.obligations.map writeObligation)).EmitsAll
      (d.obligations.map Obligation.typeTree) := .all fun o _ => writeObligation_emits o
  refine (hds.bind fun ds => hos.bind_pure ?_).of_eq (by simp [Obligations.typeTrees])
  intro types os hos hds
  exact List.rel_append hds hos

end Obligations

/-! ## The type table -/

mutual
theorem Ty.typrefs_term : ∀ ty : Ty, ty.term.typrefs = []
  | .integer | .boolean | .float | .real | .string => rfl
  | .power x => by
    simpa [Ty.term, Element.node, Element.typrefs, Element.typrefsAll] using ⟨rfl, x.typrefs_term⟩
  | .product x y => by
    simpa [Ty.term, Element.node, Element.typrefs, Element.typrefsAll] using
      ⟨rfl, x.typrefs_term, y.typrefs_term⟩
  | .struct fields => by
    simpa [Ty.term, Element.node, Element.typrefs] using ⟨rfl, Ty.typrefsAll_fieldTerms fields⟩

theorem Ty.typrefsAll_fieldTerms : ∀ fields : List (String × Ty),
    Element.typrefsAll (Ty.fieldTerms fields) = []
  | [] => rfl
  | (label, x) :: fields => by
    simpa [Ty.fieldTerms, Element.node, Element.typrefs, Element.typrefsAll] using
      ⟨rfl, x.typrefs_term, Ty.typrefsAll_fieldTerms fields⟩
end

namespace Table

theorem typrefsAll_declarationsFrom (n : Nat) (ts : List Ty) :
    Element.typrefsAll (declarationsFrom n ts) = [] := by
  induction ts generalizing n with
  | nil => rfl
  | cons ty ts ih =>
    simpa [declarationsFrom, Element.node, Element.typrefs, Element.typrefsAll] using
      ⟨rfl, ty.typrefs_term, ih (n + 1)⟩

theorem length_declarationsFrom (n : Nat) (ts : List Ty) :
    (declarationsFrom n ts).length = ts.length := by
  induction ts generalizing n with
  | nil => rfl
  | cons ty ts ih => rw [declarationsFrom, List.length_cons, List.length_cons, ih]

theorem filter_declarationsFrom (n : Nat) (ts : List Ty) :
    (declarationsFrom n ts).filter (Element.hasTag "Type") = declarationsFrom n ts := by
  induction ts generalizing n with
  | nil => rfl
  | cons ty ts ih => rw [declarationsFrom, List.filter_cons_of_pos rfl, ih]

end Table

namespace Pool

theorem typrefs_declarations (p : Pool) : p.declarations.typrefs = [] := by
  simpa [declarations, Element.wrap, Element.node, Element.typrefs] using
    ⟨rfl, Table.typrefsAll_declarationsFrom 0 p.types⟩

theorem childrenNamed_declarations (p : Pool) :
    p.declarations.childrenNamed "Type" = Table.declarationsFrom 0 p.types :=
  Table.filter_declarationsFrom 0 p.types

end Pool

/-! ## Documents -/

/-- In a written document, the references to types in document order are numbers, each at most the
number of different ones before it, and they are all the numbers of the declared types, which differ
from each other. Each of them denotes the type of what its element stands for. -/
theorem canonical_numbering {d : Obligations} {root : Element} (h : d.write = .ok root)
    (hsets : d.SingleRefs) :
    ∃ (infos : Element) (body : List Element) (types : List Ty) (ns : List Nat),
      root.children = infos :: body ∧ infos.tag = "TypeInfos" ∧
      infos.childrenNamed "Type" = Table.declarationsFrom 0 types ∧ types.Nodup ∧
      root.typrefs = ns.map toString ∧
      (∀ i n, ns[i]? = some n → n ≤ (ns.take i).toFinset.card) ∧
      (∀ n, n ∈ ns ↔ n < (infos.childrenNamed "Type").length) ∧
      List.Forall₂ (Element.Typed types) body d.typeTrees := by
  rw [Obligations.write] at h
  split at h
  · rename_i body p hon
    cases h
    obtain ⟨rfl, htyped⟩ := Obligations.writeBody_emits hsets Pool.empty_sound hon
    have hbody := htyped _ (List.prefix_refl _)
    obtain ⟨ns, hns, hdenoted⟩ := Element.Typed.typrefsAll hbody
    have hsound : (Pool.empty.addAll (d.typeTrees.flatMap TypeTree.types)).Sound :=
      Pool.empty_sound.addAll _
    have hall := Pool.toFinset_numbers hsound (List.prefix_refl _) hdenoted
    refine ⟨_, body, _, ns, rfl, rfl, Pool.childrenNamed_declarations _, hsound.nodup, ?_, ?_, ?_,
      hbody⟩
    · rw [← hns]
      simp [Element.wrap, Element.node, Element.typrefs, Element.typrefsAll,
        Pool.typrefs_declarations, refValues]
    · exact fun i n => Pool.le_card_numbers hdenoted
    · intro n
      rw [Pool.childrenNamed_declarations, Table.length_declarationsFrom, ← List.mem_toFinset, hall,
        Finset.mem_range]
      rfl
  · cases h

/-- A document with the declaration of a set, and a goal that binds a variable of the inner type of
the set and compares a truth value with the set. -/
def sampleNumbered : Obligations where
  defines := [⟨"ctx", [.set sampleSet]⟩]
  obligations := [⟨"po", [], [], [], [⟨"goal", [], .forAll [⟨.plain "x", .integer⟩]
    (.compare ⟨0⟩ (.bool ⟨.boolean, []⟩ .truth) (.ident ⟨.power .integer, []⟩ (.plain "S")))⟩]⟩]

theorem sampleNumbered_singleRefs : sampleNumbered.SingleRefs := by
  have hinner : (Element.node "Id" [⟨"value", "a"⟩, ⟨"typref", "1"⟩] []).SingleRefs :=
    .mk (by decide) (by simp)
  have houter : (Element.node "Id" [⟨"value", "S"⟩, ⟨"typref", "0"⟩]
      [.node "Id" [⟨"value", "a"⟩, ⟨"typref", "1"⟩] []]).SingleRefs :=
    .mk (by decide) (by simpa using hinner)
  have hset : sampleSet.elem.SingleRefs := .mk (by decide) (by simpa using houter)
  simpa [Obligations.SingleRefs, sampleNumbered] using hset

theorem canonical_numbering_sample :
    ∃ (root : Element) (types : List Ty), sampleNumbered.write = .ok root ∧
      root.typrefs = ["0", "1", "1", "2", "0"] ∧ types.Nodup ∧
      List.Forall₂ (Element.Typed types) root.children.tail sampleNumbered.typeTrees := by
  obtain ⟨root, hwrite, htyprefs⟩ : ∃ root, sampleNumbered.write = .ok root ∧
      root.typrefs = ["0", "1", "1", "2", "0"] :=
    ⟨_, by with_unfolding_all rfl, by with_unfolding_all rfl⟩
  obtain ⟨infos, body, types, ns, hroot, -, -, hnodup, -, -, -, htyped⟩ :=
    canonical_numbering hwrite sampleNumbered_singleRefs
  refine ⟨root, types, hwrite, htyprefs, hnodup, ?_⟩
  rw [hroot]
  exact htyped

end BMethod
