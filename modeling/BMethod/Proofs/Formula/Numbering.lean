import Mathlib
import BMethod.Proofs.Element.Parts
import BMethod.Proofs.Formula.Writing

/-!
# Numbers of types in document order

What is written refers to types by numbers. The types of an element and of all elements below it
form a tree of the shape of the element. Actions ask the pool for the types of this tree in document
order, so numbers are given in the order in which a reader of the document meets them.
-/

namespace BMethod

/-! ## Types as trees -/

/-- The types of an element and of the elements below it, in a tree of the same shape. -/
inductive TypeTree where
  | node (ty : Option Ty) (parts : List TypeTree)

namespace TypeTree

mutual
def types : TypeTree → List Ty
  | node ty parts => ty.toList ++ typesAll parts

def typesAll : List TypeTree → List Ty
  | [] => []
  | t :: ts => t.types ++ typesAll ts
end

def group (parts : List TypeTree) : TypeTree :=
  node none parts

def leaf (ty : Ty) : TypeTree :=
  node (some ty) []

/-- Variables with their types, in an element that lists them. -/
def ofVars (vars : List TypedVar) : TypeTree :=
  group (vars.map fun v => leaf v.ty)

@[simp] theorem typesAll_eq (ts : List TypeTree) : typesAll ts = ts.flatMap types := by
  induction ts with
  | nil => rfl
  | cons t ts ih => rw [typesAll, ih, List.flatMap_cons]

@[simp] theorem types_node (ty : Option Ty) (parts : List TypeTree) :
    (node ty parts).types = ty.toList ++ parts.flatMap types := by
  rw [types, typesAll_eq]

@[simp] theorem types_group (parts : List TypeTree) :
    (group parts).types = parts.flatMap types := by
  simp [group]

@[simp] theorem types_leaf (ty : Ty) : (leaf ty).types = [ty] := by
  simp [leaf]

end TypeTree

/-! ## References in an element -/

def refValues (attrs : List Attr) : List String :=
  (attrs.filter (·.name = "typref")).map (·.value)

/-- The attributes refer to a type by its number, or to none. -/
def Denotes (types : List Ty) (attrs : List Attr) : Option Ty → Prop
  | none => refValues attrs = []
  | some ty => ∃ n : Nat, refValues attrs = [toString n] ∧ types[n]? = some ty

namespace Element

mutual
/-- The values of all attributes in an element and below it that refer to types, in document
order. -/
def typrefs : Element → List String
  | ⟨_, attrs, _, _, children⟩ => refValues attrs ++ typrefsAll children

/-- The values of all attributes in elements and below them that refer to types, in document
order. -/
def typrefsAll : List Element → List String
  | [] => []
  | e :: es => e.typrefs ++ typrefsAll es
end

/-- The references in an element and below it denote the types of a tree of the same shape. -/
inductive Typed (types : List Ty) : Element → TypeTree → Prop
  | mk {tag text : String} {attrs : List Attr} {line : Int} {children : List Element}
      {ty : Option Ty} {parts : List TypeTree} (own : Denotes types attrs ty)
      (below : List.Forall₂ (Typed types) children parts) :
      Typed types ⟨tag, attrs, text, line, children⟩ (.node ty parts)

theorem Typed.group {types : List Ty} {tag text : String} {attrs : List Attr} {line : Int}
    {children : List Element} {parts : List TypeTree}
    (below : List.Forall₂ (Typed types) children parts) (hattrs : refValues attrs = []) :
    Typed types ⟨tag, attrs, text, line, children⟩ (.group parts) :=
  .mk hattrs below

mutual
/-- The references are numbers, and they denote the types of the tree in document order. -/
theorem Typed.typrefs {types : List Ty} : ∀ {e : Element} {tree : TypeTree}, Typed types e tree →
    ∃ ns : List Nat, e.typrefs = ns.map toString ∧
      List.Forall₂ (fun n ty => types[n]? = some ty) ns tree.types
  | ⟨_, attrs, _, _, children⟩, .node ty parts, .mk own below => by
    obtain ⟨ns, hns, hbelow⟩ := Typed.typrefsAll below
    rw [Element.typrefs, TypeTree.types, TypeTree.typesAll_eq, hns]
    cases ty with
    | none =>
      rw [show refValues attrs = [] from own]
      exact ⟨ns, rfl, hbelow⟩
    | some ty =>
      obtain ⟨n, hn, hty⟩ := own
      rw [hn]
      exact ⟨n :: ns, rfl, .cons hty hbelow⟩

theorem Typed.typrefsAll {types : List Ty} : ∀ {es : List Element} {trees : List TypeTree},
    List.Forall₂ (Typed types) es trees →
    ∃ ns : List Nat, Element.typrefsAll es = ns.map toString ∧
      List.Forall₂ (fun n ty => types[n]? = some ty) ns (trees.flatMap TypeTree.types)
  | [], [], .nil => ⟨[], rfl, .nil⟩
  | e :: es, tree :: trees, .cons he hes => by
    obtain ⟨ms, hms, htree⟩ := Typed.typrefs he
    obtain ⟨ns, hns, htrees⟩ := Typed.typrefsAll hes
    refine ⟨ms ++ ns, ?_, ?_⟩
    · rw [Element.typrefsAll, hms, hns, List.map_append]
    · rw [List.flatMap_cons]
      exact List.rel_append htree htrees
end

end Element

/-! ## Numbers in the order of first occurrence -/

namespace Pool

/-- The numbers of types that are added in order are the numbers of the pool afterwards. -/
theorem toFinset_numbers {p : Pool} (hp : p.Sound) {ns : List Nat} {ts : List Ty}
    (hle : (empty.addAll ts).types <+: p.types)
    (h : List.Forall₂ (fun n ty => p.types[n]? = some ty) ns ts) :
    ns.toFinset = Finset.range (empty.addAll ts).size := by
  induction ts using List.reverseRecOn generalizing ns with
  | nil =>
    cases h
    rfl
  | append_singleton ts ty ih =>
    obtain ⟨ms, _, hms, hlast, rfl⟩ := exists_append_of_forall₂ h.flip
    cases hlast with
    | @cons _ n _ _ hn hnil =>
      cases hnil
      have hq : (empty.addAll ts).Sound := empty_sound.addAll ts
      rw [addAll_append, addAll_cons, addAll_nil] at hle ⊢
      have ih := ih (((empty.addAll ts).prefix_ref ty).trans hle) hms.flip
      have hat := Write.getElem?_of_prefix hle (hq.getElem?_ref ty)
      rw [hp.ref_unique hn hat, List.toFinset_append, ih]
      -- Either the type was there before, or it has the next number.
      by_cases hmem : ty ∈ (empty.addAll ts).types
      · obtain ⟨m, hm⟩ := List.mem_iff_getElem?.1 hmem
        have hlt : m < (empty.addAll ts).size := (List.getElem?_eq_some_iff.1 hm).1
        rw [hq.ref_of_getElem? hm]
        simpa using hlt
      · rw [hq.ref_of_not_mem hmem]
        simp [size, Finset.range_add_one]

theorem le_card_numbers {ns : List Nat} {ts : List Ty}
    (h : List.Forall₂ (fun n ty => (empty.addAll ts).types[n]? = some ty) ns ts) {i n : Nat}
    (hn : ns[i]? = some n) : n ≤ (ns.take i).toFinset.card := by
  have hsound : (empty.addAll ts).Sound := empty_sound.addAll ts
  have htake (k : Nat) : (ns.take k).toFinset = Finset.range (empty.addAll (ts.take k)).size := by
    refine toFinset_numbers hsound ?_ (List.forall₂_take k h)
    nth_rewrite 2 [← List.take_append_drop k ts]
    rw [addAll_append]
    exact prefix_addAll _ _
  have hmem : n ∈ (ns.take (i + 1)).toFinset := by
    rw [List.take_add_one, hn]
    simp
  have hgrows : (empty.addAll (ts.take (i + 1))).size ≤ (empty.addAll (ts.take i)).size + 1 := by
    rw [List.take_add_one, addAll_append]
    refine (size_addAll_le _ _).trans ?_
    cases ts[i]? <;> simp
  rw [htake, Finset.mem_range] at hmem
  rw [htake, Finset.card_range]
  omega

end Pool

/-! ## What actions ask the pool for -/

namespace Write

variable {α β γ : Type}

/-- When the action succeeds on a sound pool, it has asked for the types `ts` in order, and what
its result means under the types that begin with those of the pool afterwards is `P`. -/
def Numbers (w : Write α) (ts : List Ty) (P : List Ty → α → Prop) : Prop :=
  ∀ ⦃p q : Pool⦄ ⦃a : α⦄, p.Sound → w.on p = (.ok a, q) →
    q = p.addAll ts ∧ ∀ types, q.types <+: types → P types a

namespace Numbers

variable {w : Write α} {ts us : List Ty} {P : List Ty → α → Prop}

theorem pure {a : α} (h : ∀ types, P types a) : (pure a : Write α).Numbers [] P := by
  intro p q b hp hon
  cases hon
  exact ⟨rfl, fun types _ => h types⟩

theorem throw (r : Refusal) : (throw r : Write α).Numbers ts P := by
  intro p q a hp hon
  cases hon

theorem bind {f : α → Write β} {Q : List Ty → β → Prop} (hw : w.Numbers ts P)
    (hf : ∀ a, (f a).Numbers us fun types b => P types a → Q types b) :
    (w >>= f).Numbers (ts ++ us) Q := by
  intro p q b hp hon
  obtain ⟨a, r, hwon, hfon⟩ := bind_on_eq_ok hon
  obtain ⟨rfl, hP⟩ := hw hp hwon
  obtain ⟨rfl, hQ⟩ := hf a (hp.addAll ts) hfon
  refine ⟨(Pool.addAll_append p ts us).symm, ?_⟩
  intro types hle
  exact hQ types hle (hP types (((p.addAll ts).prefix_addAll us).trans hle))

theorem of_eq (h : w.Numbers ts P) (heq : ts = us) : w.Numbers us P :=
  heq ▸ h

theorem mono {Q : List Ty → α → Prop} (hw : w.Numbers ts P)
    (h : ∀ types a, P types a → Q types a) : w.Numbers ts Q := by
  intro p q a hp hon
  obtain ⟨hq, hP⟩ := hw hp hon
  exact ⟨hq, fun types hle => h types a (hP types hle)⟩

theorem bind_pure {f : α → β} {Q : List Ty → β → Prop} (hw : w.Numbers ts P)
    (h : ∀ types a, P types a → Q types (f a)) :
    (w >>= fun a => Pure.pure (f a)).Numbers ts Q := by
  have hbind := hw.bind (f := fun a => Pure.pure (f a)) (Q := Q) fun a => .pure fun t => h t a
  exact hbind.of_eq (List.append_nil ts)

end Numbers

/-- The action asks for the types of a tree in document order, and writes an element whose
references denote them. -/
def Emits (w : Write Element) (tree : TypeTree) : Prop :=
  w.Numbers tree.types fun types e => e.Typed types tree

/-- The action asks for the types of trees in document order, and writes elements whose references
denote them. -/
def EmitsAll (w : Write (List Element)) (trees : List TypeTree) : Prop :=
  w.Numbers (trees.flatMap TypeTree.types) fun types es =>
    List.Forall₂ (Element.Typed types) es trees

theorem EmitsAll.all {l : List γ} {f : γ → Write Element} {tree : γ → TypeTree}
    (h : ∀ c ∈ l, (f c).Emits (tree c)) : (Write.all (l.map f)).EmitsAll (l.map tree) := by
  induction l with
  | nil => exact .pure fun types => .nil
  | cons c l ih =>
    have hc := h c List.mem_cons_self
    have hl := ih fun d hd => h d (List.mem_cons_of_mem _ hd)
    refine Numbers.bind hc fun e => Numbers.bind_pure hl ?_
    intro types es hes he
    exact .cons he hes

/-! ## Elements of formulas -/

theorem ref_numbers (ty : Ty) : (ref ty).Numbers [ty] fun types n => types[n]? = some ty := by
  intro p q n hp hon
  cases hon
  refine ⟨rfl, ?_⟩
  intro types hle
  exact getElem?_of_prefix hle (hp.getElem?_ref ty)

theorem typeRef_numbers (ty : Ty) : (typeRef ty).Numbers [ty] fun types a =>
    ∃ n : Nat, a = ⟨"typref", toString n⟩ ∧ types[n]? = some ty := by
  refine (ref_numbers ty).bind_pure ?_
  intro types n hn
  exact ⟨n, rfl, hn⟩

theorem negatedSymbol?_numbers (op : Comparison) :
    (negatedSymbol? op).Numbers [] fun _ negated => op.negatedSymbol? = .ok negated := by
  intro p q negated hp hon
  obtain ⟨hs, rfl⟩ := negatedSymbol?_of_on hon
  exact ⟨rfl, fun _ _ => hs⟩

theorem tagAttrs_numbers (tags : List String) :
    (tagAttrs tags).Numbers [] fun _ attrs => refValues attrs = [] := by
  unfold tagAttrs
  split
  · exact .throw _
  · refine .pure fun _ => ?_
    split <;> rfl

theorem infoAttrs_numbers (info : Info) (own : List Attr) :
    (infoAttrs info own).Numbers [info.ty] fun types attrs =>
      refValues own = [] → Denotes types attrs (some info.ty) := by
  refine (typeRef_numbers info.ty).bind fun r => (tagAttrs_numbers info.tags).bind_pure ?_
  rintro types tags htags ⟨n, rfl, hty⟩ hown
  refine ⟨n, ?_, hty⟩
  unfold refValues at *
  rw [List.filter_append, List.map_append, hown, List.filter_cons_of_pos rfl, List.map_cons, htags,
    List.nil_append]

theorem varAttrs_numbers (name : VarName) :
    (varAttrs name).Numbers [] fun _ r => refValues r.2 = [] := by
  unfold varAttrs
  split
  all_goals first | exact .throw _ | exact .pure fun _ => rfl

theorem typedVar_emits (v : TypedVar) : (typedVar v).Emits (.leaf v.ty) := by
  refine (varAttrs_numbers v.name).bind fun r => (typeRef_numbers v.ty).bind_pure ?_
  rintro types a ⟨n, rfl, hty⟩ hown
  refine .mk ⟨n, ?_, hty⟩ .nil
  unfold refValues at *
  rw [List.filter_append, List.map_append, hown, List.nil_append]
  rfl

theorem typedVars_emits (tag : String) (vars : List TypedVar) :
    (typedVars tag vars).Emits (.ofVars vars) := by
  have hvars : (all (vars.map typedVar)).EmitsAll (vars.map fun v => .leaf v.ty) :=
    .all fun v _ => typedVar_emits v
  refine (Numbers.bind_pure hvars ?_).of_eq (by simp [TypeTree.ofVars])
  intro types es hes
  exact .group hes rfl

theorem leaf_numbers (tag : String) (info : Info) (own : List Attr) :
    (leaf tag info own).Numbers [info.ty] fun types e =>
      refValues own = [] → e.Typed types (.leaf info.ty) := by
  refine (infoAttrs_numbers info own).bind_pure ?_
  intro types attrs hattrs hown
  exact .mk (hattrs hown) .nil

theorem leaf_emits (tag : String) (info : Info) {own : List Attr} (hown : refValues own = []) :
    (leaf tag info own).Emits (.leaf info.ty) :=
  (leaf_numbers tag info own).mono fun _ _ h => h hown

theorem constant_emits (info : Info) (kind : Constant) :
    (constant info kind).Emits (.leaf info.ty) := by
  unfold constant
  split_ifs
  all_goals exact leaf_emits _ info rfl

theorem ident_emits (info : Info) (name : VarName) : (ident info name).Emits (.leaf info.ty) := by
  refine (varAttrs_numbers name).bind fun r => (leaf_numbers r.1 info r.2).mono ?_
  intro types e he hown
  exact he hown

end Write

end BMethod
