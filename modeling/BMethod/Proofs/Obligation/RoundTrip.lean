import Mathlib
import BMethod.Proofs.Expr.Image
import BMethod.Proofs.Expr.RoundTrip
import BMethod.Proofs.Obligation.Reading
import BMethod.Proofs.Ty.Table

/-!
# Documents of proof obligations are read back

A well-formed document is written so that it is read as its normal form, in which the predicates are
in normal form and everything else is as it was. What is read from any element is well formed and in
normal form already.
-/

namespace BMethod

/-! ## Well-formed documents -/

/-- A well-formed entry holds a well-formed predicate or a canonical declaration. -/
def DefineItem.WellFormed : DefineItem → Prop
  | pred p => p.WellFormed
  | set s => s.Canonical

def Define.WellFormed (d : Define) : Prop :=
  ∀ i ∈ d.items, i.WellFormed

def LocalHyp.WellFormed (h : LocalHyp) : Prop :=
  Text.inWord h.num = true ∧ h.pred.WellFormed

def SimpleGoal.WellFormed (g : SimpleGoal) : Prop :=
  (∀ n ∈ g.refs, Text.inWord n = true) ∧ g.goal.WellFormed

def Obligation.WellFormed (o : Obligation) : Prop :=
  (∀ p ∈ o.hypotheses, p.WellFormed) ∧ (∀ h ∈ o.localHyps, h.WellFormed) ∧
    ∀ g ∈ o.goals, g.WellFormed

/-- A document of well-formed predicates, canonical declarations of sets, and numbers that fit a
word. -/
def Obligations.WellFormed (d : Obligations) : Prop :=
  (∀ c ∈ d.defines, c.WellFormed) ∧ ∀ o ∈ d.obligations, o.WellFormed

def DefineItem.Addressable : DefineItem → Prop
  | pred _ => True
  | set s => s.Addressable

/-- Whether the places of types in the declarations of sets fit a signed 64-bit word, as the places
of a list in memory do. -/
def Obligations.Addressable (d : Obligations) : Prop :=
  ∀ c ∈ d.defines, ∀ i ∈ c.items, i.Addressable

/-! ## Normal forms -/

def DefineItem.norm : DefineItem → DefineItem
  | pred p => .pred p.norm
  | set s => .set s

def Define.norm (d : Define) : Define :=
  ⟨d.name, d.items.map DefineItem.norm⟩

def LocalHyp.norm (h : LocalHyp) : LocalHyp :=
  ⟨h.num, h.pred.norm⟩

def SimpleGoal.norm (g : SimpleGoal) : SimpleGoal :=
  ⟨g.tag, g.refs, g.goal.norm⟩

def Obligation.norm (o : Obligation) : Obligation :=
  ⟨o.tag, o.definitions, o.hypotheses.map Pred.norm, o.localHyps.map LocalHyp.norm,
    o.goals.map SimpleGoal.norm⟩

def Obligations.norm (d : Obligations) : Obligations :=
  ⟨d.defines.map Define.norm, d.obligations.map Obligation.norm⟩

/-! ## Types -/

def DefineItem.types : DefineItem → List Ty
  | pred p => p.types
  | set s => s.types

def Define.types (d : Define) : List Ty :=
  d.items.flatMap DefineItem.types

def LocalHyp.types (h : LocalHyp) : List Ty :=
  h.pred.types

def SimpleGoal.types (g : SimpleGoal) : List Ty :=
  g.goal.types

def Obligation.types (o : Obligation) : List Ty :=
  o.hypotheses.flatMap Pred.types ++
    (o.localHyps.flatMap LocalHyp.types ++ o.goals.flatMap SimpleGoal.types)

/-- The types in a document, in the order in which they are met. -/
def Obligations.types (d : Obligations) : List Ty :=
  d.defines.flatMap Define.types ++ d.obligations.flatMap Obligation.types

/-! ## Writing -/

theorem Element.hasNumber_node {tag : String} {i : Int} {cs : List Element}
    (h : Text.inWord i = true) : (node tag [⟨"num", toString i⟩] cs).HasNumber i :=
  ⟨toString i, rfl, Text.readInt?_toString_int h⟩

namespace Obligations

theorem writeDefineItem_gives {i : DefineItem} (h : i.WellFormed) (hsize : i.Addressable) :
    (writeDefineItem i).Gives i.types fun t e => DefineItem.Form t e i.norm := by
  cases i with
  | pred p => exact (p.write_gives h).mono fun _ _ => .pred
  | set s => exact (SetDeclaration.Canonical.write_gives h hsize).mono fun _ _ => .set

theorem writeDefine_gives {d : Define} (h : d.WellFormed) (hsize : ∀ i ∈ d.items, i.Addressable) :
    (writeDefine d).Gives d.types fun t e => e.tag = "Define" ∧ Define.Form t e d.norm := by
  have hitems := Write.Gives.all fun i hi => writeDefineItem_gives (h i hi) (hsize i hi)
  refine hitems.bind_pure ?_
  intro t es hes
  exact ⟨rfl, rfl, hes⟩

theorem writeHypothesis_gives {p : Pred} (h : p.WellFormed) :
    (writeHypothesis p).Gives p.types fun t e => e.tag = "Hypothesis" ∧ e.HoldsPred t p.norm := by
  refine (p.write_gives h).bind_pure ?_
  intro t e he
  exact ⟨rfl, e, Element.first?_any, he⟩

theorem writeLocalHyp_gives {h : LocalHyp} (hh : h.WellFormed) :
    (writeLocalHyp h).Gives h.types fun t e =>
      e.tag = "Local_Hyp" ∧ LocalHyp.Form t e h.norm := by
  refine (h.pred.write_gives hh.2).bind_pure ?_
  intro t e he
  exact ⟨rfl, Element.hasNumber_node hh.1, e, Element.first?_any, he⟩

theorem goal_form {t : Table} {tag : String} {rs : List Element} {refs : List Int} {e : Element}
    {p : Pred} (hrefs : List.Forall₂ (fun c n => c.tag = "Ref_Hyp" ∧ c.HasNumber n) rs refs)
    (he : Pred.Reads t e p) :
    SimpleGoal.Form t
      (.wrap "Simple_Goal" (.ofText "Tag" tag :: (rs ++ [.wrap "Goal" [e]]))) ⟨tag, refs, p⟩ := by
  refine ⟨⟨_, Element.first?_cons rfl, rfl⟩, ?_, .wrap "Goal" [e], ?_, e, ?_, he⟩
  · have hnamed : (Element.wrap "Simple_Goal" (.ofText "Tag" tag ::
        (rs ++ [.wrap "Goal" [e]]))).childrenNamed "Ref_Hyp" = rs := by
      simp [Element.childrenNamed, Element.filter_hasTag hrefs, Element.hasTag, Element.ofText]
    rw [hnamed]
    exact hrefs.imp fun _ _ h => h.2
  · rw [Element.first?_eq_head?]
    simp [Element.childrenNamed, Element.filter_hasTag hrefs, Element.hasTag, Element.ofText]
  · exact Element.first?_any

theorem writeGoal_gives {g : SimpleGoal} (h : g.WellFormed) :
    (writeGoal g).Gives g.types fun t e =>
      e.tag = "Simple_Goal" ∧ SimpleGoal.Form t e g.norm := by
  refine (g.goal.write_gives h.2).bind_pure ?_
  intro t e he
  refine ⟨rfl, goal_form ?_ he⟩
  rw [List.forall₂_map_left_iff]
  exact List.forall₂_same.2 fun n hn => ⟨rfl, Element.hasNumber_node (h.1 n hn)⟩

theorem obligation_form {t : Table} {ds hs ls gs : List Element} {o : Obligation}
    (hds : List.Forall₂ (fun c n => c.tag = "Definition" ∧ c.attr? "name" = some n) ds
      o.definitions)
    (hhs : List.Forall₂ (fun c p => c.tag = "Hypothesis" ∧ c.HoldsPred t p) hs o.hypotheses)
    (hls : List.Forall₂ (fun c h => c.tag = "Local_Hyp" ∧ LocalHyp.Form t c h) ls o.localHyps)
    (hgs : List.Forall₂ (fun c g => c.tag = "Simple_Goal" ∧ SimpleGoal.Form t c g) gs o.goals) :
    Obligation.Form t (.wrap "Proof_Obligation"
      (.ofText "Tag" o.tag :: (ds ++ (hs ++ (ls ++ gs))))) o := by
  have hnamed (tag : String) (hne : tag ≠ "") (hne' : "Tag" ≠ tag) :
      (Element.wrap "Proof_Obligation"
        (.ofText "Tag" o.tag :: (ds ++ (hs ++ (ls ++ gs))))).childrenNamed tag =
      (if "Definition" = tag then ds else []) ++ ((if "Hypothesis" = tag then hs else []) ++
        ((if "Local_Hyp" = tag then ls else []) ++ if "Simple_Goal" = tag then gs else [])) := by
    simp [Element.childrenNamed, Element.hasTag, Element.ofText, hne, hne',
      Element.filter_hasTag hds, Element.filter_hasTag hhs, Element.filter_hasTag hls,
      Element.filter_hasTag hgs]
  refine ⟨⟨_, Element.first?_cons rfl, rfl⟩, ?_, ?_, ?_, ?_⟩
  all_goals rw [hnamed _ (by decide) (by decide)]
  · simpa using hds.imp fun _ _ h => h.2
  · simpa using hhs.imp fun _ _ h => h.2
  · simpa using hls.imp fun _ _ h => h.2
  · simpa using hgs.imp fun _ _ h => h.2

theorem writeObligation_gives {o : Obligation} (h : o.WellFormed) :
    (writeObligation o).Gives o.types fun t e =>
      e.tag = "Proof_Obligation" ∧ Obligation.Form t e o.norm := by
  obtain ⟨hhypotheses, hlocalHyps, hgoals⟩ := h
  have hhs : (Write.all (o.hypotheses.map writeHypothesis)).Gives (o.hypotheses.flatMap Pred.types)
      fun t es => List.Forall₂ (fun c p => c.tag = "Hypothesis" ∧ c.HoldsPred t p) es
        o.norm.hypotheses :=
    .all fun p hp => writeHypothesis_gives (hhypotheses p hp)
  have hls : (Write.all (o.localHyps.map writeLocalHyp)).Gives (o.localHyps.flatMap LocalHyp.types)
      fun t es => List.Forall₂ (fun c h => c.tag = "Local_Hyp" ∧ LocalHyp.Form t c h) es
        o.norm.localHyps :=
    .all fun l hl => writeLocalHyp_gives (hlocalHyps l hl)
  have hgs : (Write.all (o.goals.map writeGoal)).Gives (o.goals.flatMap SimpleGoal.types)
      fun t es => List.Forall₂ (fun c g => c.tag = "Simple_Goal" ∧ SimpleGoal.Form t c g) es
        o.norm.goals :=
    .all fun g hg => writeGoal_gives (hgoals g hg)
  refine hhs.bind fun hs => hls.bind fun ls => hgs.bind_pure ?_
  intro t gs hgs hls hhs
  refine ⟨rfl, obligation_form ?_ hhs hls hgs⟩
  rw [List.forall₂_map_left_iff]
  exact List.forall₂_same.2 fun n _ => ⟨rfl, rfl⟩

/-- Everything but the type table is written so that it is read back, after any element that is
neither a group of definitions nor an obligation. -/
theorem writeBody_gives {d : Obligations} (h : d.WellFormed) (hsize : d.Addressable) :
    d.writeBody.Gives d.types fun t es =>
      ∀ infos : Element, infos.tag = "TypeInfos" → Form t (.wrap rootTag (infos :: es)) d.norm := by
  have hds : (Write.all (d.defines.map writeDefine)).Gives (d.defines.flatMap Define.types)
      fun t es => List.Forall₂ (fun c a => c.tag = "Define" ∧ Define.Form t c a) es
        d.norm.defines :=
    .all fun c hc => writeDefine_gives (h.1 c hc) (hsize c hc)
  have hos : (Write.all (d.obligations.map writeObligation)).Gives
      (d.obligations.flatMap Obligation.types)
      fun t es => List.Forall₂ (fun c a => c.tag = "Proof_Obligation" ∧ Obligation.Form t c a) es
        d.norm.obligations :=
    .all fun o ho => writeObligation_gives (h.2 o ho)
  refine hds.bind fun ds => hos.bind_pure ?_
  intro t os hos hds infos hinfos
  constructor
  · have hnamed : (Element.wrap rootTag (infos :: (ds ++ os))).childrenNamed "Define" = ds := by
      simp [Element.childrenNamed, Element.hasTag, hinfos, Element.filter_hasTag hds,
        Element.filter_hasTag hos]
    rw [hnamed]
    exact hds.imp fun _ _ h => h.2
  · have hnamed :
        (Element.wrap rootTag (infos :: (ds ++ os))).childrenNamed "Proof_Obligation" = os := by
      simp [Element.childrenNamed, Element.hasTag, hinfos, Element.filter_hasTag hds,
        Element.filter_hasTag hos]
    rw [hnamed]
    exact hos.imp fun _ _ h => h.2

theorem write_spec {d : Obligations} (h : d.WellFormed) (hsize : d.Addressable) :
    ∃ es, d.write = .ok (.wrap rootTag ((Pool.empty.addAll d.types).declarations :: es)) ∧
      ((∀ ty ∈ d.types, ty.Canonical) → (Pool.empty.addAll d.types).Addressable →
        read (.wrap rootTag ((Pool.empty.addAll d.types).declarations :: es)) = .ok d.norm) := by
  obtain ⟨es, hon, -, hform⟩ := writeBody_gives h hsize .empty Pool.empty_sound
  refine ⟨es, ?_, ?_⟩
  · rw [write, hon]
  · intro htypes hpool
    have htable : Table.read (.wrap rootTag ((Pool.empty.addAll d.types).declarations :: es)) =
        .ok (Pool.empty.addAll d.types).table := by
      refine Table.read_of_declarations? ?_ ?_ hpool
      · exact Table.declarations?_of_first? (by simp [rootTag]) (Element.first?_cons rfl)
      · exact fun ty hty => htypes ty (Pool.types_addAll_empty_subset _ hty)
    refine read_eq_ok.2 ⟨rfl, _, htable, ?_⟩
    exact hform hpool (Pool.table _) (List.prefix_refl _) _ rfl

end Obligations

/-! ## What is read -/

/-- What is read is well formed and in normal form, and has only types of the table. -/
structure Settled {α : Type} (wellFormed : α → Prop) (norm : α → α) (types : α → List Ty)
    (t : Table) (x : α) : Prop where
  wellFormed : wellFormed x
  norm : norm x = x
  types : types x ⊆ t.types

section
variable {t : Table} {e : Element}

theorem Settled.all {α : Type} {wellFormed : α → Prop} {norm : α → α} {types : α → List Ty}
    {R : Element → α → Prop} {es : List Element} {xs : List α} (hxs : List.Forall₂ R es xs)
    (h : ∀ e x, R e x → Settled wellFormed norm types t x) :
    (∀ x ∈ xs, wellFormed x) ∧ xs.map norm = xs ∧ xs.flatMap types ⊆ t.types := by
  have hsettled : ∀ x ∈ xs, Settled wellFormed norm types t x := by
    intro x hx
    obtain ⟨e, -, hR⟩ := exists_of_forall₂_right hxs hx
    exact h e x hR
  refine ⟨fun x hx => (hsettled x hx).wellFormed, ?_, ?_⟩
  · refine (List.map_congr_left fun x hx => (hsettled x hx).norm).trans ?_
    exact List.map_id' xs
  · intro ty hty
    obtain ⟨x, hx, hty⟩ := List.mem_flatMap.1 hty
    exact (hsettled x hx).types hty

theorem Pred.Reads.settled {p : Pred} (h : Pred.Reads t e p) :
    Settled Pred.WellFormed Pred.norm Pred.types t p :=
  ⟨h.normal.wellFormed, h.normal.norm, h.normal.types⟩

theorem Element.HoldsPred.settled {p : Pred} (h : e.HoldsPred t p) :
    Settled Pred.WellFormed Pred.norm Pred.types t p := by
  obtain ⟨c, -, hp⟩ := h
  exact hp.settled

theorem DefineItem.Form.settled {i : DefineItem} (h : DefineItem.Form t e i) :
    Settled DefineItem.WellFormed DefineItem.norm DefineItem.types t i := by
  cases h with
  | pred formula =>
    exact ⟨formula.settled.wellFormed, by rw [norm, formula.settled.norm], formula.settled.types⟩
  | set declaration => exact ⟨declaration.canonical, rfl, declaration.types_subset⟩

theorem Define.Form.settled {d : Define} (h : Define.Form t e d) :
    Settled Define.WellFormed Define.norm Define.types t d := by
  obtain ⟨hwf, hnorm, htypes⟩ := Settled.all h.items fun _ _ => DefineItem.Form.settled
  exact ⟨hwf, by rw [norm, hnorm], htypes⟩

theorem Element.HasNumber.inWord {i : Int} (h : e.HasNumber i) : Text.inWord i = true := by
  obtain ⟨v, -, hi⟩ := h
  exact Text.inWord_of_readInt? hi

theorem LocalHyp.Form.settled {l : LocalHyp} (h : LocalHyp.Form t e l) :
    Settled LocalHyp.WellFormed LocalHyp.norm LocalHyp.types t l :=
  ⟨⟨h.num.inWord, h.pred.settled.wellFormed⟩, by rw [norm, h.pred.settled.norm],
    h.pred.settled.types⟩

theorem SimpleGoal.Form.settled {g : SimpleGoal} (h : SimpleGoal.Form t e g) :
    Settled SimpleGoal.WellFormed SimpleGoal.norm SimpleGoal.types t g := by
  obtain ⟨-, hrefs, c, -, hgoal⟩ := h
  refine ⟨⟨?_, hgoal.settled.wellFormed⟩, by rw [norm, hgoal.settled.norm], hgoal.settled.types⟩
  intro n hn
  obtain ⟨d, -, hd⟩ := exists_of_forall₂_right hrefs hn
  exact hd.inWord

theorem Obligation.Form.settled {o : Obligation} (h : Obligation.Form t e o) :
    Settled Obligation.WellFormed Obligation.norm Obligation.types t o := by
  obtain ⟨hwf, hnorm, htypes⟩ := Settled.all h.hypotheses fun _ _ => Element.HoldsPred.settled
  obtain ⟨hwf', hnorm', htypes'⟩ := Settled.all h.localHyps fun _ _ => LocalHyp.Form.settled
  obtain ⟨hwf'', hnorm'', htypes''⟩ := Settled.all h.goals fun _ _ => SimpleGoal.Form.settled
  refine ⟨⟨hwf, hwf', hwf''⟩, by rw [norm, hnorm, hnorm', hnorm''], ?_⟩
  exact List.append_subset.2 ⟨htypes, List.append_subset.2 ⟨htypes', htypes''⟩⟩

theorem Obligations.Form.settled {d : Obligations} (h : Obligations.Form t e d) :
    Settled Obligations.WellFormed Obligations.norm Obligations.types t d := by
  obtain ⟨hwf, hnorm, htypes⟩ := Settled.all h.defines fun _ _ => Define.Form.settled
  obtain ⟨hwf', hnorm', htypes'⟩ := Settled.all h.obligations fun _ _ => Obligation.Form.settled
  exact ⟨⟨hwf, hwf'⟩, by rw [norm, hnorm, hnorm'], List.append_subset.2 ⟨htypes, htypes'⟩⟩

end

/-! ## Round trips -/

/-- A well-formed document whose records have no label twice is written, its type table first, and
is read as its normal form. The numbers of types have to fit a word, as the places of a list in
memory do. What is read from any element is such a document in normal form, so it is written and
read as it is. -/
theorem obligations_round_trip :
    (∀ d : Obligations, d.WellFormed → d.Addressable → (∀ ty ∈ d.types, ty.Ordered) →
      (∀ ty ∈ d.types, ty.Distinct) →
      ∃ root infos body, d.write = .ok root ∧ root.children = infos :: body ∧
        infos.tag = "TypeInfos" ∧
        ((Pool.empty.addAll d.types).Addressable → Obligations.read root = .ok d.norm)) ∧
    ∀ (e : Element) (d : Obligations), Obligations.read e = .ok d → d.Addressable →
      d.WellFormed ∧ (∀ ty ∈ d.types, ty.Ordered ∧ ty.Distinct) ∧ d.norm = d ∧
        ∃ root, d.write = .ok root ∧ Obligations.read root = .ok d := by
  constructor
  · intro d hwf hsize hord hdist
    obtain ⟨es, hwrite, hread⟩ := Obligations.write_spec hwf hsize
    refine ⟨_, _, es, hwrite, rfl, rfl, hread fun ty hty => ?_⟩
    exact Ty.canonical_of_distinct (hord ty hty) (hdist ty hty)
  · intro e d h hsize
    obtain ⟨-, t, htable, hform⟩ := Obligations.read_eq_ok.1 h
    obtain ⟨hwf, hnorm, htypes⟩ := hform.settled
    have hcanonical : ∀ ty ∈ d.types, ty.Canonical := fun ty hty =>
      Table.canonical_of_read htable ty (htypes hty)
    -- All types come from the table that was read, so their numbers fit a word as its numbers do.
    have hpool : (Pool.empty.addAll d.types).Addressable :=
      Table.addressable_of_read htable (Pool.empty_sound.addAll d.types) fun ty hty =>
        htypes (Pool.types_addAll_empty_subset _ hty)
    obtain ⟨es, hwrite, hread⟩ := Obligations.write_spec hwf hsize
    have hagain := hread hcanonical hpool
    rw [hnorm] at hagain
    refine ⟨hwf, fun ty hty => ?_, hnorm, _, hwrite, hagain⟩
    exact ⟨(hcanonical ty hty).ordered, (hcanonical ty hty).distinct⟩

def sampleSet : SetDeclaration where
  elem := .node "Set" [] [.node "Id" [⟨"value", "S"⟩, ⟨"typref", "0"⟩]
    [.node "Id" [⟨"value", "a"⟩, ⟨"typref", "1"⟩] []]]
  types := [.power .integer, .integer]

/-- A document with a declaration, an empty conjunction and a goal that uses a hypothesis. -/
def sampleObligations : Obligations where
  defines := [⟨"ctx", [.set sampleSet, .pred (.and [])]⟩]
  obligations := [⟨"po", ["ctx"], [.truth], [⟨-1, .or []⟩], [⟨"goal", [-1], .not .falsity⟩]⟩]

/-- The same document with its predicates in normal form. -/
def sampleNormal : Obligations where
  defines := [⟨"ctx", [.set sampleSet, .pred .truth]⟩]
  obligations := [⟨"po", ["ctx"], [.truth], [⟨-1, .falsity⟩], [⟨"goal", [-1], .not .falsity⟩]⟩]

theorem sampleObligations_wellFormed : sampleObligations.WellFormed := by
  have hset : sampleSet.Canonical := ⟨rfl, by decide⟩
  simp [sampleObligations, Obligations.WellFormed, Define.WellFormed, DefineItem.WellFormed,
    Obligation.WellFormed, LocalHyp.WellFormed, SimpleGoal.WellFormed, Pred.WellFormed,
    Pred.AllWellFormed, Text.inWord, hset]

theorem sampleObligations_types : sampleObligations.types = [.power .integer, .integer] := by
  simp [sampleObligations, sampleSet, Obligations.types, Define.types, DefineItem.types,
    Obligation.types, LocalHyp.types, SimpleGoal.types, Pred.types, Pred.typesAll]

theorem sampleObligations_addressable : sampleObligations.Addressable := by
  simp [sampleObligations, sampleSet, Obligations.Addressable, DefineItem.Addressable,
    SetDeclaration.Addressable]

theorem obligations_round_trip_sample :
    ∃ root root', sampleObligations.write = .ok root ∧
      Obligations.read root = .ok sampleNormal ∧ sampleNormal.write = .ok root' ∧
      Obligations.read root' = .ok sampleNormal := by
  have hord : ∀ ty ∈ sampleObligations.types, ty.Ordered := by
    rw [sampleObligations_types]
    simpa [Ty.Ordered] using ⟨.power .integer, .integer⟩
  have hdist : ∀ ty ∈ sampleObligations.types, ty.Distinct := by
    rw [sampleObligations_types]
    simpa [Ty.Distinct] using ⟨.power .integer, .integer⟩
  have hpool : (Pool.empty.addAll sampleObligations.types).Addressable :=
    Pool.addressable_addAll_empty (by simp [sampleObligations_types])
  obtain ⟨root, _, _, hwrite, -, -, hread⟩ := obligations_round_trip.1 sampleObligations
    sampleObligations_wellFormed sampleObligations_addressable hord hdist
  have hsize : sampleNormal.Addressable := by
    simp [sampleNormal, sampleSet, Obligations.Addressable, DefineItem.Addressable,
      SetDeclaration.Addressable]
  obtain ⟨-, -, -, root', hwrite', hread'⟩ :=
    obligations_round_trip.2 root sampleNormal (hread hpool) hsize
  exact ⟨root, root', hwrite, hread hpool, hwrite', hread'⟩

end BMethod
