import Mathlib
import BMethod.Check.Component
import BMethod.Proofs.Fault.Document
import BMethod.Proofs.Obligation.Reading
import BMethod.Proofs.Ty.Declaration

/-!
# Faults are reported together

A document is checked part by part, and what one part says does not hide what another part says.
There is one fault for each part that fails, the same as if the part stood alone.
-/

namespace BMethod

/-- The faults of the things that fail, one for each of them, in their order. -/
inductive Reported {α β : Type} (f : α → Except Fault β) : List α → List Fault → Prop
  | nil : Reported f [] []
  | passes {a : α} {b : β} {as : List α} {fs : List Fault} (result : f a = .ok b)
      (rest : Reported f as fs) : Reported f (a :: as) fs
  | fails {a : α} {fault : Fault} {as : List α} {fs : List Fault} (result : f a = .error fault)
      (rest : Reported f as fs) : Reported f (a :: as) (fault :: fs)

section
variable {α β γ : Type} {f : α → Except Fault β} {as : List α} {fs : List Fault}

theorem reported_faultsOf (f : α → Except Fault β) (as : List α) :
    Reported f as (faultsOf (as.map f)) := by
  induction as with
  | nil => exact .nil
  | cons a as ih =>
    cases ha : f a with
    | ok b =>
      have hfaults : faultsOf ((a :: as).map f) = faultsOf (as.map f) := by simp [faultsOf, ha]
      rw [hfaults]
      exact .passes ha ih
    | error fault =>
      have hfaults : faultsOf ((a :: as).map f) = fault :: faultsOf (as.map f) := by
        simp [faultsOf, ha]
      rw [hfaults]
      exact .fails ha ih

theorem Reported.unique {gs : List Fault} (h : Reported f as fs) (h' : Reported f as gs) :
    fs = gs := by
  induction h generalizing gs with
  | nil =>
    cases h'
    rfl
  | passes result _ ih =>
    cases h' with
    | passes _ rest => exact ih rest
    | fails result' _ => cases result.symm.trans result'
  | fails result _ ih =>
    cases h' with
    | passes result' _ => cases result.symm.trans result'
    | fails result' rest =>
      cases result.symm.trans result'
      rw [ih rest]

theorem reported_iff : Reported f as fs ↔ faultsOf (as.map f) = fs := by
  constructor
  · exact (reported_faultsOf f as).unique
  · rintro rfl
    exact reported_faultsOf f as

theorem reported_nil_iff : Reported f as [] ↔ ∀ a ∈ as, ∃ b, f a = .ok b := by
  induction as with
  | nil => exact ⟨fun _ => by simp, fun _ => .nil⟩
  | cons a as ih =>
    rw [List.forall_mem_cons, ← ih]
    constructor
    · rintro (_ | ⟨result, rest⟩)
      exact ⟨⟨_, result⟩, rest⟩
    · rintro ⟨⟨b, result⟩, rest⟩
      exact .passes result rest

theorem faultsOf_map_map (g : β → γ) (f : α → Except Fault β) (as : List α) :
    faultsOf (as.map fun a => (f a).map g) = faultsOf (as.map f) := by
  unfold faultsOf
  rw [List.filterMap_map, List.filterMap_map]
  refine List.filterMap_congr fun a _ => ?_
  cases ha : f a <;> simp [ha, Except.map]

theorem gathered_eq_error {gs : List Fault} {a : α} :
    (match gs with
      | [] => pure a
      | gs => throw gs : Except (List Fault) α) = .error fs ↔ fs ≠ [] ∧ gs = fs := by
  cases gs with
  | nil =>
    constructor
    · intro h
      cases h
    · rintro ⟨hne, rfl⟩
      exact absurd rfl hne
  | cons g gs =>
    constructor
    · intro h
      cases h
      exact ⟨List.cons_ne_nil _ _, rfl⟩
    · rintro ⟨-, rfl⟩
      rfl

theorem faultsOf_append (rs rs' : List (Except Fault α)) :
    faultsOf (rs ++ rs') = faultsOf rs ++ faultsOf rs' :=
  List.filterMap_append

end

/-! ## Documents of proof obligations -/

namespace Obligations

variable {t : Table} {root e : Element}

/-- The document with its types, and with one more element only. -/
def alone (root e : Element) : Element :=
  .wrap rootTag ((root.first? "TypeInfos").toList ++ [e])

/-- The types of the document are also the types of its elements when they stand alone. -/
theorem tableRead_alone (hroot : root.tag = rootTag) (htable : Table.read root = .ok t)
    (he : e.tag ≠ "TypeInfos") : Table.read (alone root e) = .ok t := by
  have hfirst : (alone root e).first? "TypeInfos" = root.first? "TypeInfos" := by
    rw [Element.first?, alone, Element.wrap_eq, Element.children_node, List.find?_append]
    cases h : root.first? "TypeInfos" with
    | none => simp [Element.hasTag, he]
    | some d =>
      have hd : Element.hasTag "TypeInfos" d = true := List.find?_some h
      simp [hd]
  have hdeclarations : Table.declarations? (alone root e) = Table.declarations? root := by
    rw [Table.declarations?, Table.declarations?, hfirst, hroot]
    rfl
  rw [← htable, Table.read, Table.read, hdeclarations]

theorem read_eq_readBody (hroot : root.tag = rootTag) (htable : Table.read root = .ok t) :
    read root = readBody t root := by
  rw [read, if_neg (not_not.2 hroot), htable]
  rfl

theorem readBody_eq_error {fs : List Fault} : readBody t root = .error fs ↔ fs ≠ [] ∧
    faultsOf ((root.childrenNamed "Define").map (readDefine t)) ++
      faultsOf ((root.childrenNamed "Proof_Obligation").map (readObligation t)) = fs :=
  gathered_eq_error

theorem read_eq_ok_of_table (hroot : root.tag = rootTag) (htable : Table.read root = .ok t)
    {d : Obligations} : read root = .ok d ↔
      List.Forall₂ (fun e x => readDefine t e = .ok x) (root.childrenNamed "Define") d.defines ∧
      List.Forall₂ (fun e x => readObligation t e = .ok x) (root.childrenNamed "Proof_Obligation")
        d.obligations := by
  rw [read_eq_readBody hroot htable, readBody_eq_ok]
  simp only [readDefine_eq_ok, readObligation_eq_ok]
  exact ⟨fun h => ⟨h.defines, h.obligations⟩, fun h => ⟨h.1, h.2⟩⟩

theorem readable_iff_of_table (hroot : root.tag = rootTag) (htable : Table.read root = .ok t) :
    (∃ d, read root = .ok d) ↔
      (∀ e ∈ root.childrenNamed "Define", ∃ x, readDefine t e = .ok x) ∧
      ∀ e ∈ root.childrenNamed "Proof_Obligation", ∃ x, readObligation t e = .ok x := by
  simp only [read_eq_ok_of_table hroot htable, ← reported_nil_iff, reported_iff]
  constructor
  · rintro ⟨d, hdefines, hobligations⟩
    exact ⟨(results_eq_ok.2 hdefines).1, (results_eq_ok.2 hobligations).1⟩
  · rintro ⟨hdefines, hobligations⟩
    exact ⟨⟨_, _⟩, results_eq_ok.1 ⟨hdefines, rfl⟩, results_eq_ok.1 ⟨hobligations, rfl⟩⟩

theorem read_eq_error_of_table (hroot : root.tag = rootTag) (htable : Table.read root = .ok t)
    {fs : List Fault} : read root = .error fs ↔ fs ≠ [] ∧ ∃ ds os, fs = ds ++ os ∧
      Reported (readDefine t) (root.childrenNamed "Define") ds ∧
      Reported (readObligation t) (root.childrenNamed "Proof_Obligation") os := by
  simp only [read_eq_readBody hroot htable, readBody_eq_error, reported_iff]
  refine and_congr_right fun _ => ?_
  constructor
  · rintro rfl
    exact ⟨_, _, rfl, rfl, rfl⟩
  · rintro ⟨ds, os, rfl, rfl, rfl⟩
    rfl

theorem childrenNamed_alone {tag : String} (htag : tag ≠ "") (htypes : tag ≠ "TypeInfos") :
    (alone root e).childrenNamed tag = if e.tag = tag then [e] else [] := by
  have hdeclared : (root.first? "TypeInfos").toList.filter (Element.hasTag tag) = [] := by
    refine List.filter_eq_nil_iff.2 fun d hd => ?_
    have hfirst : root.first? "TypeInfos" = some d := by simpa using hd
    have hdtag := Element.tag_of_first? hfirst (by decide)
    simp [Element.hasTag, htag, hdtag, htypes.symm]
  rw [Element.childrenNamed, alone, Element.wrap_eq, Element.children_node, List.filter_append,
    hdeclared, List.nil_append, List.filter_singleton]
  simp [Element.hasTag, htag]

theorem read_alone_eq_readBody (hroot : root.tag = rootTag) (htable : Table.read root = .ok t)
    (he : e.tag ≠ "TypeInfos") : read (alone root e) = readBody t (alone root e) :=
  read_eq_readBody rfl (tableRead_alone hroot htable he)

/-- A group of definitions says the same when it stands alone. -/
theorem read_alone_define (hroot : root.tag = rootTag) (htable : Table.read root = .ok t)
    (he : e.tag = "Define") :
    read (alone root e) = match readDefine t e with
      | .ok d => .ok ⟨[d], []⟩
      | .error f => .error [f] := by
  rw [read_alone_eq_readBody hroot htable (by rw [he]; decide), readBody,
    childrenNamed_alone (by decide) (by decide), childrenNamed_alone (by decide) (by decide),
    if_pos he, if_neg (by rw [he]; decide)]
  cases h : readDefine t e <;> simp [faultsOf, successesOf, h] <;> rfl

theorem read_alone_obligation (hroot : root.tag = rootTag) (htable : Table.read root = .ok t)
    (he : e.tag = "Proof_Obligation") :
    read (alone root e) = match readObligation t e with
      | .ok o => .ok ⟨[], [o]⟩
      | .error f => .error [f] := by
  rw [read_alone_eq_readBody hroot htable (by rw [he]; decide), readBody,
    childrenNamed_alone (by decide) (by decide), childrenNamed_alone (by decide) (by decide),
    if_neg (by rw [he]; decide), if_pos he]
  cases h : readObligation t e <;> simp [faultsOf, successesOf, h] <;> rfl

end Obligations

/-! ## Components -/

namespace Check

variable {t : Table} {root : Element}

theorem faultsOf_checkItems : faultsOf (checkItems t root) =
    faultsOf ((predicateSections.flatMap (sectionContents root)).map (Pred.read t)) ++
      faultsOf ((sectionContents root "Initialisation").map (Subst.read t)) ++
      faultsOf ((operationSections.flatMap (operationsIn root)).map (checkOperation t)) := by
  rw [checkItems, faultsOf_append, faultsOf_append]
  unfold checked
  rw [faultsOf_map_map, faultsOf_map_map]

theorem mem_sectionContents {tag : String} {e : Element} : e ∈ sectionContents root tag ↔
    ∃ s ∈ root.childrenNamed tag, e ∈ s.children :=
  List.mem_flatMap

theorem mem_operationsIn {tag : String} {op : Element} : op ∈ operationsIn root tag ↔
    ∃ ops, root.first? tag = some ops ∧ op ∈ ops.childrenNamed "Operation" := by
  unfold operationsIn
  cases root.first? tag <;> simp

theorem checkComponent_eq_error (htable : Table.read root = .ok t) {fs : List Fault} :
    checkComponent root = .error fs ↔ fs ≠ [] ∧ faultsOf (checkItems t root) = fs := by
  rw [checkComponent, htable]
  exact gathered_eq_error

theorem checkComponent_eq_ok (htable : Table.read root = .ok t) :
    checkComponent root = .ok () ↔ faultsOf (checkItems t root) = [] := by
  cases h : checkComponent root with
  | ok u =>
    refine ⟨fun _ => ?_, fun _ => rfl⟩
    by_contra hne
    rw [(checkComponent_eq_error htable).2 ⟨hne, rfl⟩] at h
    cases h
  | error fs =>
    obtain ⟨hne, heq⟩ := (checkComponent_eq_error htable).1 h
    rw [heq]
    exact ⟨fun h => absurd h (by simp), fun h => absurd h hne⟩

theorem faultsOf_checkItems_eq_nil : faultsOf (checkItems t root) = [] ↔
    (∀ tag ∈ predicateSections, ∀ s ∈ root.childrenNamed tag, ∀ e ∈ s.children,
      ∃ p, Pred.read t e = .ok p) ∧
    (∀ s ∈ root.childrenNamed "Initialisation", ∀ e ∈ s.children, ∃ x, Subst.read t e = .ok x) ∧
    ∀ tag ∈ operationSections, ∀ ops, root.first? tag = some ops →
      ∀ op ∈ ops.childrenNamed "Operation", checkOperation t op = .ok () := by
  rw [faultsOf_checkItems, List.append_eq_nil_iff, List.append_eq_nil_iff, and_assoc]
  simp only [← reported_iff, reported_nil_iff, List.mem_flatMap, mem_sectionContents,
    mem_operationsIn]
  refine and_congr ?_ (and_congr ?_ ?_)
  · exact ⟨fun h tag htag s hs e he => h e ⟨tag, htag, s, hs, he⟩,
      fun h e ⟨tag, htag, s, hs, he⟩ => h tag htag s hs e he⟩
  · exact ⟨fun h s hs e he => h e ⟨s, hs, he⟩, fun h e ⟨s, hs, he⟩ => h s hs e he⟩
  · exact ⟨fun h tag htag ops hops op hop => (h op ⟨tag, htag, ops, hops, hop⟩).elim fun _ hu => hu,
      fun h op ⟨tag, htag, ops, hops, hop⟩ => ⟨(), h tag htag ops hops op hop⟩⟩

end Check

/-! ## All faults at once -/

/-- Faults are reported together. A document of proof obligations is read when each of its elements
is, and then holds what they say, in their order. Otherwise there is one fault for each definition
that is not read, then one for each obligation, and these are the faults that the elements give when
they stand alone. A component is accepted when each predicate, each initialisation and each
operation is; otherwise there is one fault for each of them that is not, in this order. -/
theorem faults_reported_together {root : Element} {t : Table} (htable : Table.read root = .ok t) :
    (root.tag = Obligations.rootTag →
      ((∃ d, Obligations.read root = .ok d) ↔
        (∀ e ∈ root.childrenNamed "Define", ∃ x, Obligations.readDefine t e = .ok x) ∧
        ∀ e ∈ root.childrenNamed "Proof_Obligation", ∃ x, Obligations.readObligation t e = .ok x) ∧
      (∀ d, Obligations.read root = .ok d ↔
        List.Forall₂ (fun e x => Obligations.readDefine t e = .ok x) (root.childrenNamed "Define")
          d.defines ∧
        List.Forall₂ (fun e x => Obligations.readObligation t e = .ok x)
          (root.childrenNamed "Proof_Obligation") d.obligations) ∧
      (∀ fs, Obligations.read root = .error fs ↔ fs ≠ [] ∧ ∃ ds os, fs = ds ++ os ∧
        Reported (Obligations.readDefine t) (root.childrenNamed "Define") ds ∧
        Reported (Obligations.readObligation t) (root.childrenNamed "Proof_Obligation") os) ∧
      (∀ e ∈ root.childrenNamed "Define", Obligations.read (Obligations.alone root e) =
        match Obligations.readDefine t e with
        | .ok d => .ok ⟨[d], []⟩
        | .error f => .error [f]) ∧
      ∀ e ∈ root.childrenNamed "Proof_Obligation", Obligations.read (Obligations.alone root e) =
        match Obligations.readObligation t e with
        | .ok o => .ok ⟨[], [o]⟩
        | .error f => .error [f]) ∧
    (Check.checkComponent root = .ok () ↔
      (∀ tag ∈ ["Constraints", "Properties", "Invariant", "Assertions", "Values"],
        ∀ s ∈ root.childrenNamed tag, ∀ e ∈ s.children, ∃ p, Pred.read t e = .ok p) ∧
      (∀ s ∈ root.childrenNamed "Initialisation", ∀ e ∈ s.children,
        ∃ x, Subst.read t e = .ok x) ∧
      ∀ tag ∈ ["Operations", "Local_Operations"], ∀ ops, root.first? tag = some ops →
        ∀ op ∈ ops.childrenNamed "Operation", Check.checkOperation t op = .ok ()) ∧
    ∀ fs, Check.checkComponent root = .error fs ↔ fs ≠ [] ∧ ∃ ps is os, fs = ps ++ is ++ os ∧
      Reported (Pred.read t) (Check.predicateSections.flatMap (Check.sectionContents root)) ps ∧
      Reported (Subst.read t) (Check.sectionContents root "Initialisation") is ∧
      Reported (Check.checkOperation t) (Check.operationSections.flatMap (Check.operationsIn root))
        os := by
  refine ⟨fun hroot => ⟨?_, fun d => ?_, fun fs => ?_, fun e he => ?_, fun e he => ?_⟩, ?_,
    fun fs => ?_⟩
  · exact Obligations.readable_iff_of_table hroot htable
  · exact Obligations.read_eq_ok_of_table hroot htable
  · exact Obligations.read_eq_error_of_table hroot htable
  · exact Obligations.read_alone_define hroot htable
      (Element.tag_of_mem_childrenNamed he (by decide))
  · exact Obligations.read_alone_obligation hroot htable
      (Element.tag_of_mem_childrenNamed he (by decide))
  · rw [Check.checkComponent_eq_ok htable]
    exact Check.faultsOf_checkItems_eq_nil
  · rw [Check.checkComponent_eq_error htable, Check.faultsOf_checkItems]
    simp only [reported_iff]
    refine and_congr_right fun _ => ?_
    constructor
    · rintro rfl
      exact ⟨_, _, _, rfl, rfl, rfl, rfl⟩
    · rintro ⟨ps, is, os, rfl, rfl, rfl, rfl⟩
      rfl

/-- A component whose operation has no body. Behind it there are two invariants, of which the second
is no predicate. -/
def sampleMachine : Element :=
  .wrap "Machine" [.wrap "Operations" [.wrap "Operation" []],
    .wrap "Invariant" [.node "Nary_Pred" [⟨"op", "&"⟩] [], .wrap "Skip" []]]

theorem faults_reported_together_sample :
    (∃ f g, Obligations.read sampleFaulty = .error [f, g] ∧
      f.category? = some .invalidTypeRef ∧ g.category? = some .missingChild ∧
      ∀ e ∈ sampleFaulty.childrenNamed "Define",
        Obligations.read (Obligations.alone sampleFaulty e) = .error [f]) ∧
    ∃ f g, Check.checkComponent sampleMachine = .error [f, g] ∧
      f.category? = some .unknownTag ∧ g.category? = some .missingChild := by
  have htable : Table.read sampleFaulty = .ok .empty := rfl
  obtain ⟨⟨-, -, hfaults, halone, -⟩, -⟩ :=
    (faults_reported_together htable).imp_left fun h => h rfl
  have hread := (hfaults _).2 ⟨by simp, _, _, rfl, .fails rfl .nil, .fails rfl .nil⟩
  have htable' : Table.read sampleMachine = .ok .empty := rfl
  have hskip : Pred.read .empty (.wrap "Skip" []) =
      .error ((Complaint.notPredicate "Skip").fault.locate ⟨0, "Skip"⟩) := by
    with_unfolding_all rfl
  have hcheck := ((faults_reported_together htable').2.2 _).2
    ⟨by simp, _, _, _, rfl,
      .passes (b := .truth) (by with_unfolding_all rfl) (.fails hskip .nil), .nil, .fails rfl .nil⟩
  refine ⟨⟨_, _, hread, rfl, rfl, ?_⟩, _, _, hcheck, rfl, rfl⟩
  intro e he
  rw [halone e he]
  obtain rfl := List.mem_singleton.1 he
  rfl

end BMethod
