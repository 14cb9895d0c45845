import Mathlib
import BMethod.Proofs.Expr.Reading
import BMethod.Proofs.Obligation.References

/-!
# What is read from documents of proof obligations

The parts of a document and what their elements say about them. A document is read when all its
definitions and obligations are.
-/

namespace BMethod

/-! ## Parts of elements -/

namespace Element

variable {t : Table} {e : Element}

def HasNumber (e : Element) (i : Int) : Prop :=
  ∃ v, e.attr? "num" = some v ∧ Text.readInt? v = some i

def HasText (e : Element) (tag text : String) : Prop :=
  ∃ c, e.first? tag = some c ∧ c.text = text

def HoldsPred (t : Table) (e : Element) (p : Pred) : Prop :=
  ∃ c, e.first? "" = some c ∧ Pred.Reads t c p

end Element

namespace Obligations

variable {t : Table} {e : Element}

theorem heading_eq_ok {name v : String} : heading e name = .ok v ↔ e.attr? name = some v := by
  unfold heading
  split
  · rename_i w hw
    simp [hw, pure_eq_ok]
  · rename_i hnone
    simp [hnone, Element.complain_ne_ok]

theorem number_eq_ok {i : Int} : number e = .ok i ↔ e.HasNumber i := by
  unfold number Element.HasNumber
  simp only [bind_eq_ok, heading_eq_ok]
  constructor
  · rintro ⟨v, hv, h⟩
    refine ⟨v, hv, ?_⟩
    split at h
    · rename_i j hj
      rw [pure_eq_ok] at h
      rw [hj, h]
    · exact absurd h (Element.complain_ne_ok _ _ _)
  · rintro ⟨v, hv, hi⟩
    refine ⟨v, hv, ?_⟩
    rw [hi]
    rfl

theorem textOf_eq_ok {tag text : String} : textOf e tag = .ok text ↔ e.HasText tag text := by
  unfold textOf Element.HasText
  split
  · rename_i c hc
    simp [hc, pure_eq_ok]
  · rename_i hnone
    simp [hnone, Element.lacks_ne_ok]

theorem innerPred_eq_ok {p : Pred} : innerPred t e = .ok p ↔ e.HoldsPred t p := by
  unfold innerPred Element.HoldsPred
  simp only [bind_eq_ok, Element.needChild_eq_ok]
  constructor
  · rintro ⟨c, hc, hp⟩
    exact ⟨c.1, hc, hp⟩
  · rintro ⟨c, hc, hp⟩
    exact ⟨⟨c, Element.sizeOf_lt_of_first? hc⟩, hc, hp⟩

end Obligations

/-! ## Parts of documents -/

section
variable {t : Table} {e : Element}

theorem Pred.Reads.tag_ne {p : Pred} (h : Pred.Reads t e p) : e.tag ≠ "Set" := by
  intro htag
  have hnone : Connective.read? t e = .ok none :=
    Connective.read?_eq_none.2 (by rw [htag]; decide)
  rw [Pred.Reads, Pred.read, hnone] at h
  simp [htag, Element.complain_ne_ok] at h

/-- What an element says about an entry of a group of definitions. -/
inductive DefineItem.Form (t : Table) (e : Element) : DefineItem → Prop
  | pred {p : Pred} (formula : Pred.Reads t e p) : Form t e (.pred p)
  | set {s : SetDeclaration} (declaration : SetDeclaration.Form t e s) : Form t e (.set s)

/-- What an element says about a group of definitions. -/
structure Define.Form (t : Table) (e : Element) (d : Define) : Prop where
  name : e.attr? "name" = some d.name
  items : List.Forall₂ (DefineItem.Form t) e.children d.items

/-- What an element says about a local hypothesis. -/
structure LocalHyp.Form (t : Table) (e : Element) (h : LocalHyp) : Prop where
  num : e.HasNumber h.num
  pred : e.HoldsPred t h.pred

/-- What an element says about a goal. -/
structure SimpleGoal.Form (t : Table) (e : Element) (g : SimpleGoal) : Prop where
  tag : e.HasText "Tag" g.tag
  refs : List.Forall₂ Element.HasNumber (e.childrenNamed "Ref_Hyp") g.refs
  goal : ∃ c, e.first? "Goal" = some c ∧ c.HoldsPred t g.goal

/-- What an element says about an obligation. -/
structure Obligation.Form (t : Table) (e : Element) (o : Obligation) : Prop where
  tag : e.HasText "Tag" o.tag
  definitions : List.Forall₂ (fun c name => c.attr? "name" = some name)
    (e.childrenNamed "Definition") o.definitions
  hypotheses : List.Forall₂ (fun c p => c.HoldsPred t p) (e.childrenNamed "Hypothesis") o.hypotheses
  localHyps : List.Forall₂ (LocalHyp.Form t) (e.childrenNamed "Local_Hyp") o.localHyps
  goals : List.Forall₂ (SimpleGoal.Form t) (e.childrenNamed "Simple_Goal") o.goals

/-- What an element says about a document. -/
structure Obligations.Form (t : Table) (e : Element) (d : Obligations) : Prop where
  defines : List.Forall₂ (Define.Form t) (e.childrenNamed "Define") d.defines
  obligations : List.Forall₂ (Obligation.Form t) (e.childrenNamed "Proof_Obligation") d.obligations

namespace Obligations

theorem readDefineItem_eq_ok {i : DefineItem} :
    readDefineItem t e = .ok i ↔ DefineItem.Form t e i := by
  unfold readDefineItem
  split
  · rename_i htag
    simp only [map_eq_ok, SetDeclaration.readSet_eq_ok htag]
    constructor
    · rintro ⟨s, hs, rfl⟩
      exact .set hs
    · rintro (hp | hs)
      · exact absurd htag hp.tag_ne
      · exact ⟨_, hs, rfl⟩
  · rename_i htag
    rw [map_eq_ok]
    constructor
    · rintro ⟨p, hp, rfl⟩
      exact .pred hp
    · rintro (hp | hs)
      · exact ⟨_, hp, rfl⟩
      · exact absurd hs.tag htag

theorem readDefine_eq_ok {d : Define} : readDefine t e = .ok d ↔ Define.Form t e d := by
  unfold readDefine
  simp only [bind_eq_ok, pure_eq_ok, heading_eq_ok, mapM_eq_ok, readDefineItem_eq_ok]
  constructor
  · rintro ⟨name, hname, items, hitems, rfl⟩
    exact ⟨hname, hitems⟩
  · intro h
    exact ⟨_, h.name, _, h.items, rfl⟩

theorem readLocalHyp_eq_ok {h : LocalHyp} : readLocalHyp t e = .ok h ↔ LocalHyp.Form t e h := by
  unfold readLocalHyp
  simp only [bind_eq_ok, pure_eq_ok, number_eq_ok, innerPred_eq_ok]
  constructor
  · rintro ⟨num, hnum, p, hp, rfl⟩
    exact ⟨hnum, hp⟩
  · intro h
    exact ⟨_, h.num, _, h.pred, rfl⟩

theorem readGoal_eq_ok {g : SimpleGoal} : readGoal t e = .ok g ↔ SimpleGoal.Form t e g := by
  unfold readGoal
  simp only [bind_eq_ok, pure_eq_ok, textOf_eq_ok, mapM_eq_ok, number_eq_ok,
    Element.needChild_eq_ok, innerPred_eq_ok]
  constructor
  · rintro ⟨tag, htag, refs, hrefs, c, hc, goal, hgoal, rfl⟩
    exact ⟨htag, hrefs, c.1, hc, hgoal⟩
  · rintro ⟨htag, hrefs, c, hc, hgoal⟩
    exact ⟨_, htag, _, hrefs, ⟨c, Element.sizeOf_lt_of_first? hc⟩, hc, _, hgoal, rfl⟩

theorem readObligation_eq_ok {o : Obligation} :
    readObligation t e = .ok o ↔ Obligation.Form t e o := by
  unfold readObligation
  simp only [bind_eq_ok, pure_eq_ok, textOf_eq_ok, mapM_eq_ok, heading_eq_ok, innerPred_eq_ok,
    readLocalHyp_eq_ok, readGoal_eq_ok]
  constructor
  · rintro ⟨tag, htag, ds, hds, ps, hps, hs, hhs, gs, hgs, rfl⟩
    exact ⟨htag, hds, hps, hhs, hgs⟩
  · intro h
    exact ⟨_, h.tag, _, h.definitions, _, h.hypotheses, _, h.localHyps, _, h.goals, rfl⟩

end Obligations

end

/-! ## Results with faults -/

theorem results_eq_ok {α β : Type} {f : α → Except Fault β} {as : List α} {bs : List β} :
    faultsOf (as.map f) = [] ∧ successesOf (as.map f) = bs ↔
      List.Forall₂ (fun a b => f a = .ok b) as bs := by
  induction as generalizing bs with
  | nil => simp [faultsOf, successesOf, eq_comm]
  | cons a as ih =>
    cases ha : f a with
    | error fault => simp [faultsOf, ha, List.forall₂_cons_left_iff]
    | ok b =>
      have hfaults : faultsOf ((a :: as).map f) = faultsOf (as.map f) := by simp [faultsOf, ha]
      have hsuccesses : successesOf ((a :: as).map f) = b :: successesOf (as.map f) := by
        simp [successesOf, ha]
      rw [hfaults, hsuccesses, List.forall₂_cons_left_iff]
      constructor
      · rintro ⟨hnone, rfl⟩
        exact ⟨b, _, ha, ih.1 ⟨hnone, rfl⟩, rfl⟩
      · rintro ⟨c, cs, hc, hcs, rfl⟩
        obtain ⟨hnone, hcs⟩ := ih.2 hcs
        rw [hcs, Except.ok.inj (ha.symm.trans hc)]
        exact ⟨hnone, rfl⟩

namespace Obligations

theorem readBody_eq_ok {t : Table} {root : Element} {d : Obligations} :
    readBody t root = .ok d ↔ Form t root d := by
  have hdefines := @results_eq_ok _ _ (readDefine t) (root.childrenNamed "Define") d.defines
  have hobligations :=
    @results_eq_ok _ _ (readObligation t) (root.childrenNamed "Proof_Obligation") d.obligations
  simp only [readDefine_eq_ok] at hdefines
  simp only [readObligation_eq_ok] at hobligations
  unfold readBody
  constructor
  · intro h
    dsimp only at h
    split at h
    · rename_i hnone
      obtain ⟨hnone, hnone'⟩ := List.append_eq_nil_iff.1 hnone
      rw [pure_eq_ok] at h
      subst h
      exact ⟨hdefines.1 ⟨hnone, rfl⟩, hobligations.1 ⟨hnone', rfl⟩⟩
    · cases h
  · intro h
    obtain ⟨hnone, hds⟩ := hdefines.2 h.defines
    obtain ⟨hnone', hos⟩ := hobligations.2 h.obligations
    simp only [hnone, hnone', hds, hos, List.append_nil]
    rfl

theorem read_eq_ok {root : Element} {d : Obligations} :
    read root = .ok d ↔
      root.tag = rootTag ∧ ∃ t, Table.read root = .ok t ∧ Form t root d := by
  unfold read
  split
  · rename_i htag
    constructor
    · intro h
      cases h
    · rintro ⟨h, -⟩
      exact absurd h htag
  · rename_i htag
    have htag := not_not.1 htag
    cases htable : Table.read root with
    | error f =>
      simp [Except.mapError, bind, Except.bind]
    | ok t =>
      simp [Except.mapError, readBody_eq_ok, htag]

end Obligations

end BMethod
