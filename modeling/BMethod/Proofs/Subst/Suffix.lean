import Mathlib
import BMethod.Proofs.Formula.Printing
import BMethod.Proofs.Subst.Image

/-!
# Suffixes of variables that are read

An identifier with a suffix is read as the variable with the suffix where variables are declared, and
also where they are used, unless it has the name of a constant. Witnesses are given to names, each name
once; the suffix of a name on the left side of an equality is lost.
-/

namespace BMethod

/-- An identifier with a value and a positive suffix. -/
structure Element.Suffixed (e : Element) (stem : String) (suffix : Int) : Prop where
  tag : e.tag = "Id"
  value : e.attr? "value" = some stem
  integer : ∃ v, e.attr? "suffix" = some v ∧ Text.readInt? (Text.trim v) = some suffix
  pos : 0 < suffix

/-- An identifier with a suffix as an expression: the constant with that name, if there is one, or
the variable. -/
def Expr.named (stem : String) (suffix : Int) (info : Info) : Expr :=
  match Constant.ofName? stem with
  | some kind => .constant info kind
  | none => .ident info (.suffixed stem suffix)

theorem Expr.named_eq_ident_iff {stem : String} {suffix : Int} {info : Info} :
    (∃ info', Expr.named stem suffix info = .ident info' (.suffixed stem suffix)) ↔
      Constant.ofName? stem = none := by
  unfold Expr.named
  cases Constant.ofName? stem with
  | some kind => exact iff_of_false (fun ⟨_, h⟩ => by cases h) nofun
  | none => exact iff_of_true ⟨info, rfl⟩ rfl

namespace Element.Suffixed

variable {e : Element} {stem : String} {suffix : Int}

theorem name (he : e.Suffixed stem suffix) : VarName.read e = .ok (.suffixed stem suffix) := by
  obtain ⟨v, hv, hint⟩ := he.integer
  exact VarName.read_eq_ok.2 (.suffixed he.tag he.value hv hint he.pos.le)

theorem typedVar (he : e.Suffixed stem suffix) (t : Table) :
    TypedVar.read t e = (fun ty => ⟨.suffixed stem suffix, ty⟩) <$> t.typeOf e := by
  unfold TypedVar.read
  rw [he.name, ok_bind, map_eq_pure_bind]

theorem expr (he : e.Suffixed stem suffix) (t : Table) :
    Expr.read t e = Expr.named stem suffix <$> Info.read t e := by
  rw [Expr.read]
  simp only [he.tag]
  unfold Expr.readIdentifier Expr.named
  rw [Element.needAttr_eq_ok.2 he.value, ok_bind]
  cases Constant.ofName? stem with
  | some kind =>
    unfold Expr.readConstant
    rw [map_eq_pure_bind]
  | none =>
    unfold Expr.readVariable
    rw [he.name, ok_bind, map_eq_pure_bind]

end Element.Suffixed

/-! ## Witnesses -/

namespace Subst

def leftValue? (e : Element) : Option String :=
  e.children[0]?.bind (·.attr? "value")

def leftSuffix? (e : Element) : Option String :=
  e.children[0]?.bind (·.attr? "suffix")

/-- An element gives witnesses by equalities. -/
def Witnessed (e : Element) (es : List Element) : Prop :=
  e.tag = "Witness" ∧ ∃ a, e.inner? "Witnesses" = some a ∧ Equalities a es

section
variable {t : Table} {e : Element} {es : List Element} {s : Subst}

theorem Equalities.unique {es' : List Element} (h : Equalities e es) (h' : Equalities e es') :
    es = es' :=
  Except.ok.inj ((equalities_eq_ok.2 h).symm.trans (equalities_eq_ok.2 h'))

theorem WitnessForm.leftValue? {R : Element → Expr → Prop} {w : String × Expr}
    (h : WitnessForm R e w) : leftValue? e = some w.1 := by
  obtain ⟨-, -, a, b, ha, -, -, hvalue, -⟩ := h
  rw [Subst.leftValue?, ha, Option.bind_some, hvalue]

/-- Witnesses are read with the values of the left sides for labels, which are different. -/
theorem read_witnessed (hes : Witnessed e es) (h : Subst.read t e = .ok s) :
    ∃ ws body, s = .witness (sortByLabel ws) body ∧
      es.map leftValue? = (ws.map (·.1)).map some ∧ (ws.map (·.1)).Nodup := by
  obtain ⟨htag, a, ha, hequal⟩ := hes
  rw [Subst.read] at h
  simp only [htag, bind_eq_ok, pure_eq_ok, readWitnesses_eq_ok] at h
  obtain ⟨_, ⟨a', es', ws, ha', hequal', hws, hnodup, rfl⟩, -, -, body, -, rfl⟩ := h
  obtain rfl := Option.some.inj (ha.symm.trans ha')
  obtain rfl := hequal.unique hequal'
  refine ⟨ws, body, rfl, ?_, hnodup⟩
  rw [List.map_map]
  exact map_eq_map_of_forall₂ (hws.imp fun _ _ hw => hw.leftValue?)

end

/-! ## Written witnesses -/

/-- An equality whose left side has the label as its value. -/
def Labelled (e : Element) (label : String) : Prop :=
  e.tag = "Exp_Comparison" ∧ leftValue? e = some label

theorem writeWitness_labelled (label : String) (x : Expr) :
    (writeWitness label x).Yields fun e => Labelled e label := by
  have hany {α : Type} (w : Write α) : w.Yields fun _ => True := fun _ _ _ _ => trivial
  unfold writeWitness
  cases x.info? with
  | none => exact .throw
  | some info =>
    exact (hany (Write.typeRef info.ty)).bind fun r _ => (hany x.write).bind fun e _ =>
      .pure ⟨rfl, rfl⟩

theorem witnessed_of_labelled {es : List Element} {labels : List String} {b : Element}
    (h : List.Forall₂ Labelled es labels) :
    Witnessed (.wrap "Witness" [.wrap "Witnesses" [witnessElement es], .wrap "Body" [b]]) es := by
  refine ⟨rfl, witnessElement es, rfl, ?_⟩
  match es with
  | [] => exact .all rfl rfl
  | [e] =>
    obtain ⟨label, -, he⟩ := exists_of_forall₂_left h List.mem_cons_self
    exact .one he.1
  | _ :: _ :: _ => exact .all rfl rfl

theorem write_witness_labelled (ws : List (String × Expr)) (body : Subst) :
    (Subst.witness ws body).write.Yields fun e => ∃ es, Witnessed e es ∧
      List.Forall₂ Labelled es ((sortByLabel ws).map (·.1)) := by
  have hall := Write.Yields.all_map (l := sortByLabel ws) (P := fun e w => Labelled e w.1)
    fun w _ => writeWitness_labelled w.1 w.2
  have hany : body.write.Yields fun _ => True := fun _ _ _ _ => trivial
  rw [Subst.write, writeWitnesses_eq, bind_assoc]
  refine hall.bind fun es hes => ?_
  rw [pure_bind]
  have hes := List.forall₂_map_right_iff.2 hes
  exact hany.bind fun b _ => .pure ⟨es, witnessed_of_labelled hes, hes⟩

theorem map_leftValue? {es : List Element} {labels : List String}
    (h : List.Forall₂ Labelled es labels) : es.map leftValue? = labels.map some :=
  map_eq_map_of_forall₂ (h.imp fun _ _ he => he.2)

end Subst

/-- In a list of variables, an identifier with a suffix is the variable with the suffix. As an
expression it is that variable exactly if its name is not the one of a constant. Substitutions that
give witnesses are written back with the names on the left sides, each of them once. -/
theorem suffix_kept_iff {e : Element} {stem : String} {suffix : Int}
    (he : e.Suffixed stem suffix) :
    (∀ t, TypedVar.read t e = (fun ty => ⟨.suffixed stem suffix, ty⟩) <$> t.typeOf e) ∧
      (∀ t x, Expr.read t e = .ok x →
        ((∃ info, x = .ident info (.suffixed stem suffix)) ↔ Constant.ofName? stem = none)) ∧
      ∀ t w es s, Subst.Witnessed w es → (∃ c ∈ es, c.children[0]? = some e) →
        Subst.read t w = .ok s → (es.map Subst.leftValue?).Nodup ∧
          ∀ p : Pool, p.Reachable → ∃ w' q es', s.write.on p = (.ok w', q) ∧
            Subst.Witnessed w' es' ∧ some stem ∈ es'.map Subst.leftValue? ∧
            (es'.map Subst.leftValue?).Perm (es.map Subst.leftValue?) := by
  refine ⟨he.typedVar, fun t x hread => ?_, ?_⟩
  · rw [he.expr] at hread
    obtain ⟨info, -, rfl⟩ := map_eq_ok.1 hread
    exact Expr.named_eq_ident_iff
  -- What was read is in normal form, so it is written; its labels are the values on the left.
  rintro t w es s hes ⟨c, hc, hleft⟩ hread
  obtain ⟨ws, body, rfl, hvalues, hnodup⟩ := Subst.read_witnessed hes hread
  have hstem : some stem ∈ es.map Subst.leftValue? := by
    refine List.mem_map.2 ⟨c, hc, ?_⟩
    rw [Subst.leftValue?, hleft, Option.bind_some, he.value]
  refine ⟨?_, fun p hp => ?_⟩
  · rw [hvalues]
    exact hnodup.map (Option.some_injective _)
  · have hnormal := Subst.Reads.normal hread
    obtain ⟨w', hon, -⟩ := Subst.write_gives _ hnormal.wellFormed p hp.sound
    obtain ⟨es', hes', hlabelled⟩ := Subst.write_witness_labelled _ _ p w' _ hon
    have hperm : (es'.map Subst.leftValue?).Perm (es.map Subst.leftValue?) := by
      rw [Subst.map_leftValue? hlabelled, sortByLabel_sortByLabel, hvalues]
      exact ((sortByLabel_perm ws).map _).map _
    exact ⟨w', _, es', hon, hes', hperm.mem_iff.2 hstem, hperm⟩

def suffixedId (value : String) : Element :=
  .node "Id" [⟨"value", value⟩, ⟨"suffix", "1"⟩, ⟨"typref", "0"⟩] []

/-- A substitution that gives the number 3 as the witness of an identifier. -/
def witnessed (id : Element) : Element :=
  .wrap "Witness" [.wrap "Witnesses" [.node "Exp_Comparison" [⟨"op", "="⟩]
    [id, .node "Integer_Literal" [⟨"value", "3"⟩, ⟨"typref", "0"⟩] []]],
    .wrap "Body" [.wrap "Skip" []]]

theorem suffixedId_suffixed (value : String) : (suffixedId value).Suffixed value 1 :=
  ⟨rfl, rfl, ⟨"1", rfl, by decide⟩, by decide⟩

theorem read_witnessed_id : Subst.read ⟨[.integer]⟩ (witnessed (suffixedId "x")) =
    .ok (.witness [("x", .integer ⟨.integer, []⟩ "3")] .skip) := by
  have hvalue : Expr.Reads ⟨[.integer]⟩
      (.node "Integer_Literal" [⟨"value", "3"⟩, ⟨"typref", "0"⟩] [])
      (.integer ⟨.integer, []⟩ "3") :=
    Expr.read_of_form (.integer rfl rfl (by with_unfolding_all rfl))
  have hread : Subst.Reads ⟨[.integer]⟩ (witnessed (suffixedId "x")) _ :=
    Subst.read_of_form (.witness rfl rfl (.one rfl)
      (.cons (b := ("x", _)) ⟨rfl, rfl, _, _, rfl, rfl, rfl, rfl, hvalue⟩ .nil) (by decide) rfl
      (Subst.read_of_form (.skip rfl)))
  rwa [sortByLabel, List.mergeSort_singleton] at hread

theorem suffix_kept_iff_sample :
    (suffixedId "x").Suffixed "x" 1 ∧
      TypedVar.read ⟨[.integer]⟩ (suffixedId "x") = .ok ⟨.suffixed "x" 1, .integer⟩ ∧
      (∃ x, Expr.read ⟨[.integer]⟩ (suffixedId "x") = .ok x ∧
        ∃ info, x = .ident info (.suffixed "x" 1)) ∧
      ∃ w q es, (Subst.witness [("x", .integer ⟨.integer, []⟩ "3")] .skip).write.on .empty =
        (.ok w, q) ∧ Subst.Witnessed w es ∧ some "x" ∈ es.map Subst.leftValue? := by
  have hid := suffixedId_suffixed "x"
  obtain ⟨hvar, hexpr, hwitness⟩ := suffix_kept_iff hid
  have hread : Expr.read ⟨[.integer]⟩ (suffixedId "x") = .ok _ := (hid.expr _).trans rfl
  refine ⟨hid, (hvar _).trans rfl, ⟨_, hread, (hexpr _ _ hread).2 (by decide)⟩, ?_⟩
  have hes : Subst.Witnessed (witnessed (suffixedId "x")) _ := ⟨rfl, _, rfl, .one rfl⟩
  obtain ⟨-, hwritten⟩ := hwitness _ _ _ _ hes ⟨_, List.mem_cons_self, rfl⟩ read_witnessed_id
  obtain ⟨w, q, es, hon, hes, hmem, -⟩ := hwritten .empty .empty
  exact ⟨w, q, es, hon, hes, hmem⟩

/-- The suffix of a witness is read and not written again, and that of a constant is not read. -/
theorem suffix_not_always_kept :
    ((suffixedId "x").Suffixed "x" 1 ∧
      Subst.read ⟨[.integer]⟩ (witnessed (suffixedId "x")) =
        .ok (.witness [("x", .integer ⟨.integer, []⟩ "3")] .skip) ∧
      ∃ w, (Subst.witness [("x", .integer ⟨.integer, []⟩ "3")] .skip).write.on .empty =
        (.ok w, Pool.empty.addAll [.integer]) ∧
        w = witnessed (.node "Id" [⟨"value", "x"⟩, ⟨"typref", "0"⟩] []) ∧
        ∀ es, Subst.Witnessed w es → ∀ c ∈ es, Subst.leftSuffix? c = none) ∧
    (suffixedId "MAXINT").Suffixed "MAXINT" 1 ∧
      Expr.read ⟨[.integer]⟩ (suffixedId "MAXINT") = .ok (.constant ⟨.integer, []⟩ ⟨0⟩) := by
  refine ⟨⟨suffixedId_suffixed _, read_witnessed_id, _, ?_, rfl, ?_⟩, suffixedId_suffixed _, ?_⟩
  · with_unfolding_all rfl
  · rintro es ⟨-, a, ⟨⟩, hequal⟩ c hc
    obtain rfl := hequal.unique (.one rfl)
    rw [List.mem_singleton.1 hc]
    rfl
  · rw [(suffixedId_suffixed "MAXINT").expr]
    rfl

end BMethod
