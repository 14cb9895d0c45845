import Mathlib
import BMethod.Proofs.Goal.Acceptance
import BMethod.Proofs.Ty.Table
import BMethod.Proofs.Writing

/-!
# Which items are accepted after they were written

Writing does not check all that reading checks: a negative suffix, a label twice in a record and a
choice without a value are written. An item that was written is accepted with the table that is read
from the declarations of the pool exactly if there is none of these in it.
-/

namespace BMethod

namespace Item

/-- An item whose element is accepted when it is written. -/
def Legible : Item → Prop
  | expr x => x.Legible
  | pred p => p.Legible
  | goal g => g.Legible
  | subst s => s.Legible

theorem write_admitted (x : Item) : x.write.Admitted x.types (read x.kind) x.Legible := by
  cases x with
  | expr x => exact x.write_admitted.mono fun _ _ he hsize => accepted_map.trans (he hsize)
  | pred p => exact p.write_admitted.mono fun _ _ he hsize => accepted_map.trans (he hsize)
  | goal g => exact g.write_admitted.mono fun _ _ he hsize => accepted_map.trans (he hsize)
  | subst s => exact s.write_admitted.mono fun _ _ he hsize => accepted_map.trans (he hsize)

end Item

theorem Pool.read_declarations {p : Pool} {ts us : List Ty} (hle : us <+: ts)
    (hordered : ∀ ty ∈ p.types ++ ts, ty.Ordered) (hdistinct : ∀ ty ∈ p.types ++ ts, ty.Distinct)
    (hsize : (p.addAll us).Addressable) :
    Table.read (p.addAll us).declarations = .ok (p.addAll us).table := by
  refine Table.read_of_declarations? (Table.declarations?_declarations _) ?_ hsize
  intro ty hty
  have hmem : ty ∈ p.types ++ ts :=
    List.mem_append.2 ((Pool.mem_types_addAll hty).imp_right fun h => hle.subset h)
  exact Ty.canonical_of_distinct (hordered ty hmem) (hdistinct ty hmem)

/-- On every pool an item is refused, or it is written. The declarations of the pool are read
afterwards, and with that table the element that was written is accepted exactly if the item is
legible. -/
theorem accepted_iff_legible {p : Pool} (hp : p.Reachable) {x : Item}
    (hordered : ∀ ty ∈ p.types ++ x.types, ty.Ordered)
    (hdistinct : ∀ ty ∈ p.types ++ x.types, ty.Distinct) :
    ∃ r q, x.write.on p = (r, q) ∧
      ((∃ refusal, r = .error refusal) ↔ ∃ part ∈ x.parts, part.Refused) ∧
      (q.Addressable → ∃ t, Table.read q.declarations = .ok t ∧
        ∀ e, r = .ok e → ((∃ y, Item.read x.kind t e = .ok y) ↔ x.Legible)) := by
  rcases x.write_cases hp.sound with ⟨e, hon, hnone⟩ | ⟨part, us, hon, hmet, -, hsome⟩
  · refine ⟨_, _, hon, iff_of_false nofun hnone, fun hsize => ?_⟩
    refine ⟨_, Pool.read_declarations (List.prefix_refl _) hordered hdistinct hsize, ?_⟩
    rintro _ ⟨⟩
    obtain ⟨-, haccepted⟩ := x.write_admitted hp.sound hon
    exact haccepted _ (List.prefix_refl _) hsize
  · refine ⟨_, _, hon, iff_of_true ⟨_, rfl⟩ hsome, fun hsize => ?_⟩
    exact ⟨_, Pool.read_declarations hmet hordered hdistinct hsize, nofun⟩

def suffixedItem (suffix : Int) : Item :=
  .expr (.ident ⟨.integer, []⟩ (.suffixed "x" suffix))

theorem accepted_iff_legible_sample :
    (suffixedItem 1).Legible ∧ ∃ e q t, (suffixedItem 1).write.on .empty = (.ok e, q) ∧
      q.Addressable ∧ Table.read q.declarations = .ok t ∧ ∃ y, Item.read .expr t e = .ok y := by
  have hlegible : (suffixedItem 1).Legible := .inl fun _ => by decide
  have htypes : ∀ ty ∈ Pool.empty.types ++ (suffixedItem 1).types, ty = .integer := fun ty hty =>
    List.mem_singleton.1 hty
  have hordered : ∀ ty ∈ Pool.empty.types ++ (suffixedItem 1).types, ty.Ordered := fun ty hty =>
    htypes ty hty ▸ .integer
  have hdistinct : ∀ ty ∈ Pool.empty.types ++ (suffixedItem 1).types, ty.Distinct := fun ty hty =>
    htypes ty hty ▸ .integer
  obtain ⟨r, q, hon, -, hread⟩ := accepted_iff_legible .empty hordered hdistinct
  have hrun : (suffixedItem 1).write.on .empty =
      (.ok (.node "Id" [⟨"value", "x"⟩, ⟨"suffix", "1"⟩, ⟨"typref", "0"⟩] []),
        Pool.empty.addAll [.integer]) := by
    with_unfolding_all rfl
  obtain ⟨rfl, rfl⟩ := Prod.mk.inj (hrun.symm.trans hon)
  have hsize : (Pool.empty.addAll [.integer]).Addressable :=
    Pool.addressable_addAll_empty (by decide)
  obtain ⟨t, ht, haccepted⟩ := hread hsize
  exact ⟨hlegible, _, _, t, hrun, hsize, ht, (haccepted _ rfl).2 hlegible⟩

/-- A negative suffix is written, and the declarations are read, but what was written is not. -/
theorem negative_suffix_refused :
    ∃ e q t, (suffixedItem (-1)).write.on .empty = (.ok e, q) ∧ q.Addressable ∧
      Table.read q.declarations = .ok t ∧
      Item.read .expr t e = e.complain (.negativeSuffix (-1)) := by
  refine ⟨.node "Id" [⟨"value", "x"⟩, ⟨"suffix", "-1"⟩, ⟨"typref", "0"⟩] [],
    Pool.empty.addAll [.integer], (Pool.empty.addAll [.integer]).table, ?_, ?_, ?_, ?_⟩
  · with_unfolding_all rfl
  · exact Pool.addressable_addAll_empty (by decide)
  · with_unfolding_all rfl
  · rw [Item.read, Expr.read]
    with_unfolding_all rfl

end BMethod
