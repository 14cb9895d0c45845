import Mathlib
import BMethod.Proofs.Ty.Declaration

/-!
# Type tables are read back

Every record type is built with its fields in the order of their labels. The declarations of a pool
are read back when no record has a label twice, alone or as the first declarations of a parent that
does not declare types itself. What is read satisfies this, so the types of a table that was read
can be pooled and declared again.
-/

namespace BMethod

namespace Ty

/-! ## Records inside of types -/

/-- The fields of every record in the type satisfy `P`. -/
inductive EachRecord (P : List (String × Ty) → Prop) : Ty → Prop
  | integer : EachRecord P .integer
  | boolean : EachRecord P .boolean
  | float : EachRecord P .float
  | real : EachRecord P .real
  | string : EachRecord P .string
  | power {elem : Ty} (helem : EachRecord P elem) : EachRecord P (.power elem)
  | product {lhs rhs : Ty} (hlhs : EachRecord P lhs) (hrhs : EachRecord P rhs) :
      EachRecord P (.product lhs rhs)
  | struct {fields : List (String × Ty)} (hP : P fields)
      (hfields : ∀ f ∈ fields, EachRecord P f.2) : EachRecord P (.struct fields)

/-- The records in the type have their fields in the order of their labels, as all types do that
are built from their parts. -/
def Ordered (ty : Ty) : Prop :=
  ty.EachRecord fun fields => fields.Pairwise fun f g => f.1 ≤ g.1

/-- No record in the type has a label twice. -/
def Distinct (ty : Ty) : Prop :=
  ty.EachRecord fun fields => (fields.map (·.1)).Nodup

theorem EachRecord.imp {P Q : List (String × Ty) → Prop} (hPQ : ∀ fields, P fields → Q fields)
    {ty : Ty} (h : ty.EachRecord P) : ty.EachRecord Q := by
  induction h with
  | integer => exact .integer
  | boolean => exact .boolean
  | float => exact .float
  | real => exact .real
  | string => exact .string
  | power _ ih => exact .power ih
  | product _ _ ihl ihr => exact .product ihl ihr
  | struct hP _ ih => exact .struct (hPQ _ hP) ih

theorem ordered_ofFields {fields : List (String × Ty)} (h : ∀ f ∈ fields, f.2.Ordered) :
    (ofFields fields).Ordered := by
  refine .struct (sorted_sortByLabel fields) ?_
  intro f hf
  exact h f (mem_sortByLabel.1 hf)

theorem distinct_ofFields {fields : List (String × Ty)} (hnodup : (fields.map (·.1)).Nodup)
    (h : ∀ f ∈ fields, f.2.Distinct) : (ofFields fields).Distinct := by
  refine .struct ((((sortByLabel_perm fields).map _).nodup_iff).2 hnodup) ?_
  intro f hf
  exact h f (mem_sortByLabel.1 hf)

theorem canonical_of_distinct {ty : Ty} (hord : ty.Ordered) (hdist : ty.Distinct) :
    ty.Canonical := by
  unfold Ordered at hord
  induction hord with
  | integer => exact .integer
  | boolean => exact .boolean
  | float => exact .float
  | real => exact .real
  | string => exact .string
  | power _ ih =>
    cases hdist with
    | power helem => exact .power (ih helem)
  | product _ _ ihl ihr =>
    cases hdist with
    | product hlhs hrhs => exact .product (ihl hlhs) (ihr hrhs)
  | struct hsorted _ ih =>
    cases hdist with
    | struct hnodup hfields =>
      exact .struct (lt_of_sorted hsorted hnodup) (fun f hf => ih f hf (hfields f hf))

theorem Canonical.eachRecord {ty : Ty} (h : ty.Canonical) :
    ty.EachRecord fun fields => fields.Pairwise fun f g => f.1 < g.1 := by
  induction h with
  | integer => exact .integer
  | boolean => exact .boolean
  | float => exact .float
  | real => exact .real
  | string => exact .string
  | power _ ih => exact .power ih
  | product _ _ ihl ihr => exact .product ihl ihr
  | struct hsorted _ ih => exact .struct hsorted ih

theorem Canonical.ordered {ty : Ty} (h : ty.Canonical) : ty.Ordered :=
  h.eachRecord.imp fun _ hsorted => hsorted.imp le_of_lt

theorem Canonical.distinct {ty : Ty} (h : ty.Canonical) : ty.Distinct :=
  h.eachRecord.imp fun _ hsorted => List.pairwise_map.2 (hsorted.imp ne_of_lt)

end Ty

/-! ## Tables -/

namespace Table

/-- Tables are read back from the declarations of pools, and pools of types that were read satisfy
what this needs. -/
theorem table_round_trip :
    (∀ p : Pool, p.Addressable → (∀ ty ∈ p.types, ty.Ordered) → (∀ ty ∈ p.types, ty.Distinct) →
      Table.read p.declarations = .ok p.table ∧
      ∀ parent : Element, parent.tag ≠ "TypeInfos" →
        parent.first? "TypeInfos" = some p.declarations → Table.read parent = .ok p.table) ∧
    ∀ (e : Element) (t : Table), Table.read e = .ok t →
      (∀ ty ∈ t.types, ty.EachRecord fun fields => fields.Pairwise fun f g => f.1 < g.1) ∧
      ∀ ts : List Ty, (∀ ty ∈ ts, ty ∈ t.types) →
        Table.read (Pool.empty.addAll ts).declarations = .ok (Pool.empty.addAll ts).table := by
  refine ⟨?_, ?_⟩
  · intro p hsize hord hdist
    have hcanonical : ∀ ty ∈ p.types, ty.Canonical := fun ty hty =>
      Ty.canonical_of_distinct (hord ty hty) (hdist ty hty)
    refine ⟨read_of_declarations? (declarations?_declarations p) hcanonical hsize, ?_⟩
    intro parent htag hfirst
    exact read_of_declarations? (declarations?_of_first? htag hfirst) hcanonical hsize
  · intro e t h
    have hcanonical := canonical_of_read h
    refine ⟨fun ty hty => (hcanonical ty hty).eachRecord, ?_⟩
    intro ts hts
    have hsubset : (Pool.empty.addAll ts).types ⊆ t.types := fun ty hty =>
      hts ty (Pool.types_addAll_empty_subset ts hty)
    have hsize := addressable_of_read h (Pool.empty_sound.addAll ts) hsubset
    refine read_of_declarations? (declarations?_declarations _) ?_ hsize
    exact fun ty hty => hcanonical ty (hsubset hty)

/-- A pool with a record inside of a set, and a base type. -/
def samplePool : Pool :=
  Pool.empty.addAll [.power (.ofFields [("x", .integer), ("a", .product .boolean .string)]), .real]

theorem samplePool_ordered : ∀ ty ∈ samplePool.types, ty.Ordered := by
  intro ty hty
  have hmem := Pool.types_addAll_empty_subset _ hty
  rw [List.mem_pair] at hmem
  rcases hmem with rfl | rfl
  · refine .power (Ty.ordered_ofFields ?_)
    rintro f hf
    rw [List.mem_pair] at hf
    rcases hf with rfl | rfl
    · exact .integer
    · exact .product .boolean .string
  · exact .real

theorem samplePool_distinct : ∀ ty ∈ samplePool.types, ty.Distinct := by
  intro ty hty
  have hmem := Pool.types_addAll_empty_subset _ hty
  rw [List.mem_pair] at hmem
  rcases hmem with rfl | rfl
  · refine .power (Ty.distinct_ofFields (by decide) ?_)
    rintro f hf
    rw [List.mem_pair] at hf
    rcases hf with rfl | rfl
    · exact .integer
    · exact .product .boolean .string
  · exact .real

theorem table_round_trip_sample :
    Table.read samplePool.declarations = .ok samplePool.table ∧
      Table.read (.wrap "Document" [samplePool.declarations]) = .ok samplePool.table ∧
      Table.read (Pool.empty.addAll samplePool.types).declarations =
        .ok (Pool.empty.addAll samplePool.types).table := by
  have hsize : samplePool.Addressable := Pool.addressable_addAll_empty (by decide)
  obtain ⟨halone, hparent⟩ :=
    table_round_trip.1 samplePool hsize samplePool_ordered samplePool_distinct
  have hagain := (table_round_trip.2 samplePool.declarations samplePool.table halone).2
  exact ⟨halone, hparent _ (by decide) (Element.first?_cons rfl), hagain _ fun _ hty => hty⟩

/-- Declarations as the first child of a parent that is itself taken for declarations. -/
def nestedDeclarations : Element :=
  .wrap "TypeInfos" [samplePool.declarations]

/-- The declarations inside of others are the first ones, but they are not read. -/
theorem nestedDeclarations_not_read :
    nestedDeclarations.first? "TypeInfos" = some samplePool.declarations ∧
      samplePool.Addressable ∧ (∀ ty ∈ samplePool.types, ty.Ordered) ∧
      (∀ ty ∈ samplePool.types, ty.Distinct) ∧
      ∀ t : Table, Table.read nestedDeclarations ≠ .ok t := by
  refine ⟨Element.first?_cons rfl, Pool.addressable_addAll_empty (by decide), samplePool_ordered,
    samplePool_distinct, ?_⟩
  intro t h
  have hself : declarations? nestedDeclarations = some nestedDeclarations := rfl
  rw [Table.read, hself] at h
  obtain ⟨ts, hts, -⟩ := map_eq_ok.1 h
  obtain ⟨ty, us, ⟨htag, -⟩, -⟩ := readDeclarations_cons.1 hts
  exact absurd htag (by decide)

end Table

end BMethod
