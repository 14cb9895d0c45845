import Mathlib
import BMethod.Proofs.Goal.Outcome
import BMethod.Proofs.Formula.Numbering
import BMethod.Proofs.Item

/-!
# Writing items on any pool

What is written for an item is the same on all pools but for the numbers of types, and the pool
grows by the types of the item that it did not have. Unless the machine crashes, an item is refused
exactly when a part of it is one that no document can hold. The pool is sound after a refusal too, so
that later items are written as they would have been without it.
-/

namespace BMethod

namespace Item

/-- The tags, the names of variables, the absent parts and the negated comparisons in an item, in the
order in which they are met. -/
def parts : Item → List Part
  | expr x => x.parts
  | pred p => p.parts
  | goal g => g.parts
  | subst s => s.parts

def kind : Item → ItemKind
  | expr _ => .expr
  | pred _ => .pred
  | goal _ => .goal
  | subst _ => .subst

def WellFormed : Item → Prop
  | expr x => x.WellFormed
  | pred p => p.WellFormed
  | goal g => g.WellFormed
  | subst s => s.WellFormed

def norm : Item → Item
  | expr x => .expr x.norm
  | pred p => .pred p.norm
  | goal g => .goal g.norm
  | subst s => .subst s.norm

theorem write_portable (x : Item) : x.write.Portable x.parts x.types := by
  cases x with
  | expr x => exact x.write_portable
  | pred p => exact p.write_portable
  | goal g => exact g.write_portable
  | subst s => exact s.write_portable

/-- An item without parts that are refused is written on every sound pool. Otherwise writing ends at
the first of them, when the pool has some first types of the item. -/
theorem write_cases {p : Pool} (hp : p.Sound) (x : Item) :
    (∃ e, x.write.on p = (.ok e, p.addAll x.types) ∧ ¬ ∃ part ∈ x.parts, part.Refused) ∨
      ∃ part us, x.write.on p = (.error part.refusal, p.addAll us) ∧ us <+: x.types ∧
        x.parts.find? (·.Refused) = some part ∧ ∃ part ∈ x.parts, part.Refused := by
  have htwin := x.write_portable hp hp
  generalize x.write.on p = o at htwin ⊢
  cases htwin with
  | @given e _ writable _ =>
    refine .inl ⟨e, rfl, ?_⟩
    simpa using writable
  | refused part us first met =>
    have hpart := List.find?_some first
    exact .inr ⟨part, us, rfl, met, first, part, List.mem_of_find?_eq_some first,
      of_decide_eq_true hpart⟩

theorem write_gives {x : Item} (h : x.WellFormed) :
    x.write.Gives x.types fun t e => read x.kind t e = .ok x.norm := by
  cases x with
  | expr x => exact (x.write_gives h).mono fun _ _ he => map_eq_ok.2 ⟨_, he, rfl⟩
  | pred p => exact (p.write_gives h).mono fun _ _ he => map_eq_ok.2 ⟨_, he, rfl⟩
  | goal g => exact (g.write_gives h).mono fun _ _ he => map_eq_ok.2 ⟨_, he, rfl⟩
  | subst s => exact (s.write_gives h).mono fun _ _ he => map_eq_ok.2 ⟨_, he, rfl⟩

/-- What later writing needs of a pool: every well-formed item is written on it and read back. -/
def WrittenOn (q : Pool) : Prop :=
  ∀ y : Item, y.WellFormed → ∃ e, y.write.on q = (.ok e, q.addAll y.types) ∧
    ((q.addAll y.types).Addressable → ∀ t : Table, (q.addAll y.types).types <+: t.types →
      read y.kind t e = .ok y.norm)

theorem writtenOn_of_sound {q : Pool} (hq : q.Sound) : WrittenOn q := by
  intro y hy
  obtain ⟨e, hon, -, hread⟩ := write_gives hy q hq
  exact ⟨e, hon, hread⟩

end Item

/-- An item that is written on one pool is written on every other. Without references to types the
two elements are equal. The references stand at the same places and denote the same types in the
pools afterwards. Both pools have grown by the types in the item that they did not have, and writing
the item again gives the same element and leaves the pool as it is. -/
theorem written_alike_on_all_pools {p p' q : Pool} {x : Item} {e : Element} (hp : p.Reachable)
    (hp' : p'.Reachable) (h : x.write.on p = (.ok e, q)) :
    ∃ e' q', x.write.on p' = (.ok e', q') ∧ e'.bare = e.bare ∧
      e.Counterpart q.types q'.types e' ∧ p.GrownBy x.types q ∧ p'.GrownBy x.types q' ∧
      x.write.on q = (.ok e, q) := by
  have hq : (p.addAll x.types).Sound := hp.sound.addAll x.types
  have htwin := x.write_portable hp.sound hp'.sound
  have hagain := x.write_portable hp.sound hq
  have hgrows : (p.addAll x.types).addAll x.types = p.addAll x.types :=
    hq.addAll_of_subset fun _ hu => hp.sound.mem_addAll hu
  rw [h] at htwin hagain
  generalize hon' : x.write.on p' = o' at htwin ⊢
  cases htwin with
  | @given _ e' _ related =>
    have hpair := related _ _ (List.prefix_refl _) (List.prefix_refl _)
    refine ⟨e', _, rfl, hpair.bare, hpair, hp.sound.grownBy_addAll _,
      hp'.sound.grownBy_addAll _, ?_⟩
    generalize honce : x.write.on (p.addAll x.types) = o at hagain ⊢
    cases hagain with
    | @given _ e'' _ related =>
      rw [hgrows] at related ⊢
      rw [(related _ _ (List.prefix_refl _) (List.prefix_refl _)).eq hq]

def sampleCompared : Item :=
  .pred (.compare ⟨3⟩ (.ident ⟨.integer, ["t"]⟩ (.plain "x")) (.integer ⟨.integer, []⟩ "1"))

theorem written_alike_on_all_pools_sample :
    ∃ e e' q', sampleCompared.write.on .empty = (.ok e, Pool.empty.addAll [.integer]) ∧
      sampleCompared.write.on (Pool.empty.addAll [.boolean]) = (.ok e', q') ∧
      e.typrefs = ["0", "0"] ∧ e'.typrefs = ["1", "1"] ∧ e'.bare = e.bare := by
  have hon : ∃ e, sampleCompared.write.on .empty = (.ok e, Pool.empty.addAll [.integer]) ∧
      e.typrefs = ["0", "0"] :=
    ⟨_, by with_unfolding_all rfl, by with_unfolding_all rfl⟩
  have hon' : ∃ e' q', sampleCompared.write.on (Pool.empty.addAll [.boolean]) = (.ok e', q') ∧
      e'.typrefs = ["1", "1"] :=
    ⟨_, _, by with_unfolding_all rfl, by with_unfolding_all rfl⟩
  obtain ⟨e, hon, hrefs⟩ := hon
  obtain ⟨e₁, q₁, hon', hrefs'⟩ := hon'
  obtain ⟨e', q', hwrite, hbare, -⟩ :=
    written_alike_on_all_pools .empty (Pool.Reachable.empty.addAll [.boolean]) hon
  obtain ⟨⟨rfl⟩, rfl⟩ := Prod.mk.inj (hon'.symm.trans hwrite)
  exact ⟨e, e₁, q₁, hon, hon', hrefs, hrefs', hbare⟩

/-- Where no comparison with a negative number is negated and no witness is absent, only what a
document cannot hold is refused. -/
theorem Part.find?_refused {parts : List Part} (hwitness : .noWitness ∉ parts)
    (hop : ∀ op, .negated op ∈ parts → 0 ≤ op.code) :
    (∀ part ∈ parts, part.Refused ↔ part.Unwritable) ∧
      parts.find? (·.Refused) = parts.find? (·.Unwritable) := by
  have hiff : ∀ part ∈ parts, part.Refused ↔ part.Unwritable := by
    intro part hpart
    rw [part.refused_iff, or_iff_left]
    rintro (rfl | ⟨op, rfl, hneg⟩)
    · exact hwitness hpart
    · exact absurd (hop op hpart) (Int.not_le.2 hneg)
  exact ⟨hiff, List.find?_congr fun part hpart => decide_eq_decide.2 (hiff part hpart)⟩

/-- Whether an item is refused does not depend on the pool. Unless the machine crashes, at an absent
witness or at the negation of a comparison with a negative number, it is refused when it has an
unwritable part, at any depth, and the internal error is the one of the first of them. Whether or
not it is refused, the pool keeps its types and their numbers, has first types of the item besides,
and is sound, so that every well-formed item is written later and read back. -/
theorem refused_iff_unwritable {p : Pool} (hp : p.Reachable) {x : Item}
    (hwitness : .noWitness ∉ x.parts) (hop : ∀ op, .negated op ∈ x.parts → 0 ≤ op.code) :
    ∃ r q us, x.write.on p = (r, q) ∧
      ((∃ refusal, r = .error refusal) ↔ ∃ part ∈ x.parts, part.Unwritable) ∧
      (∀ refusal, r = .error refusal →
        (∃ part, x.parts.find? (·.Unwritable) = some part ∧ refusal = part.refusal) ∧
          refusal.message = Refusal.report refusal.text) ∧
      us <+: x.types ∧ p.GrownBy us q ∧ q.Sound ∧ q.types.Nodup ∧ Item.WrittenOn q := by
  obtain ⟨hrefused, hfind⟩ := Part.find?_refused hwitness hop
  have hafter (us : List Ty) : p.GrownBy us (p.addAll us) ∧ (p.addAll us).Sound ∧
      (p.addAll us).types.Nodup ∧ Item.WrittenOn (p.addAll us) := by
    have hsound := hp.sound.addAll us
    exact ⟨hp.sound.grownBy_addAll us, hsound, hsound.nodup, Item.writtenOn_of_sound hsound⟩
  -- All that a pool has to keep follows from the types that it grew by, however writing ends.
  rcases x.write_cases hp.sound with ⟨e, hon, hnone⟩ | ⟨part, us, hon, hmet, hfirst, hsome⟩
  · refine ⟨_, _, x.types, hon, iff_of_false nofun ?_, nofun, List.prefix_refl _, hafter x.types⟩
    rintro ⟨part, hpart, hunwritable⟩
    exact hnone ⟨part, hpart, (hrefused part hpart).2 hunwritable⟩
  · rw [hfind] at hfirst
    have hfound := List.find?_some hfirst
    have hunwritable : part.Unwritable := of_decide_eq_true hfound
    have hpart := List.mem_of_find?_eq_some hfirst
    refine ⟨_, _, us, hon, iff_of_true ⟨_, rfl⟩ ⟨part, hpart, hunwritable⟩, ?_, hmet, hafter us⟩
    rintro _ ⟨⟩
    exact ⟨⟨part, hfirst, rfl⟩, Part.message_refusal hunwritable⟩

/-- A sum of a variable with a tag that has a comma and a temporary variable of another type. -/
def sampleRefused : Item :=
  .expr (.binary ⟨.integer, []⟩ ⟨7⟩ (.ident ⟨.integer, ["a,b"]⟩ (.plain "x"))
    (.ident ⟨.boolean, []⟩ (.temp "y")))

theorem refused_iff_unwritable_sample :
    .noWitness ∉ sampleRefused.parts ∧ (∀ op, .negated op ∈ sampleRefused.parts → 0 ≤ op.code) ∧
      (∃ part ∈ sampleRefused.parts, part.Unwritable) ∧
      ∃ q, sampleRefused.write.on .empty = (.error (.tag "a,b"), q) ∧ q.types = [.integer] ∧
        q.Sound ∧ Item.WrittenOn q := by
  have hparts : sampleRefused.parts = [.name (.plain "x"), .tag "a,b", .name (.temp "y")] := rfl
  have hwitness : .noWitness ∉ sampleRefused.parts := by simp [hparts]
  have hop : ∀ op, .negated op ∈ sampleRefused.parts → 0 ≤ op.code := by simp [hparts]
  obtain ⟨r, q, us, hon, hiff, -, -, -, hsound, -, hlater⟩ :=
    refused_iff_unwritable .empty hwitness hop
  have hrun : sampleRefused.write.on .empty =
      (.error (.tag "a,b"), Pool.empty.addAll [.integer]) := by
    with_unfolding_all rfl
  obtain ⟨rfl, rfl⟩ := Prod.mk.inj (hrun.symm.trans hon)
  exact ⟨hwitness, hop, hiff.1 ⟨_, rfl⟩, _, hrun, by with_unfolding_all rfl, hsound, hlater⟩

end BMethod
