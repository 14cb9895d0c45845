import Mathlib
import BMethod.Ty.Pool

/-!
# The order of types

Types are compared by kind first, and types of one kind by their parts. The order is total: only a
type itself compares as equal to it.
-/

namespace BMethod.Ty

/-! ## Kinds -/

theorem compare_of_kind_ne {x y : Ty} (h : x.kind ≠ y.kind) :
    x.compare y = Ord.compare x.kind.rank y.kind.rank := by
  cases x <;> cases y <;> first | rfl | exact absurd rfl h

theorem rank_injective {k l : TyKind} (h : k.rank = l.rank) : k = l := by
  cases k <;> cases l <;> first | rfl | simp [TyKind.rank] at h

theorem rank_le_of_compare_lt {x y : Ty} (h : x.compare y = .lt) : x.kind.rank ≤ y.kind.rank := by
  by_cases hk : x.kind = y.kind
  · exact Nat.le_of_eq (congrArg TyKind.rank hk)
  · rw [compare_of_kind_ne hk, Nat.compare_eq_lt] at h
    exact Nat.le_of_lt h

theorem kind_eq_of_compare_eq {x y : Ty} (h : x.compare y = .eq) : x.kind = y.kind := by
  by_contra hk
  rw [compare_of_kind_ne hk, Nat.compare_eq_eq] at h
  exact hk (rank_injective h)

/-! ## Equality -/

mutual
theorem compare_self : (x : Ty) → x.compare x = .eq
  | .integer | .boolean | .float | .real | .string => by decide
  | .power x => by rw [compare]; exact compare_self x
  | .product x y => by rw [compare, compare_self x, compare_self y]; rfl
  | .struct fs => by rw [compare]; exact compareFields_self fs

theorem compareFields_self : (fs : List (String × Ty)) → compareFields fs fs = .eq
  | [] => by rw [compareFields]
  | (l, x) :: fs => by
    rw [compareFields, compare_self x, compareFields_self fs]
    simp
end

mutual
theorem eq_of_compare_eq : {x y : Ty} → x.compare y = .eq → x = y
  | .integer, y, h | .boolean, y, h | .float, y, h | .real, y, h | .string, y, h => by
    have := kind_eq_of_compare_eq h
    cases y <;> simp_all [kind]
  | .power x, y, h => by
    have hk := kind_eq_of_compare_eq h
    cases y <;> simp [kind] at hk
    rw [compare] at h
    rw [eq_of_compare_eq h]
  | .product x x', y, h => by
    have hk := kind_eq_of_compare_eq h
    cases y <;> simp [kind] at hk
    rw [compare, Ordering.then_eq_eq] at h
    rw [eq_of_compare_eq h.1, eq_of_compare_eq h.2]
  | .struct fs, y, h => by
    have hk := kind_eq_of_compare_eq h
    cases y <;> simp [kind] at hk
    rw [compare] at h
    rw [eq_of_compareFields_eq h]

theorem eq_of_compareFields_eq : {fs gs : List (String × Ty)} → compareFields fs gs = .eq → fs = gs
  | [], [], _ => rfl
  | [], _ :: _, h | _ :: _, [], h => by simp [compareFields] at h
  | (l, x) :: fs, (m, y) :: gs, h => by
    rw [compareFields, Ordering.then_eq_eq, Ordering.then_eq_eq,
      Std.LawfulEqCmp.compare_eq_iff_eq] at h
    rw [h.1, eq_of_compare_eq h.2.1, eq_of_compareFields_eq h.2.2]
end

theorem compare_eq_iff {x y : Ty} : x.compare y = .eq ↔ x = y :=
  ⟨eq_of_compare_eq, fun h => h ▸ compare_self x⟩

/-! ## Equal types -/

mutual
theorem same_iff (x y : Ty) : x.same y = true ↔ x = y := by
  cases x <;> cases y
  case power.power x y => rw [same, same_iff x y, power.injEq]
  case product.product x x' y y' =>
    rw [same, Bool.and_eq_true, same_iff x y, same_iff x' y', product.injEq]
  case struct.struct fs gs => rw [same, sameFields_iff fs gs, struct.injEq]
  all_goals simp [same, kind]

theorem sameFields_iff : (fs gs : List (String × Ty)) → (sameFields fs gs = true ↔ fs = gs)
  | [], [] => by simp [sameFields]
  | [], _ :: _ | _ :: _, [] => by simp [sameFields]
  | (l, x) :: fs, (m, y) :: gs => by
    rw [sameFields, Bool.and_eq_true, Bool.and_eq_true, decide_eq_true_eq, same_iff x y,
      sameFields_iff fs gs]
    simp [and_assoc]
end

@[simp] theorem same_self (x : Ty) : x.same x = true :=
  (same_iff x x).2 rfl

theorem same_eq_false_iff {x y : Ty} : x.same y = false ↔ x ≠ y := by
  rw [Bool.eq_false_iff, ne_eq, same_iff]

/-! ## Totality and transitivity -/

mutual
theorem compare_swap (x y : Ty) : (x.compare y).swap = y.compare x := by
  by_cases hk : x.kind = y.kind
  · cases x <;> cases y <;> simp only [kind, reduceCtorEq] at hk
    case power.power x y => rw [compare, compare, compare_swap x y]
    case product.product x x' y y' =>
      rw [compare, compare, Ordering.swap_then, compare_swap x y, compare_swap x' y']
    case struct.struct fs gs => rw [compare, compare, compareFields_swap fs gs]
    all_goals decide
  · rw [compare_of_kind_ne hk, compare_of_kind_ne (Ne.symm hk), Nat.compare_swap]

theorem compareFields_swap : (fs gs : List (String × Ty)) →
    (compareFields fs gs).swap = compareFields gs fs
  | [], [] => by rw [compareFields]; rfl
  | [], _ :: _ | _ :: _, [] => by rw [compareFields, compareFields]; rfl
  | (l, x) :: fs, (m, y) :: gs => by
    rw [compareFields, compareFields, Ordering.swap_then, Ordering.swap_then, compare_swap x y,
      compareFields_swap fs gs, ← Std.OrientedCmp.eq_swap]
end

theorem then_lt_trans {a b c a' b' c' : Ordering} (hlt : a = .lt → b = .lt → c = .lt)
    (heq : a = .eq → c = b) (heq' : b = .eq → c = a) (h : a' = .lt → b' = .lt → c' = .lt)
    (hab : a.then a' = .lt) (hbc : b.then b' = .lt) : c.then c' = .lt := by
  rw [Ordering.then_eq_lt] at *
  obtain ha | ⟨ha, ha'⟩ := hab
  · obtain hb | ⟨hb, -⟩ := hbc
    · exact .inl (hlt ha hb)
    · exact .inl (heq' hb ▸ ha)
  · obtain hb | ⟨hb, hb'⟩ := hbc
    · exact .inl (heq ha ▸ hb)
    · exact .inr ⟨heq ha ▸ hb, h ha' hb'⟩

mutual
theorem compare_lt_trans {x y z : Ty} (hxy : x.compare y = .lt) (hyz : y.compare z = .lt) :
    x.compare z = .lt := by
  have hle := rank_le_of_compare_lt hxy
  have hle' := rank_le_of_compare_lt hyz
  by_cases hk : x.kind = z.kind
  · have hk' : x.kind = y.kind := rank_injective (by rw [← hk] at hle'; omega)
    cases x <;> cases y <;> simp only [kind, reduceCtorEq] at hk' <;>
      cases z <;> simp only [kind, reduceCtorEq] at hk
    case power.power.power x y z =>
      rw [compare] at *
      exact compare_lt_trans hxy hyz
    case product.product.product x x' y y' z z' =>
      rw [compare] at *
      exact then_lt_trans compare_lt_trans (fun h => by rw [eq_of_compare_eq h])
        (fun h => by rw [eq_of_compare_eq h]) compare_lt_trans hxy hyz
    case struct.struct.struct fs gs hs =>
      rw [compare] at *
      exact compareFields_lt_trans hxy hyz
    all_goals simp [compare] at hxy
  · rw [compare_of_kind_ne hk, Nat.compare_eq_lt]
    exact Nat.lt_of_le_of_ne (Nat.le_trans hle hle') fun h => hk (rank_injective h)

theorem compareFields_lt_trans : {fs gs hs : List (String × Ty)} → compareFields fs gs = .lt →
    compareFields gs hs = .lt → compareFields fs hs = .lt
  | [], _, _ :: _, _, _ => by rw [compareFields]
  | [], [], [], h, _ | [], _ :: _, [], _, h | _ :: _, [], _, h, _ | _ :: _, _ :: _, [], _, h => by
    simp [compareFields] at h
  | (l, x) :: fs, (m, y) :: gs, (n, z) :: hs, hxy, hyz => by
    rw [compareFields] at *
    refine then_lt_trans (fun h h' => Std.TransCmp.lt_trans h h') ?_ ?_ ?_ hxy hyz
    · intro h; rw [Std.LawfulEqCmp.eq_of_compare h]
    · intro h; rw [Std.LawfulEqCmp.eq_of_compare h]
    · exact then_lt_trans compare_lt_trans (fun h => by rw [eq_of_compare_eq h])
        (fun h => by rw [eq_of_compare_eq h]) compareFields_lt_trans
end

/-! ## A total order -/

instance : Std.TransCmp compare where
  eq_swap {x y} := (compare_swap y x).symm
  isLE_trans {x y z} hxy hyz := by
    rw [Ordering.isLE_iff_eq_lt_or_eq_eq] at *
    obtain hxy | hxy := hxy
    · obtain hyz | hyz := hyz
      · exact .inl (compare_lt_trans hxy hyz)
      · exact .inl (eq_of_compare_eq hyz ▸ hxy)
    · rw [eq_of_compare_eq hxy]
      exact hyz

/-- The order of two types as a number, which is negative when the first comes before the second. -/
def sign (x y : Ty) : Int :=
  match x.compare y with
  | .lt => -1
  | .eq => 0
  | .gt => 1

theorem sign_nonpos_iff {x y : Ty} : x.sign y ≤ 0 ↔ (x.compare y).isLE = true := by
  unfold sign
  cases x.compare y <;> simp

theorem sign_eq_zero_iff {x y : Ty} : x.sign y = 0 ↔ x = y := by
  rw [← compare_eq_iff]
  unfold sign
  cases x.compare y <;> simp

theorem sign_neg (x y : Ty) : x.sign y = -y.sign x := by
  unfold sign
  rw [← compare_swap y x]
  cases y.compare x <;> rfl

/-- Comparing types gives one of three numbers, is antisymmetric and transitive, and gives zero
exactly for types that are the same, which are those that are built in the same way. -/
theorem compare_total_order (x y z : Ty) :
    (x.sign y = -1 ∨ x.sign y = 0 ∨ x.sign y = 1) ∧ x.sign y = -y.sign x ∧
      (x.sign y ≤ 0 → y.sign z ≤ 0 → x.sign z ≤ 0) ∧
      (x.sign y = 0 ↔ x.same y = true) ∧ (x.same y = true ↔ x = y) := by
  refine ⟨?_, sign_neg x y, ?_, ?_, same_iff x y⟩
  · unfold sign
    cases x.compare y <;> simp
  · intro hxy hyz
    rw [sign_nonpos_iff] at *
    exact Std.TransCmp.isLE_trans hxy hyz
  · rw [sign_eq_zero_iff, same_iff]

/-- Three record types: the first begins the second, and the third has a greater type in its field. -/
theorem compare_total_order_sample :
    (struct [("a", power integer)]).sign (struct [("a", power integer), ("b", real)]) ≤ 0 ∧
      (struct [("a", power integer), ("b", real)]).sign (struct [("a", product real real)]) ≤ 0 ∧
      (struct [("a", power integer)]).sign (struct [("a", product real real)]) ≤ 0 := by
  have hxy : (struct [("a", power integer)]).sign
      (struct [("a", power integer), ("b", real)]) ≤ 0 := by decide
  have hyz : (struct [("a", power integer), ("b", real)]).sign
      (struct [("a", product real real)]) ≤ 0 := by decide
  exact ⟨hxy, hyz, (compare_total_order _ _ _).2.2.1 hxy hyz⟩

end BMethod.Ty
