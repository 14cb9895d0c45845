import BMethod.Proofs.Ty.Pool

/-!
# Pools under calls

A pool answers every sequence of calls as a plain list of types does that is searched from its
start. What it answers once, it stands by: types keep their numbers in all later pools.
-/

namespace BMethod

namespace Pool

/-! ## Calls -/

/-- What can be asked of a pool: to give a type a number, or to find its number. -/
inductive Call where
  | ref (t : Ty)
  | lookup (t : Ty)

/-- The answer of a pool to a call, and the pool after it. -/
def answer (p : Pool) : Call → Option Nat × Pool
  | .ref t => (some (p.ref t).1, (p.ref t).2)
  | .lookup t => (p.lookup? t, p)

/-- The first place of a list at which there is a type equal to `t`. -/
def placeIn (ts : List Ty) (t : Ty) : Option Nat :=
  ts.findIdx? (·.same t)

/-- The answer of a plain list of types to a call, and the list after it. -/
def listAnswer (ts : List Ty) : Call → Option Nat × List Ty
  | .ref t =>
    match placeIn ts t with
    | some n => (some n, ts)
    | none => (some ts.length, ts ++ [t])
  | .lookup t => (placeIn ts t, ts)

/-- The answers to calls in a row, and the state after them. -/
def runCalls {σ : Type} (step : σ → Call → Option Nat × σ) (s : σ) :
    List Call → List (Option Nat) × σ
  | [] => ([], s)
  | c :: cs =>
    let rest := runCalls step (step s c).2 cs
    ((step s c).1 :: rest.1, rest.2)

def after (p : Pool) (calls : List Call) : Pool :=
  (runCalls answer p calls).2

@[simp] theorem after_nil (p : Pool) : p.after [] = p := rfl

@[simp] theorem after_cons (p : Pool) (c : Call) (cs : List Call) :
    p.after (c :: cs) = (p.answer c).2.after cs := rfl

/-! ## One call -/

variable {p : Pool}

theorem Sound.placeIn_eq (hp : p.Sound) (t : Ty) : placeIn p.types t = p.lookup? t := by
  unfold placeIn
  cases hplace : p.types.findIdx? (·.same t) with
  | none =>
    have hnone := List.findIdx?_eq_none_iff.1 hplace
    symm
    apply hp.lookup?_eq_none_iff.2
    intro ht
    have hself := hnone t ht
    rw [Ty.same_self t] at hself
    cases hself
  | some n =>
    obtain ⟨hn, hsame, -⟩ := List.findIdx?_eq_some_iff_getElem.1 hplace
    symm
    apply hp.lookup?_eq_some_iff.2
    rw [List.getElem?_eq_getElem hn, (Ty.same_iff _ _).1 hsame]

theorem Sound.answer_sound (hp : p.Sound) (c : Call) : (p.answer c).2.Sound := by
  cases c with
  | ref t => exact hp.ref_sound t
  | lookup t => exact hp

/-- The pool and the list of its types give one answer, and stay together. -/
theorem Sound.listAnswer_eq (hp : p.Sound) (c : Call) :
    listAnswer p.types c = ((p.answer c).1, (p.answer c).2.types) := by
  cases c with
  | ref t =>
    simp only [listAnswer, answer, Pool.ref, hp.placeIn_eq]
    cases p.lookup? t with
    | none => rfl
    | some n => rfl
  | lookup t => simp only [listAnswer, answer, hp.placeIn_eq]

theorem prefix_answer (p : Pool) (c : Call) : p.types <+: (p.answer c).2.types := by
  cases c with
  | ref t => exact p.prefix_ref t
  | lookup t => exact List.prefix_rfl

theorem Sound.mem_types_answer (hp : p.Sound) (c : Call) (t : Ty) :
    t ∈ (p.answer c).2.types ↔ t ∈ p.types ∨ c = .ref t := by
  constructor
  · intro h
    cases c with
    | ref u =>
      rcases mem_types_ref h with h | rfl
      · exact .inl h
      · exact .inr rfl
    | lookup u => exact .inl h
  · rintro (h | rfl)
    · exact (p.prefix_answer c).subset h
    · exact List.mem_of_getElem? (hp.getElem?_ref t)

/-! ## Calls in a row -/

theorem Sound.after_sound (hp : p.Sound) (calls : List Call) : (p.after calls).Sound := by
  induction calls generalizing p with
  | nil => exact hp
  | cons c cs ih => exact ih (hp.answer_sound c)

theorem Sound.runCalls_types (hp : p.Sound) (calls : List Call) :
    runCalls listAnswer p.types calls = ((runCalls answer p calls).1, (p.after calls).types) := by
  induction calls generalizing p with
  | nil => rfl
  | cons c cs ih =>
    have hrest := ih (hp.answer_sound c)
    unfold runCalls
    rw [hp.listAnswer_eq c]
    simp only [hrest, after_cons]

theorem prefix_after (p : Pool) (calls : List Call) : p.types <+: (p.after calls).types := by
  induction calls generalizing p with
  | nil => exact List.prefix_rfl
  | cons c cs ih => exact (p.prefix_answer c).trans (ih _)

theorem Sound.mem_types_after (hp : p.Sound) (calls : List Call) (t : Ty) :
    t ∈ (p.after calls).types ↔ t ∈ p.types ∨ .ref t ∈ calls := by
  induction calls generalizing p with
  | nil => simp
  | cons c cs ih =>
    rw [after_cons, ih (hp.answer_sound c), hp.mem_types_answer c t, List.mem_cons, or_assoc,
      eq_comm (a := c)]

/-! ## Later pools -/

theorem Sound.order_increasing (hp : p.Sound) :
    p.order.Pairwise fun m n =>
      ∃ x y, p.types[m]? = some x ∧ p.types[n]? = some y ∧ x.compare y = .lt := by
  rw [List.pairwise_iff_getElem]
  intro i j hi hj hij
  obtain ⟨x, hx⟩ := hp.exists_typeAt hi
  obtain ⟨y, hy⟩ := hp.exists_typeAt hj
  have hlt := hp.sorted i j x y hij hx hy
  simp only [typeAt, List.getElem?_eq_getElem hi, List.getElem?_eq_getElem hj,
    Option.bind_some] at hx hy
  exact ⟨x, y, hx, hy, hlt⟩

theorem Sound.at?_after_ref (hp : p.Sound) (t : Ty) (later : List Call) :
    ((p.ref t).2.after later).table.at? (p.ref t).1 = some t := by
  have hnow := hp.getElem?_ref t
  obtain ⟨added, hadded⟩ := (p.ref t).2.prefix_after later
  have hlt := (List.getElem?_eq_some_iff.1 hnow).1
  unfold Table.at? table
  rw [if_neg (by omega), Int.toNat_natCast, ← hadded, List.getElem?_append_left hlt]
  exact hnow

theorem mem_types_after_empty {calls : List Call} {t : Ty} :
    t ∈ (empty.after calls).types ↔ ∃ u, .ref u ∈ calls ∧ u.same t = true := by
  rw [empty_sound.mem_types_after calls t]
  constructor
  · rintro (h | h)
    · cases h
    · exact ⟨t, h, Ty.same_self t⟩
  · rintro ⟨u, hu, hsame⟩
    rw [Ty.same_iff] at hsame
    exact .inr (hsame ▸ hu)

theorem Sound.lookup?_eq_some_iff_ref (hp : p.Sound) {t : Ty} {n : Nat} :
    p.lookup? t = some n ↔ t ∈ p.types ∧ (p.ref t).1 = n := by
  constructor
  · intro h
    have hn := hp.lookup?_eq_some_iff.1 h
    exact ⟨List.mem_of_getElem? hn, congrArg Prod.fst (hp.ref_of_getElem? hn)⟩
  · rintro ⟨ht, rfl⟩
    obtain ⟨n, hn⟩ := List.mem_iff_getElem?.1 ht
    rw [hp.ref_of_getElem? hn]
    exact hp.lookup?_eq_some_iff.2 hn

/-- Whatever is asked of a pool that starts empty, it answers as a plain list of types does that is
searched from its start. Its index holds every number once, in strictly increasing order of types;
its types differ from each other and keep their places. A type that is there gets its number and
changes nothing, a new one goes to the end, and only types that were given a number are found. The
number that a type is given stands for it in all later tables. -/
theorem refines_list (calls : List Call) :
    let p := Pool.empty.after calls
    runCalls listAnswer [] calls = ((runCalls answer .empty calls).1, p.types) ∧
    p.order.Perm (List.range p.size) ∧
    (p.order.Pairwise fun m n =>
      ∃ x y, p.types[m]? = some x ∧ p.types[n]? = some y ∧ x.compare y = .lt) ∧
    (p.types.Pairwise fun x y => x.same y = false) ∧
    (∀ later, p.types <+: (p.after later).types) ∧
    ∀ t,
      (∀ n u, p.types[n]? = some u → u.same t = true → p.ref t = (n, p)) ∧
      ((∀ u ∈ p.types, u.same t = false) →
        (p.ref t).1 = p.size ∧ (p.ref t).2.types = p.types ++ [t]) ∧
      (∀ n, p.lookup? t = some n ↔
        (∃ u, .ref u ∈ calls ∧ u.same t = true) ∧ (p.ref t).1 = n) ∧
      ∀ later, ∃ u, ((p.ref t).2.after later).table.at? (p.ref t).1 = some u ∧
        u.same t = true := by
  intro p
  have hp : p.Sound := empty_sound.after_sound calls
  refine ⟨empty_sound.runCalls_types calls, hp.perm, hp.order_increasing, ?_, p.prefix_after, ?_⟩
  · exact hp.nodup.imp fun hne => Ty.same_eq_false_iff.2 hne
  intro t
  refine ⟨?_, ?_, ?_, ?_⟩
  · intro n u hn hsame
    rw [Ty.same_iff] at hsame
    exact hp.ref_of_getElem? (hsame ▸ hn)
  · intro hnew
    have ht : t ∉ p.types := fun ht => Ty.same_eq_false_iff.1 (hnew t ht) rfl
    rw [hp.ref_of_not_mem ht]
    exact ⟨rfl, rfl⟩
  · intro n
    rw [← mem_types_after_empty]
    exact hp.lookup?_eq_some_iff_ref
  · exact fun later => ⟨t, hp.at?_after_ref t later, Ty.same_self t⟩

end Pool

end BMethod
