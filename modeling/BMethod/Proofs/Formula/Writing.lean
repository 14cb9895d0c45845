import Mathlib
import BMethod.Formula.Write
import BMethod.Proofs.Operator
import BMethod.Proofs.Ty.Pool

/-!
# What writing gives

Actions that write are put together from steps that ask the pool for a number. An action is
described by the types it adds, in order, and by what its result means under the tables that begin
with the types of the pool afterwards. The description of a sequence follows from those of its
parts.
-/

namespace BMethod

/-- Whether the numbers of a pool fit a signed 64-bit word, as the places of a list in memory do. -/
def Pool.Addressable (p : Pool) : Prop :=
  p.size ≤ 9223372036854775808

theorem Pool.Addressable.of_prefix {p q : Pool} (h : q.Addressable) (hle : p.types <+: q.types) :
    p.Addressable :=
  Nat.le_trans hle.length_le h

theorem Pool.size_ref_le (p : Pool) (t : Ty) : (p.ref t).2.size ≤ p.size + 1 := by
  unfold Pool.ref
  split
  · simp
  · simp [Pool.size]

theorem Pool.size_addAll_le (p : Pool) (ts : List Ty) :
    (p.addAll ts).size ≤ p.size + ts.length := by
  induction ts generalizing p with
  | nil => simp
  | cons t ts ih =>
    rw [Pool.addAll_cons, List.length_cons]
    have := ih (p.ref t).2
    have := p.size_ref_le t
    omega

theorem Pool.addressable_addAll_empty {ts : List Ty} (h : ts.length ≤ 9223372036854775808) :
    (Pool.empty.addAll ts).Addressable :=
  Nat.le_trans (Pool.size_addAll_le _ ts) (by simpa [Pool.size, Pool.empty] using h)

namespace Write

variable {α β γ : Type}

/-! ## Running an action -/

@[simp] theorem on_pure (a : α) (p : Pool) : (pure a : Write α).on p = (.ok a, p) := rfl

@[simp] theorem on_throw (r : Refusal) (p : Pool) : (throw r : Write α).on p = (.error r, p) := rfl

@[simp] theorem on_ref (t : Ty) (p : Pool) : (ref t).on p = (.ok (p.ref t).1, (p.ref t).2) := rfl

theorem on_bind (w : Write α) (f : α → Write β) (p : Pool) :
    (w >>= f).on p =
      match w.on p with
      | (.ok a, q) => (f a).on q
      | (.error r, q) => (.error r, q) := by
  unfold on
  rw [ExceptT.run_bind, StateT.run_bind]
  rcases h : StateT.run w.run p with ⟨r | a, q⟩ <;> rfl

theorem on_bind_of_ok {w : Write α} {f : α → Write β} {a : α} {p q : Pool}
    (h : w.on p = (.ok a, q)) : (w >>= f).on p = (f a).on q := by
  rw [on_bind, h]

theorem bind_on_eq_ok {w : Write α} {f : α → Write β} {b : β} {p q : Pool}
    (h : (w >>= f).on p = (.ok b, q)) : ∃ a r, w.on p = (.ok a, r) ∧ (f a).on r = (.ok b, q) := by
  rw [on_bind] at h
  split at h
  · rename_i a r hw
    exact ⟨a, r, hw, h⟩
  · cases h

theorem negatedSymbol?_of_on {op : Comparison} {negated : Option String} {p q : Pool}
    (h : (negatedSymbol? op).on p = (.ok negated, q)) :
    op.negatedSymbol? = .ok negated ∧ q = p := by
  unfold negatedSymbol? at h
  cases hs : op.negatedSymbol? with
  | error e =>
    rw [hs] at h
    cases h
  | ok symbol =>
    rw [hs] at h
    cases h
    exact ⟨rfl, rfl⟩

/-! ## Descriptions -/

/-- On every sound pool the action adds the types `ts` in order and succeeds. It gives the same
result again, and adds nothing, on every sound pool that begins with the types there are then. What
the result means under a table is `P`. -/
def Gives (w : Write α) (ts : List Ty) (P : Table → α → Prop) : Prop :=
  ∀ p : Pool, p.Sound → ∃ a, w.on p = (.ok a, p.addAll ts) ∧
    (∀ q : Pool, q.Sound → (p.addAll ts).types <+: q.types → w.on q = (.ok a, q)) ∧
    ((p.addAll ts).Addressable → ∀ t : Table, (p.addAll ts).types <+: t.types → P t a)

namespace Gives

variable {w : Write α} {ts us : List Ty} {P : Table → α → Prop}

theorem pure {a : α} (h : ∀ t, P t a) : (pure a : Write α).Gives [] P :=
  fun _ _ => ⟨a, rfl, fun _ _ _ => rfl, fun _ t _ => h t⟩

theorem bind {f : α → Write β} {Q : Table → β → Prop} (hw : w.Gives ts P)
    (hf : ∀ a, (f a).Gives us fun t b => P t a → Q t b) : (w >>= f).Gives (ts ++ us) Q := by
  intro p hp
  obtain ⟨a, hon, hagain, hP⟩ := hw p hp
  obtain ⟨b, hon', hagain', hQ⟩ := hf a (p.addAll ts) (hp.addAll ts)
  have hgrows := (p.addAll ts).prefix_addAll us
  rw [Pool.addAll_append]
  refine ⟨b, ?_, ?_, ?_⟩
  · rw [on_bind_of_ok hon, hon']
  · intro q hq hle
    rw [on_bind_of_ok (hagain q hq (hgrows.trans hle)), hagain' q hq hle]
  · intro hsize t hle
    exact hQ hsize t hle (hP (hsize.of_prefix hgrows) t (hgrows.trans hle))

theorem bind_pure {f : α → β} {Q : Table → β → Prop} (hw : w.Gives ts P)
    (h : ∀ t a, P t a → Q t (f a)) : (w >>= fun a => Pure.pure (f a)).Gives ts Q := by
  have := hw.bind (f := fun a => Pure.pure (f a)) (Q := Q) fun a => .pure fun t => h t a
  rwa [List.append_nil] at this

theorem mono {Q : Table → α → Prop} (hw : w.Gives ts P) (h : ∀ t a, P t a → Q t a) :
    w.Gives ts Q := by
  intro p hp
  obtain ⟨a, hon, hagain, hP⟩ := hw p hp
  exact ⟨a, hon, hagain, fun hsize t hle => h t a (hP hsize t hle)⟩

theorem all {δ : Type} {l : List γ} {f : γ → Write β} {ts : γ → List Ty} {g : γ → δ}
    {P : Table → β → δ → Prop} (h : ∀ c ∈ l, (f c).Gives (ts c) fun t b => P t b (g c)) :
    (Write.all (l.map f)).Gives (l.flatMap ts) fun t bs => List.Forall₂ (P t) bs (l.map g) := by
  induction l with
  | nil => exact .pure fun t => .nil
  | cons c l ih =>
    refine (h c List.mem_cons_self).bind fun b => ?_
    refine (ih fun d hd => h d (List.mem_cons_of_mem _ hd)).bind_pure ?_
    intro t bs hbs hb
    exact .cons hb hbs

end Gives

/-! ## Numbers of types -/

theorem getElem?_of_prefix {l l' : List γ} {i : Nat} {c : γ} (hle : l <+: l')
    (h : l[i]? = some c) : l'[i]? = some c := by
  obtain ⟨l'', rfl⟩ := hle
  rwa [List.getElem?_append_left (List.getElem?_eq_some_iff.1 h).1]

def RefersTo (t : Table) (ty : Ty) (a : Attr) : Prop :=
  ∃ n : Nat, a = ⟨"typref", toString n⟩ ∧ n ≤ 9223372036854775807 ∧ t.types[n]? = some ty

theorem ref_gives (ty : Ty) :
    (ref ty).Gives [ty] fun t n => n ≤ 9223372036854775807 ∧ t.types[n]? = some ty := by
  intro p hp
  have hat := hp.getElem?_ref ty
  refine ⟨(p.ref ty).1, rfl, ?_, ?_⟩
  · intro q hq hle
    have hq' : q.types[(p.ref ty).1]? = some ty := getElem?_of_prefix hle hat
    rw [on_ref ty q, hq.ref_of_getElem? hq']
  · intro hsize t hle
    refine ⟨?_, getElem?_of_prefix hle hat⟩
    have hlt := (List.getElem?_eq_some_iff.1 hat).1
    unfold Pool.Addressable Pool.size Pool.addAll at hsize
    simp only [List.foldl_cons, List.foldl_nil] at hsize
    omega

theorem negatedSymbol?_gives {op : Comparison} (h : 0 ≤ op.code) :
    (negatedSymbol? op).Gives [] fun _ negated => op.negatedSymbol? = .ok negated := by
  obtain ⟨negated, hok⟩ : ∃ negated, op.negatedSymbol? = .ok negated :=
    ⟨_, Comparison.negatedSymbol?_eq_ok.2 ⟨h, rfl⟩⟩
  have hon (p : Pool) : (negatedSymbol? op).on p = (.ok negated, p) := by
    unfold negatedSymbol?
    rw [hok]
    rfl
  exact fun p _ => ⟨negated, hon p, fun q _ _ => hon q, fun _ _ _ => hok⟩

theorem typeRef_gives (ty : Ty) : (typeRef ty).Gives [ty] fun t a => RefersTo t ty a := by
  refine (ref_gives ty).bind_pure ?_
  rintro t n ⟨hn, hat⟩
  exact ⟨n, rfl, hn, hat⟩

end Write

end BMethod
