import Mathlib
import BMethod.Operator

/-!
# Operators and their symbols

The symbols of a vocabulary are all different, so the symbol of a declared operator is read back as
that operator. What a symbol is read as is always declared.
-/

namespace BMethod

namespace Vocabulary

def all : List Vocabulary :=
  [constants, unary, binary, ternary, nary, quantified, comparisons, negatedComparisons,
    compositions]

/-- The vocabularies of operators, whose facts are checked one by one. -/
class Listed (v : Vocabulary) : Prop where
  mem : v ∈ all

instance : constants.Listed := ⟨by simp [all]⟩
instance : unary.Listed := ⟨by simp [all]⟩
instance : binary.Listed := ⟨by simp [all]⟩
instance : ternary.Listed := ⟨by simp [all]⟩
instance : nary.Listed := ⟨by simp [all]⟩
instance : quantified.Listed := ⟨by simp [all]⟩
instance : comparisons.Listed := ⟨by simp [all]⟩
instance : negatedComparisons.Listed := ⟨by simp [all]⟩
instance : compositions.Listed := ⟨by simp [all]⟩

theorem nodup_symbols : ∀ v ∈ all, v.symbols.Nodup := by
  decide

/-- No symbol begins with the title of its vocabulary and a parenthesis. -/
theorem titles_apart : ∀ v ∈ all, ∀ s ∈ v.symbols, ¬ (v.title ++ "(").toList <+: s.toList := by
  decide +kernel

end Vocabulary

namespace Operator

variable {v : Vocabulary}

theorem symbolAt?_eq_some {code : Int} {s : String} (h : symbolAt? v code = some s) :
    0 ≤ code ∧ v.symbols[code.toNat]? = some s := by
  unfold symbolAt? at h
  split at h
  · cases h
  · exact ⟨by omega, h⟩

theorem ofSymbol?_eq_some_iff {s : String} {op : Operator v} :
    ofSymbol? v s = some op ↔ ∃ i : Nat, v.symbols.idxOf? s = some i ∧ op = ⟨i⟩ := by
  unfold ofSymbol?
  cases v.symbols.idxOf? s with
  | none => simp
  | some i => simp [eq_comm]

theorem ofSymbol?_of_symbolAt? [v.Listed] {code : Int} {s : String}
    (h : symbolAt? v code = some s) : ofSymbol? v s = some ⟨code⟩ := by
  have hnodup := Vocabulary.nodup_symbols v Vocabulary.Listed.mem
  obtain ⟨hcode, hs⟩ := symbolAt?_eq_some h
  obtain ⟨hlt, rfl⟩ := List.getElem?_eq_some_iff.1 hs
  have hidx : v.symbols.idxOf? v.symbols[code.toNat] = some code.toNat := by
    rw [List.idxOf?_eq_some_iff]
    refine ⟨hlt, rfl, ?_⟩
    intro j hj heq
    exact absurd ((List.Nodup.getElem_inj_iff hnodup).1 heq) (by omega)
  exact ofSymbol?_eq_some_iff.2 ⟨_, hidx, by rw [Int.toNat_of_nonneg hcode]⟩

theorem Declared.symbolAt? {op : Operator v} (h : op.Declared) :
    symbolAt? v op.code = some op.symbol := by
  obtain ⟨h0, hlt⟩ := h
  have hlt' : op.code.toNat < v.symbols.length := by omega
  unfold symbol Operator.symbolAt?
  simp [Int.not_lt.2 h0, List.getElem?_eq_getElem hlt']

theorem ofSymbol?_symbol [v.Listed] {op : Operator v} (h : op.Declared) :
    ofSymbol? v op.symbol = some op :=
  ofSymbol?_of_symbolAt? h.symbolAt?

theorem declared_of_ofSymbol? {s : String} {op : Operator v} (h : ofSymbol? v s = some op) :
    op.Declared := by
  obtain ⟨i, hi, rfl⟩ := ofSymbol?_eq_some_iff.1 h
  obtain ⟨hlt, -⟩ := List.idxOf?_eq_some_iff.1 hi
  exact ⟨Int.natCast_nonneg i, Int.ofNat_lt.2 hlt⟩

theorem title_prefix_symbol {op : Operator v} (h : ¬ op.Declared) :
    (v.title ++ "(").toList <+: op.symbol.toList := by
  have hnone : symbolAt? v op.code = none := by
    unfold symbolAt?
    split
    · rfl
    · rw [List.getElem?_eq_none_iff]
      unfold Declared at h
      omega
  unfold symbol
  rw [hnone]
  simp only [String.toList_append, List.append_assoc]
  exact (List.prefix_append_right_inj _).2 (List.prefix_append _ _)

theorem ofSymbol?_eq_none [v.Listed] {s : String} (h : (v.title ++ "(").toList <+: s.toList) :
    ofSymbol? v s = none := by
  have hnot : s ∉ v.symbols := fun hs =>
    Vocabulary.titles_apart v Vocabulary.Listed.mem s hs h
  rw [ofSymbol?, List.idxOf?_eq_none_iff.2 hnot]
  rfl

theorem isSome_ofSymbol?_symbol [v.Listed] (op : Operator v) :
    (ofSymbol? v op.symbol).isSome ↔ op.Declared := by
  by_cases h : op.Declared
  · simp [ofSymbol?_symbol h, h]
  · simp [ofSymbol?_eq_none (title_prefix_symbol h), h]

end Operator

/-! ## Symbols with rules of their own -/

theorem Constant.ofName?_symbol {k : Constant} (h : k.Declared) (hset : k ≠ emptySet)
    (hseq : k ≠ emptySeq) : ofName? k.symbol = some k := by
  unfold ofName?
  rw [Operator.ofSymbol?_symbol h]
  simp [hset, hseq]

theorem Constant.ofName?_eq_some {name : String} {k : Constant} (h : ofName? name = some k) :
    k.Declared := by
  unfold ofName? at h
  split at h
  · rename_i k' hk
    split at h
    · cases h
    · cases h; exact Operator.declared_of_ofSymbol? hk
  · cases h

theorem BinaryOp.ofSymbol?_symbol {op : BinaryOp} (h : op.Declared) :
    ofSymbol? op.symbol = some op := by
  have hcomma : op.symbol ≠ "," := by
    intro heq
    have hmem : "," ∈ Vocabulary.binary.symbols := by
      rw [← heq]
      exact List.mem_of_getElem? (Operator.symbolAt?_eq_some h.symbolAt?).2
    revert hmem
    decide
  unfold ofSymbol?
  rw [if_neg hcomma, Operator.ofSymbol?_symbol h]

theorem BinaryOp.declared_of_ofSymbol? {s : String} {op : BinaryOp} (h : ofSymbol? s = some op) :
    op.Declared := by
  unfold ofSymbol? at h
  split at h
  · cases h; decide
  · exact Operator.declared_of_ofSymbol? h

theorem BinaryOp.isSome_ofSymbol?_symbol (op : BinaryOp) :
    (ofSymbol? op.symbol).isSome ↔ op.Declared := by
  refine ⟨fun h => ?_, fun h => by simp [ofSymbol?_symbol h]⟩
  by_contra hnot
  have hprefix := Operator.title_prefix_symbol hnot
  have hcomma : op.symbol ≠ "," := by
    intro heq
    rw [heq] at hprefix
    revert hprefix
    decide +kernel
  rw [ofSymbol?, if_neg hcomma, Operator.ofSymbol?_eq_none hprefix] at h
  cases h

namespace Comparison

theorem ofSymbol?_symbol {op : Comparison} (h : op.Declared) :
    ofSymbol? op.symbol = some (op, false) := by
  unfold ofSymbol?
  rw [Operator.ofSymbol?_symbol h]

theorem ofSymbol?_eq_none {op : Comparison} (h : ¬ op.Declared) : ofSymbol? op.symbol = none := by
  have hprefix := Operator.title_prefix_symbol h
  have hnegated : Operator.ofSymbol? .negatedComparisons op.symbol = none :=
    Operator.ofSymbol?_eq_none hprefix
  rw [ofSymbol?, Operator.ofSymbol?_eq_none hprefix, hnegated]
  rfl

theorem negatedSymbol?_eq_ok {op : Comparison} {negated : Option String} :
    op.negatedSymbol? = .ok negated ↔
      0 ≤ op.code ∧ Operator.symbolAt? .negatedComparisons op.code = negated := by
  unfold negatedSymbol?
  by_cases hneg : op.code < 0
  · rw [if_pos hneg]
    exact iff_of_false nofun fun h => absurd h.1 (Int.not_le.2 hneg)
  · rw [if_neg hneg, and_iff_right (Int.not_lt.1 hneg)]
    exact ⟨Except.ok.inj, congrArg Except.ok⟩

theorem negatedSymbol?_of_neg {op : Comparison} (h : op.code < 0) :
    op.negatedSymbol? = .error (.outOfRange op.code) :=
  if_pos h

/-- A negated symbol is no symbol of a comparison, so it is read as a negation. -/
theorem ofSymbol?_negatedSymbol {op : Comparison} {s : String}
    (h : op.negatedSymbol? = .ok (some s)) : ofSymbol? s = some (op, true) := by
  have hapart : ∀ s ∈ Vocabulary.negatedComparisons.symbols,
      Operator.ofSymbol? .comparisons s = none := by decide
  have hsymbol := (negatedSymbol?_eq_ok.1 h).2
  have hnone := hapart s (List.mem_of_getElem? (Operator.symbolAt?_eq_some hsymbol).2)
  unfold ofSymbol?
  rw [hnone, Operator.ofSymbol?_of_symbolAt? hsymbol]
  rfl

theorem declared_of_ofSymbol? {s : String} {op : Comparison} {negated : Bool}
    (h : ofSymbol? s = some (op, negated)) : op.Declared := by
  unfold ofSymbol? at h
  split at h
  · rename_i op' hop
    cases h; exact Operator.declared_of_ofSymbol? hop
  · obtain ⟨op', hop, heq⟩ := Option.map_eq_some_iff.1 h
    obtain ⟨h0, hlt⟩ := Operator.declared_of_ofSymbol? hop
    cases heq
    refine ⟨h0, Int.lt_of_lt_of_le hlt ?_⟩
    decide

end Comparison

end BMethod
