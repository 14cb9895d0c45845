/-!
# Operators

Constants, operators and connectives are written as symbols. Each group of them is a vocabulary: a
list of symbols, all different, in which an operator is a number. A number outside of the vocabulary
is no operator; it is shown with the title of the vocabulary.
-/

namespace BMethod

/-- A group of symbols. -/
structure Vocabulary where
  title : String
  symbols : List String

namespace Vocabulary

def constants : Vocabulary where
  title := "ConstKind"
  symbols :=
    ["MAXINT", "MININT", "INTEGER", "NATURAL", "NATURAL1", "INT", "NAT", "NAT1", "BOOL", "STRING",
     "REAL", "FLOAT", "TRUE", "FALSE", "EmptySet", "EmptySeq", "succ", "pred"]

def unary : Vocabulary where
  title := "UnaryOp"
  symbols :=
    ["card", "dom", "ran", "POW", "POW1", "FIN", "FIN1", "union", "inter", "seq", "seq1", "iseq",
     "iseq1", "-i", "-r", "~", "size", "perm", "first", "last", "id", "closure", "closure1", "tail",
     "front", "rev", "conc", "rel", "fnc", "real", "floor", "ceiling", "imin", "imax", "rmin",
     "rmax", "tree", "btree", "top", "sons", "prefix", "postfix", "sizet", "mirror", "left",
     "right", "infix", "bin"]

def binary : Vocabulary where
  title := "BinaryOp"
  symbols :=
    ["|->", "*i", "*f", "*r", "*s", "**i", "**r", "+i", "+r", "+f", "+->", "+->>", "-i", "-r", "-f",
     "-s", "-->", "-->>", "->", "..", "/i", "/r", "/f", "/\\", "/|\\", ";", "<+", "<->", "<-",
     "<<|", "<|", ">+>", ">->", ">+>>", ">->>", "><", "||", "\\/", "\\|/", "^", "mod", "|>", "|>>",
     "[", "(", "prj1", "prj2", "iterate", "const", "rank", "father", "subtree", "arity"]

def ternary : Vocabulary where
  title := "TernaryOp"
  symbols := ["bin", "son"]

/-- Operators that build a sequence or a set from a list of expressions. -/
def nary : Vocabulary where
  title := "NaryOp"
  symbols := ["[", "\x7b"]

def quantified : Vocabulary where
  title := "QuantifiedOp"
  symbols := ["%", "iSIGMA", "rSIGMA", "iPI", "rPI", "UNION", "INTER"]

def comparisons : Vocabulary where
  title := "CompareOp"
  symbols :=
    [":", "<:", "<<:", "=", ">=i", ">i", "<i", "<=i", ">=r", ">r", "<r", "<=r", ">=f", ">f", "<f",
     "<=f"]

/-- Comparisons that can be written negated, under their negated symbols. -/
def negatedComparisons : Vocabulary where
  title := "CompareOp"
  symbols := ["/:", "/<:", "/<<:", "/="]

def compositions : Vocabulary where
  title := "NaryStmtOp"
  symbols := [";", "||", "CHOICE"]

end Vocabulary

/-- An operator of a vocabulary, by its number. -/
structure Operator (v : Vocabulary) where
  code : Int
deriving DecidableEq

namespace Operator

def symbolAt? (v : Vocabulary) (code : Int) : Option String :=
  if code < 0 then none else v.symbols[code.toNat]?

def Declared {v : Vocabulary} (op : Operator v) : Prop :=
  0 ≤ op.code ∧ op.code < v.symbols.length

instance {v : Vocabulary} (op : Operator v) : Decidable op.Declared :=
  inferInstanceAs (Decidable (_ ∧ _))

def symbol {v : Vocabulary} (op : Operator v) : String :=
  match symbolAt? v op.code with
  | some s => s
  | none => v.title ++ "(" ++ toString op.code ++ ")"

def ofSymbol? (v : Vocabulary) (symbol : String) : Option (Operator v) :=
  (v.symbols.idxOf? symbol).map fun i => ⟨i⟩

end Operator

/-- An operation that the machine cannot do: to look up a place that a list does not have, or to ask
for a part of something absent. -/
inductive Crash where
  | outOfRange (index : Int)
  | absentValue
deriving DecidableEq

def Crash.message : Crash → String
  | outOfRange index => "runtime error: index out of range [" ++ toString index ++ "]"
  | absentValue => "runtime error: invalid memory address or nil pointer dereference"

abbrev Constant := Operator .constants

namespace Constant

def truth : Constant := ⟨12⟩

def falsity : Constant := ⟨13⟩

def emptySet : Constant := ⟨14⟩

def emptySeq : Constant := ⟨15⟩

/-- The constant that an identifier names. The empty set and sequence are not named. -/
def ofName? (name : String) : Option Constant :=
  match Operator.ofSymbol? .constants name with
  | some k => if k = emptySet ∨ k = emptySeq then none else some k
  | none => none

end Constant

abbrev UnaryOp := Operator .unary

abbrev BinaryOp := Operator .binary

abbrev TernaryOp := Operator .ternary

abbrev NaryOp := Operator .nary

abbrev QuantifiedOp := Operator .quantified

abbrev Comparison := Operator .comparisons

abbrev Composition := Operator .compositions

/-- The binary operator of a symbol. A comma is an older symbol of the maplet. -/
def BinaryOp.ofSymbol? (symbol : String) : Option BinaryOp :=
  if symbol = "," then some ⟨0⟩ else Operator.ofSymbol? .binary symbol

namespace Comparison

/-- The comparison of a symbol, and whether the symbol negates it. -/
def ofSymbol? (symbol : String) : Option (Comparison × Bool) :=
  match Operator.ofSymbol? .comparisons symbol with
  | some op => some (op, false)
  | none => (Operator.ofSymbol? .negatedComparisons symbol).map fun op => (⟨op.code⟩, true)

/-- The symbol of the negation of a comparison, if there is one. A number behind the last symbol has
none, but nothing can be looked up at a number before the first. -/
def negatedSymbol? (op : Comparison) : Except Crash (Option String) :=
  if op.code < 0 then throw (.outOfRange op.code)
  else pure (Operator.symbolAt? .negatedComparisons op.code)

end Comparison

end BMethod
