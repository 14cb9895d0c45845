import BMethod.Ty.Basic

/-!
# Tables and pools of types

A document refers to types by number. A table gives the types of a document that is read; a pool
hands out numbers while a document is written. A pool numbers types in the order in which they are
first seen and gives equal types one number. It finds a type by binary search in an index of its
numbers, ordered by their types.
-/

namespace BMethod

/-- The types of a document, in the order of their numbers. -/
structure Table where
  types : List Ty

namespace Table

def empty : Table :=
  ⟨[]⟩

def size (t : Table) : Nat :=
  t.types.length

def at? (t : Table) (ref : Int) : Option Ty :=
  if ref < 0 then none else t.types[ref.toNat]?

end Table

/-- Types with the numbers that they have been given: the types in the order of their numbers, and
the numbers in the order of their types. -/
structure Pool where
  types : List Ty
  order : List Nat

namespace Pool

def empty : Pool :=
  ⟨[], []⟩

def size (p : Pool) : Nat :=
  p.types.length

/-- How the type at a place of the index compares with a type. -/
def compareAt (p : Pool) (i : Nat) (t : Ty) : Option Ordering :=
  (p.order[i]?).bind fun ref => (p.types[ref]?).map fun u => u.compare t

/-- The first place of the index whose type is not below a type. -/
def search (p : Pool) (t : Ty) : Nat :=
  lowerBound (fun i => p.compareAt i t == some .lt) 0 p.order.length

def lookup? (p : Pool) (t : Ty) : Option Nat :=
  if p.compareAt (p.search t) t == some .eq then p.order[p.search t]? else none

/-- The number of a type, which is added to the pool if it is new. -/
def ref (p : Pool) (t : Ty) : Nat × Pool :=
  match p.lookup? t with
  | some n => (n, p)
  | none => (p.size, ⟨p.types ++ [t], p.order.insertIdx (p.search t) p.size⟩)

def addAll (p : Pool) (ts : List Ty) : Pool :=
  ts.foldl (fun p t => (p.ref t).2) p

def table (p : Pool) : Table :=
  ⟨p.types⟩

end Pool

end BMethod
