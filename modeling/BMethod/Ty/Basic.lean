import BMethod.Search

/-!
# Types

The types of expressions: five base types, power sets, products and records. Abstract and
enumerated sets have the type of the integers. The fields of a record type are sorted by label.

Types are totally ordered: first by kind, then by their parts from left to right.
-/

namespace BMethod

/-- The kinds of types, in the order in which types are compared. -/
inductive TyKind where
  | integer
  | boolean
  | float
  | real
  | string
  | power
  | product
  | struct
deriving DecidableEq

namespace TyKind

def all : List TyKind :=
  [integer, boolean, float, real, string, power, product, struct]

/-- The number of a kind; no kind has the number zero. -/
def rank : TyKind → Nat
  | integer => 1
  | boolean => 2
  | float => 3
  | real => 4
  | string => 5
  | power => 6
  | product => 7
  | struct => 8

def name : TyKind → String
  | integer => "integer"
  | boolean => "boolean"
  | float => "float"
  | real => "real"
  | string => "string"
  | power => "power"
  | product => "product"
  | struct => "struct"

def nameOfRank (n : Int) : String :=
  match all.find? (fun k => (k.rank : Int) = n) with
  | some k => k.name
  | none => "invalid"

end TyKind

/-- A type. -/
inductive Ty where
  | integer
  | boolean
  | float
  | real
  | string
  | power (elem : Ty)
  | product (lhs rhs : Ty)
  | struct (fields : List (String × Ty))

/-- Puts labelled things in the order of their labels; equal labels keep their order. -/
def sortByLabel {α : Type} (items : List (String × α)) : List (String × α) :=
  items.mergeSort fun a b => decide (a.1 ≤ b.1)

/-- The first label that has occurred before, when `seen` are the labels before the list. -/
def repeatedAfter (seen : List String) : List String → Option String
  | [] => none
  | l :: ls => if l ∈ seen then some l else repeatedAfter (l :: seen) ls

def repeatedLabel? (labels : List String) : Option String :=
  repeatedAfter [] labels

namespace Ty

def ofFields (fields : List (String × Ty)) : Ty :=
  .struct (sortByLabel fields)

def kind : Ty → TyKind
  | integer => .integer
  | boolean => .boolean
  | float => .float
  | real => .real
  | string => .string
  | power _ => .power
  | product _ _ => .product
  | struct _ => .struct

mutual
def text : Ty → String
  | integer => "INTEGER"
  | boolean => "BOOLEAN"
  | float => "FLOAT"
  | real => "REAL"
  | string => "STRING"
  | power elem => "POW(" ++ elem.text ++ ")"
  | product lhs rhs => "(" ++ lhs.text ++ " * " ++ rhs.text ++ ")"
  | struct fields => "rec(" ++ fieldsText fields ++ ")"

def fieldsText : List (String × Ty) → String
  | [] => ""
  | [(label, t)] => label ++ " : " ++ t.text
  | (label, t) :: fields => label ++ " : " ++ t.text ++ ", " ++ fieldsText fields
end

mutual
def compare : Ty → Ty → Ordering
  | power x, power y => x.compare y
  | product x x', product y y' => (x.compare y).then (x'.compare y')
  | struct fs, struct gs => compareFields fs gs
  | x, y => Ord.compare x.kind.rank y.kind.rank

/-- The order of lists of fields: label before type, field by field. -/
def compareFields : List (String × Ty) → List (String × Ty) → Ordering
  | [], [] => .eq
  | [], _ :: _ => .lt
  | _ :: _, [] => .gt
  | (l, x) :: fs, (m, y) :: gs =>
    (Ord.compare l m).then ((x.compare y).then (compareFields fs gs))
end

mutual
def same : Ty → Ty → Bool
  | power x, power y => x.same y
  | product x x', product y y' => x.same y && x'.same y'
  | struct fs, struct gs => sameFields fs gs
  | x, y => x.kind = y.kind

def sameFields : List (String × Ty) → List (String × Ty) → Bool
  | [], [] => true
  | (l, x) :: fs, (m, y) :: gs => l = m && x.same y && sameFields fs gs
  | _, _ => false
end

/-- The type of the field with a label, found by binary search among fields sorted by label. Of
several fields with that label it is the first. -/
def fieldType? (fields : List (String × Ty)) (label : String) : Option Ty :=
  let below i :=
    match fields[i]? with
    | some f => decide (f.1 < label)
    | none => false
  match fields[lowerBound below 0 fields.length]? with
  | some f => if f.1 = label then some f.2 else none
  | none => none

def field? : Ty → String → Option Ty
  | struct fields, label => fieldType? fields label
  | _, _ => none

/-- The types in increasing order; equal types keep their order. -/
def sort (ts : List Ty) : List Ty :=
  ts.mergeSort fun x y => (x.compare y).isLE

end Ty

end BMethod
