import BMethod.Ty.Basic

/-!
# Variables

The names of variables. A name is plain, carries a numeric suffix, or is fresh, that is, made while
obligations were generated. Temporary names are internal to a tool and cannot be written.
-/

namespace BMethod

/-- The kind of a name. A number that stands for none of the four kinds is kept. -/
inductive VarKind where
  | plain
  | suffixed
  | fresh
  | temp
  | other (code : Int)
deriving DecidableEq

namespace VarKind

def ofCode (code : Int) : VarKind :=
  if code = 0 then plain
  else if code = 1 then suffixed
  else if code = 2 then fresh
  else if code = 3 then temp
  else other code

def text : VarKind → String
  | plain => "plain"
  | suffixed => "suffixed"
  | fresh => "fresh"
  | temp => "temp"
  | other code => "VarKind(" ++ toString code ++ ")"

end VarKind

structure VarName where
  kind : VarKind
  stem : String
  suffix : Int
deriving DecidableEq

namespace VarName

def plain (stem : String) : VarName :=
  ⟨.plain, stem, 0⟩

/-- A name with a suffix; the suffix zero is no suffix. -/
def suffixed (stem : String) (suffix : Int) : VarName :=
  if suffix = 0 then plain stem else ⟨.suffixed, stem, suffix⟩

def fresh (stem : String) : VarName :=
  ⟨.fresh, stem, 0⟩

def temp (stem : String) : VarName :=
  ⟨.temp, stem, 0⟩

def text (v : VarName) : String :=
  match v.kind with
  | .suffixed => v.stem ++ "$" ++ toString v.suffix
  | .fresh => "fresh$" ++ v.stem
  | .temp => "tmp$" ++ v.stem
  | _ => v.stem

/-- For each name of a list, the place at which it first occurs. -/
def firstPlaces (names : List VarName) : List Nat :=
  names.map (names.idxOf ·)

end VarName

structure TypedVar where
  name : VarName
  ty : Ty

def TypedVar.text (v : TypedVar) : String :=
  v.name.text ++ " : " ++ v.ty.text

end BMethod
