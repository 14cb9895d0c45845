import BMethod.Element.Basic
import BMethod.Expr.Basic
import BMethod.Ty.Pool

/-!
# Writing with a pool of types

A writer hands out numbers for the types it meets, in the order in which it meets them. It refuses
trees that no document can hold. The types met before a refusal stay in the pool. A crash of the
machine ends the writing in the same way.
-/

namespace BMethod

/-- A reason not to write a tree. -/
inductive Refusal where
  | name (name : VarName)
  | tag (tag : String)
  | absentExpression
  | absentFormula
  | absentSubstitution
  | setRef (tag value : String) (size : Nat)
  | crash (c : Crash)
deriving DecidableEq

namespace Refusal

def text : Refusal → String
  | name v => "cannot write " ++ v.kind.text ++ " variable " ++ v.stem
  | tag t => "provenance tag " ++ Text.quote t ++ " cannot be written"
  | absentExpression => "cannot write expression <nil>"
  | absentFormula => "cannot write formula <nil>"
  | absentSubstitution => "cannot write substitution <nil>"
  | setRef t value size =>
    "set " ++ t ++ ": typref " ++ Text.quote value ++ " is not an index in " ++ toString size ++
      " types"
  | crash c => c.message

/-- A report of an internal error: a fixed line, and the first line of a text. -/
def report (text : String) : String :=
  "bxml internal error. This is a bug in bxml. Please report it. Error:\n" ++
    String.ofList (text.toList.takeWhile (· != '\n'))

/-- The report of a refusal. A crash is no internal error and has its own words. -/
def message : Refusal → String
  | crash c => c.message
  | r => report r.text

end Refusal

/-- An action that writes: it changes the pool, and gives a result or refuses. -/
abbrev Write (α : Type) := ExceptT Refusal (StateM Pool) α

namespace Write

/-- The result of an action on a pool, and the pool after it. -/
def on {α : Type} (w : Write α) (p : Pool) : Except Refusal α × Pool :=
  StateT.run (ExceptT.run w) p

def ref (t : Ty) : Write Nat := do
  let p ← get
  set (p.ref t).2
  pure (p.ref t).1

/-- The attribute that refers to a type. -/
def typeRef (t : Ty) : Write Attr := do
  let n ← ref t
  pure ⟨"typref", toString n⟩

def all {α : Type} : List (Write α) → Write (List α)
  | [] => pure []
  | w :: ws => do
    let a ← w
    let as ← all ws
    pure (a :: as)

/-- Runs labelled actions in the order of their labels. -/
def byLabel {α : Type} (ws : List (String × Write α)) : Write (List α) :=
  all ((sortByLabel ws).map (·.2))

/-- A tag can be written in a list of tags unless it is empty or has a comma. -/
def isTag (tag : String) : Bool :=
  tag ≠ "" && !tag.toList.contains ','

/-- The attribute for the tags of an expression, if it has any. -/
def tagAttrs (tags : List String) : Write (List Attr) :=
  match tags.find? (!isTag ·) with
  | some tag => throw (.tag tag)
  | none => pure (if tags.isEmpty then [] else [⟨"tag", ",".intercalate tags⟩])

/-- The attributes of an expression: its own, then its type, then its tags. -/
def infoAttrs (info : Info) (own : List Attr) : Write (List Attr) := do
  let r ← typeRef info.ty
  let tags ← tagAttrs info.tags
  pure (own ++ r :: tags)

def varAttrs (name : VarName) : Write (String × List Attr) :=
  match name.kind with
  | .plain => pure ("Id", [⟨"value", name.stem⟩])
  | .suffixed => pure ("Id", [⟨"value", name.stem⟩, ⟨"suffix", toString name.suffix⟩])
  | .fresh => pure ("Fresh_Id", [⟨"ref", name.stem⟩])
  | _ => throw (.name name)

def typedVar (v : TypedVar) : Write Element := do
  let (tag, attrs) ← varAttrs v.name
  let r ← typeRef v.ty
  pure (.node tag (attrs ++ [r]) [])

def typedVars (tag : String) (vars : List TypedVar) : Write Element := do
  let es ← all (vars.map typedVar)
  pure (.wrap tag es)

def leaf (tag : String) (info : Info) (own : List Attr) : Write Element := do
  let attrs ← infoAttrs info own
  pure (.node tag attrs [])

/-- The element of a constant. Truth, falsity and the empty set and sequence have their own form. -/
def constant (info : Info) (kind : Constant) : Write Element :=
  if kind = .emptySet then leaf "EmptySet" info []
  else if kind = .emptySeq then leaf "EmptySeq" info []
  else if kind = .truth then leaf "Boolean_Literal" info [⟨"value", "TRUE"⟩]
  else if kind = .falsity then leaf "Boolean_Literal" info [⟨"value", "FALSE"⟩]
  else leaf "Id" info [⟨"value", kind.symbol⟩]

/-- The symbol of the negation of a comparison, if there is one. -/
def negatedSymbol? (op : Comparison) : Write (Option String) :=
  match op.negatedSymbol? with
  | .ok symbol => pure symbol
  | .error c => throw (.crash c)

/-- The element of a negated comparison: one comparison where the negation has a symbol. -/
def negation (op : Comparison) (negated : Option String) (x y : Element) : Element :=
  match negated with
  | some symbol => .node "Exp_Comparison" [⟨"op", symbol⟩] [x, y]
  | none =>
    .node "Unary_Pred" [⟨"op", "not"⟩] [.node "Exp_Comparison" [⟨"op", op.symbol⟩] [x, y]]

def ident (info : Info) (name : VarName) : Write Element := do
  let (tag, attrs) ← varAttrs name
  leaf tag info attrs

end Write

end BMethod
