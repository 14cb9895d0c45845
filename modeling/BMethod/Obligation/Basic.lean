import BMethod.Element.Basic
import BMethod.Expr.Basic

/-!
# Proof obligations

A document of proof obligations has groups of definitions and the obligations themselves. A group
holds predicates and declarations of sets; the latter are kept as they are, with their types beside
them. An obligation has hypotheses and goals; a goal names by number the local hypotheses it uses.
-/

namespace BMethod

/-- The declaration of a set, as it appears in a document. The references to types in it are places
in the list of its types, in document order. -/
structure SetDeclaration where
  elem : Element
  types : List Ty

/-- An entry of a group of definitions. -/
inductive DefineItem where
  | pred (p : Pred)
  | set (s : SetDeclaration)

/-- A named group of definitions. -/
structure Define where
  name : String
  items : List DefineItem

/-- A hypothesis that goals refer to by its number. -/
structure LocalHyp where
  num : Int
  pred : Pred

/-- A predicate to prove, with the numbers of the local hypotheses that may be used. -/
structure SimpleGoal where
  tag : String
  refs : List Int
  goal : Pred

structure Obligation where
  tag : String
  definitions : List String
  hypotheses : List Pred
  localHyps : List LocalHyp
  goals : List SimpleGoal

structure Obligations where
  defines : List Define
  obligations : List Obligation

def Obligations.rootTag : String :=
  "Proof_Obligations"

def Obligation.localHyp? (o : Obligation) (num : Int) : Option Pred :=
  (o.localHyps.find? (·.num = num)).map (·.pred)

mutual
/-- Replaces the references to types in an element and below it, in document order. -/
def Element.mapRefs {m : Type → Type} [Monad m] (f : Element → m String) : Element → m Element
  | ⟨tag, attrs, text, line, children⟩ => do
    let e : Element := ⟨tag, attrs, text, line, []⟩
    let attrs ← if (e.attr? "typref").isSome then (setAttr "typref" · attrs) <$> f e else pure attrs
    let children ← Element.mapRefsAll f children
    pure ⟨tag, attrs, text, line, children⟩

/-- Replaces the references to types in elements and below them, in document order. -/
def Element.mapRefsAll {m : Type → Type} [Monad m] (f : Element → m String) :
    List Element → m (List Element)
  | [] => pure []
  | e :: es => do
    let e ← e.mapRefs f
    let es ← Element.mapRefsAll f es
    pure (e :: es)
end

end BMethod
