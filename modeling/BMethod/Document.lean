import BMethod.Element.Decode
import BMethod.Element.Printer
import BMethod.Goal.Read
import BMethod.Goal.Write

/-!
# Documents of formulas

A document holds a type table and items of one kind: expressions, predicates, goals, substitutions,
or predicates that are lifted to goals. Writing the items of a document again, with one pool of
types, gives its normal form. A normal form is stable when reading and writing it gives it back.
-/

namespace BMethod

inductive ItemKind where
  | expr
  | pred
  | goal
  | subst
  | lift
deriving DecidableEq

inductive Item where
  | expr (x : Expr)
  | pred (p : Pred)
  | goal (g : Goal)
  | subst (s : Subst)

namespace Item

def read (k : ItemKind) (t : Table) (e : Element) : Except Fault Item :=
  match k with
  | .expr => .expr <$> Expr.read t e
  | .pred => .pred <$> Pred.read t e
  | .goal => .goal <$> Goal.read t e
  | .subst => .subst <$> Subst.read t e
  | .lift => (fun p => .goal p.lift) <$> Pred.read t e

def write : Item → Write Element
  | expr x => x.write
  | pred p => p.write
  | goal g => g.write
  | subst s => s.write

def lifted : ItemKind → Item → Item
  | .lift, pred p => goal p.lift
  | _, x => x

end Item

/-- What becomes of an item: it cannot be read, it is not written, or it is written and the pool has
a number of types then. -/
inductive Outcome where
  | unread (f : Fault)
  | unwritten (r : Refusal)
  | written (item : Item) (e : Element) (size : Nat)

namespace Document

def itemElements (root : Element) : List Element :=
  root.children.filter (·.tag ≠ "TypeInfos")

/-- Writes the items that were read, one after the other, with one pool. -/
def writeItems (p : Pool) : List (Except Fault Item) → List Outcome × Pool
  | [] => ([], p)
  | .error f :: items =>
    let (rest, p) := writeItems p items
    (.unread f :: rest, p)
  | .ok item :: items =>
    match item.write.on p with
    | (.ok e, p) =>
      let (rest, q) := writeItems p items
      (.written item e p.size :: rest, q)
    | (.error r, p) =>
      let (rest, q) := writeItems p items
      (.unwritten r :: rest, q)

def writtenElements (outcomes : List Outcome) : List Element :=
  outcomes.filterMap fun
    | .written _ e _ => some e
    | _ => none

def assemble (p : Pool) (es : List Element) : Element :=
  .wrap "Document" (p.declarations :: es)

def ofOutcomes (r : List Outcome × Pool) : Element :=
  assemble r.2 (writtenElements r.1)

/-- Whether reading the text of a document and writing its items again, with the types of its own
table in the pool, gives the same document. -/
def isStable (k : ItemKind) (document : Element) : Except Fault Bool := do
  let root ← Element.decodeString document.toXml
  let t ← Table.read root
  let items ← (itemElements root).mapM (Item.read k t)
  let again := ofOutcomes (writeItems (Pool.empty.addAll t.types) (items.map .ok))
  pure (document.same again)

/-- Reads the items of a document and writes them, starting from a pool. -/
def normalize (k : ItemKind) (t : Table) (p : Pool) (root : Element) : List Outcome × Pool :=
  writeItems p ((itemElements root).map (Item.read k t))

end Document

end BMethod
