import BMethod.Expr.Write
import BMethod.Obligation.Basic
import BMethod.Text.Integer
import BMethod.Ty.Declaration

/-!
# Writing proof obligations

The type table comes first in a document, although it is complete only when everything else has
been written. Types are numbered in the order in which the document refers to them.
-/

namespace BMethod.Obligations

/-- The number of the type at a place in the types of a set declaration. -/
def placeType (s : SetDeclaration) (e : Element) : Write String := do
  let v := (e.attr? "typref").getD ""
  match (Text.readInt? v).bind (Table.mk s.types).at? with
  | some ty =>
    let n ← Write.ref ty
    pure (toString n)
  | none => throw (.setRef s.elem.tag v s.types.length)

def writeSet (s : SetDeclaration) : Write Element :=
  s.elem.mapRefs (placeType s)

def writeDefineItem : DefineItem → Write Element
  | .pred p => p.write
  | .set s => writeSet s

def writeDefine (d : Define) : Write Element := do
  let items ← Write.all (d.items.map writeDefineItem)
  pure (.node "Define" [⟨"name", d.name⟩] items)

def writeHypothesis (p : Pred) : Write Element := do
  let e ← p.write
  pure (.wrap "Hypothesis" [e])

def writeLocalHyp (h : LocalHyp) : Write Element := do
  let e ← h.pred.write
  pure (.node "Local_Hyp" [⟨"num", toString h.num⟩] [e])

def writeGoal (g : SimpleGoal) : Write Element := do
  let e ← g.goal.write
  pure (.wrap "Simple_Goal" (.ofText "Tag" g.tag ::
    (g.refs.map (fun n => .node "Ref_Hyp" [⟨"num", toString n⟩] []) ++ [.wrap "Goal" [e]])))

def writeObligation (o : Obligation) : Write Element := do
  let hypotheses ← Write.all (o.hypotheses.map writeHypothesis)
  let localHyps ← Write.all (o.localHyps.map writeLocalHyp)
  let goals ← Write.all (o.goals.map writeGoal)
  pure (.wrap "Proof_Obligation" (.ofText "Tag" o.tag ::
    (o.definitions.map (fun n => .node "Definition" [⟨"name", n⟩] []) ++
      (hypotheses ++ (localHyps ++ goals)))))

def writeBody (d : Obligations) : Write (List Element) := do
  let defines ← Write.all (d.defines.map writeDefine)
  let obligations ← Write.all (d.obligations.map writeObligation)
  pure (defines ++ obligations)

def write (d : Obligations) : Except Refusal Element :=
  match d.writeBody.on .empty with
  | (.ok es, p) => .ok (.wrap rootTag (p.declarations :: es))
  | (.error r, _) => .error r

end BMethod.Obligations
