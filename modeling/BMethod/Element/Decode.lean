import BMethod.Element.Basic
import BMethod.Text.Blank
import BMethod.Xml.Token

/-!
# Elements from documents

The tokens of a document build its root element. Elements that are still open are kept on a stack,
each with the text and the children found so far; an end tag closes the innermost one. The text of
an element is all the text directly inside it, without the white space at its two ends.
-/

namespace BMethod.Element

open Xml (Token QName TokenStream)

/-- An element whose end tag is still to come. -/
structure Opened where
  name : QName
  attrs : List Attr
  line : Nat
  text : String
  children : List Element

def Opened.start (line : Nat) (name : QName) (attrs : List Xml.TagAttr) : Opened :=
  { name := name
    attrs := attrs.map fun a => ⟨a.name.name, a.value⟩
    line := line
    text := ""
    children := [] }

def Opened.finish (o : Opened) : Element :=
  { tag := o.name.name
    attrs := o.attrs
    text := Text.trim o.text
    line := o.line
    children := o.children }

/-- A document read in part: the root element once it has ended, and the open
elements, innermost first. -/
structure Draft where
  root : Option Element
  stack : List Opened

def Draft.empty : Draft :=
  ⟨none, []⟩

def undecodable (line : Nat) (problem : Xml.Problem) : Fault :=
  .explained "cannot decode XML document" (.markup line problem)

/-- What is wrong with an end tag for the innermost open element. -/
def mismatch? (opened closed : QName) : Option Xml.Problem :=
  if opened.name ≠ closed.name then some (.mismatched opened.name closed.name)
  else if opened.space ≠ closed.space then
    some (.otherSpace opened.name opened.space closed.space)
  else none

/-- Puts a finished element into the innermost open one, or makes it the root. -/
def Draft.attach (e : Element) (root : Option Element) : List Opened → Draft
  | [] => ⟨some e, []⟩
  | o :: os => ⟨root, { o with children := o.children ++ [e] } :: os⟩

def Draft.step (d : Draft) : Token → Except Fault Draft
  | .start line name attrs =>
    if d.stack.isEmpty && d.root.isSome then
      throw (.foreign ("line " ++ toString line ++ ": more than one root element"))
    else pure { d with stack := .start line name attrs :: d.stack }
  | .stop line name =>
    match d.stack with
    | [] => throw (undecodable line (.unopened name.name))
    | o :: os =>
      match mismatch? o.name name with
      | some problem => throw (undecodable line problem)
      | none => pure (.attach o.finish d.root os)
  | .text s =>
    match d.stack with
    | [] => pure d
    | o :: os => pure { d with stack := { o with text := o.text ++ s } :: os }
  | .aside => pure d

def Draft.finish (d : Draft) : Except (Nat × Xml.Problem) Nat → Except Fault Element
  | .error (line, problem) => throw (undecodable line problem)
  | .ok line =>
    if d.stack.isEmpty then
      match d.root with
      | some e => pure e
      | none => throw (.foreign "XML document has no root element")
    else throw (undecodable line .unexpectedEnd)

def ofTokens (s : TokenStream) : Except Fault Element := do
  let d ← s.tokens.foldlM Draft.step .empty
  d.finish s.ending

def decode (document : List Text.Scalar) : Except Fault Element :=
  ofTokens (Xml.tokens document)

def decodeBytes (bytes : List UInt8) : Except Fault Element :=
  decode (Text.scalars bytes)

def decodeString (s : String) : Except Fault Element :=
  decode (Text.Scalar.ofString s)

end BMethod.Element
