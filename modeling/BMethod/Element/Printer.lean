import BMethod.Element.Basic
import BMethod.Xml.Character

/-!
# Elements as text

An element is written on lines of its own, indented by a tabulator for each level. An element
without children and text is one empty-element tag; text without children stands between the tags;
text beside children has its own line before them.
-/

namespace BMethod.Element

def attrMarkup (as : List Attr) : List Char :=
  as.flatMap fun a => ' ' :: (a.name.toList ++ '=' :: '"' :: (Xml.escape a.value ++ ['"']))

def endMarkup (tag : String) : List Char :=
  '<' :: '/' :: (tag.toList ++ ['>', '\n'])

mutual
/-- The lines of an element at a depth, with the lines that follow it. -/
def markup (depth : Nat) : Element → List Char → List Char
  | ⟨tag, attrs, text, _, children⟩, rest =>
    let indent := List.replicate depth '\t'
    indent ++ '<' :: (tag.toList ++ (attrMarkup attrs ++
      match children with
      | [] =>
        if text = "" then '/' :: '>' :: '\n' :: rest
        else '>' :: (Xml.escape text ++ (endMarkup tag ++ rest))
      | c :: cs =>
        '>' :: '\n' ::
          ((if text = "" then [] else indent ++ '\t' :: (Xml.escape text ++ ['\n'])) ++
            markup (depth + 1) c (markupAll (depth + 1) cs (indent ++ (endMarkup tag ++ rest))))))

/-- The lines of elements at a depth, in order, with the lines that follow them. -/
def markupAll (depth : Nat) : List Element → List Char → List Char
  | [], rest => rest
  | e :: es, rest => markup depth e (markupAll depth es rest)
end

/-- The text of an element, without the end of its last line. -/
def toXml (e : Element) : String :=
  String.ofList (markup 0 e []).dropLast

/-- The first line of a document, which declares its version and encoding. -/
def declaration : List Char :=
  "<?xml version=\"1.0\" encoding=\"UTF-8\"?>\n".toList

def encode (e : Element) : String :=
  String.ofList (declaration ++ markup 0 e [])

end BMethod.Element
