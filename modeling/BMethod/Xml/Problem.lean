import BMethod.Text.Quoted

/-!
# What can be wrong with a document

Each way in which the text of a document fails to be XML, with its wording. The wording gives the
line up to which the document had been read, except for a declaration that asks for a version or an
encoding that is not supported.
-/

namespace BMethod.Xml

open Text (Scalar)

/-- A reason to refuse the text of a document. -/
inductive Problem where
  | unexpectedEnd
  | unexpectedEndOfCData
  | unescapedCDataEnd
  | unescapedLess
  | badEntity (spelling : List Scalar) (closed : Bool)
  | notUtf8
  | illegalChar (c : Char)
  | badName (spelling : List Scalar)
  | noElementName
  | noEndName
  | noAttributeName
  | noTarget
  | noEquals
  | noQuotedValue
  | noEndOfEmptyElement
  | endTagRemainder (name : String)
  | unopened (name : String)
  | mismatched (opened closed : String)
  | otherSpace (name opened closed : String)
  | dashesInComment
  | noComment
  | noCData
  | unsupportedVersion (version : List Scalar)
  | unsupportedEncoding (encoding : List Scalar)
deriving DecidableEq

namespace Problem

def text : Problem → String
  | unexpectedEnd => "unexpected EOF"
  | unexpectedEndOfCData => "unexpected EOF in CDATA section"
  | unescapedCDataEnd => "unescaped ]]> not in CDATA section"
  | unescapedLess => "unescaped < inside quoted string"
  | badEntity spelling closed =>
    "invalid character entity " ++ Scalar.toText spelling ++ (if closed then "" else " (no semicolon)")
  | notUtf8 => "invalid UTF-8"
  | illegalChar c =>
    "illegal character code U+" ++ String.ofList ((Text.hexDigits 4 c.toNat).map Char.toUpper)
  | badName spelling => "invalid XML name: " ++ Scalar.toText spelling
  | noElementName => "expected element name after <"
  | noEndName => "expected element name after </"
  | noAttributeName => "expected attribute name in element"
  | noTarget => "expected target name after <?"
  | noEquals => "attribute name without = in element"
  | noQuotedValue => "unquoted or missing attribute value in element"
  | noEndOfEmptyElement => "expected /> in element"
  | endTagRemainder name => "invalid characters between </" ++ name ++ " and >"
  | unopened name => "unexpected end element </" ++ name ++ ">"
  | mismatched opened closed => "element <" ++ opened ++ "> closed by </" ++ closed ++ ">"
  | otherSpace name opened closed =>
    "element <" ++ name ++ "> in space " ++ opened ++ " closed by </" ++ name ++ "> in space " ++
      (if closed = "" then "\"\"" else closed)
  | dashesInComment => "invalid sequence \"--\" not allowed in comments"
  | noComment => "invalid sequence <!- not part of <!--"
  | noCData => "invalid <![ sequence"
  | unsupportedVersion version =>
    "xml: unsupported version " ++ Text.quoteScalars version ++ "; only version 1.0 is supported"
  | unsupportedEncoding encoding =>
    "xml: encoding " ++ Text.quoteScalars encoding ++
      " declared but Decoder.CharsetReader is nil"

/-- Whether the text breaks the rules of XML, rather than asking for something unsupported. -/
def isMalformed : Problem → Bool
  | unsupportedVersion _ => false
  | unsupportedEncoding _ => false
  | _ => true

def message (line : Nat) (p : Problem) : String :=
  if p.isMalformed then "XML syntax error on line " ++ toString line ++ ": " ++ p.text else p.text

end Problem

end BMethod.Xml
