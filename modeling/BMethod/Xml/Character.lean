import BMethod.Text.Range

/-!
# Characters of documents

The characters that may stand in a document, and the spelling of characters in text and attribute
values. Markup characters, quotes and the three characters that a reader would change are spelled
by references; a character that may not stand in a document is replaced.
-/

namespace BMethod.Xml

/-- The characters that may stand in a document, directly or by reference. -/
def allowedRanges : List Text.Range :=
  [(0x09, 0x09), (0x0a, 0x0a), (0x0d, 0x0d), (0x20, 0xd7ff), (0xe000, 0xfffd),
   (0x10000, 0x10ffff)]

def isAllowed (c : Char) : Bool :=
  Text.inRanges allowedRanges c

/-- The spelling of one character in text or in an attribute value. -/
def escapeChar (c : Char) : List Char :=
  if c = '"' then ['&', '#', '3', '4', ';']
  else if c = '\x27' then ['&', '#', '3', '9', ';']
  else if c = '&' then ['&', 'a', 'm', 'p', ';']
  else if c = '<' then ['&', 'l', 't', ';']
  else if c = '>' then ['&', 'g', 't', ';']
  else if c = '\t' then ['&', '#', 'x', '9', ';']
  else if c = '\n' then ['&', '#', 'x', 'A', ';']
  else if c = '\r' then ['&', '#', 'x', 'D', ';']
  else if isAllowed c then [c]
  else ['\ufffd']

def escape (s : String) : List Char :=
  s.toList.flatMap escapeChar

end BMethod.Xml
