/-!
# Words in any case

Two letters besides the capital ones fold to a small letter of ASCII: the long s and the Kelvin
sign. So a text can be compared with an ASCII word whatever case it is written in.
-/

namespace BMethod.Text

/-- The small ASCII letter that `c` is a form of, or `c` itself. -/
def foldChar (c : Char) : Char :=
  if c = '\u017f' then 's'
  else if c = '\u212a' then 'k'
  else c.toLower

/-- Whether `s` is the ASCII word `word`, case aside. -/
def isWord (word s : String) : Bool :=
  s.toList.map foldChar == word.toList.map foldChar

end BMethod.Text
