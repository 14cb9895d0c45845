import BMethod.Text.Blank
import BMethod.Text.Split

/-!
# Lists of documents on a command line

Documents are given as a list with commas in between, and the option for them can be repeated. White
space around an entry and empty entries do not count.
-/

namespace BMethod.Check

def listEntries (values : String) : List String :=
  ((Text.split ',' values).map Text.trim).filter (· ≠ "")

def addEntries (documents : List String) (values : String) : List String :=
  documents ++ listEntries values

def entriesText (documents : List String) : String :=
  ",".intercalate documents

end BMethod.Check
