import BMethod.Check.Run

/-!
# Summaries

A summary has a line for each file and a line with the totals. On a terminal the verdicts are
coloured.
-/

namespace BMethod.Check

def green : String := "\x1b[32m"

def red : String := "\x1b[31m"

def plain : String := "\x1b[0m"

def verdict (coloured : Bool) (colour word : String) : String :=
  if coloured then colour ++ word ++ plain else word

def reportLine (coloured : Bool) (path : String) (failed : Bool) : String :=
  if failed then verdict coloured red "FAIL" ++ " " ++ path ++ "\n"
  else verdict coloured green "OK" ++ "   " ++ path ++ "\n"

def summaryOf (coloured : Bool) (verdicts : List (String × Bool)) : String :=
  "".intercalate (verdicts.map fun v => reportLine coloured v.1 v.2) ++
    toString verdicts.length ++ " document(s) checked, " ++
    toString (verdicts.countP (·.2)) ++ " failed\n"

def summary (coloured : Bool) (reports : List Report) : String :=
  summaryOf coloured (reports.map fun r => (r.path, r.isFailed))

end BMethod.Check
