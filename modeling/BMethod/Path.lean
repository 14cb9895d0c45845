import BMethod.Text.Split

/-!
# File paths

Paths are names with slashes between them. A path is clean when it has no empty names, no names for
the folder itself, and names for the parent folder only at the start of a path that is not absolute.
-/

namespace BMethod.Path

def isAbsolute (path : String) : Bool :=
  path.toList.head? == some '/'

/-- Goes on by one name from the folder that the names in `stack` lead to, last name first. At the
root, the parent folder is the root again. -/
def enter (absolute : Bool) (stack : List String) (name : String) : List String :=
  if name = "" ∨ name = "." then stack
  else if name = ".." then
    match stack with
    | [] => if absolute then [] else [".."]
    | top :: below => if top = ".." then ".." :: stack else below
  else name :: stack

/-- The names of a clean path to the same place. -/
def cleanNames (path : String) : List String :=
  ((Text.split '/' path).foldl (enter (isAbsolute path)) []).reverse

def clean (path : String) : String :=
  let names := "/".intercalate (cleanNames path)
  if isAbsolute path then "/" ++ names
  else if names = "" then "."
  else names

/-- The clean path to a place in a folder. Parts that are empty do not count. -/
def join (folder path : String) : String :=
  if folder ≠ "" then clean (folder ++ "/" ++ path)
  else if path ≠ "" then clean path
  else ""

/-- The last name of a path; slashes after it do not count. -/
def base (path : String) : String :=
  if path = "" then "."
  else ((Text.split '/' path).filter (· ≠ "")).getLast?.getD "/"

/-- Whether a path leads to a folder whatever there is, because it does not end in a name. -/
def isFolder (path : String) : Bool :=
  base path = "." || base path = ".." || base path = "/"

/-- The clean path to the folder of a path: all up to its last slash. -/
def folder (path : String) : String :=
  clean (String.ofList (path.toList.reverse.dropWhile (· != '/')).reverse)

/-- A path seen from a folder, unless it is absolute. -/
def within (folder path : String) : String :=
  if isAbsolute path then path else join folder path

end BMethod.Path
