import BMethod.Yaml.Token

/-!
# Values of configuration files

A value is a scalar, a list or a mapping. Lists and mappings are written by indentation or in
brackets. A place where a value could stand and none does holds the empty plain scalar, which is
nothing. Only the first document of a file counts.
-/

namespace BMethod.Yaml

inductive Value where
  | scalar (s : Scalar)
  | list (items : List Value)
  | map (entries : List (Value × Value))

namespace Value

def nothing : Value :=
  .scalar ⟨"", false⟩

def isNothing (s : Scalar) : Bool :=
  !s.quoted && s.text ∈ ["", "~", "null", "Null", "NULL"]

def text? : Value → Option String
  | .scalar s => some s.text
  | _ => none

end Value

/-! ## Reading -/

/-- Whether there is no value between a key or dash and a token. -/
def endsBlockValue : Token → Bool
  | .key | .value | .blockEnd => true
  | _ => false

/-- Whether there is no value in brackets before a token. -/
def endsFlowValue (close : Token) (t : Token) : Bool :=
  t = .comma || t = close

mutual
/-- Reads a value. Inside brackets, indentation starts none; after a key, a dash does. -/
def readValue (block afterKey : Bool) : Nat → List Token → Option (Value × List Token)
  | 0, _ => none
  | _, [] => none
  | bound + 1, t :: ts =>
    match t with
    | .scalar s => some (.scalar s, ts)
    | .openList => (readItems true bound ts).map fun (items, rest) => (.list items, rest)
    | .openMap => (readFields true bound ts).map fun (fields, rest) => (.map fields, rest)
    | .listStart =>
      if block then (readEntries bound ts).map fun (items, rest) => (.list items, rest) else none
    | .mapStart =>
      if block then (readPairs bound ts).map fun (pairs, rest) => (.map pairs, rest) else none
    | .entry =>
      if afterKey then
        (readLevelEntries bound (t :: ts)).map fun (items, rest) => (.list items, rest)
      else none
    | _ => none

/-- Reads a value that may be missing, in front of a token that shows it. -/
def readOptional (missing : Token → Bool) (block afterKey : Bool) :
    Nat → List Token → Option (Value × List Token)
  | 0, _ => none
  | _, [] => none
  | bound + 1, t :: ts =>
    if missing t then some (.nothing, t :: ts) else readValue block afterKey bound (t :: ts)

/-- Reads the value of an entry, if there is a colon before it. -/
def readFieldValue (missing : Token → Bool) (block : Bool) :
    Nat → List Token → Option (Value × List Token)
  | 0, _ => none
  | _, [] => none
  | bound + 1, t :: ts =>
    if t = .value then readOptional missing block block bound ts else some (.nothing, t :: ts)

/-- Reads the entries of a list by indentation, up to its end. -/
def readEntries : Nat → List Token → Option (List Value × List Token)
  | 0, _ => none
  | _, [] => none
  | bound + 1, t :: ts =>
    match t with
    | .entry => do
      let (v, rest) ← readOptional (fun t => t = .entry || t = .blockEnd) true false bound ts
      let (vs, rest) ← readEntries bound rest
      pure (v :: vs, rest)
    | .blockEnd => some ([], ts)
    | _ => none

/-- Reads the entries of a list whose dashes stand at the column of the key before it. -/
def readLevelEntries : Nat → List Token → Option (List Value × List Token)
  | 0, _ => none
  | _, [] => none
  | bound + 1, t :: ts =>
    if t = .entry then do
      let (v, rest) ← readOptional (fun t => t = .entry || endsBlockValue t) true false bound ts
      let (vs, rest) ← readLevelEntries bound rest
      pure (v :: vs, rest)
    else some ([], t :: ts)

/-- Reads the entries of a mapping by indentation, up to its end. -/
def readPairs : Nat → List Token → Option (List (Value × Value) × List Token)
  | 0, _ => none
  | _, [] => none
  | bound + 1, t :: ts =>
    match t with
    | .key => do
      let (k, rest) ← readOptional endsBlockValue true true bound ts
      let (v, rest) ← readFieldValue endsBlockValue true bound rest
      let (vs, rest) ← readPairs bound rest
      pure ((k, v) :: vs, rest)
    | .blockEnd => some ([], ts)
    | _ => none

/-- Reads the items of a list in brackets, up to the bracket that closes it. A comma stands before
each item but the first. An item with a key is a mapping with one entry; if the key is missing, what
follows its mark is skipped. -/
def readItems (isFirst : Bool) : Nat → List Token → Option (List Value × List Token)
  | 0, _ => none
  | _, [] => none
  | bound + 1, t :: ts =>
    if t = .closeList then some ([], ts)
    else
      match if isFirst then some (t :: ts) else if t = .comma then some ts else none with
      | none | some [] => none
      | some (.closeList :: rest) => some ([], rest)
      | some (.key :: rest) => do
        let (k, rest) ←
          match rest with
          | .value :: rest | .comma :: rest | .closeList :: rest => some (.nothing, rest)
          | rest => readValue false false bound rest
        let (v, rest) ← readFieldValue (endsFlowValue .closeList) false bound rest
        let (vs, rest) ← readItems false bound rest
        pure (.map [(k, v)] :: vs, rest)
      | some rest => do
        let (v, rest) ← readValue false false bound rest
        let (vs, rest) ← readItems false bound rest
        pure (v :: vs, rest)

/-- Reads the entries of a mapping in brackets, up to the bracket that closes it. A comma stands
before each entry but the first. A value without a key is a key without a value. -/
def readFields (isFirst : Bool) : Nat → List Token → Option (List (Value × Value) × List Token)
  | 0, _ => none
  | _, [] => none
  | bound + 1, t :: ts =>
    if t = .closeMap then some ([], ts)
    else
      match if isFirst then some (t :: ts) else if t = .comma then some ts else none with
      | none | some [] => none
      | some (.closeMap :: rest) => some ([], rest)
      | some (.key :: rest) => do
        let (k, rest) ←
          readOptional (fun t => t = .value || endsFlowValue .closeMap t) false false bound rest
        let (v, rest) ← readFieldValue (endsFlowValue .closeMap) false bound rest
        let (vs, rest) ← readFields false bound rest
        pure ((k, v) :: vs, rest)
      | some rest => do
        let (k, rest) ← readValue false false bound rest
        let (vs, rest) ← readFields false bound rest
        pure ((k, .nothing) :: vs, rest)
end

/-- Reads the value of a document, which may be missing after the mark that starts it. -/
def readDocument (bound : Nat) : List Token → Option (Value × List Token)
  | .finish :: ts => some (.nothing, .finish :: ts)
  | .documentStart :: ts =>
    readOptional (fun t => t = .documentStart || t = .documentEnd || t = .finish) true false bound ts
  | ts => readValue true false bound ts

/-- Reads the first document of a file, unless it is no value. What follows the document has to be a
token. A reader takes a token at least with every third step. -/
def Value.read? (text : String) : Option Value :=
  let ts := tokens text
  match readDocument (3 * ts.length + 3) ts with
  | some (v, _ :: _) => some v
  | _ => none

end BMethod.Yaml
