import BMethod.Xml.CharData

/-!
# Tags

Start tags with their attributes, and end tags. White space may stand between the parts of a tag,
and attributes need no space between them.
-/

namespace BMethod.Xml

open Text (Scalar)

/-- An attribute of a start tag. -/
structure TagAttr where
  name : QName
  value : String
deriving DecidableEq

/-- A start tag. An element that ends with its start tag is `closed`. -/
structure StartTag where
  name : QName
  attrs : List TagAttr
  closed : Bool
deriving DecidableEq

def scanValue (p : Place) : Scan String :=
  match p.rest with
  | [] => endsEarly p.line
  | .char '"' :: rest => (scanQuoted '"' p.line rest).checked
  | .char '\x27' :: rest => (scanQuoted '\x27' p.line rest).checked
  | _ => .error (p.line, .noQuotedValue)

/-- Reads an attribute: its name, an equals sign and its value. -/
def scanAttr (p : Place) : Scan TagAttr :=
  match scanQName .noAttributeName p with
  | .error e => .error e
  | .ok (name, q) =>
    match q.skipSpace with
    | ⟨line, []⟩ => endsEarly line
    | ⟨line, .char '=' :: rest⟩ =>
      match scanValue (Place.mk line rest).skipSpace with
      | .error e => .error e
      | .ok (value, r) => .ok (⟨name, value⟩, r)
    | ⟨line, _⟩ => .error (line, .noEquals)

theorem length_push_le {u : Scalar} {s : Scan (List Scalar)} {us : List Scalar} {q : Place} {n : Nat}
    (ih : ∀ vs r, s = .ok (vs, r) → r.rest.length ≤ n) (h : s.push u = .ok (us, q)) :
    q.rest.length ≤ n := by
  match s with
  | .ok (vs, r) =>
    simp only [Scan.push, Except.ok.injEq, Prod.mk.injEq] at h
    rw [← h.2]
    exact ih vs r rfl
  | .error e => simp [Scan.push] at h

theorem length_scanQuoted_le {quote : Char} {line : Nat} {us vs : List Scalar} {q : Place}
    (h : scanQuoted quote line us = .ok (vs, q)) : q.rest.length ≤ us.length := by
  fun_induction scanQuoted quote line us generalizing vs q with
  | case1 =>
    simp only [Except.ok.injEq, Prod.mk.injEq] at h
    simp [← h.2]
  | case2 => simp at h
  | case3 line rest c r hr ih =>
    have := length_scanReference_lt hr
    have := length_push_le (fun _ _ => ih) h
    simp only [List.length_cons] at *
    omega
  | case4 => simp at h
  | case5 line rest ih =>
    have := length_push_le (fun _ _ => ih) h
    simp only [List.length_cons] at *
    omega
  | case6 line rest _ ih =>
    have := length_push_le (fun _ _ => ih) h
    simp only [List.length_cons] at *
    omega
  | case7 line rest =>
    simp only [Except.ok.injEq, Prod.mk.injEq] at h
    simp [← h.2]
  | case8 line u rest _ _ _ _ _ ih =>
    have := length_push_le (fun _ _ => ih) h
    simp only [List.length_cons] at *
    omega

theorem length_checked_le {s : Scan (List Scalar)} {v : String} {q : Place} {n : Nat}
    (ih : ∀ vs r, s = .ok (vs, r) → r.rest.length ≤ n) (h : s.checked = .ok (v, q)) :
    q.rest.length ≤ n := by
  match s with
  | .error e => simp [Scan.checked] at h
  | .ok (us, r) =>
    rw [Scan.checked] at h
    split at h
    · simp only [Except.ok.injEq, Prod.mk.injEq] at h
      rw [← h.2]
      exact ih us r rfl
    · simp at h

theorem length_scanValue_le {p q : Place} {v : String} (h : scanValue p = .ok (v, q)) :
    q.rest.length ≤ p.rest.length := by
  rw [scanValue] at h
  split at h
  · simp [endsEarly] at h
  · rename_i rest hrest
    have := length_checked_le (fun _ _ => length_scanQuoted_le) h
    simp only [hrest, List.length_cons]
    omega
  · rename_i rest hrest
    have := length_checked_le (fun _ _ => length_scanQuoted_le) h
    simp only [hrest, List.length_cons]
    omega
  · simp at h

theorem length_scanAttr_lt {p q : Place} {a : TagAttr} (h : scanAttr p = .ok (a, q)) :
    q.rest.length < p.rest.length := by
  rw [scanAttr] at h
  split at h
  · simp at h
  · rename_i name r hr
    have hname := length_scanQName_lt hr
    have hspace := r.length_skipSpace_le
    split at h
    · simp [endsEarly] at h
    · rename_i line rest hrest
      split at h
      · simp at h
      · rename_i value s hs
        have hvalue := length_scanValue_le hs
        have hspace' := (Place.mk line rest).length_skipSpace_le
        simp only [Except.ok.injEq, Prod.mk.injEq] at h
        simp only [hrest, List.length_cons] at hspace
        simp only at hspace'
        rw [← h.2]
        omega
    · simp at h

/-- Reads the attributes of a start tag and its end. The flag says whether the tag ends the element
as well. -/
def scanAttrs (p : Place) : Scan (List TagAttr × Bool) :=
  match p.skipSpace.rest with
  | [] => endsEarly p.skipSpace.line
  | .char '>' :: rest => .ok (([], false), ⟨p.skipSpace.line, rest⟩)
  | .char '/' :: .char '>' :: rest => .ok (([], true), ⟨p.skipSpace.line, rest⟩)
  | [.char '/'] => endsEarly p.skipSpace.line
  | .char '/' :: u :: _ => .error (p.skipSpace.line + lineFeed u, .noEndOfEmptyElement)
  | _ =>
    match _h : scanAttr p.skipSpace with
    | .error e => .error e
    | .ok (a, q) =>
      match scanAttrs q with
      | .error e => .error e
      | .ok ((as, closed), r) => .ok ((a :: as, closed), r)
termination_by p.rest.length
decreasing_by exact Nat.lt_of_lt_of_le (length_scanAttr_lt _h) p.length_skipSpace_le

theorem length_scanAttrs_le {p q : Place} {r : List TagAttr × Bool}
    (h : scanAttrs p = .ok (r, q)) : q.rest.length ≤ p.rest.length := by
  fun_induction scanAttrs p generalizing r q with
  | case1 => simp [endsEarly] at h
  | case2 p rest hrest =>
    have := p.length_skipSpace_le
    simp only [Except.ok.injEq, Prod.mk.injEq] at h
    simp only [hrest, List.length_cons] at this
    rw [← h.2]
    simp only
    omega
  | case3 p rest hrest =>
    have := p.length_skipSpace_le
    simp only [Except.ok.injEq, Prod.mk.injEq] at h
    simp only [hrest, List.length_cons] at this
    rw [← h.2]
    simp only
    omega
  | case4 => simp [endsEarly] at h
  | case5 => simp at h
  | case6 => simp at h
  | case7 => simp at h
  | case8 p a s hs as closed t ht _ _ _ _ _ ih =>
    have hattr := length_scanAttr_lt hs
    have hspace := p.length_skipSpace_le
    have hrest := ih ht
    simp only [Except.ok.injEq, Prod.mk.injEq] at h
    rw [← h.2]
    omega

def scanStart (p : Place) : Scan StartTag :=
  match scanQName .noElementName p with
  | .error e => .error e
  | .ok (name, q) =>
    match scanAttrs q with
    | .error e => .error e
    | .ok ((attrs, closed), r) => .ok (⟨name, attrs, closed⟩, r)

/-- Reads an end tag after its opening bracket and slash. -/
def scanEnd (p : Place) : Scan QName :=
  match scanQName .noEndName p with
  | .error e => .error e
  | .ok (name, q) =>
    match q.skipSpace with
    | ⟨line, []⟩ => endsEarly line
    | ⟨line, .char '>' :: rest⟩ => .ok (name, ⟨line, rest⟩)
    | ⟨line, _⟩ => .error (line, .endTagRemainder name.name)

theorem length_scanStart_lt {p q : Place} {t : StartTag} (h : scanStart p = .ok (t, q)) :
    q.rest.length < p.rest.length := by
  rw [scanStart] at h
  split at h
  · simp at h
  · rename_i name r hr
    have hname := length_scanQName_lt hr
    split at h
    · simp at h
    · rename_i attrs closed s hs
      have hattrs := length_scanAttrs_le hs
      simp only [Except.ok.injEq, Prod.mk.injEq] at h
      rw [← h.2]
      omega

theorem length_scanEnd_lt {p q : Place} {n : QName} (h : scanEnd p = .ok (n, q)) :
    q.rest.length < p.rest.length := by
  rw [scanEnd] at h
  split at h
  · simp at h
  · rename_i name r hr
    have hname := length_scanQName_lt hr
    have hspace := r.length_skipSpace_le
    split at h
    · simp [endsEarly] at h
    · rename_i line rest hrest
      simp only [Except.ok.injEq, Prod.mk.injEq] at h
      simp only [hrest, List.length_cons] at hspace
      rw [← h.2]
      simp only
      omega
    · simp at h

end BMethod.Xml
