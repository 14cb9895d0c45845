import Mathlib
import BMethod.Proofs.Element.Printing

/-!
# The tree that tokens denote

Tokens whose tags match denote the elements between them, at any depth. A document with one such
element on its own is read as this element, and no other document is read. An end tag always finds
the element that it closes.
-/

namespace BMethod

open Xml (Token QName TagAttr TokenStream)

/-! ## Nested tokens -/

/-- What stands between tags: an element with all that is between its two tags, a text, or something
that stands aside. -/
inductive Node where
  | element (line : Nat) (name : QName) (attrs : List TagAttr) (inside : List Node) (stop : Nat)
  | text (s : String)
  | aside

namespace Node

mutual
def tokens : Node → List Token
  | element line name attrs inside stop =>
    .start line name attrs :: (tokensAll inside ++ [.stop stop name])
  | text s => [.text s]
  | aside => [.aside]

def tokensAll : List Node → List Token
  | [] => []
  | n :: ns => n.tokens ++ tokensAll ns
end

/-- The text of the nodes, without that inside of elements. -/
def directText : List Node → String
  | [] => ""
  | text s :: ns => s ++ directText ns
  | element .. :: ns | aside :: ns => directText ns

mutual
/-- The element that a node denotes. Its text is the text directly inside of it, without the white
space at its two ends. -/
def element? : Node → Option Element
  | element line name attrs inside _ =>
    some { tag := name.name
           attrs := attrs.map fun a => ⟨a.name.name, a.value⟩
           text := Text.trim (directText inside)
           line := line
           children := elements inside }
  | text _ | aside => none

def elements : List Node → List Element
  | [] => []
  | n :: ns => n.element?.toList ++ elements ns
end

theorem tokensAll_append (ns ms : List Node) :
    tokensAll (ns ++ ms) = tokensAll ns ++ tokensAll ms := by
  induction ns with
  | nil => rfl
  | cons n ns ih => rw [List.cons_append, tokensAll, tokensAll, ih, List.append_assoc]

theorem elements_append (ns ms : List Node) : elements (ns ++ ms) = elements ns ++ elements ms := by
  induction ns with
  | nil => rfl
  | cons n ns ih => rw [List.cons_append, elements, elements, ih, List.append_assoc]

theorem directText_append (ns ms : List Node) :
    directText (ns ++ ms) = directText ns ++ directText ms := by
  induction ns with
  | nil => simp [directText]
  | cons n ns ih =>
    cases n with
    | element | aside => simpa [directText] using ih
    | text s => simp [directText, ih, String.append_assoc]

end Node

namespace Element

open Node (tokensAll elements directText)

/-! ## What nodes add to a draft -/

def Opened.holding (o : Opened) (ns : List Node) : Opened :=
  { o with text := o.text ++ directText ns, children := o.children ++ elements ns }

@[simp] theorem Opened.holding_nil (o : Opened) : o.holding [] = o := by
  simp [holding, directText, elements]

theorem Opened.holding_append (o : Opened) (ns ms : List Node) :
    o.holding (ns ++ ms) = (o.holding ns).holding ms := by
  simp [holding, Node.directText_append, Node.elements_append, String.append_assoc]

theorem run_element {line stop : Nat} {name : QName} {attrs : List TagAttr} {inside : List Node}
    (hinside : ∀ root o os, (tokensAll inside).foldlM Draft.step ⟨root, o :: os⟩ =
      .ok ⟨root, o.holding inside :: os⟩) {d : Draft} (hd : d.Ready) :
    (Node.element line name attrs inside stop).tokens.foldlM Draft.step d =
      .ok (.attach ((Opened.start line name attrs).holding inside).finish d.root d.stack) := by
  have hstop : Draft.step ⟨d.root, (Opened.start line name attrs).holding inside :: d.stack⟩
      (.stop stop name) =
      .ok (.attach ((Opened.start line name attrs).holding inside).finish d.root d.stack) :=
    step_stop rfl
  rw [Node.tokens, List.foldlM_cons, step_start hd, ok_bind, List.foldlM_append, hinside, ok_bind,
    List.foldlM_cons, hstop, ok_bind]
  rfl

theorem Opened.finish_start (line : Nat) (name : QName) (attrs : List TagAttr) (ns : List Node) :
    ((start line name attrs).holding ns).finish =
      ⟨name.name, attrs.map fun a => ⟨a.name.name, a.value⟩, Text.trim (directText ns), line,
        elements ns⟩ := by
  simp [start, holding, finish]

mutual
theorem run_node : ∀ (n : Node) (root : Option Element) (o : Opened) (os : List Opened),
    n.tokens.foldlM Draft.step ⟨root, o :: os⟩ = .ok ⟨root, o.holding [n] :: os⟩
  | .element line name attrs inside stop, root, o, os => by
    rw [run_element (run_inside inside) (by simp [Draft.Ready]), Draft.attach, Opened.finish_start]
    simp [Opened.holding, directText, elements, Node.element?]
  | .text s, root, o, os => by
    simp [Node.tokens, Draft.step, Opened.holding, directText, elements, Node.element?]
    rfl
  | .aside, root, o, os => by
    simp [Node.tokens, Draft.step, Opened.holding, directText, elements, Node.element?]
    rfl

/-- The tokens of nodes add to the innermost open element what they denote. -/
theorem run_inside : ∀ (ns : List Node) (root : Option Element) (o : Opened) (os : List Opened),
    (tokensAll ns).foldlM Draft.step ⟨root, o :: os⟩ = .ok ⟨root, o.holding ns :: os⟩
  | [], root, o, os => by
    rw [Opened.holding_nil]
    rfl
  | n :: ns, root, o, os => by
    rw [tokensAll, List.foldlM_append, run_node n, ok_bind, run_inside ns, ← Opened.holding_append]
    rfl
end

/-! ## Elements that stand on their own -/

/-- The fault of an element that stands on its own beside another one. -/
def secondRoot (e : Element) : Fault :=
  .foreign ("line " ++ toString e.line ++ ": more than one root element")

/-- The draft that elements that stand on their own give: there may be one of them. -/
def Draft.ofRoots : List Element → Except Fault Draft
  | [] => .ok .empty
  | [e] => .ok ⟨some e, []⟩
  | _ :: e :: _ => .error (secondRoot e)

theorem ofRoots_ne_undecodable (es : List Element) (line : Nat) (problem : Xml.Problem) :
    Draft.ofRoots es ≠ .error (undecodable line problem) := by
  intro h
  rcases es with _ | ⟨e, _ | ⟨e', es⟩⟩ <;> cases h

theorem run_outside (ns : List Node) (root : Option Element) :
    (tokensAll ns).foldlM Draft.step ⟨root, []⟩ = Draft.ofRoots (root.toList ++ elements ns) := by
  induction ns generalizing root with
  | nil =>
    cases root <;> rfl
  | cons n ns ih =>
    rw [tokensAll, List.foldlM_append]
    cases n with
    | text | aside => exact ih root
    | element line name attrs inside stop =>
      cases root with
      | none =>
        rw [run_element (run_inside inside) (by rfl), Opened.finish_start, ok_bind]
        exact ih (some _)
      | some r => rfl

/-! ## The nodes that a draft stands for -/

theorem eq_of_mismatch? {opened closed : QName} (h : mismatch? opened closed = none) :
    opened = closed := by
  obtain ⟨space, name⟩ := opened
  obtain ⟨space', name'⟩ := closed
  unfold mismatch? at h
  split_ifs at h with hname hspace
  simp only [ne_eq, not_not] at hname hspace
  rw [hname, hspace]

/-- An open element and the nodes found inside of it so far. -/
structure Frame where
  line : Nat
  name : QName
  attrs : List TagAttr
  inside : List Node

def Frame.opened (f : Frame) : Opened :=
  (Opened.start f.line f.name f.attrs).holding f.inside

def Frame.tokens (f : Frame) : List Token :=
  .start f.line f.name f.attrs :: tokensAll f.inside

/-- The nodes of a document that is read in part: those outside of elements, and the open elements,
innermost first. -/
structure Progress where
  outside : List Node
  frames : List Frame

namespace Progress

def tokens (p : Progress) : List Token :=
  tokensAll p.outside ++ p.frames.reverse.flatMap Frame.tokens

def draft (p : Progress) : Draft :=
  ⟨(elements p.outside).head?, p.frames.map Frame.opened⟩

/-- At most one element stands on its own, one that is still open included. -/
structure Valid (p : Progress) : Prop where
  single : (elements p.outside).length ≤ 1
  first : p.frames ≠ [] → elements p.outside = []

/-- Nodes inside of the innermost open element, or outside when there is none. -/
def add (p : Progress) (n : Node) : Progress :=
  match p.frames with
  | [] => ⟨p.outside ++ [n], []⟩
  | f :: fs => ⟨p.outside, { f with inside := f.inside ++ [n] } :: fs⟩

theorem tokens_add (p : Progress) (n : Node) : (p.add n).tokens = p.tokens ++ n.tokens := by
  obtain ⟨outside, frames⟩ := p
  cases frames with
  | nil => simp [add, tokens, Node.tokensAll_append, tokensAll]
  | cons f fs => simp [add, tokens, Frame.tokens, Node.tokensAll_append, tokensAll]

theorem opened_inside (f : Frame) (n : Node) :
    Frame.opened { f with inside := f.inside ++ [n] } = f.opened.holding [n] :=
  Opened.holding_append _ _ _

theorem draft_add_of_none (p : Progress) {n : Node} (hn : n.element? = none) :
    (p.add n).draft = match p.draft.stack with
      | [] => p.draft
      | o :: os => ⟨p.draft.root, o.holding [n] :: os⟩ := by
  obtain ⟨outside, frames⟩ := p
  cases frames with
  | nil => simp [add, draft, Node.elements_append, elements, hn]
  | cons f fs => simp [add, draft, opened_inside]

theorem draft_add_of_some {p : Progress} (hp : elements p.outside = []) {n : Node} {e : Element}
    (hn : n.element? = some e) (htext : directText [n] = "") :
    (p.add n).draft = .attach e p.draft.root p.draft.stack := by
  obtain ⟨outside, frames⟩ := p
  replace hp : elements outside = [] := hp
  cases frames with
  | nil => simp [add, draft, Draft.attach, Node.elements_append, hp, elements, hn]
  | cons f fs =>
    simp [add, draft, Draft.attach, opened_inside, Opened.holding, elements, hn, htext]

theorem valid_add {p : Progress} (hp : p.Valid) {n : Node}
    (hn : n.element? = none ∨ elements p.outside = []) : (p.add n).Valid := by
  obtain ⟨outside, frames⟩ := p
  obtain ⟨single, first⟩ := hp
  cases frames with
  | cons f fs => exact ⟨single, fun _ => first (by simp)⟩
  | nil =>
    refine ⟨?_, fun h => absurd rfl h⟩
    have hadd : elements (outside ++ [n]) = elements outside ++ n.element?.toList := by
      simp [Node.elements_append, elements]
    show (elements (outside ++ [n])).length ≤ 1
    rw [hadd]
    rcases hn with hn | hn
    · simpa [hn] using single
    · replace hn : elements outside = [] := hn
      cases h : n.element? <;> simp [hn]

/-- Every token that is read adds a node, opens an element or closes one. -/
theorem step {p : Progress} (hp : p.Valid) {t : Token} {d : Draft}
    (h : p.draft.step t = .ok d) :
    ∃ q : Progress, q.Valid ∧ q.tokens = p.tokens ++ [t] ∧ q.draft = d := by
  cases t with
  | start line name attrs =>
    simp only [Draft.step] at h
    split at h
    · cases h
    · rename_i hready
      cases h
      refine ⟨⟨p.outside, ⟨line, name, attrs, []⟩ :: p.frames⟩, ⟨hp.single, fun _ => ?_⟩, ?_, ?_⟩
      · -- An element starts outside of the others only when there is none yet.
        by_cases hframes : p.frames = []
        · simpa [draft, hframes] using hready
        · exact hp.first hframes
      · simp [tokens, Frame.tokens, tokensAll]
      · simp [draft, Frame.opened]
  | stop line name =>
    obtain ⟨outside, frames⟩ := p
    cases frames with
    | nil => cases h
    | cons f fs =>
      -- The innermost open element becomes a node of the one around it.
      simp only [draft, List.map_cons, Draft.step] at h
      split at h
      · cases h
      · rename_i hmatch
        obtain rfl : f.name = name := eq_of_mismatch? hmatch
        cases h
        have houtside : elements outside = [] := hp.first (by simp)
        have hrest : Valid ⟨outside, fs⟩ := ⟨hp.single, fun _ => houtside⟩
        refine ⟨_, valid_add hrest (n := .element f.line f.name f.attrs f.inside line)
          (.inr houtside), ?_, ?_⟩
        · rw [tokens_add]
          simp [tokens, Frame.tokens, Node.tokens]
        · rw [draft_add_of_some houtside rfl rfl, draft, Frame.opened, Opened.finish_start]
  | text s =>
    refine ⟨p.add (.text s), valid_add hp (.inl rfl), tokens_add _ _, ?_⟩
    rw [draft_add_of_none p rfl]
    generalize p.draft = d' at h
    obtain ⟨root, stack⟩ := d'
    cases stack with
    | nil =>
      cases h
      rfl
    | cons o os =>
      cases h
      simp [Opened.holding, directText, elements, Node.element?]
  | aside =>
    cases h
    refine ⟨p.add .aside, valid_add hp (.inl rfl), tokens_add _ _, ?_⟩
    rw [draft_add_of_none p rfl]
    generalize p.draft = d'
    obtain ⟨root, stack⟩ := d'
    cases stack with
    | nil => rfl
    | cons o os => simp [Opened.holding, directText, elements, Node.element?]

/-- Whatever has been read stands for nodes, as far as it has been read. -/
theorem run {p : Progress} (hp : p.Valid) {ts : List Token} {d : Draft}
    (h : ts.foldlM Draft.step p.draft = .ok d) :
    ∃ q : Progress, q.Valid ∧ q.tokens = p.tokens ++ ts ∧ q.draft = d := by
  induction ts generalizing p with
  | nil =>
    cases h
    exact ⟨p, hp, (List.append_nil _).symm, rfl⟩
  | cons t ts ih =>
    rw [List.foldlM_cons] at h
    obtain ⟨d', hstep, h⟩ := bind_eq_ok.1 h
    obtain ⟨q, hq, htokens, rfl⟩ := step hp hstep
    obtain ⟨r, hr, hrest, hdraft⟩ := ih hq h
    exact ⟨r, hr, by simp [hrest, htokens], hdraft⟩

end Progress

/-! ## Whole documents -/

/-- A document is read only when its tags match and it has one element on its own, and then it is
read as this element. -/
theorem nodes_of_ofTokens {s : TokenStream} {e : Element} (h : ofTokens s = .ok e) :
    ∃ nodes line, s = ⟨tokensAll nodes, .ok line⟩ ∧ elements nodes = [e] := by
  obtain ⟨tokens, ending⟩ := s
  obtain ⟨d, hd, hfinish⟩ := bind_eq_ok.1 h
  obtain ⟨p, hp, htokens, rfl⟩ := Progress.run (p := ⟨[], []⟩) ⟨by simp [elements], by simp⟩ hd
  obtain ⟨outside, frames⟩ := p
  unfold Draft.finish at hfinish
  split at hfinish
  · cases hfinish
  · rename_i line hending
    obtain rfl : ending = .ok line := hending
    split at hfinish
    · rename_i hstack
      obtain rfl : frames = [] := by simpa [Progress.draft] using hstack
      have htokens : tokensAll outside = tokens := by
        simpa [Progress.tokens, tokensAll] using htokens
      refine ⟨outside, line, by rw [htokens], ?_⟩
      split at hfinish
      · rename_i r hroot
        cases hfinish
        obtain ⟨rest, hroots⟩ := List.head?_eq_some_iff.1 hroot
        have hsingle : (elements outside).length ≤ 1 := hp.single
        have hrest : rest = [] := by simpa [hroots] using hsingle
        rw [hroots, hrest]
      · cases hfinish
    · cases hfinish

theorem opened_of_stop {nodes : List Node} {before after : List Token} {stop : Nat} {name : QName}
    {d : Draft} (hsplit : tokensAll nodes = before ++ .stop stop name :: after)
    (hd : before.foldlM Draft.step .empty = .ok d) :
    ∃ o os, d.stack = o :: os ∧ o.name = name := by
  have hrun : (tokensAll nodes).foldlM Draft.step .empty = Draft.ofRoots (elements nodes) :=
    run_outside nodes none
  rw [hsplit, List.foldlM_append, hd, ok_bind, List.foldlM_cons] at hrun
  obtain ⟨root, stack⟩ := d
  cases stack with
  | nil => exact absurd hrun.symm (ofRoots_ne_undecodable _ stop _)
  | cons o os =>
    refine ⟨o, os, rfl, eq_of_mismatch? ?_⟩
    by_contra hne
    obtain ⟨problem, hproblem⟩ := Option.ne_none_iff_exists'.1 hne
    simp only [Draft.step, hproblem] at hrun
    exact absurd hrun.symm (ofRoots_ne_undecodable _ stop problem)

theorem ofTokens_tokensAll (nodes : List Node) (line : Nat) :
    ofTokens ⟨tokensAll nodes, .ok line⟩ = match elements nodes with
      | [] => .error (.foreign "XML document has no root element")
      | [e] => .ok e
      | _ :: e :: _ => .error (secondRoot e) := by
  have hrun : (tokensAll nodes).foldlM Draft.step .empty = Draft.ofRoots (elements nodes) :=
    run_outside nodes none
  rw [ofTokens, hrun]
  generalize elements nodes = es
  rcases es with _ | ⟨e, _ | ⟨e', es⟩⟩ <;> rfl

/-- A document is read as the tree that its tokens denote. When its tags match, exactly one element
has to stand on its own, and this one is the root; without one and with more the document is
refused. Every end tag that is reached finds the element that it closes. Conversely, the tags of
every document that is read match. -/
theorem tree_of_tokens (nodes : List Node) (line : Nat) :
    (ofTokens ⟨tokensAll nodes, .ok line⟩ = match elements nodes with
      | [] => .error (.foreign "XML document has no root element")
      | [e] => .ok e
      | _ :: e :: _ => .error (secondRoot e)) ∧
    (∀ before stop name after d, tokensAll nodes = before ++ .stop stop name :: after →
      before.foldlM Draft.step .empty = .ok d → ∃ o os, d.stack = o :: os ∧ o.name = name) ∧
    ∀ document e, decode document = .ok e → ∃ nodes line,
      Xml.tokens document = ⟨tokensAll nodes, .ok line⟩ ∧ elements nodes = [e] := by
  refine ⟨ofTokens_tokensAll nodes line, ?_, fun document e h => nodes_of_ofTokens h⟩
  intro before stop name after d hsplit hd
  exact opened_of_stop hsplit hd

/-- An element whose text is divided by a child and by a comment, with white space around it. -/
def sampleNodes : List Node :=
  [.aside, .text "\n",
    .element 2 ⟨"p", "a"⟩ [⟨⟨"q", "b"⟩, "1"⟩]
      [.text " x", .aside, .element 2 ⟨"", "c"⟩ [] [.text "y"] 2, .text "z "] 3,
    .text "\n"]

theorem tree_of_tokens_sample :
    ofTokens ⟨tokensAll sampleNodes, .ok 4⟩ =
        .ok ⟨"a", [⟨"b", "1"⟩], "xz", 2, [⟨"c", [], "y", 2, []⟩]⟩ ∧
      ofTokens ⟨tokensAll (sampleNodes ++ sampleNodes), .ok 4⟩ =
        .error (.foreign "line 2: more than one root element") ∧
      ofTokens ⟨tokensAll [.aside], .ok 1⟩ =
        .error (.foreign "XML document has no root element") ∧
      (∃ d o os, ((tokensAll sampleNodes).take 7).foldlM Draft.step .empty = .ok d ∧
        d.stack = o :: os ∧ o.name = ⟨"", "c"⟩) ∧
      ∃ nodes line, Xml.tokens (Text.Scalar.ofString "<a/>") = ⟨tokensAll nodes, .ok line⟩ ∧
        elements nodes = [⟨"a", [], "", 1, []⟩] := by
  obtain ⟨hread, hstop, hdecode⟩ := tree_of_tokens sampleNodes 4
  refine ⟨hread, (tree_of_tokens (sampleNodes ++ sampleNodes) 4).1, (tree_of_tokens [.aside] 1).1,
    ?_, ?_⟩
  · obtain ⟨o, os, hstack, hname⟩ :=
      hstop ((tokensAll sampleNodes).take 7) 2 ⟨"", "c"⟩ _ _ rfl rfl
    exact ⟨_, o, os, rfl, hstack, hname⟩
  · exact hdecode (Text.Scalar.ofString "<a/>") _ (by with_unfolding_all rfl)

end Element

end BMethod
