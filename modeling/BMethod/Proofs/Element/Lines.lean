import Mathlib
import BMethod.Proofs.Element.Encoding
import BMethod.Proofs.Element.Nesting
import BMethod.Proofs.Xml.Line

/-!
# Lines identify elements

The lines of the elements of a document do not decrease in the order of their start tags. In the
text of an element every start tag is on a line of its own, and it is on this line that the element
is found when the text is read.
-/

namespace BMethod

namespace Element

open Xml (startLines PlainName Faithful)

mutual
/-- The element and all elements inside of it, in the order of their start tags. -/
def preorder : Element → List Element
  | ⟨tag, attrs, text, line, children⟩ =>
    ⟨tag, attrs, text, line, children⟩ :: preorderAll children

/-- The elements and all elements inside of them, in the order of their start tags. -/
def preorderAll : List Element → List Element
  | [] => []
  | e :: es => e.preorder ++ preorderAll es
end

/-- The lines of the element and of all elements inside of it, in the order of their start tags. -/
def lines (e : Element) : List Int :=
  e.preorder.map (·.line)

theorem preorderAll_append (es fs : List Element) :
    preorderAll (es ++ fs) = preorderAll es ++ preorderAll fs := by
  induction es with
  | nil => rfl
  | cons e es ih => rw [List.cons_append, preorderAll, preorderAll, ih, List.append_assoc]

/-! ## Lines of documents -/

mutual
theorem lines_node : ∀ n : Node,
    (preorderAll n.element?.toList).map (·.line) = (startLines n.tokens).map Nat.cast
  | .element line name attrs inside stop => by
    have hinside := lines_nodes inside
    simp only [Node.element?, Option.toList_some, preorderAll, preorder, List.append_nil,
      List.map_cons, hinside, Node.tokens]
    simp [startLines]
  | .text _ | .aside => rfl

theorem lines_nodes : ∀ ns : List Node,
    (preorderAll (Node.elements ns)).map (·.line) = (startLines (Node.tokensAll ns)).map Nat.cast
  | [] => rfl
  | n :: ns => by
    rw [Node.elements, preorderAll_append, List.map_append, lines_node n, lines_nodes ns,
      Node.tokensAll, Xml.startLines_append, List.map_append]
end

/-- The lines of a document that was read begin with one or later, and do not decrease. -/
theorem lines_of_decode {document : List Text.Scalar} {e : Element}
    (h : decode document = .ok e) : (1 :: e.lines).Pairwise (· ≤ ·) := by
  obtain ⟨nodes, line, htokens, hroot⟩ := nodes_of_ofTokens h
  have hlines := lines_nodes nodes
  rw [hroot, preorderAll, preorderAll, List.append_nil] at hlines
  have hstart := Xml.startLines_scanTokens ⟨1, document⟩
  rw [show Xml.scanTokens ⟨1, document⟩ = _ from htokens] at hstart
  have hcast : (1 :: e.lines) = (1 :: startLines (Node.tokensAll nodes)).map Nat.cast := by
    rw [lines, hlines, List.map_cons, Nat.cast_one]
  rw [hcast, List.pairwise_map]
  exact hstart.imp fun h => Int.ofNat_le.2 h

/-! ## Lines of written elements -/

/-- Whether the name of an element follows: end tags, instructions and declarations begin with other
characters after their opening bracket. -/
def startsName : List Char → Bool
  | [] => false
  | c :: _ => Xml.isNameStart c

/-- The start tags in a text that begins on a line, each as its line and the name in it. -/
def startTags (line : Nat) : List Char → List (Int × String)
  | [] => []
  | c :: cs =>
    if c = '\n' then startTags (line + 1) cs
    else if c = '<' ∧ startsName cs = true then
      (line, String.ofList (cs.takeWhile Xml.isNameChar)) :: startTags line cs
    else startTags line cs

/-- The element and all elements inside of it, each as its line and its tag. -/
def headings (e : Element) : List (Int × String) :=
  e.preorder.map fun c => (c.line, c.tag)

/-- Neither a tag nor another line begins in the text. -/
def Inline (cs : List Char) : Prop :=
  '<' ∉ cs ∧ '\n' ∉ cs

theorem Inline.append {cs ds : List Char} (hcs : Inline cs) (hds : Inline ds) :
    Inline (cs ++ ds) := by
  simpa [Inline] using ⟨⟨hcs.1, hds.1⟩, hcs.2, hds.2⟩

theorem inline_escape (s : String) : Inline (Xml.escape s) :=
  ⟨not_mem_escape (.inl rfl) s, not_mem_escape (.inr rfl) s⟩

theorem inline_of_plainName {s : String} (h : PlainName s) : Inline s.toList := by
  have hchars := Xml.isNameChar_of_isName h.1
  refine ⟨fun hmem => ?_, fun hmem => ?_⟩
  all_goals exact absurd (hchars _ hmem) (by decide)

theorem inline_attrMarkup {attrs : List Attr} (h : ∀ a ∈ attrs, Faithful a) :
    Inline (attrMarkup attrs) := by
  induction attrs with
  | nil => simp [attrMarkup, Inline]
  | cons a as ih =>
    obtain ⟨ha, has⟩ := List.forall_mem_cons.1 h
    have hname := inline_of_plainName ha.1
    have hvalue := inline_escape a.value
    have hrest := ih has
    have hsplit : attrMarkup (a :: as) =
        [' '] ++ (a.name.toList ++ (['=', '"'] ++ (Xml.escape a.value ++ ['"']))) ++
          attrMarkup as := by
      simp [attrMarkup]
    rw [hsplit]
    have hchars : ∀ cs ∈ [[' '], ['=', '"'], ['"']], Inline cs := by simp [Inline]
    exact .append (.append (hchars _ (by simp)) (.append hname (.append (hchars _ (by simp))
      (.append hvalue (hchars _ (by simp)))))) hrest

section
variable {line : Nat} {cs rest : List Char}

theorem startTags_inline (h : Inline cs) : startTags line (cs ++ rest) = startTags line rest := by
  induction cs with
  | nil => rfl
  | cons c cs ih =>
    obtain ⟨⟨hless, hlesses⟩, hfeed, hfeeds⟩ : (c ≠ '<' ∧ '<' ∉ cs) ∧ c ≠ '\n' ∧ '\n' ∉ cs := by
      simpa [Inline, eq_comm] using h
    rw [List.cons_append, startTags, if_neg hfeed, if_neg (fun h => hless h.1),
      ih ⟨hlesses, hfeeds⟩]

theorem startTags_lineStart (depth : Nat) :
    startTags line (lineStart depth ++ rest) = startTags (line + 1) rest := by
  have htabs : Inline (List.replicate depth '\t') := by simp [Inline, List.mem_replicate]
  rw [lineStart, List.cons_append, startTags, if_pos rfl, startTags_inline htabs]

theorem startTags_lead (depth : Nat) (text : String) :
    startTags line (lead depth text ++ rest) =
      startTags (line + (lead 0 text).length) rest := by
  rw [lead, lead]
  split_ifs
  · rfl
  · exact startTags_lineStart depth

theorem startTags_stopTag {tag : String} (h : PlainName tag) :
    startTags line (stopTag tag ++ rest) = startTags line rest := by
  have hname := inline_of_plainName h
  have hinside : Inline (['/'] ++ (tag.toList ++ ['>'])) :=
    .append (by simp [Inline]) (.append hname (by simp [Inline]))
  have hopens : startsName (['/'] ++ (tag.toList ++ ['>']) ++ rest) = false := by
    rw [List.append_assoc, List.singleton_append, startsName]
    decide
  have hsplit : stopTag tag ++ rest = '<' :: (['/'] ++ (tag.toList ++ ['>']) ++ rest) := by
    simp [stopTag]
  rw [hsplit, startTags, if_neg (by decide), if_neg (by rw [hopens]; decide),
    startTags_inline hinside]

theorem takeWhile_name {tag : String} {attrs : List Attr} {c : Char} (htag : PlainName tag)
    (hc : Xml.isNameChar c = false) :
    (tag.toList ++ (attrMarkup attrs ++ c :: rest)).takeWhile Xml.isNameChar = tag.toList := by
  rw [List.takeWhile_append_of_pos (Xml.isNameChar_of_isName htag.1)]
  cases attrs with
  | nil => simp [attrMarkup, hc]
  | cons a as =>
    have hspace : Xml.isNameChar ' ' = false := by decide
    simp [attrMarkup, hspace]

theorem startsName_append {tag : String} (h : PlainName tag) (cs : List Char) :
    startsName (tag.toList ++ cs) = true := by
  have hname := h.1
  cases htag : tag.toList with
  | nil =>
    rw [htag] at hname
    cases hname
  | cons c ds =>
    rw [htag] at hname
    exact (Bool.and_eq_true_iff.1 hname).1

theorem startTags_start {tag : String} {attrs : List Attr} {c : Char} (htag : PlainName tag)
    (hattrs : ∀ a ∈ attrs, Faithful a) (hc : Xml.isNameChar c = false) :
    startTags line ('<' :: (tag.toList ++ (attrMarkup attrs ++ c :: rest))) =
      ((line : Int), tag) :: startTags line (c :: rest) := by
  have hinside : Inline (tag.toList ++ attrMarkup attrs) :=
    (inline_of_plainName htag).append (inline_attrMarkup hattrs)
  rw [startTags, if_neg (by decide), if_pos ⟨rfl, startsName_append htag _⟩,
    takeWhile_name htag hc, String.ofList_toList, ← List.append_assoc, startTags_inline hinside]

end

mutual
/-- The start tags in the text of an element are those of the element and of all elements inside of
it, on the lines on which these are found. -/
theorem startTags_source : ∀ {e : Element}, Printable e → ∀ (depth line : Nat) (rest : List Char),
    startTags line (source depth e ++ rest) =
      (e.placed line).headings ++ startTags (line + e.height) rest
  | ⟨tag, attrs, text, l, []⟩, .mk htag hattrs _ _ _, depth, line, rest => by
    have hheading : (placed line ⟨tag, attrs, text, l, []⟩).headings = [((line : Int), tag)] := by
      simp [headings, placed, placedAll, preorder, preorderAll]
    rw [hheading, height, Nat.add_zero, List.singleton_append]
    by_cases hempty : text = ""
    · have hclose : Inline ['/', '>'] := by simp [Inline]
      have hsplit : source depth ⟨tag, attrs, text, l, []⟩ ++ rest =
          '<' :: (tag.toList ++ (attrMarkup attrs ++ '/' :: ('>' :: rest))) := by
        simp [source, hempty]
      rw [hsplit, startTags_start htag hattrs (by decide)]
      exact congrArg _ (startTags_inline hclose)
    · have hclose : Inline (['>'] ++ Xml.escape text) :=
        .append (by simp [Inline]) (inline_escape text)
      have hsplit : source depth ⟨tag, attrs, text, l, []⟩ ++ rest =
          '<' :: (tag.toList ++ (attrMarkup attrs ++ '>' ::
            (Xml.escape text ++ (stopTag tag ++ rest)))) := by
        simp [source, hempty]
      rw [hsplit, startTags_start htag hattrs (by decide)]
      refine congrArg _ ((startTags_inline hclose).trans ?_)
      exact startTags_stopTag htag
  | ⟨tag, attrs, text, l, c :: cs⟩, .mk htag hattrs _ _ hchildren, depth, line, rest => by
    have hsplit : source depth ⟨tag, attrs, text, l, c :: cs⟩ ++ rest =
        '<' :: (tag.toList ++ (attrMarkup attrs ++ '>' :: (lead (depth + 1) text ++
          (Xml.escape text ++ (lineStart (depth + 1) ++ (source (depth + 1) c ++
            (sources (depth + 1) cs ++ (lineStart depth ++ (stopTag tag ++ rest))))))))) := by
      simp [source]
    have hclose : Inline ['>'] := by simp [Inline]
    have hafter : ∀ after : List Char, startTags line ('>' :: after) = startTags line after :=
      fun after => startTags_inline hclose
    -- Nothing in the text of the element begins a tag, so the next ones are those of its children.
    rw [hsplit, startTags_start htag hattrs (by decide), hafter, startTags_lead,
      startTags_inline (inline_escape text), startTags_lineStart,
      startTags_source (hchildren c List.mem_cons_self),
      startTags_sources (fun e he => hchildren e (List.mem_cons_of_mem _ he)),
      startTags_lineStart, startTags_stopTag htag]
    simp [headings, placed, placedAll, preorder, preorderAll, height, Nat.add_assoc]

theorem startTags_sources : ∀ {es : List Element}, (∀ e ∈ es, Printable e) →
    ∀ (depth line : Nat) (rest : List Char), startTags line (sources depth es ++ rest) =
      (preorderAll (placedAll line es)).map (fun c => (c.line, c.tag)) ++
        startTags (line + heights es) rest
  | [], _, depth, line, rest => by
    simp [sources, placedAll, heights, preorderAll]
  | e :: es, h, depth, line, rest => by
    rw [sources, List.append_assoc, List.append_assoc, startTags_lineStart,
      startTags_source (h e List.mem_cons_self),
      startTags_sources (fun e he => h e (List.mem_cons_of_mem _ he))]
    simp [placedAll, heights, preorderAll, headings, Nat.add_assoc]
end

/-! ## Different lines -/

mutual
theorem lines_placed : ∀ (e : Element) (line : Nat), (e.placed line).lines.Pairwise (· < ·) ∧
    ∀ l ∈ (e.placed line).lines, (line : Int) ≤ l ∧ l ≤ line + e.height
  | ⟨tag, attrs, text, l, cs⟩, line => by
    obtain ⟨hincrease, hwithin⟩ := lines_placedAll cs (line + (lead 0 text).length)
    rw [lines, placed, preorder, List.map_cons, List.pairwise_cons, List.forall_mem_cons]
    refine ⟨⟨fun m hm => ?_, hincrease⟩, ⟨le_rfl, ?_⟩, fun m hm => ?_⟩
    · -- What is inside of the element is below its start tag.
      have hm := (hwithin m hm).1
      show (line : Int) < m
      omega
    · show (line : Int) ≤ _
      omega
    · obtain ⟨hlow, hhigh⟩ := hwithin m hm
      cases cs with
      | nil => simp [placedAll, preorderAll] at hm
      | cons c cs =>
        rw [heights] at hhigh
        rw [height]
        constructor <;> omega

theorem lines_placedAll : ∀ (es : List Element) (line : Nat),
    ((preorderAll (placedAll line es)).map (·.line)).Pairwise (· < ·) ∧
      ∀ l ∈ (preorderAll (placedAll line es)).map (·.line),
        (line : Int) < l ∧ l ≤ line + heights es
  | [], line => by
    simp [placedAll, preorderAll]
  | e :: es, line => by
    obtain ⟨hfirst, hin⟩ := lines_placed e (line + 1)
    obtain ⟨hrest, hafter⟩ := lines_placedAll es (line + 1 + e.height)
    rw [placedAll, preorderAll, List.map_append, heights]
    refine ⟨List.pairwise_append.2 ⟨hfirst, hrest, fun m hm n hn => ?_⟩, fun m hm => ?_⟩
    · have hm := (hin m hm).2
      have hn := (hafter n hn).1
      omega
    · rcases List.mem_append.1 hm with hm | hm
      · have hm := hin m hm
        omega
      · have hm := hafter m hm
        omega
end

mutual
theorem lines_placed_add : ∀ (e : Element) (line k : Nat),
    (e.placed (line + k)).lines = (e.placed line).lines.map (· + (k : Int))
  | ⟨tag, attrs, text, l, cs⟩, line, k => by
    have hcs := lines_placedAll_add cs (line + (lead 0 text).length) k
    rw [Nat.add_right_comm] at hcs
    rw [lines, lines, placed, placed, preorder, preorder, List.map_cons, List.map_cons,
      List.map_cons, hcs]
    simp

theorem lines_placedAll_add : ∀ (es : List Element) (line k : Nat),
    (preorderAll (placedAll (line + k) es)).map (·.line) =
      ((preorderAll (placedAll line es)).map (·.line)).map (· + (k : Int))
  | [], line, k => by
    simp [placedAll, preorderAll]
  | e :: es, line, k => by
    have he := lines_placed_add e (line + 1) k
    have hes := lines_placedAll_add es (line + 1 + e.height) k
    have hline : line + k + 1 = line + 1 + k := Nat.add_right_comm line k 1
    have hafter : line + k + 1 + e.height = line + 1 + e.height + k := by omega
    rw [placedAll, placedAll, preorderAll, preorderAll, List.map_append, List.map_append,
      List.map_append, hafter, hline, hes]
    exact congrArg (· ++ _) he
end

theorem startTags_toXml {e : Element} (h : Printable e) :
    startTags 1 e.toXml.toList = (e.placed 1).headings := by
  have hsource := startTags_source h 0 1 []
  rwa [List.append_nil, startTags, List.append_nil, ← toXml_toList] at hsource

theorem startTags_encode {e : Element} (h : Printable e) :
    startTags 1 e.encode.toList = (e.placed 2).headings := by
  have hsplit : e.encode.toList = declaration ++ (source 0 e ++ ['\n']) := by
    rw [encode, String.toList_ofList, markup_eq]
    rfl
  have hdeclaration : ∀ rest, startTags 1 (declaration ++ rest) = startTags 2 rest := by
    intro rest
    rfl
  rw [hsplit, hdeclaration, startTags_source h, startTags, if_pos rfl, startTags, List.append_nil]

/-- Lines identify elements. The lines of a document that was read do not decrease in the order of
the start tags, and are counted from one. In the text of an element each start tag is on another
line, and each element is found on the line of its start tag, whatever ends of lines there are in
its values and texts; in a document all elements are found one line later. -/
theorem lines_identify :
    (∀ document e, decode document = .ok e →
      e.lines.Pairwise (· ≤ ·) ∧ ∀ l ∈ e.lines, 1 ≤ l) ∧
    ∀ e : Element, e.WellFormed → ∃ root root',
      decodeString e.toXml = .ok root ∧ e.same root = true ∧
      root.headings = startTags 1 e.toXml.toList ∧ root.lines.Pairwise (· < ·) ∧
      decodeBytes e.encode.toUTF8.data.toList = .ok root' ∧ e.same root' = true ∧
      root'.headings = startTags 1 e.encode.toList ∧ root'.lines = root.lines.map (· + 1) := by
  refine ⟨fun document e h => ?_, fun e h => ?_⟩
  · obtain ⟨hfirst, hlines⟩ := List.pairwise_cons.1 (lines_of_decode h)
    exact ⟨hlines, hfirst⟩
  · have hprintable := h.printable
    refine ⟨e.placed 1, e.placed 2, decodeString_toXml hprintable, same_placed 1 e,
      (startTags_toXml hprintable).symm, (lines_placed e 1).1, ?_, same_placed 2 e,
      (startTags_encode hprintable).symm, lines_placed_add e 1 1⟩
    rw [decodeBytes_toUTF8]
    exact decodeString_encode hprintable

theorem lines_identify_sample :
    sampleDocument.WellFormed ∧ ∃ root root',
      decodeString sampleDocument.toXml = .ok root ∧
      root.headings = [(1, "doc"), (3, "c"), (4, "d")] ∧ (∀ l ∈ root.lines, 1 ≤ l) ∧
      decodeBytes sampleDocument.encode.toUTF8.data.toList = .ok root' ∧
      root'.headings = [(2, "doc"), (4, "c"), (5, "d")] := by
  have hprintable := sampleDocument_wellFormed.printable
  obtain ⟨hread, hwritten⟩ := lines_identify
  obtain ⟨root, root', hroot, -, hheadings, -, hroot', -, hheadings', -⟩ :=
    hwritten sampleDocument sampleDocument_wellFormed
  refine ⟨sampleDocument_wellFormed, root, root', hroot, ?_, (hread _ _ hroot).2, hroot', ?_⟩
  · rw [hheadings, startTags_toXml hprintable]
    rfl
  · rw [hheadings', startTags_encode hprintable]
    rfl

end Element

end BMethod
