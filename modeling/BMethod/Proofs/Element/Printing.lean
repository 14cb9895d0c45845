import Mathlib
import BMethod.Element.Decode
import BMethod.Proofs.Element.Parts
import BMethod.Proofs.Text.Spelling
import BMethod.Proofs.Xml.Tag

/-!
# Written elements are read back

The text of an element is read back as the same element, each start tag on the line on which it
was written, when its names are plain, its values and texts may stand in a document, and its texts
have no white space at their ends.
-/

namespace BMethod.Element

open Xml (units Allowed Layout Faithful PlainName Place TagAttr)
open Text (Scalar)

/-- An element that can be read back from its text. -/
inductive Printable : Element → Prop
  | mk {tag : String} {attrs : List Attr} {text : String} {line : Int} {children : List Element}
      (htag : PlainName tag) (hattrs : ∀ a ∈ attrs, Faithful a) (htext : Allowed text.toList)
      (htrim : Text.trim text = text) (hchildren : ∀ c ∈ children, Printable c) :
      Printable ⟨tag, attrs, text, line, children⟩

theorem Printable.node {tag : String} {attrs : List Attr} {children : List Element}
    (hattrs : ∀ a ∈ attrs, Faithful a) (hchildren : ∀ c ∈ children, Printable c)
    (htag : PlainName tag) : Printable (.node tag attrs children) :=
  .mk htag hattrs (by simp [Allowed]) (by decide) hchildren

theorem Printable.wrap {tag : String} {children : List Element}
    (hchildren : ∀ c ∈ children, Printable c) (htag : PlainName tag) :
    Printable (.wrap tag children) :=
  .node (by simp) hchildren htag

theorem Printable.wrapOne {tag : String} {c : Element} (hc : Printable c)
    (htag : PlainName tag) : Printable (.wrap tag [c]) :=
  .wrap (by simpa using hc) htag

theorem Printable.child {e c : Element} (h : Printable e) (hc : c ∈ e.children) : Printable c := by
  obtain ⟨_, _, _, _, hchildren⟩ := h
  exact hchildren c hc

/-! ## The text between the ends of lines -/

/-- The white space at the start of a line, with the end of the line before it. -/
def lineStart (depth : Nat) : List Char :=
  '\n' :: List.replicate depth '\t'

/-- The text before the children of an element has its own line. -/
def lead (depth : Nat) (text : String) : List Char :=
  if text = "" then [] else lineStart depth

def stopTag (tag : String) : List Char :=
  '<' :: '/' :: (tag.toList ++ ['>'])

mutual
/-- The text of an element from the start of its start tag to the end of its end tag. -/
def source (depth : Nat) : Element → List Char
  | ⟨tag, attrs, text, _, children⟩ =>
    '<' :: (tag.toList ++ Element.attrMarkup attrs ++
      match children with
      | [] => if text = "" then ['/', '>'] else '>' :: (Xml.escape text ++ stopTag tag)
      | c :: cs =>
        '>' :: (lead (depth + 1) text ++ (Xml.escape text ++ lineStart (depth + 1)) ++
          (source (depth + 1) c ++ (sources (depth + 1) cs ++ (lineStart depth ++ stopTag tag)))))

def sources (depth : Nat) : List Element → List Char
  | [] => []
  | e :: es => lineStart depth ++ (source depth e ++ sources depth es)
end

mutual
theorem markup_eq (depth : Nat) (rest : List Char) : ∀ e : Element,
    markup depth e rest = List.replicate depth '\t' ++ (source depth e ++ '\n' :: rest)
  | ⟨tag, attrs, text, line, []⟩ => by
    by_cases htext : text = ""
    · simp [markup, source, htext]
    · simp [markup, source, htext, stopTag, endMarkup]
  | ⟨tag, attrs, text, line, c :: cs⟩ => by
    have hcs := markupAll_eq (depth + 1) (List.replicate depth '\t' ++ (endMarkup tag ++ rest)) cs
    have hc := markup_eq (depth + 1)
      (markupAll (depth + 1) cs (List.replicate depth '\t' ++ (endMarkup tag ++ rest))) c
    simp only [markup, hc, hcs]
    by_cases htext : text = ""
    · simp [source, htext, lead, Xml.escape, lineStart, stopTag, endMarkup]
    · simp [source, htext, lead, lineStart, stopTag, endMarkup, List.replicate_succ']

theorem markupAll_eq (depth : Nat) (rest : List Char) : ∀ es : List Element,
    '\n' :: markupAll depth es rest = sources depth es ++ '\n' :: rest
  | [] => rfl
  | e :: es => by
    have he := markup_eq depth (markupAll depth es rest) e
    have hes := markupAll_eq depth rest es
    simp [markupAll, sources, he, hes, lineStart]
end

theorem toXml_toList (e : Element) : e.toXml.toList = source 0 e := by
  rw [toXml, markup_eq]
  simp

/-! ## Lines -/

mutual
/-- The number of lines of an element after its first. -/
def height : Element → Nat
  | ⟨_, _, text, _, children⟩ =>
    match children with
    | [] => 0
    | c :: cs => (lead 0 text).length + 1 + c.height + heights cs + 1

def heights : List Element → Nat
  | [] => 0
  | e :: es => 1 + e.height + heights es
end

mutual
/-- An element with the lines that it and its descendants have when its text begins on a line. -/
def placed (line : Nat) : Element → Element
  | ⟨tag, attrs, text, _, children⟩ =>
    ⟨tag, attrs, text, line, placedAll (line + (lead 0 text).length) children⟩

/-- Elements with their lines, when the line before them is given. -/
def placedAll (line : Nat) : List Element → List Element
  | [] => []
  | e :: es => e.placed (line + 1) :: placedAll (line + 1 + e.height) es
end

mutual
theorem same_placed : ∀ (line : Nat) (e : Element), e.same (e.placed line) = true
  | line, ⟨tag, attrs, text, _, children⟩ => by
    simp [placed, same, sameAll_placedAll _ children]

theorem sameAll_placedAll : ∀ (line : Nat) (es : List Element),
    sameAll es (placedAll line es) = true
  | _, [] => rfl
  | line, e :: es => by
    simp [placedAll, sameAll, same_placed _ e, sameAll_placedAll _ es]
end

/-! ## White space around texts -/

theorem layout_lineStart (depth : Nat) : Layout (lineStart depth) := by
  intro c hc
  rcases List.mem_cons.1 hc with rfl | hc
  · exact .inl rfl
  · exact .inr (List.eq_of_mem_replicate hc)

theorem layout_lead (depth : Nat) (text : String) : Layout (lead depth text) := by
  rw [lead]
  split
  · simp [Layout]
  · exact layout_lineStart depth

theorem layout_append {cs ds : List Char} (hcs : Layout cs) (hds : Layout ds) :
    Layout (cs ++ ds) := by
  intro c hc
  exact (List.mem_append.1 hc).elim (hcs c) (hds c)

theorem layout_flatMap (es : List Element) (depth : Nat) :
    Layout (es.flatMap fun _ => lineStart depth) := by
  intro c hc
  obtain ⟨_, _, hc⟩ := List.mem_flatMap.1 hc
  exact layout_lineStart depth c hc

theorem count_lineStart (depth : Nat) : (lineStart depth).count '\n' = 1 := by
  simp [lineStart, List.count_replicate]

theorem count_lead (depth : Nat) (text : String) :
    (lead depth text).count '\n' = (lead 0 text).length := by
  rw [lead, lead]
  split
  · rfl
  · rw [count_lineStart]
    rfl

theorem isBlank_of_layout {cs : List Char} (h : Layout cs) : ∀ c ∈ cs, Text.isBlank c = true := by
  intro c hc
  rcases h c hc with rfl | rfl <;> decide

theorem trim_layout {before after : List Char} {s : String} (hbefore : Layout before)
    (hafter : Layout after) :
    Text.trim (String.ofList (before ++ (s.toList ++ after))) = Text.trim s := by
  rw [Text.trim, String.toList_ofList, Text.trimChars_append_left (isBlank_of_layout hbefore),
    Text.trimChars_append_right (isBlank_of_layout hafter), Text.trim]

/-! ## Reading on from a place -/

/-- Reads the rest of a document into what has been read of it. -/
def resume (d : Draft) (p : Place) : Except Fault Element := do
  let d ← (Xml.scanTokens p).tokens.foldlM Draft.step d
  d.finish (Xml.scanTokens p).ending

theorem decode_eq_resume (document : List Scalar) :
    decode document = resume .empty ⟨1, document⟩ := rfl

theorem resume_after {d : Draft} {p q : Place} {ts : List Xml.Token}
    (h : Xml.scanTokens p = (Xml.scanTokens q).after ts) :
    resume d p = ts.foldlM Draft.step d >>= fun d => resume d q := by
  simp [resume, h, Xml.TokenStream.after, List.foldlM_append]

theorem resume_markup {d : Draft} {line : Nat} {us : List Scalar} {ts : List Xml.Token} {q : Place}
    (h : Xml.scanMarkup ⟨line, us⟩ = .ok (ts, q)) :
    resume d ⟨line, .char '<' :: us⟩ = ts.foldlM Draft.step d >>= fun d => resume d q := by
  refine resume_after ?_
  rw [Xml.scanTokens]
  simp only [↓reduceDIte]
  split
  · rename_i e he
    rw [h] at he
    cases he
  · rename_i ts' q' hq
    rw [h] at hq
    cases hq
    rfl

theorem resume_checked {d : Draft} {line : Nat} {u : Scalar} {us : List Scalar} {s : String}
    {q : Place} (hu : u ≠ .char '<')
    (h : (Xml.scanText line (u :: us)).checked = .ok (s, q)) :
    resume d ⟨line, u :: us⟩ = d.step (.text s) >>= fun d => resume d q := by
  have hscan : Xml.scanTokens ⟨line, u :: us⟩ = (Xml.scanTokens q).after [.text s] := by
    rw [Xml.scanTokens]
    simp only [hu, ↓reduceDIte]
    split
    · rename_i e he
      rw [h] at he
      cases he
    · rename_i s' q' hq
      rw [h] at hq
      cases hq
      rfl
  simp [resume_after hscan]

theorem not_mem_escape {d : Char} (hd : d = '<' ∨ d = '\n') (s : String) : d ∉ Xml.escape s := by
  rw [Xml.escape, List.mem_flatMap]
  rintro ⟨c, -, hc⟩
  by_cases heq : d = c
  · subst heq
    rcases hd with rfl | rfl <;> exact absurd hc (by decide)
  · rw [Xml.escapeChar] at hc
    rcases hd with rfl | rfl <;> split_ifs at hc <;> simp [heq] at hc

theorem less_not_mem_layout {cs : List Char} (h : Layout cs) : '<' ∉ cs := by
  intro hmem
  rcases h '<' hmem with h | h <;> cases h

theorem resume_text {root : Option Element} {o : Opened} {os : List Opened} {line : Nat}
    {before after : List Char} {s : String} {rest : List Scalar} (hbefore : Layout before)
    (hs : Allowed s.toList) (hafter : Layout after) (hrest : Xml.AtTag rest) :
    resume ⟨root, o :: os⟩ ⟨line, units (before ++ (Xml.escape s ++ after)) ++ rest⟩ =
      resume
        ⟨root, { o with text := o.text ++ String.ofList (before ++ (s.toList ++ after)) } :: os⟩
        ⟨line + before.count '\n' + after.count '\n', rest⟩ := by
  have hscan : (Xml.scanText line
      (units (before ++ (Xml.escape s ++ after)) ++ rest)).checked = _ :=
    Xml.scanText_run hbefore hs hafter hrest
  cases hrun : before ++ (Xml.escape s ++ after) with
  | nil =>
    -- Nothing is written, so there is no text, and no token for it.
    rw [hrun, Xml.units_nil, List.nil_append, Xml.scanText_atTag hrest] at hscan
    obtain ⟨htext, hline⟩ := Prod.mk.inj (Except.ok.inj hscan)
    rw [← htext, ← hline]
    simp
  | cons c cs =>
    have hless : c ≠ '<' := by
      rintro rfl
      have hmem : '<' ∈ before ++ (Xml.escape s ++ after) := hrun ▸ List.mem_cons_self
      simp [less_not_mem_layout hbefore, less_not_mem_layout hafter,
        not_mem_escape (.inl rfl)] at hmem
    rw [hrun, Xml.units_cons, List.cons_append] at hscan
    rw [Xml.units_cons, List.cons_append, resume_checked (by simpa using hless) hscan]
    rfl

def Draft.Ready (d : Draft) : Prop :=
  (d.stack.isEmpty && d.root.isSome) = false

theorem step_start {d : Draft} {line : Nat} {n : Xml.QName} {as : List TagAttr} (hd : d.Ready) :
    d.step (.start line n as) = .ok { d with stack := .start line n as :: d.stack } := by
  rw [Draft.step, if_neg (by rw [hd]; simp)]
  rfl

theorem step_stop {root : Option Element} {o : Opened} {os : List Opened} {line : Nat}
    {n : Xml.QName} (h : o.name = n) :
    Draft.step ⟨root, o :: os⟩ (.stop line n) = .ok (.attach o.finish root os) := by
  subst h
  simp [Draft.step, mismatch?]
  rfl

theorem start_ofAttr (line : Nat) (tag : String) (attrs : List Attr) :
    Opened.start line ⟨"", tag⟩ (attrs.map .ofAttr) = ⟨⟨"", tag⟩, attrs, line, "", []⟩ := by
  simp [Opened.start, TagAttr.ofAttr, Function.comp_def]

section Tags

variable {line : Nat} {tag : String} {attrs : List Attr} {rest : List Scalar}

theorem resume_start {d : Draft} (hd : d.Ready) (htag : PlainName tag)
    (hattrs : ∀ a ∈ attrs, Faithful a) :
    resume d ⟨line, .char '<' :: (units (tag.toList ++ attrMarkup attrs) ++ .char '>' :: rest)⟩ =
      resume ⟨d.root, ⟨⟨"", tag⟩, attrs, line, "", []⟩ :: d.stack⟩ ⟨line, rest⟩ := by
  have hscan : Xml.scanStart ⟨line, _⟩ = .ok (_, ⟨line, rest⟩) :=
    Xml.scanStart_written htag hattrs (by decide) Xml.scanAttrs_open
  rw [Xml.units_append, List.append_assoc] at hscan ⊢
  rw [resume_markup (Xml.scanMarkup_start htag hscan), Xml.StartTag.tokens]
  simp [step_start hd, start_ofAttr]

theorem resume_closed {d : Draft} (hd : d.Ready) (htag : PlainName tag)
    (hattrs : ∀ a ∈ attrs, Faithful a) :
    resume d ⟨line, .char '<' ::
        (units (tag.toList ++ attrMarkup attrs) ++ .char '/' :: .char '>' :: rest)⟩ =
      resume (.attach (Opened.finish ⟨⟨"", tag⟩, attrs, line, "", []⟩) d.root d.stack)
        ⟨line, rest⟩ := by
  have hscan : Xml.scanStart ⟨line, _⟩ = .ok (_, ⟨line, rest⟩) :=
    Xml.scanStart_written htag hattrs (by decide) Xml.scanAttrs_closed
  rw [Xml.units_append, List.append_assoc] at hscan ⊢
  rw [resume_markup (Xml.scanMarkup_start htag hscan), Xml.StartTag.tokens]
  simp [step_start hd, start_ofAttr, step_stop]

theorem resume_stop {root : Option Element} {o : Opened} {os : List Opened} (htag : PlainName tag)
    (ho : o.name = ⟨"", tag⟩) :
    resume ⟨root, o :: os⟩ ⟨line, units (stopTag tag) ++ rest⟩ =
      resume (.attach o.finish root os) ⟨line, rest⟩ := by
  have heq : units (stopTag tag) ++ rest =
      .char '<' :: .char '/' :: (units tag.toList ++ .char '>' :: rest) := by
    simp [stopTag]
  rw [heq, resume_markup (Xml.scanMarkup_end htag)]
  simp [step_stop ho]

end Tags

/-! ## Reading an element back -/

theorem atTag_source (depth : Nat) (e : Element) (rest : List Scalar) :
    Xml.AtTag (units (source depth e) ++ rest) := by
  obtain ⟨tag, attrs, text, line, children⟩ := e
  unfold source
  exact .inr ⟨_, rfl⟩

theorem atTag_stopTag (tag : String) (rest : List Scalar) :
    Xml.AtTag (units (stopTag tag) ++ rest) :=
  .inr ⟨_, rfl⟩

theorem resume_lineStart {root : Option Element} {o : Opened} {os : List Opened} {line depth : Nat}
    {rest : List Scalar} (hrest : Xml.AtTag rest) :
    resume ⟨root, o :: os⟩ ⟨line, units (lineStart depth) ++ rest⟩ =
      resume ⟨root, { o with text := o.text ++ String.ofList (lineStart depth) } :: os⟩
        ⟨line + 1, rest⟩ := by
  have h : resume ⟨root, o :: os⟩ ⟨line, units ([] ++ (Xml.escape "" ++ lineStart depth)) ++ rest⟩ =
      _ := resume_text (by simp [Layout]) (by simp [Allowed]) (layout_lineStart depth) hrest
  simpa [Xml.escape, count_lineStart] using h

section
variable {depth : Nat} {tag : String} {attrs : List Attr} {text : String} {l : Int} {e : Element}
  {es : List Element} {rest : List Scalar}

theorem units_source_cons : units (source depth ⟨tag, attrs, text, l, e :: es⟩) ++ rest =
    .char '<' :: (units (tag.toList ++ attrMarkup attrs) ++ .char '>' ::
      (units (lead (depth + 1) text ++ (Xml.escape text ++ lineStart (depth + 1))) ++
        (units (source (depth + 1) e) ++ (units (sources (depth + 1) es) ++
          (units (lineStart depth) ++ (units (stopTag tag) ++ rest)))))) := by
  simp [source]

theorem units_sources_cons : units (sources depth (e :: es)) ++ rest =
    units (lineStart depth) ++ (units (source depth e) ++ (units (sources depth es) ++ rest)) := by
  simp [sources]

end

mutual
/-- Reading the text of an element puts the element into the innermost open one. -/
theorem resume_source : ∀ {e : Element}, Printable e → ∀ (depth line : Nat) {d : Draft}
    {rest : List Scalar}, d.Ready → resume d ⟨line, units (source depth e) ++ rest⟩ =
      resume (.attach (e.placed line) d.root d.stack) ⟨line + e.height, rest⟩
  | ⟨tag, attrs, text, l, []⟩, .mk htag hattrs htext htrim _, depth, line, d, rest, hd => by
    -- Without children and text there is one tag only, which also ends the element.
    by_cases hempty : text = ""
    · have hsplit : units (source depth ⟨tag, attrs, text, l, []⟩) ++ rest = .char '<' ::
          (units (tag.toList ++ attrMarkup attrs) ++ .char '/' :: .char '>' :: rest) := by
        simp [source, hempty]
      rw [hsplit, resume_closed hd htag hattrs]
      subst hempty
      rfl
    · have hsplit : units (source depth ⟨tag, attrs, text, l, []⟩) ++ rest = .char '<' ::
          (units (tag.toList ++ attrMarkup attrs) ++ .char '>' ::
            (units ([] ++ (Xml.escape text ++ [])) ++ (units (stopTag tag) ++ rest))) := by
        simp [source, hempty]
      have hnil : Layout [] := by simp [Layout]
      rw [hsplit, resume_start hd htag hattrs, resume_text hnil htext hnil (atTag_stopTag tag rest),
        resume_stop htag rfl]
      simp [Opened.finish, placed, placedAll, height, htrim]
  | ⟨tag, attrs, text, l, c :: cs⟩, .mk htag hattrs htext htrim hchildren, depth, line, d, rest,
      hd => by
    rw [units_source_cons, resume_start hd htag hattrs,
      resume_text (layout_lead _ _) htext (layout_lineStart _) (atTag_source _ c _),
      count_lead, count_lineStart,
      resume_source (hchildren c List.mem_cons_self) _ _ (by simp [Draft.Ready]), Draft.attach,
      resume_sources (fun e he => hchildren e (List.mem_cons_of_mem _ he)),
      resume_lineStart (atTag_stopTag tag rest), resume_stop htag rfl]
    -- The text of the element has collected the white space around its children, which is trimmed.
    have hlayout : Layout (lineStart (depth + 1) ++
        ((cs.flatMap fun _ => lineStart (depth + 1)) ++ lineStart depth)) :=
      layout_append (layout_lineStart _) (layout_append (layout_flatMap cs _) (layout_lineStart _))
    have htext : Text.trim ("" ++ String.ofList (lead (depth + 1) text ++ (text.toList ++
        lineStart (depth + 1))) ++ String.ofList (cs.flatMap fun _ => lineStart (depth + 1)) ++
          String.ofList (lineStart depth)) = text := by
      have hrun := trim_layout (s := text) (layout_lead (depth + 1) text) hlayout
      rw [htrim] at hrun
      simpa [String.append_assoc] using hrun
    simp only [Opened.finish, htext]
    simp [placed, placedAll, height, Nat.add_assoc]

theorem resume_sources : ∀ {es : List Element}, (∀ e ∈ es, Printable e) → ∀ (depth line : Nat)
    {root : Option Element} {o : Opened} {os : List Opened} {rest : List Scalar},
    resume ⟨root, o :: os⟩ ⟨line, units (sources depth es) ++ rest⟩ =
      resume ⟨root, { o with
          text := o.text ++ String.ofList (es.flatMap fun _ => lineStart depth)
          children := o.children ++ placedAll line es } :: os⟩ ⟨line + heights es, rest⟩
  | [], _, depth, line, root, o, os, rest => by
    simp [sources, placedAll, heights]
  | e :: es, h, depth, line, root, o, os, rest => by
    rw [units_sources_cons, resume_lineStart (atTag_source depth e _),
      resume_source (h e List.mem_cons_self) depth (line + 1) (by simp [Draft.Ready]), Draft.attach,
      resume_sources (fun e he => h e (List.mem_cons_of_mem _ he)) depth]
    simp [placedAll, heights, Nat.add_assoc, String.append_assoc]
end

theorem ofString_toXml (e : Element) : Scalar.ofString e.toXml = units (source 0 e) ++ [] := by
  rw [Scalar.ofString, toXml_toList, List.append_nil]
  rfl

/-- The text of an element is read back as the element with its lines. -/
theorem decodeString_toXml {e : Element} (h : Printable e) :
    decodeString e.toXml = .ok (e.placed 1) := by
  rw [decodeString, decode_eq_resume, ofString_toXml, resume_source h 0 1 (by rfl)]
  simp [resume, Xml.scanTokens, Draft.empty, Draft.attach, Draft.finish]
  rfl

end BMethod.Element
