import Mathlib
import BMethod.Proofs.Element.Clean
import BMethod.Proofs.Element.Encoding

/-!
# Documents that are written again

What is read from a document keeps of every name the part without its name space. That part need not
be a name: it may begin with a digit, a hyphen or a full stop. A document that was read is accepted
again after it was written, and is the same, exactly when these parts are names.
-/

namespace BMethod.Xml

open Text (Scalar)

/-! ## Names without their name space -/

/-- What is left of a name without its name space: characters of names, and no colon divides
them. -/
structure LocalName (s : String) : Prop where
  ne_nil : s.toList ≠ []
  chars : ∀ c ∈ s.toList, isNameChar c = true
  undivided : QName.ofChars? s.toList = some ⟨"", s⟩

theorem LocalName.plain {s : String} (h : LocalName s) (hname : isName s.toList = true) :
    PlainName s :=
  ⟨hname, h.undivided⟩

theorem not_mem_of_divided {cs : List Char} (hcount : cs.count ':' ≤ 1) :
    ':' ∉ (cs.dropWhile (· != ':')).drop 1 := by
  have hsplit := congrArg (List.count ':')
    (List.takeWhile_append_dropWhile (p := (· != ':')) (l := cs))
  rw [List.count_append] at hsplit
  cases hdrop : cs.dropWhile (· != ':') with
  | nil => simp
  | cons c rest =>
    have hc : c = ':' := by
      have := List.head_dropWhile_not (· != ':') (l := cs) (by simp [hdrop])
      simpa [hdrop] using this
    rw [hdrop, hc, List.count_cons_self] at hsplit
    rw [List.drop_one, List.tail_cons]
    exact List.count_eq_zero.1 (by omega)

theorem localName_of_ofChars? {cs : List Char} {n : QName} (hcs : isName cs = true)
    (h : QName.ofChars? cs = some n) : LocalName n.name := by
  have hchars := isNameChar_of_isName hcs
  have hundivided := h
  unfold QName.ofChars? at h
  split at h
  · cases h
  · rename_i hcount
    dsimp only at h
    split at h
    · cases h
      refine ⟨?_, ?_, ?_⟩
      all_goals dsimp only; rw [String.toList_ofList]
      · rintro rfl
        cases hcs
      · exact hchars
      · exact hundivided
    · rename_i hparts
      cases h
      refine ⟨?_, ?_, ?_⟩
      all_goals dsimp only; rw [String.toList_ofList]
      · intro hnil
        simp [hnil] at hparts
      · intro c hc
        exact hchars c ((List.dropWhile_sublist _).subset (List.mem_of_mem_drop hc))
      · exact ofChars?_of_not_mem (not_mem_of_divided (by omega))

/-- A name that is read is a name, and is spelled by all units that could be in it. -/
theorem of_scanName {absent : Problem} {p q : Place} {cs : List Char}
    (h : scanName absent p = .ok (cs, q)) :
    isName cs = true ∧ chars? (p.rest.takeWhile isNameUnit) = some cs := by
  unfold scanName at h
  dsimp only at h
  split at h
  · cases h
  · split at h
    · cases h
    · split at h
      · rename_i ds hds
        cases h
        unfold nameOf? at hds
        split at hds
        · rename_i es hes
          split at hds
          · rename_i hname
            cases hds
            exact ⟨hname, hes⟩
          · cases hds
        · cases hds
      · cases h

theorem localName_of_scanQName {absent : Problem} {p q : Place} {n : QName}
    (h : scanQName absent p = .ok (n, q)) : LocalName n.name := by
  unfold scanQName at h
  split at h
  · cases h
  · rename_i cs r hcs
    split at h
    · rename_i m hm
      cases h
      exact localName_of_ofChars? (of_scanName hcs).1 hm
    · cases h

/-! ## Names in start tags -/

theorem localName_of_scanAttr {p q : Place} {a : TagAttr} (h : scanAttr p = .ok (a, q)) :
    LocalName a.name.name := by
  unfold scanAttr at h
  split at h
  · cases h
  · rename_i name r hname
    split at h
    · cases h
    · split at h
      · cases h
      · cases h
        exact localName_of_scanQName hname
    · cases h

theorem localName_of_scanAttrs {p q : Place} {as : List TagAttr} {closed : Bool}
    (h : scanAttrs p = .ok ((as, closed), q)) : ∀ a ∈ as, LocalName a.name.name := by
  fun_induction scanAttrs p generalizing as closed q with
  | case1 | case4 | case5 | case6 | case7 => cases h
  | case2 | case3 =>
    cases h
    simp
  | case8 p a s ha bs closed r hbs _ _ _ _ _ ih =>
    cases h
    intro b hb
    rcases List.mem_cons.1 hb with rfl | hb
    · exact localName_of_scanAttr ha
    · exact ih hbs b hb

/-- Whether the names of a start tag are what is left of names. -/
def Token.Local : Token → Prop
  | .start _ name attrs => LocalName name.name ∧ ∀ a ∈ attrs, LocalName a.name.name
  | .stop _ _ | .text _ | .aside => True

theorem local_of_scanStart {p q : Place} {t : StartTag} (h : scanStart p = .ok (t, q)) :
    LocalName t.name.name ∧ ∀ a ∈ t.attrs, LocalName a.name.name := by
  unfold scanStart at h
  split at h
  · cases h
  · rename_i name r hname
    split at h
    · cases h
    · rename_i hattrs
      cases h
      exact ⟨localName_of_scanQName hname, localName_of_scanAttrs hattrs⟩

theorem local_of_scanTokens (p : Place) : ∀ t ∈ (scanTokens p).tokens, t.Local :=
  Token.Rule.scanTokens ⟨local_of_scanStart, fun _ _ => trivial, fun _ => trivial, trivial⟩ p

/-! ## What is refused -/

theorem LocalName.exists_units {s : String} (h : LocalName s) :
    ∃ u us, units s.toList = u :: us ∧ isNameUnit u = true :=
  Xml.exists_units h.ne_nil h.chars

theorem isName_of_scanQName {absent : Problem} {line : Nat} {s : String} {u : Scalar}
    {rest : List Scalar} {r : QName × Place} (hs : LocalName s) (hu : isNameUnit u = false)
    (h : scanQName absent ⟨line, units s.toList ++ u :: rest⟩ = .ok r) :
    isName s.toList = true := by
  have hunits : ∀ v ∈ units s.toList, isNameUnit v = true := by
    intro v hv
    obtain ⟨c, hc, rfl⟩ := List.mem_map.1 hv
    exact isNameUnit_of_isNameChar (hs.chars c hc)
  unfold scanQName at h
  split at h
  · cases h
  · rename_i cs q hscan
    obtain ⟨hname, hchars⟩ := of_scanName hscan
    rw [List.takeWhile_append_of_pos hunits, List.takeWhile_cons_of_neg (by simp [hu]),
      List.append_nil, chars?_units, Option.some.injEq] at hchars
    rw [hchars]
    exact hname

theorem isName_of_scanAttrs {line : Nat} {as : List Attr} {rest : List Scalar}
    {bs : List TagAttr} {closed : Bool} {r : Place} (hlocal : ∀ a ∈ as, LocalName a.name)
    (hvalues : ∀ a ∈ as, Allowed a.value.toList)
    (h : scanAttrs ⟨line, units (Element.attrMarkup as) ++ rest⟩ = .ok ((bs, closed), r)) :
    ∀ a ∈ as, isName a.name.toList = true := by
  induction as generalizing bs with
  | nil => simp
  | cons a as ih =>
    have ha := hlocal a List.mem_cons_self
    obtain ⟨u, us, hus, hu⟩ := ha.exists_units
    have hskip := @skipSpace_attrMarkup line a as u us rest hus hu
    have hfirst := congrArg Place.rest hskip
    rw [hus, List.cons_append] at hfirst
    obtain ⟨b, q, bs', hb, hrest, -⟩ := (scanAttrs_eq_ok hfirst hu).1 h
    rw [hskip] at hb
    have hname : isName a.name.toList = true := by
      unfold scanAttr at hb
      split at hb
      · cases hb
      · exact isName_of_scanQName ha (show isNameUnit (.char '=') = false by decide) ‹_›
    -- Once it is known to have a name, the attribute is read as it was written.
    have hfaithful : Faithful a := ⟨ha.plain hname, hvalues a List.mem_cons_self⟩
    rw [scanAttr_written hfaithful] at hb
    cases hb
    have hnames := ih (fun c hc => hlocal c (List.mem_cons_of_mem _ hc))
      (fun c hc => hvalues c (List.mem_cons_of_mem _ hc)) hrest
    simpa using ⟨hname, hnames⟩

section
variable {line : Nat} {tag : String} {as : List Attr} {u : Scalar} {rest : List Scalar}

theorem isName_of_scanStart {s : StartTag × Place} (htag : LocalName tag)
    (hlocal : ∀ a ∈ as, LocalName a.name) (hvalues : ∀ a ∈ as, Allowed a.value.toList)
    (hu : isNameUnit u = false)
    (h : scanStart ⟨line, units tag.toList ++ (units (Element.attrMarkup as) ++ u :: rest)⟩ =
      .ok s) :
    isName tag.toList = true ∧ ∀ a ∈ as, isName a.name.toList = true := by
  obtain ⟨v, vs, hvs, hv⟩ := exists_units_attrMarkup as rest hu
  unfold scanStart at h
  split at h
  · cases h
  · rename_i name q hname
    rw [hvs] at hname
    have hisName := isName_of_scanQName htag hv hname
    rw [scanQName_plain (htag.plain hisName) hv] at hname
    cases hname
    refine ⟨hisName, ?_⟩
    split at h
    · cases h
    · rename_i hattrs
      rw [← hvs] at hattrs
      exact isName_of_scanAttrs hlocal hvalues hattrs

theorem isName_of_scanMarkup {r : List Token × Place} (htag : LocalName tag)
    (hlocal : ∀ a ∈ as, LocalName a.name) (hvalues : ∀ a ∈ as, Allowed a.value.toList)
    (hu : isNameUnit u = false)
    (h : scanMarkup ⟨line, units (tag.toList ++ Element.attrMarkup as) ++ u :: rest⟩ = .ok r) :
    isName tag.toList = true ∧ ∀ a ∈ as, isName a.name.toList = true := by
  obtain ⟨v, vs, hvs, hv⟩ := htag.exists_units
  rw [units_append, List.append_assoc, hvs, List.cons_append, scanMarkup_of_isNameUnit hv,
    ← List.cons_append, ← hvs] at h
  cases hs : scanStart ⟨line, units tag.toList ++ (units (Element.attrMarkup as) ++ u :: rest)⟩ with
  | error e =>
    rw [hs] at h
    cases h
  | ok s => exact isName_of_scanStart htag hlocal hvalues hu hs

end

end BMethod.Xml

namespace BMethod.Element

open Xml (LocalName PlainName Allowed Faithful units)
open Text (Scalar)

/-! ## What is read -/

/-- An element whose names are what is left of names, and whose texts have no white space at their
ends, at every depth. -/
inductive Local : Element → Prop
  | mk {tag : String} {attrs : List Attr} {text : String} {line : Int} {children : List Element}
      (htag : LocalName tag) (hattrs : ∀ a ∈ attrs, LocalName a.name)
      (htrim : Text.trim text = text) (hchildren : ∀ c ∈ children, Local c) :
      Local ⟨tag, attrs, text, line, children⟩

/-- An open element whose names are what is left of names. -/
structure Opened.Local (o : Opened) : Prop where
  tag : LocalName o.name.name
  attrs : ∀ a ∈ o.attrs, LocalName a.name
  children : ∀ c ∈ o.children, c.Local

theorem carried_local : Carried Xml.Token.Local Opened.Local Local where
  start h := by
    refine ⟨h.1, ?_, by simp [Opened.start]⟩
    intro a ha
    obtain ⟨b, hb, rfl⟩ := List.mem_map.1 ha
    exact h.2 b hb
  addText ho _ := ⟨ho.tag, ho.attrs, ho.children⟩
  addChild ho he := by
    refine ⟨ho.tag, ho.attrs, ?_⟩
    intro c hc
    rcases List.mem_append.1 hc with hc | hc
    · exact ho.children c hc
    · rwa [List.mem_singleton.1 hc]
  finish ho := .mk ho.tag ho.attrs (Text.trim_trim _) ho.children

theorem local_of_decode {document : List Text.Scalar} {e : Element} (h : decode document = .ok e) :
    e.Local :=
  carried_local.decode (Xml.local_of_scanTokens _) h

/-! ## Written again -/

/-- An element whose tags and attribute names are names, at every depth. -/
inductive Named : Element → Prop
  | mk {tag : String} {attrs : List Attr} {text : String} {line : Int} {children : List Element}
      (htag : Xml.isName tag.toList = true) (hattrs : ∀ a ∈ attrs, Xml.isName a.name.toList = true)
      (hchildren : ∀ c ∈ children, Named c) : Named ⟨tag, attrs, text, line, children⟩

theorem Named.printable {e : Element} (h : e.Named) (hlocal : e.Local) (hclean : e.Clean) :
    Printable e := by
  induction h with
  | mk htag hattrs _ ih =>
    obtain ⟨hlocal, hlocals, htrim, hbelow⟩ := hlocal
    obtain ⟨hvalues, htext, hinside⟩ := hclean
    refine .mk (hlocal.plain htag) ?_ htext htrim fun c hc => ih c hc (hbelow c hc) (hinside c hc)
    intro a ha
    exact ⟨(hlocals a ha).plain (hattrs a ha), hvalues a ha⟩

/-! ## What is accepted again has names -/

theorem scanMarkup_of_resume {d : Draft} {line : Nat} {us : List Scalar} {r : Element}
    (h : resume d ⟨line, .char '<' :: us⟩ = .ok r) : ∃ s, Xml.scanMarkup ⟨line, us⟩ = .ok s := by
  cases hmarkup : Xml.scanMarkup ⟨line, us⟩ with
  | ok s => exact ⟨s, rfl⟩
  | error problem =>
    have hscan : Xml.scanTokens ⟨line, .char '<' :: us⟩ = ⟨[], .error problem⟩ := by
      rw [Xml.scanTokens]
      simp only [↓reduceDIte]
      split
      · rename_i hproblem
        rw [hmarkup] at hproblem
        cases hproblem
        rfl
      · rename_i hok
        rw [hmarkup] at hok
        cases hok
    rw [resume, hscan] at h
    cases h

theorem isName_of_resume {d : Draft} {line : Nat} {tag : String} {attrs : List Attr} {u : Scalar}
    {rest : List Scalar} {r : Element} (htag : LocalName tag)
    (hlocal : ∀ a ∈ attrs, LocalName a.name) (hvalues : ∀ a ∈ attrs, Allowed a.value.toList)
    (hu : Xml.isNameUnit u = false)
    (h : resume d ⟨line, .char '<' :: (units (tag.toList ++ attrMarkup attrs) ++ u :: rest)⟩ =
      .ok r) :
    Xml.isName tag.toList = true ∧ ∀ a ∈ attrs, Xml.isName a.name.toList = true := by
  obtain ⟨s, hs⟩ := scanMarkup_of_resume h
  exact Xml.isName_of_scanMarkup htag hlocal hvalues hu hs

mutual
/-- When reading does not stop inside the text of an element, its tags have names. -/
theorem named_of_resume : ∀ {e : Element}, e.Local → e.Clean → ∀ (depth line : Nat) {d : Draft}
    {rest : List Scalar} {r : Element}, d.Ready →
    resume d ⟨line, units (source depth e) ++ rest⟩ = .ok r → e.Named
  | ⟨tag, attrs, text, l, []⟩, .mk htag hattrs _ _, .mk hvalues _ _, depth, line, d, rest, r, _,
      h => by
    have hsplit : ∃ u after, Xml.isNameUnit u = false ∧
        units (source depth ⟨tag, attrs, text, l, []⟩) ++ rest =
          .char '<' :: (units (tag.toList ++ attrMarkup attrs) ++ u :: after) := by
      by_cases hempty : text = ""
      · exact ⟨.char '/', .char '>' :: rest, by decide, by simp [source, hempty]⟩
      · exact ⟨.char '>', units (Xml.escape text ++ stopTag tag) ++ rest, by decide,
          by simp [source, hempty]⟩
    obtain ⟨u, after, hu, hsplit⟩ := hsplit
    rw [hsplit] at h
    obtain ⟨hname, hnames⟩ := isName_of_resume htag hattrs hvalues hu h
    exact .mk hname hnames (by simp)
  | ⟨tag, attrs, text, l, c :: cs⟩, .mk htag hattrs _ hbelow, .mk hvalues htext hinside,
      depth, line, d, rest, r, hd, h => by
    rw [units_source_cons] at h
    obtain ⟨hname, hnames⟩ := isName_of_resume htag hattrs hvalues (by decide) h
    -- The start tag is read as it was written, and so is each child before the next.
    have hfaithful : ∀ a ∈ attrs, Faithful a := fun a ha =>
      ⟨(hattrs a ha).plain (hnames a ha), hvalues a ha⟩
    rw [resume_start hd (htag.plain hname) hfaithful,
      resume_text (layout_lead _ _) htext (layout_lineStart _) (atTag_source _ c _)] at h
    have hready : ∀ o : Opened, Draft.Ready ⟨d.root, o :: d.stack⟩ := by simp [Draft.Ready]
    have hclocal := hbelow c List.mem_cons_self
    have hcclean := hinside c List.mem_cons_self
    have hc := named_of_resume hclocal hcclean _ _ (hready _) h
    rw [resume_source (hc.printable hclocal hcclean) _ _ (hready _), Draft.attach] at h
    have hcs := named_of_resume_sources (fun e he => hbelow e (List.mem_cons_of_mem _ he))
      (fun e he => hinside e (List.mem_cons_of_mem _ he)) _ _ h
    exact .mk hname hnames (by simpa using ⟨hc, hcs⟩)

theorem named_of_resume_sources : ∀ {es : List Element}, (∀ e ∈ es, e.Local) →
    (∀ e ∈ es, e.Clean) → ∀ (depth line : Nat) {root : Option Element} {o : Opened}
    {os : List Opened} {rest : List Scalar} {r : Element},
    resume ⟨root, o :: os⟩ ⟨line, units (sources depth es) ++ rest⟩ = .ok r → ∀ e ∈ es, e.Named
  | [], _, _, _, _, _, _, _, _, _, _ => by simp
  | e :: es, hlocal, hclean, depth, line, root, o, os, rest, r, h => by
    rw [units_sources_cons, resume_lineStart (atTag_source depth e _)] at h
    have helocal := hlocal e List.mem_cons_self
    have heclean := hclean e List.mem_cons_self
    have he := named_of_resume helocal heclean _ _ (by simp [Draft.Ready]) h
    rw [resume_source (he.printable helocal heclean) _ _ (by simp [Draft.Ready]),
      Draft.attach] at h
    have hes := named_of_resume_sources (fun c hc => hlocal c (List.mem_cons_of_mem _ hc))
      (fun c hc => hclean c (List.mem_cons_of_mem _ hc)) _ _ h
    simpa using ⟨he, hes⟩
end

theorem named_of_decodeString {e r : Element} (hlocal : e.Local) (hclean : e.Clean)
    (h : decodeString e.toXml = .ok r ∨ decodeString e.encode = .ok r) : e.Named := by
  rcases h with h | h
  · rw [decodeString, decode_eq_resume, ofString_toXml] at h
    exact named_of_resume hlocal hclean 0 1 (by rfl) h
  · rw [decodeString, decode_eq_resume, ofString_encode,
      resume_declaration (atTag_source 0 e _)] at h
    exact named_of_resume hlocal hclean 0 2 (by rfl) h

/-! ## Documents -/

/-- A document that was read and is written again, alone or with its declaration, is read as the
same element when the names in it, without their name spaces, are names, and otherwise it is
refused. -/
theorem reencoded {document : List UInt8} {e : Element} (h : decodeBytes document = .ok e) :
    (e.Named → (∃ root, decodeString e.toXml = .ok root ∧ e.same root = true) ∧
      ∃ root, decodeBytes e.encode.toUTF8.data.toList = .ok root ∧ e.same root = true) ∧
    (¬ e.Named → (∃ fault, decodeString e.toXml = .error fault) ∧
      ∃ fault, decodeBytes e.encode.toUTF8.data.toList = .error fault) := by
  have hlocal := local_of_decode h
  have hclean := clean_of_decode h
  rw [decodeBytes_toUTF8]
  constructor
  · intro hnamed
    have hprintable := hnamed.printable hlocal hclean
    exact ⟨⟨_, decodeString_toXml hprintable, same_placed 1 e⟩,
      ⟨_, decodeString_encode hprintable, same_placed 2 e⟩⟩
  · intro hnamed
    constructor
    · cases htext : decodeString e.toXml with
      | error fault => exact ⟨fault, rfl⟩
      | ok r => exact absurd (named_of_decodeString hlocal hclean (.inl htext)) hnamed
    · cases htext : decodeString e.encode with
      | error fault => exact ⟨fault, rfl⟩
      | ok r => exact absurd (named_of_decodeString hlocal hclean (.inr htext)) hnamed

/-- A document with a comment, a literal section, a reference, name spaces and an attribute that
declares one of them. -/
def sampleBytes : List UInt8 :=
  "<p:a xmlns:p=\"u\" q:b='1'><!-- x --><![CDATA[<]]>&amp; <c/></p:a>".toUTF8.data.toList

def sampleRead : Element :=
  ⟨"a", [⟨"p", "u"⟩, ⟨"b", "1"⟩], "<&", 1, [⟨"c", [], "", 1, []⟩]⟩

theorem decodeBytes_sampleBytes : decodeBytes sampleBytes = .ok sampleRead := by
  with_unfolding_all rfl

theorem sampleRead_named : sampleRead.Named := by
  refine .mk (by decide) (by decide) ?_
  simpa using Named.mk (by decide) (by simp) (by simp)

theorem reencoded_sample :
    decodeBytes sampleBytes = .ok sampleRead ∧
      (∃ root, decodeString sampleRead.toXml = .ok root ∧ sampleRead.same root = true) ∧
      ∃ root, decodeBytes sampleRead.encode.toUTF8.data.toList = .ok root ∧
        sampleRead.same root = true :=
  ⟨decodeBytes_sampleBytes, (reencoded decodeBytes_sampleBytes).1 sampleRead_named⟩

/-- A name whose part without its name space begins with a hyphen can be read, but is not read
again. -/
theorem not_always_reencoded :
    ¬ ∀ (document : List UInt8) (e : Element), decodeBytes document = .ok e →
      ∃ root, decodeString e.toXml = .ok root ∧ e.same root = true := by
  intro h
  have hread : decodeBytes "<p:-c/>".toUTF8.data.toList = .ok ⟨"-c", [], "", 1, []⟩ := by
    with_unfolding_all rfl
  have hrefused : decodeString (toXml ⟨"-c", [], "", 1, []⟩) =
      .error (undecodable 1 (.badName (Xml.ascii "-c"))) := by
    with_unfolding_all rfl
  obtain ⟨root, hroot, -⟩ := h _ _ hread
  rw [hrefused] at hroot
  cases hroot

end BMethod.Element
