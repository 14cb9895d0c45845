import Mathlib
import BMethod.Proofs.Element.Decoding
import BMethod.Proofs.Xml.Spelling

/-!
# What is read may stand in a document

Every attribute value and every text of an element that was read from a document consists of
characters that may stand in one, however they were spelled.
-/

namespace BMethod.Xml

open Text (Scalar)

theorem allowed_of_checkChars {us : List Scalar} {cs : List Char} (h : checkChars us = .ok cs) :
    Allowed cs := by
  fun_induction checkChars us generalizing cs with
  | case1 =>
    cases h
    simp [Allowed]
  | case2 => cases h
  | case3 c us hc ds hds ih =>
    cases h
    intro d hd
    rcases List.mem_cons.1 hd with rfl | hd
    · exact hc
    · exact ih hds d hd
  | case4 => cases h
  | case5 => cases h

theorem allowed_of_checked {s : Scan (List Scalar)} {v : String} {q : Place}
    (h : s.checked = .ok (v, q)) : Allowed v.toList := by
  unfold Scan.checked at h
  split at h
  · cases h
  · split at h
    · rename_i cs hcs
      cases h
      rw [String.toList_ofList]
      exact allowed_of_checkChars hcs
    · cases h

theorem allowed_of_scanValue {p q : Place} {v : String} (h : scanValue p = .ok (v, q)) :
    Allowed v.toList := by
  unfold scanValue at h
  split at h
  · cases h
  · exact allowed_of_checked h
  · exact allowed_of_checked h
  · cases h

theorem allowed_of_scanAttr {p q : Place} {a : TagAttr} (h : scanAttr p = .ok (a, q)) :
    Allowed a.value.toList := by
  unfold scanAttr at h
  split at h
  · cases h
  · split at h
    · cases h
    · split at h
      · cases h
      · rename_i hvalue
        cases h
        exact allowed_of_scanValue hvalue
    · cases h

theorem allowed_of_scanAttrs {p q : Place} {as : List TagAttr} {closed : Bool}
    (h : scanAttrs p = .ok ((as, closed), q)) : ∀ a ∈ as, Allowed a.value.toList := by
  fun_induction scanAttrs p generalizing as closed q with
  | case1 | case4 | case5 | case6 | case7 => cases h
  | case2 | case3 =>
    cases h
    simp
  | case8 p a s ha bs closed r hbs _ _ _ _ _ ih =>
    cases h
    intro b hb
    rcases List.mem_cons.1 hb with rfl | hb
    · exact allowed_of_scanAttr ha
    · exact ih hbs b hb

theorem forall_of_tokens {T : Token → Prop} {α : Type} {meaning : Nat → α → List Token}
    {s : Scan α} {ts : List Token} {q : Place}
    (hmeaning : ∀ a q, s = .ok (a, q) → ∀ t ∈ meaning q.line a, T t)
    (h : s.tokens meaning = .ok (ts, q)) : ∀ t ∈ ts, T t := by
  unfold Scan.tokens at h
  split at h
  · cases h
    exact hmeaning _ _ rfl
  · cases h

/-- A property of all tokens that can be read: start tags have it as they are read, end tags and what
stands aside always, and texts whose characters may stand in a document. -/
structure Token.Rule (T : Token → Prop) : Prop where
  start : ∀ {p q : Place} {t : StartTag}, scanStart p = .ok (t, q) →
    T (.start q.line t.name t.attrs)
  stop : ∀ line name, T (.stop line name)
  text : ∀ {s : String}, Allowed s.toList → T (.text s)
  aside : T .aside

namespace Token.Rule

variable {T : Token → Prop} {p q : Place} {ts : List Token}

theorem startTag (hT : Rule T) {t : StartTag} (h : scanStart p = .ok (t, q)) :
    ∀ u ∈ t.tokens q.line, T u := by
  intro u hu
  simp only [StartTag.tokens] at hu
  rcases List.mem_cons.1 hu with rfl | hu
  · exact hT.start h
  · split_ifs at hu
    · rw [List.mem_singleton.1 hu]
      exact hT.stop _ _
    · cases hu

theorem scanBang (hT : Rule T) (h : Xml.scanBang p = .ok (ts, q)) : ∀ t ∈ ts, T t := by
  unfold Xml.scanBang at h
  split at h
  · cases h
  · exact forall_of_tokens (fun _ _ _ => by simpa using hT.aside) h
  · cases h
  · cases h
  · refine forall_of_tokens ?_ h
    intro s q hs t ht
    rw [List.mem_singleton.1 ht]
    unfold scanCData at hs
    split at hs
    · exact hT.text (allowed_of_checked hs)
    · cases hs
  · exact forall_of_tokens (fun _ _ _ => by simpa using hT.aside) h

theorem scanMarkup (hT : Rule T) (h : Xml.scanMarkup p = .ok (ts, q)) : ∀ t ∈ ts, T t := by
  unfold Xml.scanMarkup at h
  split at h
  · cases h
  · refine forall_of_tokens ?_ h
    intro n q _ t ht
    rw [List.mem_singleton.1 ht]
    exact hT.stop _ _
  · exact forall_of_tokens (fun _ _ _ => by simpa using hT.aside) h
  · exact hT.scanBang h
  · exact forall_of_tokens (fun _ _ => hT.startTag) h

theorem scanTokens (hT : Rule T) (p : Place) : ∀ t ∈ (Xml.scanTokens p).tokens, T t := by
  fun_induction Xml.scanTokens p with
  | case1 | case2 | case4 => simp
  | case3 p rest ts q hmarkup _ ih =>
    intro t ht
    rcases List.mem_append.1 ht with ht | ht
    · exact hT.scanMarkup hmarkup t ht
    · exact ih t ht
  | case5 p u rest _ _ s q htext ih =>
    intro t ht
    rcases List.mem_append.1 ht with ht | ht
    · rw [List.mem_singleton.1 ht]
      exact hT.text (allowed_of_checked htext)
    · exact ih t ht

end Token.Rule

/-- Whether the values and texts of a token may stand in a document. -/
def Token.Clean : Token → Prop
  | .start _ _ attrs => ∀ a ∈ attrs, Allowed a.value.toList
  | .stop _ _ | .aside => True
  | .text s => Allowed s.toList

theorem clean_of_scanStart {p q : Place} {t : StartTag} (h : scanStart p = .ok (t, q)) :
    ∀ a ∈ t.attrs, Allowed a.value.toList := by
  unfold scanStart at h
  split at h
  · cases h
  · split at h
    · cases h
    · rename_i hattrs
      cases h
      exact allowed_of_scanAttrs hattrs

theorem clean_of_scanTokens (p : Place) : ∀ t ∈ (scanTokens p).tokens, t.Clean :=
  Token.Rule.scanTokens ⟨clean_of_scanStart, fun _ _ => trivial, id, trivial⟩ p

end BMethod.Xml

namespace BMethod.Element

open Xml (Allowed)

/-- An element whose values and texts may stand in a document, at every depth. -/
inductive Clean : Element → Prop
  | mk {tag : String} {attrs : List Attr} {text : String} {line : Int} {children : List Element}
      (hattrs : ∀ a ∈ attrs, Allowed a.value.toList) (htext : Allowed text.toList)
      (hchildren : ∀ c ∈ children, Clean c) : Clean ⟨tag, attrs, text, line, children⟩

theorem Clean.child {e c : Element} (h : e.Clean) (hc : c ∈ e.children) : c.Clean := by
  obtain ⟨_, _, hchildren⟩ := h
  exact hchildren c hc

theorem Clean.attr {e : Element} {name v : String} (h : e.Clean) (hv : e.attr? name = some v) :
    Allowed v.toList := by
  obtain ⟨hattrs, _, _⟩ := h
  obtain ⟨a, ha, rfl⟩ := Option.map_eq_some_iff.1 hv
  exact hattrs a (List.mem_of_find?_eq_some ha)

section
variable {e a : Element} {tag : String}

theorem Clean.child? (h : e.Clean) {i : Nat} (ha : e.children[i]? = some a) : a.Clean :=
  h.child (List.mem_of_getElem? ha)

theorem Clean.first? (h : e.Clean) (ha : e.first? tag = some a) : a.Clean :=
  h.child (mem_children_of_first? ha)

theorem Clean.inner? (h : e.Clean) (ha : e.inner? tag = some a) : a.Clean := by
  obtain ⟨w, hw, ha⟩ := Option.bind_eq_some_iff.1 ha
  exact (h.first? hw).first? ha

theorem Clean.childrenNamed (h : e.Clean) (ha : a ∈ e.childrenNamed tag) : a.Clean :=
  h.child (List.mem_of_mem_filter ha)

end

/-! ## What one token adds -/

/-- An open element whose values, text and children may stand in a document. -/
structure Opened.Clean (o : Opened) : Prop where
  attrs : ∀ a ∈ o.attrs, Allowed a.value.toList
  text : Allowed o.text.toList
  children : ∀ c ∈ o.children, c.Clean

theorem Opened.Clean.start {line : Nat} {name : Xml.QName} {attrs : List Xml.TagAttr}
    (h : ∀ a ∈ attrs, Allowed a.value.toList) : (Opened.start line name attrs).Clean where
  attrs := by
    intro a ha
    obtain ⟨b, hb, rfl⟩ := List.mem_map.1 ha
    exact h b hb
  text := by simp [Opened.start, Allowed]
  children := by simp [Opened.start]

theorem Opened.Clean.finish {o : Opened} (h : o.Clean) : o.finish.Clean := by
  refine .mk h.attrs ?_ h.children
  intro c hc
  rw [Text.trim, String.toList_ofList] at hc
  exact h.text c (Text.mem_of_mem_trimChars hc)

theorem Opened.Clean.addText {o : Opened} {s : String} (h : o.Clean) (hs : Allowed s.toList) :
    Opened.Clean { o with text := o.text ++ s } where
  attrs := h.attrs
  text := by
    intro c hc
    rw [String.toList_append] at hc
    exact (List.mem_append.1 hc).elim (h.text c) (hs c)
  children := h.children

theorem Opened.Clean.addChild {o : Opened} {e : Element} (h : o.Clean) (he : e.Clean) :
    Opened.Clean { o with children := o.children ++ [e] } where
  attrs := h.attrs
  text := h.text
  children := by
    intro c hc
    rcases List.mem_append.1 hc with hc | hc
    · exact h.children c hc
    · rwa [List.mem_singleton.1 hc]

/-! ## The whole document -/

theorem carried_clean : Carried Xml.Token.Clean Opened.Clean Clean where
  start := .start
  addText := .addText
  addChild := .addChild
  finish := Opened.Clean.finish

theorem clean_of_decode {document : List Text.Scalar} {e : Element} (h : decode document = .ok e) :
    e.Clean :=
  carried_clean.decode (Xml.clean_of_scanTokens _) h

end BMethod.Element
