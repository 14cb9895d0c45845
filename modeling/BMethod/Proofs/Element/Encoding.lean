import Mathlib
import BMethod.Proofs.Element.Printing
import BMethod.Proofs.Text.Bytes

/-!
# Whole documents are read back

The text of a document has a line of its own before the root element and an end of line after it.
Neither is part of an element, so a document is read back as its root element, from its characters
and from its bytes.
-/

namespace BMethod.Element

open Xml (units Allowed Faithful PlainName Place)
open Text (Scalar)

/-! ## Well-formed elements -/

/-- A name that a tag or an attribute can have: it is a name, and no colon divides it. -/
structure ValidName (s : String) : Prop where
  name : Xml.isName s.toList = true
  colon : ':' ∉ s.toList

instance (s : String) : Decidable (ValidName s) :=
  decidable_of_iff (Xml.isName s.toList = true ∧ ':' ∉ s.toList)
    ⟨fun h => ⟨h.1, h.2⟩, fun h => ⟨h.name, h.colon⟩⟩

/-- An element whose names are valid, whose values and texts may stand in a document, and whose
texts have no white space at their ends, at every depth. -/
inductive WellFormed : Element → Prop
  | mk {tag : String} {attrs : List Attr} {text : String} {line : Int} {children : List Element}
      (htag : ValidName tag) (hnames : ∀ a ∈ attrs, ValidName a.name)
      (hvalues : ∀ a ∈ attrs, Allowed a.value.toList) (htext : Allowed text.toList)
      (htrim : Text.trim text = text) (hchildren : ∀ c ∈ children, WellFormed c) :
      WellFormed ⟨tag, attrs, text, line, children⟩

theorem ValidName.plain {s : String} (h : ValidName s) : PlainName s := by
  refine ⟨h.name, ?_⟩
  rw [Xml.ofChars?_of_not_mem h.colon, String.ofList_toList]

theorem WellFormed.printable {e : Element} (h : e.WellFormed) : Printable e := by
  induction h with
  | mk htag hnames hvalues htext htrim _ ih =>
    exact .mk htag.plain (fun a ha => ⟨(hnames a ha).plain, hvalues a ha⟩) htext htrim ih

/-! ## What stands around the root -/

theorem resume_lineFeed {root : Option Element} {line : Nat} {rest : List Scalar}
    (hrest : Xml.AtTag rest) :
    resume ⟨root, []⟩ ⟨line, .char '\n' :: rest⟩ = resume ⟨root, []⟩ ⟨line + 1, rest⟩ := by
  have hscan : (Xml.scanText line (.char '\n' :: rest)).checked = .ok ("\n", ⟨line + 1, rest⟩) := by
    have hbefore : Xml.Layout ['\n'] := by simp [Xml.Layout]
    have hempty : Allowed [] := by simp [Allowed]
    have hafter : Xml.Layout [] := by simp [Xml.Layout]
    simpa using @Xml.scanText_run line _ _ _ rest hbefore hempty hafter hrest
  rw [resume_checked (by decide) hscan]
  rfl

def settings : List Scalar :=
  Xml.ascii "version=\"1.0\" encoding=\"UTF-8\""

theorem setting_of_breakOn {key us before rest value after : List Scalar}
    (hkey : Xml.breakOn (key ++ [.char '=']) us = some (before, .char '"' :: rest))
    (hvalue : Xml.breakOn [.char '"'] rest = some (value, after)) : Xml.setting key us = value := by
  rw [Xml.setting]
  split
  · rename_i hnone
    simp [hkey] at hnone
  · rename_i hempty
    simp [hkey] at hempty
  · rename_i hfound
    rw [hkey] at hfound
    cases hfound
    simp [hvalue]

theorem checkDeclaration_settings : Xml.checkDeclaration settings = .ok () := by
  have hversion : Xml.setting (Xml.ascii "version") settings = Xml.ascii "1.0" :=
    setting_of_breakOn rfl rfl
  have hencoding : Xml.setting (Xml.ascii "encoding") settings = Xml.ascii "UTF-8" :=
    setting_of_breakOn rfl rfl
  rw [Xml.checkDeclaration, hversion, hencoding]
  decide

theorem skipInstruction_declaration (line : Nat) (rest : List Scalar) :
    Xml.skipInstruction ⟨line, units declaration.tail.tail ++ rest⟩ =
      .ok ((), ⟨line, .char '\n' :: rest⟩) := by
  have hname : Xml.scanName .noTarget ⟨line, units declaration.tail.tail ++ rest⟩ =
      .ok (['x', 'm', 'l'], ⟨line, .char ' ' :: (settings ++ (Xml.ascii "?>\n" ++ rest))⟩) := rfl
  have hspace : (Place.mk line (.char ' ' :: (settings ++ (Xml.ascii "?>\n" ++ rest)))).skipSpace =
      ⟨line, settings ++ (Xml.ascii "?>\n" ++ rest)⟩ := rfl
  have hbreak : Xml.breakOn (Xml.ascii "?>") (settings ++ (Xml.ascii "?>\n" ++ rest)) =
      some (settings, .char '\n' :: rest) := rfl
  simp only [Xml.skipInstruction, hname, hspace, hbreak, if_true, checkDeclaration_settings]
  rfl

theorem scanMarkup_declaration (line : Nat) (rest : List Scalar) :
    Xml.scanMarkup ⟨line, units declaration.tail ++ rest⟩ =
      .ok ([.aside], ⟨line, .char '\n' :: rest⟩) := by
  have hmarkup : Xml.scanMarkup ⟨line, units declaration.tail ++ rest⟩ =
      (Xml.skipInstruction ⟨line, units declaration.tail.tail ++ rest⟩).tokens fun _ _ => [.aside] :=
    rfl
  rw [hmarkup, skipInstruction_declaration]
  rfl

theorem resume_declaration {line : Nat} {rest : List Scalar} (hrest : Xml.AtTag rest) :
    resume .empty ⟨line, units declaration ++ rest⟩ = resume .empty ⟨line + 1, rest⟩ := by
  have hsplit : units declaration ++ rest = .char '<' :: (units declaration.tail ++ rest) := rfl
  rw [hsplit, resume_markup (scanMarkup_declaration line rest)]
  exact resume_lineFeed hrest

theorem resume_end (e : Element) (line : Nat) :
    resume ⟨some e, []⟩ ⟨line, []⟩ = .ok e := by
  simp [resume, Xml.scanTokens, Draft.finish]
  rfl

/-! ## Documents -/

theorem ofString_encode (e : Element) :
    Scalar.ofString e.encode = units declaration ++ (units (source 0 e) ++ [.char '\n']) := by
  rw [Scalar.ofString, encode, String.toList_ofList, markup_eq]
  simp [units]

/-- The text of a document is read back as its root element, which begins on the second line. -/
theorem decodeString_encode {e : Element} (h : Printable e) :
    decodeString e.encode = .ok (e.placed 2) := by
  rw [decodeString, decode_eq_resume, ofString_encode, resume_declaration (atTag_source 0 e _),
    resume_source h 0 2 (by rfl)]
  exact (resume_lineFeed (.inl rfl)).trans (resume_end _ _)

theorem decodeBytes_toUTF8 (s : String) : decodeBytes s.toUTF8.data.toList = decodeString s := by
  rw [decodeBytes, Text.scalars_bytes, decodeString]

/-- A well-formed element is read back from its text, and from the bytes of the document that it is
the root of. -/
theorem decode_encoded {e : Element} (he : e.WellFormed) :
    (∃ root, decodeString e.toXml = .ok root ∧ e.same root = true) ∧
      ∃ root, decodeBytes e.encode.toUTF8.data.toList = .ok root ∧ e.same root = true := by
  have hprintable := he.printable
  constructor
  · exact ⟨e.placed 1, decodeString_toXml hprintable, same_placed 1 e⟩
  · rw [decodeBytes_toUTF8]
    exact ⟨e.placed 2, decodeString_encode hprintable, same_placed 2 e⟩

/-- An element with text beside its children, a repeated attribute, and every character that is
spelled by a reference. -/
def sampleDocument : Element :=
  ⟨"doc", [⟨"a", "\"<&\x27>\t\r\n"⟩, ⟨"a", "]]>"⟩], "x ]]> é", 7,
    [⟨"c", [], "", 0, []⟩, ⟨"d", [⟨"b", " "⟩], "1\r\n2", 0, []⟩]⟩

theorem sampleDocument_wellFormed : sampleDocument.WellFormed := by
  have hc : WellFormed ⟨"c", [], "", 0, []⟩ :=
    .mk (by decide) (by decide) (by decide) (by decide) (by decide) (by simp)
  have hd : WellFormed ⟨"d", [⟨"b", " "⟩], "1\r\n2", 0, []⟩ :=
    .mk (by decide) (by decide) (by decide) (by decide) (by decide) (by simp)
  exact .mk (by decide) (by decide) (by decide) (by decide) (by decide) (by simpa using ⟨hc, hd⟩)

theorem decode_encoded_sample :
    sampleDocument.WellFormed ∧
      (∃ root, decodeString sampleDocument.toXml = .ok root ∧ sampleDocument.same root = true) ∧
      ∃ root, decodeBytes sampleDocument.encode.toUTF8.data.toList = .ok root ∧
        sampleDocument.same root = true :=
  ⟨sampleDocument_wellFormed, decode_encoded sampleDocument_wellFormed⟩

end BMethod.Element
