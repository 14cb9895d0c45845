import Mathlib
import BMethod.Element.Printer
import BMethod.Proofs.Xml.Spelling
import BMethod.Xml.Token

/-!
# Tags are read back

A tag that is written with plain names and with values that may stand in a document is read back,
on the line on which it begins.
-/

namespace BMethod.Xml

open Text (Scalar)

/-! ## Names -/

/-- A name that is read back as it is, in no name space. -/
def PlainName (s : String) : Prop :=
  isName s.toList = true ∧ QName.ofChars? s.toList = some ⟨"", s⟩

instance (s : String) : Decidable (PlainName s) :=
  inferInstanceAs (Decidable (_ ∧ _))

theorem ofChars?_of_not_mem {cs : List Char} (h : ':' ∉ cs) :
    QName.ofChars? cs = some ⟨"", String.ofList cs⟩ := by
  have hpass : ∀ c ∈ cs, (c != ':') = true := by
    intro c hc
    simpa using fun heq : c = ':' => h (heq ▸ hc)
  unfold QName.ofChars?
  simp [List.count_eq_zero.2 h, List.dropWhile_eq_nil_iff.2 hpass]

theorem isNameUnit_of_ascii : ∀ n < 0x80, isNameChar (Char.ofNat n) = true →
    isNameUnit (.char (Char.ofNat n)) = true := by
  decide +kernel

theorem isNameUnit_of_isNameChar {c : Char} (h : isNameChar c = true) :
    isNameUnit (.char c) = true := by
  by_cases hc : c.toNat < 0x80
  · have := isNameUnit_of_ascii c.toNat hc
    rw [Char.ofNat_toNat] at this
    exact this h
  · simp only [isNameUnit, Bool.or_eq_true, decide_eq_true_eq]
    exact .inl (by omega)

theorem isNameChar_of_isName {cs : List Char} (h : isName cs = true) :
    ∀ c ∈ cs, isNameChar c = true := by
  cases cs with
  | nil => cases h
  | cons d ds =>
    simp only [isName, Bool.and_eq_true, List.all_eq_true] at h
    intro c hc
    rcases List.mem_cons.1 hc with rfl | hc
    · simp [isNameChar, h.1]
    · exact h.2 c hc

theorem isNameUnit_of_mem {cs : List Char} (h : isName cs = true) {u : Scalar}
    (hu : u ∈ units cs) : isNameUnit u = true := by
  obtain ⟨c, hc, rfl⟩ := List.mem_map.1 hu
  exact isNameUnit_of_isNameChar (isNameChar_of_isName h c hc)

theorem chars?_units (cs : List Char) : chars? (units cs) = some cs := by
  induction cs with
  | nil => rfl
  | cons c cs ih => simp [chars?, ih]

theorem scanName_name {absent : Problem} {line : Nat} {cs : List Char} {u : Scalar}
    {rest : List Scalar} (hcs : isName cs = true) (hu : isNameUnit u = false) :
    scanName absent ⟨line, units cs ++ u :: rest⟩ = .ok (cs, ⟨line, u :: rest⟩) := by
  have hne : units cs ≠ [] := by
    rintro h
    rw [List.map_eq_nil_iff.1 h] at hcs
    cases hcs
  have htake : (units cs ++ u :: rest).takeWhile isNameUnit = units cs := by
    rw [List.takeWhile_append_of_pos fun _ => isNameUnit_of_mem hcs,
      List.takeWhile_cons_of_neg (by simp [hu]), List.append_nil]
  have hdrop : (units cs ++ u :: rest).dropWhile isNameUnit = u :: rest := by
    rw [List.dropWhile_append_of_pos fun _ => isNameUnit_of_mem hcs,
      List.dropWhile_cons_of_neg (by simp [hu])]
  simp [scanName, htake, hdrop, hne, nameOf?, chars?_units, hcs]

theorem scanQName_plain {absent : Problem} {line : Nat} {s : String} {u : Scalar}
    {rest : List Scalar} (hs : PlainName s) (hu : isNameUnit u = false) :
    scanQName absent ⟨line, units s.toList ++ u :: rest⟩ = .ok (⟨"", s⟩, ⟨line, u :: rest⟩) := by
  rw [scanQName, scanName_name hs.1 hu]
  simp only [hs.2]

theorem skipSpace_of_not_isSpace {line : Nat} {u : Scalar} {rest : List Scalar}
    (h : isSpace u = false) : (Place.mk line (u :: rest)).skipSpace = ⟨line, u :: rest⟩ := by
  simp [Place.skipSpace, h, lineFeeds]

/-! ## Attributes -/

/-- An attribute that is read back from what is written for it. -/
def Faithful (a : Attr) : Prop :=
  PlainName a.name ∧ Allowed a.value.toList

theorem Faithful.of {name value : String} (hvalue : Allowed value.toList)
    (hname : PlainName name) : Faithful ⟨name, value⟩ :=
  ⟨hname, hvalue⟩

theorem Faithful.singleton {name value : String} (hvalue : Allowed value.toList)
    (hname : PlainName name) : ∀ a ∈ [(⟨name, value⟩ : Attr)], Faithful a := by
  simpa using Faithful.of hvalue hname

instance (a : Attr) : Decidable (Faithful a) :=
  inferInstanceAs (Decidable (_ ∧ _))

def TagAttr.ofAttr (a : Attr) : TagAttr :=
  ⟨⟨"", a.name⟩, a.value⟩

theorem scanValue_escape {line : Nat} {s : String} {rest : List Scalar} (h : Allowed s.toList) :
    scanValue ⟨line, .char '"' :: (units (escape s) ++ .char '"' :: rest)⟩ =
      .ok (s, ⟨line, rest⟩) := by
  simp only [scanValue, escape, scanQuoted_escape h, Scan.checked, checkChars_units h,
    String.ofList_toList]

theorem scanAttr_written {line : Nat} {a : Attr} {rest : List Scalar} (h : Faithful a) :
    scanAttr ⟨line, units a.name.toList ++
        .char '=' :: .char '"' :: (units (escape a.value) ++ .char '"' :: rest)⟩ =
      .ok (.ofAttr a, ⟨line, rest⟩) := by
  rw [scanAttr, scanQName_plain h.1 (by decide)]
  simp only [skipSpace_of_not_isSpace (show isSpace (.char '=') = false by decide),
    skipSpace_of_not_isSpace (show isSpace (.char '"') = false by decide), scanValue_escape h.2]
  rfl

theorem scanAttrs_eq_ok {p r : Place} {u : Scalar} {us : List Scalar} {bs : List TagAttr}
    {closed : Bool} (hskip : p.skipSpace.rest = u :: us) (hu : isNameUnit u = true) :
    scanAttrs p = .ok ((bs, closed), r) ↔ ∃ a q as, scanAttr p.skipSpace = .ok (a, q) ∧
      scanAttrs q = .ok ((as, closed), r) ∧ bs = a :: as := by
  have hgt : u ≠ .char '>' := by rintro rfl; cases hu
  have hslash : u ≠ .char '/' := by rintro rfl; cases hu
  rw [scanAttrs]
  split
  case h_6 =>
    split
    · rename_i e he
      simp [he]
    · rename_i b s hs
      split
      · rename_i e he
        simp [hs, he]
      · rename_i cs closed' r' hcs
        constructor
        · intro h
          cases h
          exact ⟨b, s, cs, hs, hcs, rfl⟩
        · rintro ⟨a, q, as, ha, has, rfl⟩
          rw [hs] at ha
          cases ha
          rw [hcs] at has
          cases has
          rfl
  -- In the other cases the tag would end here, but it goes on with a name.
  all_goals simp_all

theorem exists_units {s : String} (hne : s.toList ≠ [])
    (hchars : ∀ c ∈ s.toList, isNameChar c = true) :
    ∃ u us, units s.toList = u :: us ∧ isNameUnit u = true := by
  obtain ⟨c, cs, hcs⟩ := List.exists_cons_of_ne_nil hne
  refine ⟨.char c, units cs, by rw [hcs]; rfl, isNameUnit_of_isNameChar (hchars c ?_)⟩
  rw [hcs]
  exact List.mem_cons_self

theorem exists_units_of_plainName {s : String} (h : PlainName s) :
    ∃ u us, units s.toList = u :: us ∧ isNameUnit u = true := by
  refine exists_units ?_ (isNameChar_of_isName h.1)
  intro hnil
  have hname := h.1
  rw [hnil] at hname
  cases hname

theorem isSpace_of_isNameUnit {u : Scalar} (h : isNameUnit u = true) : isSpace u = false := by
  have hne : ∀ c, isNameUnit (.char c) = false → u ≠ .char c := by
    rintro c hc rfl
    rw [h] at hc
    cases hc
  simp [isSpace, hne ' ' (by decide), hne '\t' (by decide), hne '\n' (by decide),
    hne '\r' (by decide)]

theorem skipSpace_attrMarkup {line : Nat} {a : Attr} {as : List Attr} {u : Scalar}
    {us rest : List Scalar} (hus : units a.name.toList = u :: us) (hu : isNameUnit u = true) :
    (Place.mk line (units (Element.attrMarkup (a :: as)) ++ rest)).skipSpace =
      ⟨line, units a.name.toList ++ .char '=' :: .char '"' ::
        (units (escape a.value) ++ .char '"' :: (units (Element.attrMarkup as) ++ rest))⟩ := by
  have heq : units (Element.attrMarkup (a :: as)) ++ rest =
      .char ' ' :: (units a.name.toList ++ .char '=' :: .char '"' ::
        (units (escape a.value) ++ .char '"' :: (units (Element.attrMarkup as) ++ rest))) := by
    simp [Element.attrMarkup]
  rw [heq, hus]
  simp [Place.skipSpace, isSpace_of_isNameUnit hu, show isSpace (.char ' ') = true by decide,
    lineFeeds]

theorem scanAttrs_written {line : Nat} {as : List Attr} {rest : List Scalar} {closed : Bool}
    {q : Place} (h : ∀ a ∈ as, Faithful a)
    (hend : scanAttrs ⟨line, rest⟩ = .ok (([], closed), q)) :
    scanAttrs ⟨line, units (Element.attrMarkup as) ++ rest⟩ =
      .ok ((as.map .ofAttr, closed), q) := by
  induction as with
  | nil => exact hend
  | cons a as ih =>
    have ha := h a List.mem_cons_self
    have ih := ih fun b hb => h b (List.mem_cons_of_mem _ hb)
    obtain ⟨u, us, hus, hu⟩ := exists_units_of_plainName ha.1
    have hskip := @skipSpace_attrMarkup line a as u us rest hus hu
    have hfirst := congrArg Place.rest hskip
    rw [hus, List.cons_append] at hfirst
    refine (scanAttrs_eq_ok hfirst hu).2 ⟨_, _, _, ?_, ih, rfl⟩
    rw [hskip]
    exact scanAttr_written ha

theorem scanAttrs_open {line : Nat} {rest : List Scalar} :
    scanAttrs ⟨line, .char '>' :: rest⟩ = .ok (([], false), ⟨line, rest⟩) := by
  have hskip : (Place.mk line (.char '>' :: rest)).skipSpace = _ :=
    skipSpace_of_not_isSpace (by decide)
  rw [scanAttrs, hskip]
  rfl

theorem scanAttrs_closed {line : Nat} {rest : List Scalar} :
    scanAttrs ⟨line, .char '/' :: .char '>' :: rest⟩ = .ok (([], true), ⟨line, rest⟩) := by
  have hskip : (Place.mk line (.char '/' :: .char '>' :: rest)).skipSpace = _ :=
    skipSpace_of_not_isSpace (by decide)
  rw [scanAttrs, hskip]
  rfl

/-! ## Tags -/

theorem exists_units_attrMarkup (as : List Attr) {u : Scalar} (rest : List Scalar)
    (hu : isNameUnit u = false) :
    ∃ v vs, units (Element.attrMarkup as) ++ u :: rest = v :: vs ∧ isNameUnit v = false := by
  cases as with
  | nil => exact ⟨u, rest, rfl, hu⟩
  | cons a as => exact ⟨.char ' ', _, rfl, by decide⟩

/-- A start tag is read back when what ends it is. -/
theorem scanStart_written {line : Nat} {tag : String} {as : List Attr} {u : Scalar}
    {rest : List Scalar} {closed : Bool} {q : Place} (htag : PlainName tag)
    (has : ∀ a ∈ as, Faithful a) (hu : isNameUnit u = false)
    (hend : scanAttrs ⟨line, u :: rest⟩ = .ok (([], closed), q)) :
    scanStart ⟨line, units (tag.toList ++ Element.attrMarkup as) ++ u :: rest⟩ =
      .ok (⟨⟨"", tag⟩, as.map .ofAttr, closed⟩, q) := by
  obtain ⟨v, vs, heq, hv⟩ := exists_units_attrMarkup as rest hu
  rw [units_append, List.append_assoc, scanStart, heq, scanQName_plain htag hv, ← heq]
  simp only [scanAttrs_written has hend]

theorem scanMarkup_of_isNameUnit {line : Nat} {u : Scalar} {us : List Scalar}
    (hu : isNameUnit u = true) :
    scanMarkup ⟨line, u :: us⟩ = (scanStart ⟨line, u :: us⟩).tokens StartTag.tokens := by
  have hne : ∀ c, isNameUnit (.char c) = false → u ≠ .char c := by
    rintro c hc rfl
    rw [hu] at hc
    cases hc
  rw [scanMarkup]
  split
  · simp_all
  · exact absurd (List.cons.inj ‹_›).1 (hne '/' (by decide))
  · exact absurd (List.cons.inj ‹_›).1 (hne '?' (by decide))
  · exact absurd (List.cons.inj ‹_›).1 (hne '!' (by decide))
  · rfl

theorem scanMarkup_start {line : Nat} {tag : String} {rest : List Scalar} {t : StartTag} {q : Place}
    (htag : PlainName tag) (h : scanStart ⟨line, units tag.toList ++ rest⟩ = .ok (t, q)) :
    scanMarkup ⟨line, units tag.toList ++ rest⟩ = .ok (t.tokens q.line, q) := by
  obtain ⟨u, us, hus, hu⟩ := exists_units_of_plainName htag
  rw [hus, List.cons_append] at h ⊢
  rw [scanMarkup_of_isNameUnit hu, h]
  rfl

theorem scanMarkup_end {line : Nat} {tag : String} {rest : List Scalar} (h : PlainName tag) :
    scanMarkup ⟨line, .char '/' :: (units tag.toList ++ .char '>' :: rest)⟩ =
      .ok ([.stop line ⟨"", tag⟩], ⟨line, rest⟩) := by
  simp only [scanMarkup, scanEnd, scanQName_plain h (show isNameUnit (.char '>') = false by decide),
    skipSpace_of_not_isSpace (show isSpace (.char '>') = false by decide), Scan.tokens]

end BMethod.Xml
