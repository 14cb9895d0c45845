import Mathlib
import BMethod.Check.FileList
import BMethod.Proofs.Text.Spelling

/-!
# Lists of documents and their text

A list of documents is added to by texts with commas in between. Only entries get in: they are not
empty, have no comma in them and no white space around them. So the text of a list gives the list
again, and a text with a comma in it does what its two parts do one after the other.
-/

namespace BMethod.Check

/-- A document that can be in a list. -/
structure IsEntry (s : String) : Prop where
  ne_empty : s ≠ ""
  no_comma : ',' ∉ s.toList
  trimmed : Text.trim s = s

/-! ## The entries of one text -/

theorem isEntry_of_mem_listEntries {s values : String} (h : s ∈ listEntries values) :
    IsEntry s := by
  obtain ⟨htrim, hne⟩ := List.mem_filter.1 h
  obtain ⟨part, hpart, rfl⟩ := List.mem_map.1 htrim
  obtain ⟨cs, hcs, rfl⟩ := List.mem_map.1 hpart
  refine ⟨by simpa using hne, ?_, Text.trim_trim _⟩
  rw [Text.trim, String.toList_ofList, String.toList_ofList]
  exact fun hcomma => (Text.splitChars_spec ',' _ cs hcs).1 (Text.mem_of_mem_trimChars hcomma)

theorem listEntries_append (x y : String) :
    listEntries (x ++ "," ++ y) = listEntries x ++ listEntries y := by
  have htext : (x ++ "," ++ y).toList = x.toList ++ ',' :: y.toList := by simp
  unfold listEntries Text.split
  rw [htext, Text.splitChars_append, List.map_append, List.map_append, List.filter_append]

theorem listEntries_entriesText {documents : List String} (h : ∀ s ∈ documents, IsEntry s) :
    listEntries (entriesText documents) = documents := by
  by_cases hne : documents = []
  · subst hne
    decide
  · have htrim : documents.map Text.trim = documents :=
      (List.map_congr_left fun s hs => (h s hs).trimmed).trans (List.map_id documents)
    unfold listEntries entriesText
    rw [Text.split_intercalate rfl hne fun s hs => (h s hs).no_comma, htrim, List.filter_eq_self]
    intro s hs
    simpa using (h s hs).ne_empty

/-! ## The entries of all texts -/

theorem isEntry_addEntries {documents : List String} (h : ∀ s ∈ documents, IsEntry s)
    (values : String) : ∀ s ∈ addEntries documents values, IsEntry s := by
  intro s hs
  rcases List.mem_append.1 hs with hs | hs
  · exact h s hs
  · exact isEntry_of_mem_listEntries hs

theorem isEntry_foldl {documents : List String} (h : ∀ s ∈ documents, IsEntry s)
    (lists : List String) : ∀ s ∈ lists.foldl addEntries documents, IsEntry s := by
  induction lists generalizing documents with
  | nil => exact h
  | cons values lists ih => exact ih (isEntry_addEntries h values)

/-- Whatever texts are added to the empty list one after the other, the list holds documents that are
not empty, without commas and without white space around them, and the text of the list, added to the
empty list, gives the list again. Two texts with a comma between them add, to any list, what the first
and then the second adds. -/
theorem documents_listed (lists documents : List String) (x y : String) :
    (∀ s ∈ lists.foldl addEntries [], s ≠ "" ∧ ',' ∉ s.toList ∧ Text.trim s = s) ∧
    addEntries [] (entriesText (lists.foldl addEntries [])) = lists.foldl addEntries [] ∧
    addEntries documents (x ++ "," ++ y) = addEntries (addEntries documents x) y := by
  have hentries : ∀ s ∈ lists.foldl addEntries [], IsEntry s := isEntry_foldl (by simp) lists
  refine ⟨fun s hs => ?_, ?_, ?_⟩
  · obtain ⟨hne, hcomma, htrim⟩ := hentries s hs
    exact ⟨hne, hcomma, htrim⟩
  · rw [addEntries, List.nil_append, listEntries_entriesText hentries]
  · rw [addEntries, listEntries_append, ← List.append_assoc]
    rfl

end BMethod.Check
