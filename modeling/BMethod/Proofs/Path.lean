import Mathlib
import BMethod.Path
import BMethod.Proofs.Text.Spelling

/-!
# Clean paths

Cleaning a path twice is cleaning it once, and the last name of a path in a folder is the name that
was put there.
-/

namespace BMethod.Path

/-! ## Parts of paths -/

/-- What stands between the slashes of a path, where there is something. -/
def parts (path : String) : List String :=
  (Text.split '/' path).filter (· ≠ "")

/-- What can stand between slashes. -/
structure IsPart (s : String) : Prop where
  ne_empty : s ≠ ""
  no_slash : '/' ∉ s.toList

/-- A part that leads to something in a folder. -/
structure IsName (s : String) : Prop extends IsPart s where
  ne_here : s ≠ "."
  ne_parent : s ≠ ".."

theorem isPart_of_mem_parts {s path : String} (h : s ∈ parts path) : IsPart s := by
  obtain ⟨hsplit, hne⟩ := List.mem_filter.1 h
  obtain ⟨cs, hcs, rfl⟩ := List.mem_map.1 hsplit
  refine ⟨by simpa using hne, ?_⟩
  rw [String.toList_ofList]
  exact (Text.splitChars_spec '/' _ cs hcs).1

theorem parts_append_slash (folder path : String) :
    parts (folder ++ "/" ++ path) = parts folder ++ parts path := by
  have htext : (folder ++ "/" ++ path).toList = folder.toList ++ '/' :: path.toList := by simp
  unfold parts Text.split
  rw [htext, Text.splitChars_append, List.map_append, List.filter_append]

theorem parts_slash (path : String) : parts ("/" ++ path) = parts path := by
  have h := parts_append_slash "" path
  rwa [String.empty_append] at h

theorem parts_intercalate {names : List String} (h : ∀ s ∈ names, IsPart s) :
    parts ("/".intercalate names) = names := by
  cases names with
  | nil => rfl
  | cons name names =>
    unfold parts
    rw [Text.split_intercalate rfl (by simp) fun s hs => (h s hs).no_slash, List.filter_eq_self]
    intro s hs
    simpa using (h s hs).ne_empty

theorem parts_name {name : String} (h : IsPart name) : parts name = [name] := by
  have hname : ∀ s ∈ [name], IsPart s := by simpa using h
  simpa using parts_intercalate hname

theorem intercalate_ne_empty {names : List String} (h : ∀ s ∈ names, IsPart s) (hne : names ≠ []) :
    "/".intercalate names ≠ "" := by
  intro hempty
  have hparts := parts_intercalate h
  rw [hempty] at hparts
  exact hne hparts.symm

theorem isAbsolute_slash (path : String) : isAbsolute ("/" ++ path) = true := by
  simp [isAbsolute]

theorem isAbsolute_intercalate {names : List String} (h : ∀ s ∈ names, IsPart s) :
    isAbsolute ("/".intercalate names) = false := by
  cases names with
  | nil => rfl
  | cons name names =>
    obtain ⟨hne, hslash⟩ := h name List.mem_cons_self
    have hchars : name.toList ≠ [] := by simpa using hne
    obtain ⟨c, cs, hcs⟩ := List.exists_cons_of_ne_nil hchars
    have hc : c ≠ '/' := by
      rintro rfl
      exact hslash (by simp [hcs])
    have hhead : ("/".intercalate (name :: names)).toList.head? = some c := by
      cases names <;> simp [String.toList_intercalate, List.intercalate, hcs]
    rw [isAbsolute, hhead]
    simpa using hc

/-! ## The names of a clean path -/

/-- The names that lead from the start of a clean path to a folder, last name first. Only paths that
are not absolute go up, and they do so at the start. -/
inductive Stack (absolute : Bool) : List String → Prop where
  | start : Stack absolute []
  | up {stack : List String} (relative : absolute = false) (ups : ∀ s ∈ stack, s = "..") :
    Stack absolute stack → Stack absolute (".." :: stack)
  | down {name : String} {stack : List String} (isName : IsName name) :
    Stack absolute stack → Stack absolute (name :: stack)

section

variable {absolute : Bool} {stack : List String}

theorem enter_name {name : String} (h : IsName name) : enter absolute stack name = name :: stack := by
  unfold enter
  rw [if_neg (by simp [h.ne_empty, h.ne_here]), if_neg h.ne_parent]

theorem enter_parent_of_ups (hrelative : absolute = false) (hups : ∀ s ∈ stack, s = "..") :
    enter absolute stack ".." = ".." :: stack := by
  cases stack with
  | nil => simp [enter, hrelative]
  | cons top below => simp [enter, hups top List.mem_cons_self]

theorem Stack.isPart (h : Stack absolute stack) : ∀ s ∈ stack, IsPart s := by
  induction h with
  | start => simp
  | up _ _ _ ih => exact List.forall_mem_cons.2 ⟨⟨by decide, by decide⟩, ih⟩
  | down hname _ ih => exact List.forall_mem_cons.2 ⟨hname.toIsPart, ih⟩

theorem Stack.enter_parent (h : Stack absolute stack) :
    Stack absolute (enter absolute stack "..") := by
  cases h with
  | start =>
    cases absolute with
    | false => exact .up rfl (by simp) .start
    | true => exact .start
  | up hrelative hups hstack =>
    have hups' := List.forall_mem_cons (p := (· = "..")).2 ⟨rfl, hups⟩
    rw [enter_parent_of_ups hrelative hups']
    exact .up hrelative hups' (.up hrelative hups hstack)
  | down hname hstack =>
    simpa [enter, hname.ne_parent] using hstack

theorem Stack.enter (h : Stack absolute stack) {name : String} (hname : IsPart name) :
    Stack absolute (Path.enter absolute stack name) := by
  by_cases hhere : name = "."
  · subst hhere
    exact h
  by_cases hup : name = ".."
  · rw [hup]
    exact h.enter_parent
  · have hn : IsName name := ⟨hname, hhere, hup⟩
    rw [enter_name hn]
    exact .down hn h

theorem Stack.foldl_enter (h : Stack absolute stack) {names : List String}
    (hnames : ∀ s ∈ names, IsPart s) :
    Stack absolute (names.foldl (Path.enter absolute) stack) := by
  induction names generalizing stack with
  | nil => exact h
  | cons name names ih =>
    rw [List.forall_mem_cons] at hnames
    exact ih (h.enter hnames.1) hnames.2

/-- Following the names of a clean path gives them again. -/
theorem Stack.foldl_enter_reverse (h : Stack absolute stack) :
    stack.reverse.foldl (Path.enter absolute) [] = stack := by
  induction h with
  | start => rfl
  | up hrelative hups _ ih =>
    rw [List.reverse_cons, List.foldl_append, ih, List.foldl_cons, List.foldl_nil,
      enter_parent_of_ups hrelative hups]
  | down hname _ ih =>
    rw [List.reverse_cons, List.foldl_append, ih, List.foldl_cons, List.foldl_nil,
      enter_name hname]

end

theorem cleanNames_eq (path : String) :
    cleanNames path = ((parts path).foldl (enter (isAbsolute path)) []).reverse := by
  have hskip : ∀ stack name, (if decide (name ≠ "") = true then enter (isAbsolute path) stack name
      else stack) = enter (isAbsolute path) stack name := by
    intro stack name
    by_cases h : name = "" <;> simp [h, enter]
  unfold cleanNames parts
  rw [List.foldl_filter]
  simp only [hskip]

theorem stack_cleanNames (path : String) :
    Stack (isAbsolute path) (cleanNames path).reverse := by
  rw [cleanNames_eq, List.reverse_reverse]
  exact Stack.start.foldl_enter fun s hs => isPart_of_mem_parts hs

/-! ## Cleaning -/

section

variable {absolute : Bool} {names : List String}

def ofNames (absolute : Bool) (names : List String) : String :=
  if absolute then "/" ++ "/".intercalate names
  else if names = [] then "."
  else "/".intercalate names

theorem isAbsolute_ofNames (h : Stack absolute names.reverse) :
    isAbsolute (ofNames absolute names) = absolute := by
  have hparts : ∀ s ∈ names, IsPart s := fun s hs => h.isPart s (List.mem_reverse.2 hs)
  unfold ofNames
  cases absolute with
  | true => exact isAbsolute_slash _
  | false =>
    rw [if_neg Bool.false_ne_true]
    split
    · rfl
    · exact isAbsolute_intercalate hparts

theorem parts_ofNames (h : Stack absolute names.reverse) :
    parts (ofNames absolute names) = if absolute = false ∧ names = [] then ["."] else names := by
  have hparts : ∀ s ∈ names, IsPart s := fun s hs => h.isPart s (List.mem_reverse.2 hs)
  unfold ofNames
  cases absolute with
  | true => simp [parts_slash, parts_intercalate hparts]
  | false =>
    simp only [Bool.false_eq_true, if_false, true_and]
    split
    · rfl
    · exact parts_intercalate hparts

theorem cleanNames_ofNames (h : Stack absolute names.reverse) :
    cleanNames (ofNames absolute names) = names := by
  rw [cleanNames_eq, isAbsolute_ofNames h, parts_ofNames h]
  split
  · rename_i hempty
    rw [hempty.2]
    rfl
  · have hfold := h.foldl_enter_reverse
    rw [List.reverse_reverse] at hfold
    rw [hfold, List.reverse_reverse]

end

theorem clean_eq_ofNames (path : String) :
    clean path = ofNames (isAbsolute path) (cleanNames path) := by
  have hparts : ∀ s ∈ cleanNames path, IsPart s :=
    fun s hs => (stack_cleanNames path).isPart s (List.mem_reverse.2 hs)
  unfold clean ofNames
  by_cases hempty : cleanNames path = []
  · simp [hempty]
  · simp [hempty, intercalate_ne_empty hparts hempty]

theorem clean_clean (path : String) : clean (clean path) = clean path := by
  have hstack := stack_cleanNames path
  rw [clean_eq_ofNames (clean path), clean_eq_ofNames path, isAbsolute_ofNames hstack,
    cleanNames_ofNames hstack]

/-! ## Last names -/

theorem base_eq (path : String) :
    base path = if path = "" then "." else (parts path).getLast?.getD "/" := rfl

theorem isName_base {path : String} (h : isFolder path = false) : IsName (base path) := by
  simp only [isFolder, Bool.or_eq_false_iff, decide_eq_false_iff_not] at h
  obtain ⟨⟨hhere, hparent⟩, hroot⟩ := h
  refine ⟨?_, hhere, hparent⟩
  rw [base_eq] at hhere hroot ⊢
  split at hhere
  · exact absurd rfl hhere
  · rename_i hne
    rw [if_neg hne] at hroot ⊢
    cases hlast : (parts path).getLast? with
    | none =>
      rw [hlast] at hroot
      exact absurd rfl hroot
    | some s => exact isPart_of_mem_parts (List.mem_of_getLast? hlast)

theorem join_eq {folder : String} (path : String) (h : folder ≠ "") :
    join folder path = clean (folder ++ "/" ++ path) :=
  if_pos h

theorem clean_join {folder : String} (path : String) (h : folder ≠ "") :
    clean (join folder path) = join folder path := by
  rw [join_eq path h, clean_clean]

theorem cleanNames_in_folder {name : String} (folder : String) (h : IsName name) :
    ∃ names, cleanNames (folder ++ "/" ++ name) = names ++ [name] := by
  rw [cleanNames_eq, parts_append_slash, parts_name h.toIsPart, List.foldl_append, List.foldl_cons,
    List.foldl_nil, enter_name h, List.reverse_cons]
  exact ⟨_, rfl⟩

theorem base_join {folder name : String} (hfolder : folder ≠ "") (h : IsName name) :
    base (join folder name) = name := by
  obtain ⟨names, hnames⟩ := cleanNames_in_folder folder h
  have hstack := stack_cleanNames (folder ++ "/" ++ name)
  have hparts : parts (join folder name) = names ++ [name] := by
    rw [join_eq name hfolder, clean_eq_ofNames, parts_ofNames hstack, hnames, if_neg (by simp)]
  have hne : join folder name ≠ "" := by
    intro hempty
    rw [hempty] at hparts
    simp [parts, Text.split, Text.splitChars] at hparts
  rw [base_eq, if_neg hne, hparts, List.getLast?_concat, Option.getD_some]

end BMethod.Path
