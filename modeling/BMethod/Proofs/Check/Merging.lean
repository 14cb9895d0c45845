import Mathlib
import BMethod.Check.Memory

/-!
# Merged configurations

A configuration file and the command line are merged when no two of their documents would be written
to one place, and otherwise the first two that would be are named. In memory, merging leaves all rows
and all configurations as they were: the documents are put together in a row of their own.
-/

namespace BMethod.Check

/-! ## Collisions -/

/-- The first document of a list that has the name of an earlier one, and that one. -/
structure FirstCollision (paths : List String) (i j : Nat) (first second : String) : Prop where
  before : i < j
  first_at : paths[i]? = some first
  second_at : paths[j]? = some second
  same : Path.base first = Path.base second
  apart : ((paths.take j).map Path.base).Nodup

namespace Config

theorem nodup_base_concat {seen : List String} {path : String} (h : (seen.map Path.base).Nodup)
    (hfind : seen.find? (Path.base · = Path.base path) = none) :
    ((seen ++ [path]).map Path.base).Nodup := by
  rw [List.map_append, List.map_singleton, List.nodup_append]
  refine ⟨h, List.nodup_singleton _, ?_⟩
  rintro a ha b hb rfl
  rw [List.mem_singleton] at hb
  obtain ⟨q, hq, hbase⟩ := List.mem_map.1 ha
  have := List.find?_eq_none.1 hfind q hq
  simp [hbase, hb] at this

theorem collisionAfter_eq_none {seen paths : List String} (h : (seen.map Path.base).Nodup) :
    collisionAfter seen paths = none ↔ ((seen ++ paths).map Path.base).Nodup := by
  induction paths generalizing seen with
  | nil => simp [collisionAfter, h]
  | cons path paths ih =>
    rw [collisionAfter]
    split
    · rename_i first hfind
      have hsame : Path.base first = Path.base path := by simpa using List.find?_some hfind
      have hmem : Path.base path ∈ seen.map Path.base :=
        List.mem_map.2 ⟨first, List.mem_of_find?_eq_some hfind, hsame⟩
      rw [List.map_append, List.map_cons]
      refine iff_of_false (by simp) fun hnodup => ?_
      exact List.disjoint_of_nodup_append hnodup hmem List.mem_cons_self
    · rename_i hfind
      rw [ih (nodup_base_concat h hfind), List.append_assoc, List.singleton_append]

theorem firstCollision_of_collisionAfter {seen paths : List String} {first second : String}
    (h : (seen.map Path.base).Nodup) (hsome : collisionAfter seen paths = some (first, second)) :
    ∃ i j, FirstCollision (seen ++ paths) i j first second := by
  induction paths generalizing seen with
  | nil => cases hsome
  | cons path paths ih =>
    rw [collisionAfter] at hsome
    split at hsome
    · rename_i hfind
      cases hsome
      obtain ⟨hsame, i, hi, hget, -⟩ := List.find?_eq_some_iff_getElem.1 hfind
      refine ⟨i, seen.length, hi, ?_, ?_, of_decide_eq_true hsame, ?_⟩
      · rw [List.getElem?_append_left hi, List.getElem?_eq_getElem hi, hget]
      · rw [List.getElem?_append_right (Nat.le_refl _), Nat.sub_self, List.getElem?_cons_zero]
      · rwa [List.take_left]
    · rename_i hfind
      rw [List.append_cons]
      exact ih (nodup_base_concat h hfind) hsome

theorem nodup_base_nil : (([] : List String).map Path.base).Nodup :=
  List.nodup_nil

theorem collision?_eq_none {paths : List String} :
    collision? paths = none ↔ (paths.map Path.base).Nodup :=
  collisionAfter_eq_none nodup_base_nil

theorem firstCollision_of_collision? {paths : List String} {first second : String}
    (h : collision? paths = some (first, second)) :
    ∃ i j, FirstCollision paths i j first second :=
  firstCollision_of_collisionAfter nodup_base_nil h

/-! ## Outcomes -/

theorem count_workersOf (n : Int) (processors : Nat) :
    ((workersOf n).count processors : Int) = if n ≤ 0 then (processors : Int) else n := by
  unfold workersOf
  split
  · rfl
  · exact Int.toNat_of_nonneg (by omega)

theorem one_le_count_workersOf (n : Int) {processors : Nat} (h : 1 ≤ processors) :
    1 ≤ (workersOf n).count processors := by
  have hcount := count_workersOf n processors
  split at hcount <;> omega

theorem merge_eq_ok_iff {file : Option Config} {flags : Config} {plan : Plan} :
    merge file flags = .ok plan ↔
      ((overlay file flags).output = "" ∨ ((overlay file flags).files.map Path.base).Nodup) ∧
        plan = ⟨(overlay file flags).files, workersOf (overlay file flags).workers,
          (overlay file flags).output⟩ := by
  have hnone : (if (overlay file flags).output = "" then none
      else collision? (overlay file flags).files) = none ↔
      (overlay file flags).output = "" ∨ ((overlay file flags).files.map Path.base).Nodup := by
    rw [← collision?_eq_none]
    split <;> simp [*]
  rw [← hnone]
  unfold merge
  dsimp only
  split
  · rename_i hcollision
    rw [hcollision]
    exact iff_of_false (fun h => by cases h) (by simp)
  · rename_i hcollision
    simp only [hcollision, true_and]
    constructor
    · rintro ⟨⟩
      rfl
    · rintro rfl
      rfl

theorem merge_eq_ok {file : Option Config} {flags : Config} {plan : Plan}
    (h : merge file flags = .ok plan) :
    (plan.output = "" ∨ (plan.files.map Path.base).Nodup) ∧
      ∀ processors, 1 ≤ processors → 1 ≤ plan.workers.count processors := by
  obtain ⟨hbases, rfl⟩ := merge_eq_ok_iff.1 h
  exact ⟨hbases, fun processors => one_le_count_workersOf _⟩

theorem merge_eq_error {file : Option Config} {flags : Config} {p : ConfigProblem}
    (h : merge file flags = .error p) :
    ∃ i j first second, FirstCollision (overlay file flags).files i j first second ∧
      p = .collision first second (Path.join (overlay file flags).output (Path.base second)) := by
  unfold merge at h
  dsimp only at h
  split at h
  · rename_i first second hcollision
    cases h
    split at hcollision
    · cases hcollision
    · obtain ⟨i, j, hfirst⟩ := firstCollision_of_collision? hcollision
      exact ⟨i, j, first, second, hfirst, rfl⟩
  · cases h

end Config

/-! ## Memory -/

/-- A part of a row that lies in it, with the places that it can grow into. -/
structure Slice.Valid (m : Memory) (s : Slice) : Prop where
  length_le : s.length ≤ s.capacity
  capacity_le : s.start + s.capacity ≤ (m.row s.row).length

theorem Slice.Valid.row_lt {m : Memory} {s : Slice} (h : s.Valid m) (hpos : 0 < s.capacity) :
    s.row < m.rows.length := by
  by_contra hrow
  have hle := h.capacity_le
  simp only [Memory.row, List.getElem?_eq_none (Nat.le_of_not_lt hrow), Option.getD_none,
    List.length_nil] at hle
  omega

/-- The documents of all configurations lie in their rows. -/
def Memory.Valid (m : Memory) : Prop :=
  ∀ c ∈ m.configs, c.files.Valid m

/-- A part of a row that was made after the first `old` ones, or that cannot grow. -/
def Slice.Apart (old : Nat) (s : Slice) : Prop :=
  s.capacity = 0 ∨ old ≤ s.row

/-- The first `old` rows and all configurations are as they were. -/
structure Memory.Kept (old : Nat) (m m' : Memory) : Prop where
  rows : ∀ n < old, m'.rows[n]? = m.rows[n]?
  size : m.rows.length ≤ m'.rows.length
  configs : m'.configs = m.configs

namespace Memory

variable {m m' : Memory} {s : Slice} {old : Nat}

theorem Kept.refl (old : Nat) (m : Memory) : Kept old m m :=
  ⟨fun _ _ => rfl, Nat.le_refl _, rfl⟩

theorem Kept.trans {m'' : Memory} (h : Kept old m m') (h' : Kept old m' m'') : Kept old m m'' :=
  ⟨fun n hn => (h'.rows n hn).trans (h.rows n hn), h.size.trans h'.size, h'.configs.trans h.configs⟩

theorem valid_nowhere (m : Memory) : Slice.nowhere.Valid m :=
  ⟨Nat.le_refl _, Nat.zero_le _⟩

theorem length_read (h : s.Valid m) : (m.read s).length = s.length := by
  have h₁ := h.length_le
  have h₂ := h.capacity_le
  simp only [read, List.length_take, List.length_drop]
  omega

theorem read_of_kept (h : Kept m.rows.length m m') (hs : s.Valid m) : m'.read s = m.read s := by
  by_cases hpos : 0 < s.capacity
  · simp only [read, row, h.rows _ (hs.row_lt hpos)]
  · have hle := hs.length_le
    have hlength : s.length = 0 := by omega
    simp [read, hlength]

theorem length_overwrite {place : Nat} (entries row : List String)
    (h : place + entries.length ≤ row.length) :
    (overwrite place entries row).length = row.length := by
  simp only [overwrite, List.length_append, List.length_take, List.length_drop]
  omega

theorem overwrite_nil (place : Nat) : overwrite place [] = id := by
  funext row
  simp [overwrite]

theorem take_drop_overwrite {start length : Nat} (entries row : List String)
    (h : start + length ≤ row.length) :
    ((overwrite (start + length) entries row).drop start).take (length + entries.length) =
      (row.drop start).take length ++ entries := by
  have hlength : (row.take (start + length)).length = start + length := by
    simpa using h
  have hpart : ((row.drop start).take length ++ entries).length = length + entries.length := by
    simp only [List.length_append, List.length_take, List.length_drop]
    omega
  unfold overwrite
  rw [List.append_assoc, List.drop_append_of_le_length (by omega), List.drop_take,
    Nat.add_sub_cancel_left, ← List.append_assoc, List.take_left' hpart]

/-- Documents were added to a part of a row: it has them at its end now, wherever it is, and the first
`old` rows are as they were. -/
structure Added (old : Nat) (m : Memory) (s : Slice) (entries : List String) (r : Memory × Slice) :
    Prop where
  kept : Kept old m r.1
  valid : r.2.Valid r.1
  apart : r.2.Apart old
  read : r.1.read r.2 = m.read s ++ entries

/-- Documents for which there is room are put into the row, which is no old one. -/
theorem added_in_place (hs : s.Valid m) (hapart : s.Apart old) {entries : List String}
    (hne : entries ≠ []) (hfits : s.length + entries.length ≤ s.capacity) :
    Added old m s entries
      ({ m with rows := m.rows.modify s.row (overwrite (s.start + s.length) entries) },
        { s with length := s.length + entries.length }) := by
  have hcapacity := hs.capacity_le
  have hpos := List.length_pos_iff.2 hne
  have hrow : s.row < m.rows.length := hs.row_lt (by omega)
  have hnew : ∀ n < old, s.row ≠ n := by
    rcases hapart with hzero | hle <;> omega
  have hget : m.row s.row = m.rows[s.row] := by simp [row, hrow]
  rw [hget] at hcapacity
  have hroom : s.start + s.length + entries.length ≤ m.rows[s.row].length := by omega
  have hlength := length_overwrite entries m.rows[s.row] hroom
  have hread := take_drop_overwrite entries m.rows[s.row] (Nat.le_of_add_right_le hroom)
  refine ⟨⟨fun n hn => ?_, by simp, rfl⟩, ⟨hfits, ?_⟩, hapart, ?_⟩
  · simp [hnew n hn]
  · simpa [row, hrow, hlength] using hcapacity
  · simpa [Memory.read, row, hrow] using hread

theorem added_in_new_row (hs : s.Valid m) (hold : old ≤ m.rows.length) (entries : List String)
    (room : Nat) :
    Added old m s entries
      ({ m with rows := m.rows ++ [m.read s ++ entries ++ List.replicate room ""] },
        ⟨m.rows.length, 0, s.length + entries.length, s.length + entries.length + room⟩) := by
  have hread := length_read hs
  refine ⟨⟨fun n hn => ?_, by simp, rfl⟩, ⟨Nat.le_add_right _ _, ?_⟩, .inr hold, ?_⟩
  · simp [List.getElem?_append_left (Nat.lt_of_lt_of_le hn hold)]
  · simp [row, hread, Nat.add_assoc]
  · have hlength : (m.read s ++ entries).length = s.length + entries.length := by simp [hread]
    simp only [Memory.read, row, List.getElem?_concat_length, Option.getD_some, List.drop_zero]
    exact List.take_left' hlength

/-- What is appended to a part apart from the old rows leaves them as they were. -/
theorem append_spec (spare : Nat → Nat → Nat) (hs : s.Valid m) (hold : old ≤ m.rows.length)
    (hapart : s.Apart old) (entries : List String) :
    Added old m s entries (m.append spare s entries) := by
  unfold append
  dsimp only
  split
  · rename_i hfits
    by_cases hne : entries = []
    · subst hne
      rw [overwrite_nil, List.modify_id]
      exact ⟨.refl old m, hs, hapart, (List.append_nil _).symm⟩
    · exact added_in_place hs hapart hne hfits
  · exact added_in_new_row hs hold entries _

theorem join_spec (spare : Nat → Nat → Nat) (first : Slice) {second : Slice}
    (hsecond : second.Valid m) :
    Kept m.rows.length m (m.join spare first second).1 ∧
      (m.join spare first second).1.read (m.join spare first second).2 =
        m.read first ++ m.read second := by
  -- The copy of the first list is in a new row, so that the second list can be put behind it.
  have hcopied := append_spec spare (valid_nowhere m) (Nat.le_refl _) (.inl rfl) (m.read first)
  have hjoined := append_spec spare hcopied.valid hcopied.kept.size hcopied.apart
    ((m.append spare .nowhere (m.read first)).1.read second)
  refine ⟨hcopied.kept.trans hjoined.kept, hjoined.read.trans ?_⟩
  have hempty : m.read .nowhere = [] := rfl
  rw [hcopied.read, hempty, List.nil_append, read_of_kept hcopied.kept hsecond]

theorem config_made (m : Memory) (c : ConfigCell) :
    ({ m with configs := m.configs ++ [c] } : Memory).config m.configs.length = c := by
  simp [config]

theorem Valid.config (h : m.Valid) (n : Nat) : (m.config n).files.Valid m := by
  unfold Memory.config
  cases hn : m.configs[n]? with
  | none => exact valid_nowhere m
  | some c => exact h c (List.mem_of_getElem? hn)

theorem overlay_spec (spare : Nat → Nat → Nat) (h : m.Valid) (file : Option Nat) (flags : Nat) :
    Kept m.rows.length m (m.overlay spare file flags).1 ∧
      (m.overlay spare file flags).1.value (m.overlay spare file flags).2 =
        Config.overlay (file.map fun n => m.value (m.config n)) (m.value (m.config flags)) := by
  cases file with
  | none => exact ⟨.refl _ m, rfl⟩
  | some file =>
    obtain ⟨hkept, hread⟩ := join_spec spare (m.config file).files (h.config flags)
    refine ⟨hkept, ?_⟩
    simp only [overlay, value, Option.map_some, Config.overlay, hread]
    rfl

end Memory

/-- A plan as a configuration of a machine with some processors. -/
def Plan.toConfig (processors : Nat) (plan : Plan) : Config :=
  ⟨plan.files, plan.workers.count processors, plan.output⟩

/-- Merging in memory has the outcome of merging, and changes nothing that was there. -/
theorem Memory.merge_spec {m : Memory} (spare : Nat → Nat → Nat) (processors : Nat) (h : m.Valid)
    (file : Option Nat) (flags : Nat) :
    let r := m.merge spare processors file flags
    r.2.map (fun n => r.1.value (r.1.config n)) =
        (Config.merge (file.map fun n => m.value (m.config n)) (m.value (m.config flags))).map
          (·.toConfig processors) ∧
      m.rows <+: r.1.rows ∧ m.configs <+: r.1.configs ∧
      ∀ c ∈ m.configs, r.1.value c = m.value c := by
  obtain ⟨hkept, hvalue⟩ := overlay_spec spare h file flags
  have hrows : m.rows <+: (m.overlay spare file flags).1.rows :=
    List.prefix_iff_getElem?.2 fun n hn => by
      rw [hkept.rows n hn, List.getElem?_eq_getElem hn]
  have hold : ∀ c ∈ m.configs, (m.overlay spare file flags).1.value c = m.value c := by
    intro c hc
    rw [value, value, read_of_kept hkept (h c hc)]
  unfold merge Config.merge
  rw [← hvalue]
  dsimp only [value]
  rcases if (m.overlay spare file flags).2.output = "" then none
    else Config.collision? ((m.overlay spare file flags).1.read
      (m.overlay spare file flags).2.files) with _ | ⟨first, second⟩
  · refine ⟨?_, hrows, hkept.configs ▸ List.prefix_append _ _, hold⟩
    refine congrArg Except.ok ?_
    simp only [config_made, Plan.toConfig, Config.count_workersOf]
    rfl
  · exact ⟨rfl, hrows, hkept.configs ▸ List.prefix_rfl, hold⟩

namespace Config

/-! ## Main result -/

theorem files_overlay (file : Option Config) (flags : Config) :
    (overlay file flags).files = file.elim [] (·.files) ++ flags.files := by
  cases file <;> rfl

theorem output_overlay (file : Option Config) (flags : Config) :
    (overlay file flags).output =
      if flags.output = "" then file.elim "" (·.output) else flags.output := by
  cases file with
  | none =>
    simp only [overlay, Option.elim_none]
    split
    · assumption
    · rfl
  | some file => rfl

theorem count_overlay (file : Option Config) (flags : Config) (processors : Nat) :
    ((workersOf (overlay file flags).workers).count processors : Int) =
      if 0 < flags.workers then flags.workers
      else if flags.workers = 0 ∧ 0 < file.elim 0 (·.workers) then file.elim 0 (·.workers)
      else processors := by
  rw [count_workersOf]
  cases file with
  | none =>
    simp only [overlay, Option.elim_none]
    split_ifs <;> omega
  | some file =>
    simp only [overlay, Option.elim_some]
    split_ifs <;> omega

/-- A file, if there is one, and the command line are merged exactly when nothing is written or the
documents of both, those of the file first, have different last names. The plan has these documents,
the output folder of the command line or else of the file, and the workers that the command line asks
for, or else the file, or else one for each processor. Otherwise the problem names the first document
that has the last name of an earlier one, and that one. In memory the outcome is the same, and all that
was there stays as it was, however the rows grow. -/
theorem merge_outcome (file : Option Config) (flags : Config) :
    let files := file.elim [] (·.files) ++ flags.files
    let output := if flags.output = "" then file.elim "" (·.output) else flags.output
    ((∃ plan, merge file flags = .ok plan) ↔ output = "" ∨ (files.map Path.base).Nodup) ∧
    (∀ plan, merge file flags = .ok plan →
      plan.files = files ∧ plan.output = output ∧
      ∀ processors : Nat,
        (plan.workers.count processors : Int) =
          (if 0 < flags.workers then flags.workers
          else if flags.workers = 0 ∧ 0 < file.elim 0 (·.workers) then file.elim 0 (·.workers)
          else processors) ∧
        (1 ≤ processors → 1 ≤ plan.workers.count processors)) ∧
    (∀ p, merge file flags = .error p →
      ∃ i j first second, FirstCollision files i j first second ∧
        p = .collision first second (Path.join output (Path.base second)) ∧
        p.message = "documents " ++ first ++ " and " ++ second ++ " would both be written to " ++
          Path.join output (Path.base second)) ∧
    ∀ (spare : Nat → Nat → Nat) (processors : Nat) (m : Memory) (fileRef : Option Nat)
      (flagsRef : Nat), m.Valid → (fileRef.map fun n => m.value (m.config n)) = file →
      m.value (m.config flagsRef) = flags →
      let r := m.merge spare processors fileRef flagsRef
      r.2.map (fun n => r.1.value (r.1.config n)) =
          (merge file flags).map (·.toConfig processors) ∧
        m.rows <+: r.1.rows ∧ m.configs <+: r.1.configs ∧
        ∀ c ∈ m.configs, r.1.value c = m.value c := by
  intro files output
  have hfiles : (overlay file flags).files = files := files_overlay file flags
  have houtput : (overlay file flags).output = output := output_overlay file flags
  refine ⟨?_, fun plan h => ?_, fun p h => ?_, ?_⟩
  · simp only [merge_eq_ok_iff, hfiles, houtput, exists_and_left, exists_eq, and_true]
  · obtain ⟨-, rfl⟩ := merge_eq_ok_iff.1 h
    exact ⟨hfiles, houtput, fun processors =>
      ⟨count_overlay file flags processors, one_le_count_workersOf _⟩⟩
  · obtain ⟨i, j, first, second, hfirst, rfl⟩ := merge_eq_error h
    rw [hfiles] at hfirst
    rw [houtput]
    exact ⟨i, j, first, second, hfirst, rfl, rfl⟩
  · rintro spare processors m fileRef flagsRef hm rfl rfl
    exact m.merge_spec spare processors hm fileRef flagsRef

/-- The documents of the command line stand in the place that the list of the file could grow into. -/
def sampleMemory : Memory :=
  ⟨[["in/a.xml", "more/a.xml"]], [⟨⟨0, 0, 1, 2⟩, 3, ""⟩, ⟨⟨0, 1, 1, 1⟩, 0, "out"⟩]⟩

theorem sampleMemory_valid : sampleMemory.Valid := by
  intro c hc
  fin_cases hc
  · exact ⟨by decide, by decide⟩
  · exact ⟨by decide, by decide⟩

/-- The documents collide, and the place behind the list of the file is not written to. -/
theorem merge_outcome_sample :
    sampleMemory.Valid ∧
    merge (some ⟨["in/a.xml"], 3, ""⟩) ⟨["more/a.xml"], 0, "out"⟩ =
      .error (.collision "in/a.xml" "more/a.xml" "out/a.xml") ∧
    (∃ i j first second, FirstCollision ["in/a.xml", "more/a.xml"] i j first second) ∧
    sampleMemory.rows <+: (sampleMemory.merge (fun _ n => n) 8 (some 0) 1).1.rows := by
  have herror : merge (some ⟨["in/a.xml"], 3, ""⟩) ⟨["more/a.xml"], 0, "out"⟩ =
      .error (.collision "in/a.xml" "more/a.xml" "out/a.xml") := by rfl
  obtain ⟨-, -, hcollision, hmemory⟩ :=
    merge_outcome (some ⟨["in/a.xml"], 3, ""⟩) ⟨["more/a.xml"], 0, "out"⟩
  obtain ⟨i, j, first, second, hfirst, -⟩ := hcollision _ herror
  obtain ⟨-, hrows, -⟩ :=
    hmemory (fun _ n => n) 8 sampleMemory (some 0) 1 sampleMemory_valid rfl rfl
  exact ⟨sampleMemory_valid, herror, ⟨i, j, first, second, hfirst⟩, hrows⟩

end Config

end BMethod.Check
