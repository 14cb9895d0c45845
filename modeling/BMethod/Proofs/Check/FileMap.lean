import Mathlib
import BMethod.Check.FileMap
import BMethod.Proofs.Check.Merging
import BMethod.Proofs.Check.Schedule
import BMethod.Proofs.Path

/-!
# Plans on files by their paths

The documents of a plan are written under different names. So, if their paths are clean, none is
written where another one is read or written, and every schedule of a plan has the same result.
-/

namespace BMethod.Check

/-! ## Files -/

namespace FileMap

theorem isName_of_read {m : FileMap} {path : String} {content : List Text.Scalar}
    (hclean : Path.clean path = path) (h : m.read path = .ok content) :
    Path.IsName (Path.base path) := by
  unfold read at h
  rw [hclean] at h
  split at h
  · cases h
  · rename_i hfolder
    exact Path.isName_base (by simpa using hfolder)

theorem isName_of_examineRead {m : FileMap} {path : String} {e : Element}
    (hclean : Path.clean path = path) (h : examineRead (m.read path) = .ok e) :
    Path.IsName (Path.base path) := by
  cases hread : m.read path with
  | error f =>
    rw [hread] at h
    cases h
  | ok content => exact isName_of_read hclean hread

theorem base_targetPath {output path : String} (houtput : output ≠ "")
    (h : Path.IsName (Path.base path)) : Path.base (targetPath output path) = Path.base path :=
  Path.base_join houtput h

theorem write_targetPath {output path : String} (m : FileMap) (text : String)
    (houtput : output ≠ "") (h : Path.IsName (Path.base path)) :
    m.write (targetPath output path) text =
      .ok (m.put (targetPath output path) (Text.Scalar.ofString text)) := by
  have hclean : Path.clean (targetPath output path) = targetPath output path :=
    Path.clean_join _ houtput
  have hfolder : Path.isFolder (targetPath output path) = false := by
    have hroot : Path.base path ≠ "/" := by
      intro hslash
      have := h.no_slash
      simp [hslash] at this
    simp [Path.isFolder, base_targetPath houtput h, h.ne_here, h.ne_parent, hroot]
  simp only [write, hclean, hfolder]
  rfl

theorem put_content_self (m : FileMap) (path : String) (content : List Text.Scalar) :
    (m.put path content).content path = some content := by
  simp [put]

theorem put_content_of_ne (m : FileMap) {path p : String} (content : List Text.Scalar)
    (h : p ≠ path) : (m.put path content).content p = m.content p := by
  simp [put, h]

theorem read_congr {m m' : FileMap} {path : String}
    (h : m.content (Path.clean path) = m'.content (Path.clean path)) :
    m.read path = m'.read path := by
  simp only [read, h]

theorem write_outcome (m m' : FileMap) (path text : String) :
    (m.write path text).map (fun _ => ()) = (m'.write path text).map (fun _ => ()) := by
  unfold write
  split <;> rfl

end FileMap

/-! ## Documents with different names -/

def FileMap.batch (d : FileMap) (output : String) (files : List String) : Batch FileMap :=
  ⟨storage, output, files, d⟩

theorem FileMap.batch_read (d m : FileMap) (output path : String) (files : List String) :
    (d.batch output files).storage.read m path = m.read path := by
  rw [batch, storage]

theorem FileMap.batch_write (d m : FileMap) (output path text : String) (files : List String) :
    (d.batch output files).storage.write m path text = m.write path text := by
  rw [batch, storage]

theorem FileMap.batch_examined (d : FileMap) (output path : String) (files : List String) :
    (d.batch output files).examined path = examineRead (d.read path) := by
  rw [Batch.examined, batch_read, batch]

/-- The files are as before, but for the normal forms of the documents that pass the check. -/
structure Normalized (output : String) (files : List String) (d d' : FileMap) : Prop where
  target {path : String} {e : Element} (listed : path ∈ files)
    (passed : examineRead (d.read path) = .ok e) :
    d'.content (targetPath output path) = some (Text.Scalar.ofString e.encode)
  rest {place : String} (untouched : ∀ path ∈ files, ∀ e, examineRead (d.read path) = .ok e →
    place ≠ targetPath output path) : d'.content place = d.content place

theorem Normalized.unique {output : String} {files : List String} {d d₁ d₂ : FileMap}
    (h₁ : Normalized output files d d₁) (h₂ : Normalized output files d d₂) : d₁ = d₂ := by
  apply FileMap.ext
  funext place
  by_cases h : ∃ path ∈ files, ∃ e, examineRead (d.read path) = .ok e ∧
    place = targetPath output path
  · obtain ⟨path, listed, e, passed, rfl⟩ := h
    rw [h₁.target listed passed, h₂.target listed passed]
  · push Not at h
    rw [h₁.rest h, h₂.rest h]

section Names

variable {d : FileMap} {output path : String} {files paths : List String}

theorem targetPath_ne_of_base {q : String} (houtput : output ≠ "")
    (hname : Path.IsName (Path.base path)) (h : Path.base q ≠ Path.base path) :
    q ≠ targetPath output path := by
  rintro rfl
  exact h (FileMap.base_targetPath houtput hname)

theorem place_passed {e : Element} (houtput : output ≠ "") (hclean : Path.clean path = path)
    (h : examineRead (d.read path) = .ok e) (m : FileMap) :
    (d.batch output files).place m path =
      m.put (targetPath output path) (Text.Scalar.ofString e.encode) := by
  have hexamined := (d.batch_examined output path files).trans h
  have hname := FileMap.isName_of_examineRead hclean h
  refine Batch.place_written hexamined houtput ?_
  rw [FileMap.batch_write]
  exact m.write_targetPath e.encode houtput hname

theorem place_content_of_ne {place : String} (hclean : Path.clean path = path) (m : FileMap)
    (h : output ≠ "" → ∀ e, examineRead (d.read path) = .ok e → place ≠ targetPath output path) :
    ((d.batch output files).place m path).content place = m.content place := by
  by_cases houtput : output = ""
  · rw [Batch.place_without_output houtput]
  cases hexamined : examineRead (d.read path) with
  | error p =>
    rw [Batch.place_failed ((d.batch_examined output path files).trans hexamined)]
  | ok e =>
    rw [place_passed houtput hclean hexamined, FileMap.put_content_of_ne]
    exact h houtput e hexamined

theorem foldl_place_content_of_ne {place : String} (hclean : ∀ path ∈ paths, Path.clean path = path)
    (m : FileMap) (h : output ≠ "" → ∀ path ∈ paths, ∀ e, examineRead (d.read path) = .ok e →
      place ≠ targetPath output path) :
    (paths.foldl (d.batch output files).place m).content place = m.content place := by
  induction paths generalizing m with
  | nil => rfl
  | cons path paths ih =>
    rw [List.forall_mem_cons] at hclean
    rw [List.foldl_cons, ih hclean.2 _ fun houtput => (List.forall_mem_cons.1 (h houtput)).2]
    exact place_content_of_ne hclean.1 m fun houtput => (List.forall_mem_cons.1 (h houtput)).1

theorem foldl_place_content_target {e : Element} (houtput : output ≠ "")
    (hclean : ∀ path ∈ paths, Path.clean path = path) (hbases : (paths.map Path.base).Nodup)
    (m : FileMap) (listed : path ∈ paths) (passed : examineRead (d.read path) = .ok e) :
    (paths.foldl (d.batch output files).place m).content (targetPath output path) =
      some (Text.Scalar.ofString e.encode) := by
  induction paths generalizing m with
  | nil => cases listed
  | cons q paths ih =>
    rw [List.map_cons, List.nodup_cons] at hbases
    rw [List.foldl_cons]
    obtain rfl | hlater := List.mem_cons.1 listed
    · -- What is written later goes to other names.
      have hname := FileMap.isName_of_examineRead (hclean path listed) passed
      rw [foldl_place_content_of_ne fun r hr => hclean r (List.mem_cons_of_mem _ hr),
        place_passed houtput (hclean path listed) passed, FileMap.put_content_self]
      intro _ r hr e' hr'
      have hr'' := FileMap.isName_of_examineRead (hclean r (List.mem_cons_of_mem _ hr)) hr'
      refine targetPath_ne_of_base houtput hr'' ?_
      rw [FileMap.base_targetPath houtput hname]
      exact fun heq => hbases.1 (List.mem_map.2 ⟨r, hr, heq.symm⟩)
    · exact ih (fun r hr => hclean r (List.mem_cons_of_mem _ hr)) hbases.2 _ hlater

theorem normalized_foldl_place (houtput : output ≠ "")
    (hclean : ∀ path ∈ files, Path.clean path = path) (hbases : (files.map Path.base).Nodup)
    (hperm : paths.Perm files) :
    Normalized output files d (paths.foldl (d.batch output files).place d) where
  target listed passed :=
    foldl_place_content_target houtput (fun path hpath => hclean path (hperm.subset hpath))
      ((hperm.map _).nodup_iff.2 hbases) d (hperm.symm.subset listed) passed
  rest untouched :=
    foldl_place_content_of_ne (fun path hpath => hclean path (hperm.subset hpath)) d
      fun _ path hpath => untouched path (hperm.subset hpath)

theorem foldl_place_perm (hclean : ∀ path ∈ files, Path.clean path = path)
    (hbases : output = "" ∨ (files.map Path.base).Nodup) (hperm : paths.Perm files) :
    paths.foldl (d.batch output files).place d = files.foldl (d.batch output files).place d := by
  by_cases houtput : output = ""
  · rw [Batch.foldl_place_without_output houtput, Batch.foldl_place_without_output houtput]
  · have hnodup := hbases.resolve_left houtput
    exact (normalized_foldl_place houtput hclean hnodup hperm).unique
      (normalized_foldl_place houtput hclean hnodup (.refl files))

theorem base_ne_of_getElem? {q : String} {i j : Nat} (hbases : (files.map Path.base).Nodup)
    (hi : files[i]? = some path) (hj : files[j]? = some q) (hne : i ≠ j) :
    Path.base path ≠ Path.base q := by
  intro hbase
  have hlt : i < (files.map Path.base).length := by
    rw [List.length_map]
    exact (List.getElem?_eq_some_iff.1 hi).1
  refine hne ((List.getElem?_inj hlt hbases).1 ?_)
  rw [List.getElem?_map, List.getElem?_map, hi, hj, Option.map_some, Option.map_some, hbase]

/-- Documents with clean paths and different names do not disturb each other. -/
theorem independent_batch (d : FileMap) (hclean : ∀ path ∈ files, Path.clean path = path)
    (hbases : output = "" ∨ (files.map Path.base).Nodup) : (d.batch output files).Independent where
  read {jobs job path} file other := by
    rw [FileMap.batch_read, FileMap.batch_read]
    apply FileMap.read_congr
    rw [hclean path (List.mem_of_getElem? file)]
    have hlisted : ∀ q ∈ jobs.filterMap (files[·]?), Path.clean q = q := by
      intro q hq
      obtain ⟨j, -, hj⟩ := List.mem_filterMap.1 hq
      exact hclean q (List.mem_of_getElem? hj)
    refine foldl_place_content_of_ne hlisted d ?_
    intro houtput q hq e passed
    obtain ⟨j, hjobs, hj⟩ := List.mem_filterMap.1 hq
    have hne : job ≠ j := fun heq => other (heq ▸ hjobs)
    exact targetPath_ne_of_base houtput (FileMap.isName_of_examineRead (hlisted q hq) passed)
      (base_ne_of_getElem? (hbases.resolve_left houtput) file hj hne)
  write _ _ text := by
    rw [FileMap.batch_write, FileMap.batch_write]
    exact FileMap.write_outcome _ _ _ text

end Names

/-! ## Every schedule of a plan -/

namespace Schedule

/-- Workers that check the documents of a plan always go on until all have finished, and they do
finish. Whatever the order of their steps, each document then has the report it has alone, the
problems that were collected are those of the reports, and the files are those that are left when
one document is checked after the other: the normal forms of the documents that pass are there, and
nothing else has changed. -/
theorem result_unique {file : Option Config} {flags : Config} {plan : Plan}
    (hplan : Config.merge file flags = .ok plan)
    (hclean : ∀ path ∈ plan.files, Path.clean path = path)
    {processors : Nat} (hprocessors : 1 ≤ processors) (d : FileMap) :
    (WellFounded fun t s => Step FileMap.storage plan.files plan.output s t) ∧
    ∀ s : State FileMap, Reachable FileMap.storage plan.files plan.output
        (State.initial (plan.workers.count processors) d plan.files) s →
      (¬ s.Final → ∃ t, Step FileMap.storage plan.files plan.output s t) ∧
      (s.Final →
        s.reports = plan.files.map (fun path => some
          ⟨path, ((checkFile FileMap.storage.fileSystem plan.output path).run d).1⟩) ∧
        s.problems.Perm (s.reports.filterMap fun r => r.bind Report.failure?) ∧
        (plan.output = "" → s.disk = d) ∧
        (plan.output ≠ "" → Normalized plan.output plan.files d s.disk) ∧
        s.reports = ((run FileMap.storage.fileSystem plan.output plan.files).run d).1.map some ∧
        s.disk = ((run FileMap.storage.fileSystem plan.output plan.files).run d).2) := by
  obtain ⟨hbases, hworkers⟩ := Config.merge_eq_ok hplan
  let b := d.batch plan.output plan.files
  have hb : b.Independent := independent_batch d hclean hbases
  refine ⟨wellFounded_step _ _ _, fun s hs => ?_⟩
  obtain ⟨l, hinv⟩ := inv_reachable hb (hworkers processors hprocessors) hs
  refine ⟨hinv.progress, fun hfinal => ?_⟩
  obtain ⟨hreports, hproblems, paths, hperm, hdisk⟩ := hinv.final hfinal
  have hrun : (run FileMap.storage.fileSystem plan.output plan.files).run d =
      (plan.files.map b.report, plan.files.foldl b.place d) := Batch.run_eq (b := b) hb
  refine ⟨hreports, ?_, fun houtput => ?_, fun houtput => ?_, ?_, ?_⟩
  · rw [hreports, List.filterMap_map]
    rwa [List.filterMap_map] at hproblems
  · exact hdisk.trans (Batch.foldl_place_without_output houtput paths)
  · rw [hdisk]
    exact normalized_foldl_place houtput hclean (hbases.resolve_left houtput) hperm
  · rw [hrun, hreports, List.map_map]
    rfl
  · rw [hrun, hdisk]
    exact foldl_place_perm hclean hbases hperm

/-- Three documents, one of which is in the output folder. -/
def sampleConfig : Config :=
  ⟨["in/a.xml", "in/b.xml", "out/c.xml"], 2, "out"⟩

/-- One of the documents is fine, one is missing, and one is cut off. -/
def sampleFiles : FileMap where
  content path :=
    if path = "in/a.xml" then some (Text.Scalar.ofString "<a></a>")
    else if path = "out/c.xml" then some (Text.Scalar.ofString "<c>")
    else none

theorem result_unique_sample :
    Config.merge none sampleConfig = .ok ⟨sampleConfig.files, .fixed 2, "out"⟩ ∧
    (∀ path ∈ sampleConfig.files, Path.clean path = path) ∧
    ∀ s : State FileMap, Reachable FileMap.storage sampleConfig.files "out"
        (State.initial 2 sampleFiles sampleConfig.files) s → s.Final →
      s.reports.map (·.map fun r => (r.path, r.isFailed)) =
        [some ("in/a.xml", false), some ("in/b.xml", true), some ("out/c.xml", true)] ∧
      s.problems.length = 2 ∧
      s.disk.content "out/a.xml" =
        some (Text.Scalar.ofString "<?xml version=\"1.0\" encoding=\"UTF-8\"?>\n<a/>\n") ∧
      s.disk.content "out/c.xml" = some (Text.Scalar.ofString "<c>") := by
  have hplan : Config.merge none sampleConfig = .ok ⟨sampleConfig.files, .fixed 2, "out"⟩ := by
    rfl
  have hclean : ∀ path ∈ sampleConfig.files, Path.clean path = path := by decide +kernel
  refine ⟨hplan, hclean, fun s hs hfinal => ?_⟩
  obtain ⟨hreports, hproblems, -, -, -, hdisk⟩ :=
    ((result_unique hplan hclean Nat.one_pos sampleFiles).2 s hs).2 hfinal
  rw [hproblems.length_eq, hreports, hdisk]
  decide +kernel

end Schedule

end BMethod.Check
