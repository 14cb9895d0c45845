import Mathlib
import BMethod.Check.Run

/-!
# Files that do not disturb each other

A batch of files is independent when what is written for some of them changes nothing for the
others. Then each file has the outcome it has alone, and checking one file after the other leaves
what writing their normal forms leaves.
-/

namespace BMethod.Check

variable {σ : Type}

/-! ## Checking one file -/

theorem run_bind {α β : Type} {x : StateM σ α} {d d' : σ} {a : α} (h : x.run d = (a, d'))
    (f : α → StateM σ β) : (x >>= f).run d = (f a).run d' := by
  change (f (x.run d).1).run (x.run d).2 = (f a).run d'
  rw [h]

namespace Storage

variable (st : Storage σ)

theorem run_read (path : String) (d : σ) :
    (st.fileSystem.read path).run d = (st.read d path, d) := rfl

theorem run_write_ok {path text : String} {d d' : σ} (h : st.write d path text = .ok d') :
    (st.fileSystem.write path text).run d = (.ok (), d') := by
  change (Storage.change (st.write · path text)).run d = _
  rw [Storage.change, run_bind (show (get : StateM σ σ).run d = (d, d) from rfl), h]
  rfl

theorem run_write_error {path text : String} {d : σ} {f : SystemFault}
    (h : st.write d path text = .error f) :
    (st.fileSystem.write path text).run d = (.error f, d) := by
  change (Storage.change (st.write · path text)).run d = _
  rw [Storage.change, run_bind (show (get : StateM σ σ).run d = (d, d) from rfl), h]
  rfl

end Storage

section

variable {st : Storage σ} {output path : String} {d : σ}

theorem checkFile_failed {p : Problem} (h : examineRead (st.read d path) = .error p) :
    (checkFile st.fileSystem output path).run d = (.error p, d) := by
  rw [checkFile, run_bind (st.run_read path d), h]
  rfl

theorem checkFile_unwritten {e : Element} (h : examineRead (st.read d path) = .ok e) :
    (checkFile st.fileSystem "" path).run d = (.ok (), d) := by
  rw [checkFile, run_bind (st.run_read path d), h]
  rfl

theorem checkFile_written {e : Element} {d' : σ} (h : examineRead (st.read d path) = .ok e)
    (houtput : output ≠ "") (hwrite : st.write d (targetPath output path) e.encode = .ok d') :
    (checkFile st.fileSystem output path).run d = (.ok (), d') := by
  rw [checkFile, run_bind (st.run_read path d), h]
  dsimp only
  rw [if_neg houtput, run_bind (st.run_write_ok hwrite)]
  rfl

theorem checkFile_refused {e : Element} {f : SystemFault} (h : examineRead (st.read d path) = .ok e)
    (houtput : output ≠ "") (hwrite : st.write d (targetPath output path) e.encode = .error f) :
    (checkFile st.fileSystem output path).run d = (.error (.unwritten f), d) := by
  rw [checkFile, run_bind (st.run_read path d), h]
  dsimp only
  rw [if_neg houtput, run_bind (st.run_write_error hwrite)]
  rfl

end

/-! ## Batches -/

theorem filterMap_getElem?_range {α : Type} (as : List α) :
    (List.range as.length).filterMap (as[·]?) = as := by
  induction as using List.reverseRecOn with
  | nil => rfl
  | append_singleton as a ih =>
    have hinit : (List.range as.length).filterMap ((as ++ [a])[·]?) = as := by
      refine (List.filterMap_congr fun k hk => ?_).trans ih
      exact List.getElem?_append_left (List.mem_range.1 hk)
    rw [List.length_append, List.length_singleton, List.range_succ, List.filterMap_append, hinit]
    simp

def Report.failure? (r : Report) : Option (String × Problem) :=
  r.problem?.map (r.path, ·)

/-- Files to check, and what holds them at the start. -/
structure Batch (σ : Type) where
  storage : Storage σ
  output : String
  files : List String
  start : σ

namespace Batch

variable (b : Batch σ)

def examined (path : String) : Except Problem Element :=
  examineRead (b.storage.read b.start path)

/-- The outcome of checking a file alone. -/
def alone (path : String) : Except Problem Unit :=
  ((checkFile b.storage.fileSystem b.output path).run b.start).1

def report (path : String) : Report :=
  ⟨path, b.alone path⟩

/-- What the file with a number adds to the problems of a run. -/
def failure? (job : Nat) : Option (String × Problem) :=
  (b.files[job]?).bind fun path => (b.report path).failure?

/-- Writes the normal form of a file, if it has one and there is an output folder. -/
def place (d : σ) (path : String) : σ :=
  match b.examined path with
  | .error _ => d
  | .ok e =>
    if b.output = "" then d
    else
      match b.storage.write d (targetPath b.output path) e.encode with
      | .ok d => d
      | .error _ => d

/-- What there is after some files were written, given by their numbers. -/
def placed (jobs : List Nat) : σ :=
  (jobs.filterMap (b.files[·]?)).foldl b.place b.start

/-- What is written for some files changes nothing for another one: the same can be read, and the
same is refused. -/
structure Independent : Prop where
  read {jobs : List Nat} {job : Nat} {path : String} (file : b.files[job]? = some path)
    (other : job ∉ jobs) : b.storage.read (b.placed jobs) path = b.storage.read b.start path
  write {jobs : List Nat} {job : Nat} {path : String} (file : b.files[job]? = some path)
    (other : job ∉ jobs) (text : String) :
    (b.storage.write (b.placed jobs) (targetPath b.output path) text).map (fun _ => ()) =
      (b.storage.write b.start (targetPath b.output path) text).map (fun _ => ())

variable {b} {path : String} {d : σ}

theorem failure?_ok {job : Nat} (file : b.files[job]? = some path) (h : b.alone path = .ok ()) :
    b.failure? job = none := by
  simp [failure?, file, report, Report.failure?, Report.problem?, h]

theorem failure?_error {job : Nat} {p : Problem} (file : b.files[job]? = some path)
    (h : b.alone path = .error p) : b.failure? job = some (path, p) := by
  simp [failure?, file, report, Report.failure?, Report.problem?, h]

theorem filterMap_failure? (b : Batch σ) :
    (List.range b.files.length).filterMap b.failure? =
      (b.files.map b.report).filterMap Report.failure? := by
  have hrange := filterMap_getElem?_range b.files
  rw [List.filterMap_map]
  conv_rhs => rw [← hrange, List.filterMap_filterMap]
  rfl

theorem place_failed {p : Problem} (h : b.examined path = .error p) : b.place d path = d := by
  rw [place, h]

theorem place_without_output (h : b.output = "") : b.place d path = d := by
  unfold place
  split
  · rfl
  · rw [if_pos h]

theorem foldl_place_without_output (h : b.output = "") (paths : List String) :
    paths.foldl b.place d = d := by
  induction paths with
  | nil => rfl
  | cons path paths ih => rw [List.foldl_cons, place_without_output h, ih]

theorem place_written {e : Element} {d' : σ} (h : b.examined path = .ok e) (houtput : b.output ≠ "")
    (hwrite : b.storage.write d (targetPath b.output path) e.encode = .ok d') :
    b.place d path = d' := by
  rw [place, h]
  simp only [if_neg houtput, hwrite]

theorem place_refused {e : Element} {f : SystemFault} (h : b.examined path = .ok e)
    (houtput : b.output ≠ "")
    (hwrite : b.storage.write d (targetPath b.output path) e.encode = .error f) :
    b.place d path = d := by
  rw [place, h]
  simp only [if_neg houtput, hwrite]

section Settle

variable {jobs : List Nat} {job : Nat} (file : b.files[job]? = some path)

include file

theorem placed_append : b.placed (jobs ++ [job]) = b.place (b.placed jobs) path := by
  simp [placed, file]

/-! What is found out about a file at some point of a run is its outcome alone, and the file counts
as written from then on. -/

theorem settle_failed {p : Problem} (h : b.examined path = .error p) :
    b.alone path = .error p ∧ b.placed (jobs ++ [job]) = b.placed jobs := by
  rw [placed_append file, alone, checkFile_failed h, place_failed h]
  exact ⟨rfl, rfl⟩

theorem settle_unwritten {e : Element} (h : b.examined path = .ok e) (houtput : b.output = "") :
    b.alone path = .ok () ∧ b.placed (jobs ++ [job]) = b.placed jobs := by
  rw [placed_append file, alone, place_without_output houtput, houtput, checkFile_unwritten h]
  exact ⟨rfl, rfl⟩

variable (hb : b.Independent) (other : job ∉ jobs)

include hb other

theorem examined_placed :
    examineRead (b.storage.read (b.placed jobs) path) = b.examined path := by
  rw [hb.read file other, examined]

theorem settle_written {e : Element} (h : b.examined path = .ok e) (houtput : b.output ≠ "")
    (hwrite : b.storage.write (b.placed jobs) (targetPath b.output path) e.encode = .ok d) :
    b.alone path = .ok () ∧ b.placed (jobs ++ [job]) = d := by
  have hstart := hb.write file other e.encode
  rw [hwrite] at hstart
  constructor
  · cases halone : b.storage.write b.start (targetPath b.output path) e.encode with
    | error f =>
      rw [halone] at hstart
      cases hstart
    | ok d' => rw [alone, checkFile_written h houtput halone]
  · rw [placed_append file, place_written h houtput hwrite]

theorem settle_refused {e : Element} {f : SystemFault} (h : b.examined path = .ok e)
    (houtput : b.output ≠ "")
    (hwrite : b.storage.write (b.placed jobs) (targetPath b.output path) e.encode = .error f) :
    b.alone path = .error (.unwritten f) ∧ b.placed (jobs ++ [job]) = b.placed jobs := by
  have hstart := hb.write file other e.encode
  rw [hwrite] at hstart
  constructor
  · cases halone : b.storage.write b.start (targetPath b.output path) e.encode with
    | error f' =>
      rw [halone] at hstart
      cases hstart
      rw [alone, checkFile_refused h houtput halone]
    | ok d' =>
      rw [halone] at hstart
      cases hstart
  · rw [placed_append file, place_refused h houtput hwrite]

theorem checkFile_placed :
    (checkFile b.storage.fileSystem b.output path).run (b.placed jobs) =
      (b.alone path, b.placed (jobs ++ [job])) := by
  have hread := examined_placed file hb other
  cases h : b.examined path with
  | error p =>
    obtain ⟨halone, hplaced⟩ := settle_failed file h
    rw [checkFile_failed (hread.trans h), halone, hplaced]
  | ok e =>
    by_cases houtput : b.output = ""
    · obtain ⟨halone, hplaced⟩ := settle_unwritten file h houtput
      rw [houtput, checkFile_unwritten (hread.trans h), halone, hplaced]
    · cases hwrite : b.storage.write (b.placed jobs) (targetPath b.output path) e.encode with
      | ok d =>
        obtain ⟨halone, hplaced⟩ := settle_written file hb other h houtput hwrite
        rw [checkFile_written (hread.trans h) houtput hwrite, halone, hplaced]
      | error f =>
        obtain ⟨halone, hplaced⟩ := settle_refused file hb other h houtput hwrite
        rw [checkFile_refused (hread.trans h) houtput hwrite, halone, hplaced]

end Settle

/-! ## One file after the other -/

theorem run_drop (hb : b.Independent) {k : Nat} {paths : List String} (hk : k ≤ b.files.length)
    (hpaths : b.files.drop k = paths) :
    (run b.storage.fileSystem b.output paths).run (b.placed (List.range k)) =
      (paths.map b.report, b.placed (List.range b.files.length)) := by
  induction paths generalizing k with
  | nil =>
    have hlength : k = b.files.length := le_antisymm hk (List.drop_eq_nil_iff.1 hpaths)
    rw [hlength]
    rfl
  | cons path paths ih =>
    have file : b.files[k]? = some path := by
      rw [← List.head?_drop, hpaths, List.head?_cons]
    have hrest : b.files.drop (k + 1) = paths := by
      rw [← List.tail_drop, hpaths, List.tail_cons]
    have hlt := (List.getElem?_eq_some_iff.1 file).1
    have hcheck := checkFile_placed file hb (by simp : k ∉ List.range k)
    rw [← List.range_succ] at hcheck
    rw [run, run_bind hcheck, run_bind (ih hlt hrest)]
    rfl

theorem run_eq (hb : b.Independent) :
    (run b.storage.fileSystem b.output b.files).run b.start =
      (b.files.map b.report, b.files.foldl b.place b.start) := by
  have hall : b.placed (List.range b.files.length) = b.files.foldl b.place b.start := by
    rw [placed, filterMap_getElem?_range]
  rw [← hall]
  exact run_drop hb (Nat.zero_le _) List.drop_zero

end Batch

end BMethod.Check
