import Mathlib
import BMethod.Check.Schedule
import BMethod.Proofs.Check.Run

/-!
# Every schedule gives the same result

The state of a run is told by three lists of files: those that are settled, those that were reported
on, and those that no worker has to do with any more. Each file that was handed out is on such a list
or with one worker. For independent files this says what there is to read, what the reports are, and
which problems were collected. A run goes on until all workers have finished, and it does finish.
-/

namespace BMethod.Check.Schedule

variable {σ : Type}

/-! ## Workers and their files -/

namespace Worker

/-- The file of a worker, as long as nothing is written for it. -/
@[simp] def unsettled? : Worker → Option Nat
  | reading job => some job
  | writing job _ => some job
  | _ => none

/-- The file of a worker, as long as there is no report on it. -/
@[simp] def unreported? : Worker → Option Nat
  | reporting job _ => some job
  | w => w.unsettled?

@[simp] def job? : Worker → Option Nat
  | collecting job _ => some job
  | w => w.unreported?

theorem unreported?_of_unsettled? {w : Worker} {job : Nat} (h : w.unsettled? = some job) :
    w.unreported? = some job := by
  cases w with
  | reading | writing => exact h
  | _ => cases h

theorem job?_of_unsettled? {w : Worker} {job : Nat} (h : w.unsettled? = some job) :
    w.job? = some job := by
  cases w with
  | reading | writing => exact h
  | _ => cases h

end Worker

theorem filterMap_cons (part : Worker → Option Nat) (w : Worker) (others : Multiset Worker) :
    (w ::ₘ others).filterMap part = ((part w).toList : Multiset Nat) + others.filterMap part := by
  cases h : part w with
  | none => rw [Multiset.filterMap_cons_none _ _ h, Option.toList_none, Multiset.coe_nil, zero_add]
  | some job =>
    rw [Multiset.filterMap_cons_some _ _ _ h, Option.toList_some, Multiset.coe_singleton,
      Multiset.singleton_add]

/-- Each file that was handed out is on a list, or it is with one worker and still counts there. -/
def Accounts (part : Worker → Option Nat) (listed : List Nat) (workers : Multiset Worker)
    (next : Nat) : Prop :=
  (listed : Multiset Nat) + workers.filterMap part = Multiset.range next

/-- The file that does not count with a worker any more when it goes on. -/
def released (part : Worker → Option Nat) (w w' : Worker) : List Nat :=
  if part w' = none then (part w).toList else []

namespace Accounts

variable {part : Worker → Option Nat} {listed : List Nat} {w w' : Worker} {others : Multiset Worker}
  {next job : Nat}

theorem fresh {workers : Multiset Worker} (h : Accounts part listed workers next)
    (hmem : w ∈ workers) (hw : part w = some job) : job < next ∧ job ∉ listed := by
  obtain ⟨others, rfl⟩ := Multiset.exists_cons_of_mem hmem
  rw [Accounts, Multiset.filterMap_cons_some _ _ _ hw, Multiset.add_cons] at h
  -- No file is handed out twice, so that a file with a worker is not on the list.
  have hnodup := Multiset.nodup_range next
  rw [← h, Multiset.nodup_cons] at hnodup
  constructor
  · rw [← Multiset.mem_range, ← h]
    exact Multiset.mem_cons_self _ _
  · intro hlisted
    exact hnodup.1 (Multiset.mem_add.2 (.inl hlisted))

theorem advance (h : Accounts part listed (w ::ₘ others) next)
    (hw : part w' = none ∨ part w' = part w) :
    Accounts part (listed ++ released part w w') (w' ::ₘ others) next := by
  have hparts : released part w w' ++ (part w').toList = (part w).toList := by
    unfold released
    split
    · rename_i hnone
      simp [hnone]
    · rename_i hsome
      rw [hw.resolve_left hsome, List.nil_append]
  rw [Accounts, filterMap_cons] at h ⊢
  rw [← Multiset.coe_add, add_assoc, ← add_assoc (released part w w' : Multiset Nat),
    Multiset.coe_add, hparts, h]

theorem take (h : Accounts part listed (w ::ₘ others) next) (hw : part w = none)
    (hw' : part w' = some next) : Accounts part listed (w' ::ₘ others) (next + 1) := by
  rw [Accounts, Multiset.filterMap_cons_none _ _ hw] at h
  rw [Accounts, Multiset.filterMap_cons_some _ _ _ hw', Multiset.add_cons, h, Multiset.range_succ]

theorem complete {workers : Multiset Worker} (h : Accounts part listed workers next)
    (hw : ∀ w ∈ workers, part w = none) : listed.Perm (List.range next) := by
  have hnone : workers.filterMap part = 0 := by
    refine Multiset.eq_zero_of_forall_notMem fun job hjob => ?_
    obtain ⟨w, hmem, hpart⟩ := (Multiset.mem_filterMap part workers).1 hjob
    rw [hw w hmem] at hpart
    cases hpart
  rw [Accounts, hnone, add_zero] at h
  exact Multiset.coe_eq_coe.1 h

end Accounts

/-! ## The crew -/

/-- The files that were dealt with so far, in the order in which that happened: those that are
settled, those with a report, and those that are done. -/
structure Ledger where
  settled : List Nat
  reported : List Nat
  done : List Nat

def Ledger.advance (l : Ledger) (w w' : Worker) : Ledger where
  settled := l.settled ++ released Worker.unsettled? w w'
  reported := l.reported ++ released Worker.unreported? w w'
  done := l.done ++ released Worker.job? w w'

section Ledger

variable {l : Ledger} {w : Worker} {job : Nat} {outcome : Except Problem Unit} {p : Problem}

theorem Ledger.advance_examine {e : Element} :
    l.advance (.reading job) (.writing job e) = l := by
  simp [advance, released]

theorem Ledger.advance_settle (hw : w.unsettled? = some job) :
    l.advance w (.reporting job outcome) = { l with settled := l.settled ++ [job] } := by
  rw [advance, released, hw]
  simp [released]

theorem Ledger.advance_report_ok : l.advance (.reporting job outcome) .idle =
    { l with reported := l.reported ++ [job], done := l.done ++ [job] } := by
  simp [advance, released]

theorem Ledger.advance_report_error : l.advance (.reporting job outcome) (.collecting job p) =
    { l with reported := l.reported ++ [job] } := by
  simp [advance, released]

theorem Ledger.advance_collect :
    l.advance (.collecting job p) .idle = { l with done := l.done ++ [job] } := by
  simp [advance, released]

theorem Ledger.advance_finish : l.advance .idle .finished = l := by
  simp [advance, released]

end Ledger

/-- What a worker has found out about its file is true of the file alone. -/
def Faithful (b : Batch σ) (closed : Bool) : Worker → Prop
  | .idle => True
  | .reading _ => True
  | .writing job e => (b.files[job]?).map b.examined = some (.ok e) ∧ b.output ≠ ""
  | .reporting job outcome => (b.files[job]?).map b.alone = some outcome
  | .collecting job p => (b.files[job]?).map b.alone = some (.error p)
  | .finished => closed = true

theorem faithful_idle (b : Batch σ) (closed : Bool) : Faithful b closed .idle := trivial

theorem faithful_finished (b : Batch σ) {closed : Bool} (h : closed = true) :
    Faithful b closed .finished := h

/-- A worker can go on without taking a new file. -/
structure Worker.Advances (w w' : Worker) : Prop where
  unsettled : w'.unsettled? = none ∨ w'.unsettled? = w.unsettled?
  unreported : w'.unreported? = none ∨ w'.unreported? = w.unreported?
  job : w'.job? = none ∨ w'.job? = w.job?

/-- The workers of a run: they keep the accounts of the files, and what they know is right. -/
structure Crew (b : Batch σ) (workers : Multiset Worker) (next : Nat) (closed : Bool) (l : Ledger) :
    Prop where
  staffed : workers ≠ 0
  next_le : next ≤ b.files.length
  closed_next : closed = true → next = b.files.length
  faithful : ∀ w ∈ workers, Faithful b closed w
  settled : Accounts Worker.unsettled? l.settled workers next
  reported : Accounts Worker.unreported? l.reported workers next
  done : Accounts Worker.job? l.done workers next

namespace Crew

variable {b : Batch σ} {w w' : Worker} {others : Multiset Worker} {next : Nat} {closed : Bool}
  {l : Ledger}

theorem advance (h : Crew b (w ::ₘ others) next closed l) (hw : w.Advances w')
    (hfaithful : Faithful b closed w') : Crew b (w' ::ₘ others) next closed (l.advance w w') where
  staffed := Multiset.cons_ne_zero
  next_le := h.next_le
  closed_next := h.closed_next
  faithful := Multiset.forall_mem_cons.2 ⟨hfaithful, (Multiset.forall_mem_cons.1 h.faithful).2⟩
  settled := h.settled.advance hw.unsettled
  reported := h.reported.advance hw.unreported
  done := h.done.advance hw.job

theorem take (h : Crew b (.idle ::ₘ others) next closed l) (more : next < b.files.length) :
    Crew b (.reading next ::ₘ others) (next + 1) closed l where
  staffed := Multiset.cons_ne_zero
  next_le := more
  closed_next hclosed := absurd (h.closed_next hclosed) more.ne
  faithful := Multiset.forall_mem_cons.2 ⟨trivial, (Multiset.forall_mem_cons.1 h.faithful).2⟩
  settled := h.settled.take rfl rfl
  reported := h.reported.take rfl rfl
  done := h.done.take rfl rfl

theorem close {workers : Multiset Worker} (h : Crew b workers next false l)
    (hnext : next = b.files.length) : Crew b workers next true l where
  staffed := h.staffed
  next_le := h.next_le
  closed_next _ := hnext
  faithful w hw := by
    have hfaithful := h.faithful w hw
    cases w with
    | finished => rfl
    | _ => exact hfaithful
  settled := h.settled
  reported := h.reported
  done := h.done

end Crew

/-! ## The state of a run -/

/-- The reports on the files in a list are there, and no others. -/
def Reported (b : Batch σ) (reported : List Nat) (reports : List (Option Report)) : Prop :=
  ∀ job : Nat, reports[job]? =
    (b.files[job]?).map fun path => if job ∈ reported then some (b.report path) else none

/-- What is true of a state in which the files of a ledger were dealt with. -/
structure Inv (b : Batch σ) (s : State σ) (l : Ledger) : Prop where
  crew : Crew b s.workers s.next s.closed l
  disk : s.disk = b.placed l.settled
  reports : Reported b l.reported s.reports
  problems : s.problems = l.done.filterMap b.failure?

section Step

variable {b : Batch σ} {s t : State σ} {l : Ledger} {w w' : Worker} {i job : Nat} {path : String}

theorem Reported.set {reported : List Nat} {reports : List (Option Report)}
    (h : Reported b reported reports) (file : b.files[job]? = some path) :
    Reported b (reported ++ [job]) (reports.set job (some (b.report path))) := by
  intro k
  rw [List.getElem?_set]
  split
  · rename_i hk
    have hlength := h job
    subst hk
    rw [file] at hlength ⊢
    have hlt := (List.getElem?_eq_some_iff.1 hlength).1
    simp [hlt]
  · rename_i hk
    simp [h k, Ne.symm hk]

/-- The order of the workers does not matter: a step replaces one of them and keeps the others. -/
theorem exists_others {workers : List Worker} (h : workers[i]? = some w) (w' : Worker) :
    ∃ others : Multiset Worker, (workers : Multiset Worker) = w ::ₘ others ∧
      (workers.set i w' : Multiset Worker) = w' ::ₘ others := by
  obtain ⟨hi, rfl⟩ := List.getElem?_eq_some_iff.1 h
  exact ⟨workers.eraseIdx i, Multiset.coe_eq_coe.2 (List.getElem_cons_eraseIdx_perm hi).symm,
    Multiset.coe_eq_coe.2 (List.set_perm_cons_eraseIdx hi w')⟩

namespace Inv

theorem advance (h : Inv b s l) (hw : s.workers[i]? = some w) (hfaithful : Faithful b s.closed w')
    (hadvances : w.Advances w') :
    Crew b (s.workers.set i w') s.next s.closed (l.advance w w') := by
  obtain ⟨others, hbefore, hafter⟩ := exists_others hw w'
  have hcrew := h.crew
  rw [hbefore] at hcrew
  rw [hafter]
  exact hcrew.advance hadvances hfaithful

theorem take (h : Inv b s l) (hw : s.workers[i]? = some .idle) (more : s.next < b.files.length) :
    Inv b { s.assign i (.reading s.next) with next := s.next + 1 } l := by
  obtain ⟨others, hbefore, hafter⟩ := exists_others hw (.reading s.next)
  have hcrew := h.crew
  rw [hbefore] at hcrew
  refine ⟨?_, h.disk, h.reports, h.problems⟩
  rw [State.assign, hafter]
  exact hcrew.take more

/-- A file is settled when a worker goes on to report its outcome. -/
theorem settle (h : Inv b s l) (hw : s.workers[i]? = some w) (hjob : w.unsettled? = some job)
    (file : b.files[job]? = some path) {outcome : Except Problem Unit} {d : σ}
    (halone : b.alone path = outcome) (hdisk : b.placed (l.settled ++ [job]) = d) :
    ∃ l', Inv b { s.assign i (.reporting job outcome) with disk := d } l' := by
  have hfaithful : Faithful b s.closed (.reporting job outcome) := by
    simp [Faithful, file, halone]
  have hreported := Worker.unreported?_of_unsettled? hjob
  have hdone := Worker.job?_of_unsettled? hjob
  have hcrew := h.advance hw hfaithful ⟨.inl rfl, .inr hreported.symm, .inr hdone.symm⟩
  rw [Ledger.advance_settle hjob] at hcrew
  exact ⟨_, hcrew, hdisk.symm, h.reports, h.problems⟩

theorem read (hb : b.Independent) (h : Inv b s l) (hw : s.workers[i]? = some (.reading job))
    (file : b.files[job]? = some path) :
    ∃ l', Inv b (s.assign i (afterExamine b.output job
      (examineRead (b.storage.read s.disk path)))) l' := by
  have other := (h.crew.settled.fresh (List.mem_of_getElem? hw) rfl).2
  rw [h.disk, Batch.examined_placed file hb other]
  cases hexamined : b.examined path with
  | error p =>
    obtain ⟨halone, hplaced⟩ := Batch.settle_failed file hexamined
    exact h.settle hw rfl file halone (hplaced.trans h.disk.symm)
  | ok e =>
    by_cases houtput : b.output = ""
    · obtain ⟨halone, hplaced⟩ := Batch.settle_unwritten file hexamined houtput
      rw [afterExamine, if_pos houtput]
      exact h.settle hw rfl file halone (hplaced.trans h.disk.symm)
    · have hfaithful : Faithful b s.closed (.writing job e) := by
        simp [Faithful, file, hexamined, houtput]
      have hcrew := h.advance hw hfaithful ⟨.inr rfl, .inr rfl, .inr rfl⟩
      rw [Ledger.advance_examine] at hcrew
      rw [afterExamine, if_neg houtput]
      exact ⟨l, hcrew, h.disk, h.reports, h.problems⟩

theorem examined_of_writing (h : Inv b s l) {e : Element}
    (hw : s.workers[i]? = some (.writing job e)) (file : b.files[job]? = some path) :
    b.examined path = .ok e ∧ b.output ≠ "" := by
  simpa [Faithful, file] using h.crew.faithful _ (List.mem_of_getElem? hw)

theorem write (hb : b.Independent) (h : Inv b s l) {e : Element} {d : σ}
    (hw : s.workers[i]? = some (.writing job e)) (file : b.files[job]? = some path)
    (hwrite : b.storage.write s.disk (targetPath b.output path) e.encode = .ok d) :
    ∃ l', Inv b { s.assign i (.reporting job (.ok ())) with disk := d } l' := by
  have other := (h.crew.settled.fresh (List.mem_of_getElem? hw) rfl).2
  obtain ⟨hexamined, houtput⟩ := h.examined_of_writing hw file
  rw [h.disk] at hwrite
  obtain ⟨halone, hplaced⟩ := Batch.settle_written file hb other hexamined houtput hwrite
  exact h.settle hw rfl file halone hplaced

theorem refuse (hb : b.Independent) (h : Inv b s l) {e : Element} {f : SystemFault}
    (hw : s.workers[i]? = some (.writing job e)) (file : b.files[job]? = some path)
    (hwrite : b.storage.write s.disk (targetPath b.output path) e.encode = .error f) :
    ∃ l', Inv b (s.assign i (.reporting job (.error (.unwritten f)))) l' := by
  have other := (h.crew.settled.fresh (List.mem_of_getElem? hw) rfl).2
  obtain ⟨hexamined, houtput⟩ := h.examined_of_writing hw file
  rw [h.disk] at hwrite
  obtain ⟨halone, hplaced⟩ := Batch.settle_refused file hb other hexamined houtput hwrite
  exact h.settle hw rfl file halone (hplaced.trans h.disk.symm)

theorem report (h : Inv b s l) {outcome : Except Problem Unit}
    (hw : s.workers[i]? = some (.reporting job outcome)) (file : b.files[job]? = some path) :
    ∃ l', Inv b { s.assign i (afterReport job outcome) with
      reports := s.reports.set job (some ⟨path, outcome⟩) } l' := by
  have halone : b.alone path = outcome := by
    simpa [Faithful, file] using h.crew.faithful _ (List.mem_of_getElem? hw)
  have hreports := h.reports.set file
  rw [Batch.report, halone] at hreports
  cases outcome with
  | ok u =>
    -- The worker is free again: its file is done, and there is nothing to collect.
    have hcrew := h.advance hw (faithful_idle b s.closed) ⟨.inl rfl, .inl rfl, .inl rfl⟩
    rw [Ledger.advance_report_ok] at hcrew
    refine ⟨_, hcrew, h.disk, hreports, ?_⟩
    rw [List.filterMap_append, ← h.problems]
    simp [State.assign, Batch.failure?_ok file halone]
  | error p =>
    have hfaithful : Faithful b s.closed (.collecting job p) := by
      simp [Faithful, file, halone]
    have hcrew := h.advance hw hfaithful ⟨.inl rfl, .inl rfl, .inr rfl⟩
    rw [Ledger.advance_report_error] at hcrew
    exact ⟨_, hcrew, h.disk, hreports, h.problems⟩

theorem collect (h : Inv b s l) {p : Problem} (hw : s.workers[i]? = some (.collecting job p))
    (file : b.files[job]? = some path) :
    ∃ l', Inv b { s.assign i .idle with problems := s.problems ++ [(path, p)] } l' := by
  have halone : b.alone path = .error p := by
    simpa [Faithful, file] using h.crew.faithful _ (List.mem_of_getElem? hw)
  have hcrew := h.advance hw (faithful_idle b s.closed) ⟨.inl rfl, .inl rfl, .inl rfl⟩
  rw [Ledger.advance_collect] at hcrew
  refine ⟨_, hcrew, h.disk, h.reports, ?_⟩
  rw [List.filterMap_append, ← h.problems]
  simp [Batch.failure?_error file halone]

/-- One step keeps the accounts. -/
theorem step (hb : b.Independent) (h : Inv b s l) (hstep : Step b.storage b.files b.output s t) :
    ∃ l', Inv b t l' := by
  cases hstep with
  | take idle more => exact ⟨l, h.take idle more⟩
  | close opened none =>
    have hcrew := h.crew
    rw [opened] at hcrew
    exact ⟨l, hcrew.close none, h.disk, h.reports, h.problems⟩
  | finish idle closed =>
    have hcrew := h.advance idle (faithful_finished b closed) ⟨.inr rfl, .inr rfl, .inr rfl⟩
    rw [Ledger.advance_finish] at hcrew
    exact ⟨l, hcrew, h.disk, h.reports, h.problems⟩
  | read reading file => exact h.read hb reading file
  | write writing file written => exact h.write hb writing file written
  | refuse writing file refused => exact h.refuse hb writing file refused
  | report reporting file => exact h.report reporting file
  | collect collecting file => exact h.collect collecting file

end Inv

end Step

/-! ## Whole runs -/

section Run

variable {b : Batch σ} {s t : State σ} {l : Ledger}

theorem inv_initial (b : Batch σ) {workers : Nat} (hworkers : 1 ≤ workers) :
    Inv b (State.initial workers b.start b.files) ⟨[], [], []⟩ where
  crew :=
    { staffed := by
        simp only [State.initial, ne_eq, Multiset.coe_eq_zero, List.replicate_eq_nil_iff]
        omega
      next_le := Nat.zero_le _
      closed_next := nofun
      faithful := by
        intro w hw
        rw [List.eq_of_mem_replicate hw]
        exact faithful_idle b false
      settled := by simp [Accounts, State.initial]
      reported := by simp [Accounts, State.initial]
      done := by simp [Accounts, State.initial] }
  disk := rfl
  reports job := by
    rw [State.initial, List.getElem?_map]
    simp
  problems := rfl

theorem inv_reachable (hb : b.Independent) {workers : Nat} (hworkers : 1 ≤ workers)
    (h : Reachable b.storage b.files b.output (State.initial workers b.start b.files) s) :
    ∃ l, Inv b s l := by
  induction h with
  | start => exact ⟨_, inv_initial b hworkers⟩
  | step _ next ih =>
    obtain ⟨l, hinv⟩ := ih
    exact hinv.step hb next

/-! ### Progress -/

theorem Inv.exists_file (h : Inv b s l) {w : Worker} {job : Nat} (hw : w ∈ s.workers)
    (hjob : w.job? = some job) : ∃ path, b.files[job]? = some path := by
  have hlt := (h.crew.done.fresh hw hjob).1
  exact ⟨_, List.getElem?_eq_getElem (lt_of_lt_of_le hlt h.crew.next_le)⟩

theorem Inv.busy_step (h : Inv b s l) {w : Worker} (hw : w ∈ s.workers) (hjob : w.job? ≠ none) :
    ∃ t, Step b.storage b.files b.output s t := by
  obtain ⟨job, hjob⟩ := Option.ne_none_iff_exists'.1 hjob
  obtain ⟨path, file⟩ := h.exists_file hw hjob
  obtain ⟨i, hi⟩ := List.mem_iff_getElem?.1 hw
  cases w with
  | idle => cases hjob
  | reading j =>
    cases hjob
    exact ⟨_, .read hi file⟩
  | writing j e =>
    cases hjob
    cases hwrite : b.storage.write s.disk (targetPath b.output path) e.encode with
    | ok d => exact ⟨_, .write hi file hwrite⟩
    | error f => exact ⟨_, .refuse hi file hwrite⟩
  | reporting j outcome =>
    cases hjob
    exact ⟨_, .report hi file⟩
  | collecting j p =>
    cases hjob
    exact ⟨_, .collect hi file⟩
  | finished => cases hjob

theorem Worker.idle_or_finished {w : Worker} (h : w.job? = none) : w = .idle ∨ w = .finished := by
  cases w with
  | idle => exact .inl rfl
  | finished => exact .inr rfl
  | _ => cases h

/-- A run that is not over goes on. -/
theorem Inv.progress (h : Inv b s l) (hnot : ¬ s.Final) :
    ∃ t, Step b.storage b.files b.output s t := by
  by_cases hbusy : ∃ w ∈ s.workers, w.job? ≠ none
  · obtain ⟨w, hw, hjob⟩ := hbusy
    exact h.busy_step hw hjob
  push Not at hbusy
  -- No worker has a file: a file is handed out, the end is announced, or somebody finishes.
  obtain hmore | hall := lt_or_eq_of_le h.crew.next_le
  · -- Nobody has finished as long as there are files, so that somebody is idle.
    obtain ⟨w, hw⟩ := Multiset.exists_mem_of_ne_zero h.crew.staffed
    obtain ⟨i, hi⟩ := List.mem_iff_getElem?.1 hw
    obtain rfl | rfl := Worker.idle_or_finished (hbusy w hw)
    · exact ⟨_, .take hi hmore⟩
    · exact absurd (h.crew.closed_next (h.crew.faithful _ hw)) hmore.ne
  · cases hclosed : s.closed with
    | false => exact ⟨_, .close hclosed hall⟩
    | true =>
      have hidle : ∃ w ∈ s.workers, w ≠ .finished := by
        by_contra hfinished
        push Not at hfinished
        exact hnot ⟨hclosed, hfinished⟩
      obtain ⟨w, hw, hne⟩ := hidle
      obtain ⟨i, hi⟩ := List.mem_iff_getElem?.1 hw
      obtain rfl := (Worker.idle_or_finished (hbusy w hw)).resolve_right hne
      exact ⟨_, .finish hi hclosed⟩

/-! ### The end of a run -/

/-- The most steps that a worker can still do without taking a new file. -/
def Worker.effort : Worker → Nat
  | finished => 0
  | idle => 1
  | collecting _ _ => 2
  | reporting _ _ => 3
  | writing _ _ => 4
  | reading _ => 5

def State.effort (files : List String) (s : State σ) : Nat :=
  (s.workers.map Worker.effort).sum + 5 * (files.length - s.next) + (!s.closed).toNat

theorem sum_effort_set {workers : List Worker} {i : Nat} {w : Worker} (h : workers[i]? = some w)
    (w' : Worker) :
    ((workers.set i w').map Worker.effort).sum + w.effort =
      (workers.map Worker.effort).sum + w'.effort := by
  obtain ⟨others, hbefore, hafter⟩ := exists_others h w'
  have hsum : ∀ ws : List Worker,
      (ws.map Worker.effort).sum = ((ws : Multiset Worker).map Worker.effort).sum := by simp
  rw [hsum, hsum, hbefore, hafter, Multiset.map_cons, Multiset.map_cons, Multiset.sum_cons,
    Multiset.sum_cons]
  omega

theorem effort_afterExamine (output : String) (job : Nat) (r : Except Problem Element) :
    (afterExamine output job r).effort ≤ 4 := by
  unfold afterExamine
  split
  · simp [Worker.effort]
  · split <;> simp [Worker.effort]

theorem effort_afterReport (job : Nat) (outcome : Except Problem Unit) :
    (afterReport job outcome).effort ≤ 2 := by
  cases outcome <;> simp [afterReport, Worker.effort]

theorem Step.effort_lt {st : Storage σ} {files : List String} {output : String}
    (h : Step st files output s t) : t.effort files < s.effort files := by
  have hassign : ∀ {i : Nat} {w : Worker} (_ : s.workers[i]? = some w) (w' : Worker),
      w'.effort < w.effort → (s.assign i w').effort files < s.effort files := by
    intro i w hi w' hlt
    have hsum := sum_effort_set hi w'
    simp only [State.effort, State.assign]
    omega
  cases h with
  | take idle more =>
    have hsum := sum_effort_set idle (.reading s.next)
    simp only [State.effort, State.assign, Worker.effort] at hsum ⊢
    omega
  | close opened none =>
    simp [State.effort, opened]
  | finish idle closed => exact hassign idle _ Nat.zero_lt_one
  | read reading file => exact hassign reading _ (Nat.lt_succ_of_le (effort_afterExamine _ _ _))
  | write writing file written => exact hassign writing _ (Nat.lt_succ_self 3)
  | refuse writing file refused => exact hassign writing _ (Nat.lt_succ_self 3)
  | report reporting file => exact hassign reporting _ (Nat.lt_succ_of_le (effort_afterReport _ _))
  | collect collecting file => exact hassign collecting _ (Nat.lt_succ_self 1)

/-- There is no run without an end. -/
theorem wellFounded_step (st : Storage σ) (files : List String) (output : String) :
    WellFounded fun t s => Step st files output s t :=
  Subrelation.wf (fun h => h.effort_lt) (measure (State.effort files)).wf

/-- A run that is over has a report on every file, has collected the problems of all of them, and has
written the normal forms in some order. -/
theorem Inv.final (h : Inv b s l) (hfinal : s.Final) :
    s.reports = b.files.map (fun path => some (b.report path)) ∧
    s.problems.Perm ((b.files.map b.report).filterMap Report.failure?) ∧
    ∃ paths : List String, paths.Perm b.files ∧ s.disk = paths.foldl b.place b.start := by
  obtain ⟨hclosed, hfinished⟩ := hfinal
  have hnext := h.crew.closed_next hclosed
  have hsettled := h.crew.settled.complete fun w hw => by rw [hfinished w hw]; rfl
  have hreported := h.crew.reported.complete fun w hw => by rw [hfinished w hw]; rfl
  have hdone := h.crew.done.complete fun w hw => by rw [hfinished w hw]; rfl
  rw [hnext] at hsettled hreported hdone
  refine ⟨?_, ?_, ?_⟩
  · apply List.ext_getElem?
    intro job
    rw [h.reports job, List.getElem?_map]
    refine Option.map_congr fun path hpath => if_pos ?_
    rw [hreported.mem_iff, List.mem_range]
    exact (List.getElem?_eq_some_iff.1 hpath).1
  · rw [h.problems, ← b.filterMap_failure?]
    exact hdone.filterMap _
  · refine ⟨l.settled.filterMap (b.files[·]?), ?_, h.disk⟩
    have hperm := hsettled.filterMap (b.files[·]?)
    rwa [filterMap_getElem?_range] at hperm

end Run

end BMethod.Check.Schedule
