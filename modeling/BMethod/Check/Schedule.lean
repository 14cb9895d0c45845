import BMethod.Check.Run

/-!
# Checking files with several workers

Several workers can check files at the same time. Files are handed out in order, each to a worker
that is idle, and when there are no more of them the workers are told so; a worker reads its file,
writes the normal form if it is asked to, and reports. The steps of different workers can follow
each other in any order.
-/

namespace BMethod.Check.Schedule

variable {σ : Type}

/-- What a worker does next, for the file with a number. -/
inductive Worker where
  | idle
  | reading (job : Nat)
  | writing (job : Nat) (e : Element)
  | reporting (job : Nat) (outcome : Except Problem Unit)
  /-- The report of a file that fails is there; its problem has still to be collected. -/
  | collecting (job : Nat) (p : Problem)
  | finished

/-- The state of a run: the number of the next file, whether it is known that there are no more, the
workers, what holds the files, the reports by the number of their file, and the problems that were
collected with the paths of their files. -/
structure State (σ : Type) where
  next : Nat
  closed : Bool
  workers : List Worker
  disk : σ
  reports : List (Option Report)
  problems : List (String × Problem)

def State.initial (workers : Nat) (d : σ) (files : List String) : State σ :=
  ⟨0, false, List.replicate workers .idle, d, files.map fun _ => none, []⟩

/-- A worker that has something else to do. -/
def State.assign (s : State σ) (i : Nat) (w : Worker) : State σ :=
  { s with workers := s.workers.set i w }

def afterExamine (output : String) (job : Nat) : Except Problem Element → Worker
  | .error p => .reporting job (.error p)
  | .ok e => if output = "" then .reporting job (.ok ()) else .writing job e

def afterReport (job : Nat) : Except Problem Unit → Worker
  | .ok _ => .idle
  | .error p => .collecting job p

/-- One step of a run: a file is handed to a worker, the end of the files is announced, or one worker
goes on. -/
inductive Step (st : Storage σ) (files : List String) (output : String) :
    State σ → State σ → Prop where
  | take {s : State σ} {i : Nat} (idle : s.workers[i]? = some .idle)
      (more : s.next < files.length) :
    Step st files output s { s.assign i (.reading s.next) with next := s.next + 1 }
  | close {s : State σ} (opened : s.closed = false) (none : s.next = files.length) :
    Step st files output s { s with closed := true }
  | finish {s : State σ} {i : Nat} (idle : s.workers[i]? = some .idle)
      (closed : s.closed = true) : Step st files output s (s.assign i .finished)
  | read {s : State σ} {i job : Nat} {path : String}
      (reading : s.workers[i]? = some (.reading job)) (file : files[job]? = some path) :
    Step st files output s
      (s.assign i (afterExamine output job (examineRead (st.read s.disk path))))
  | write {s : State σ} {i job : Nat} {path : String} {e : Element} {d : σ}
      (writing : s.workers[i]? = some (.writing job e)) (file : files[job]? = some path)
      (written : st.write s.disk (targetPath output path) e.encode = .ok d) :
    Step st files output s { s.assign i (.reporting job (.ok ())) with disk := d }
  | refuse {s : State σ} {i job : Nat} {path : String} {e : Element} {f : SystemFault}
      (writing : s.workers[i]? = some (.writing job e)) (file : files[job]? = some path)
      (refused : st.write s.disk (targetPath output path) e.encode = .error f) :
    Step st files output s (s.assign i (.reporting job (.error (.unwritten f))))
  | report {s : State σ} {i job : Nat} {path : String} {outcome : Except Problem Unit}
      (reporting : s.workers[i]? = some (.reporting job outcome))
      (file : files[job]? = some path) :
    Step st files output s
      { s.assign i (afterReport job outcome) with
        reports := s.reports.set job (some ⟨path, outcome⟩) }
  | collect {s : State σ} {i job : Nat} {path : String} {p : Problem}
      (collecting : s.workers[i]? = some (.collecting job p)) (file : files[job]? = some path) :
    Step st files output s
      { s.assign i .idle with problems := s.problems ++ [(path, p)] }

/-- The states that a run can come to. -/
inductive Reachable (st : Storage σ) (files : List String) (output : String) (s : State σ) :
    State σ → Prop where
  | start : Reachable st files output s s
  | step {t u : State σ} (reached : Reachable st files output s t)
      (next : Step st files output t u) : Reachable st files output s u

/-- Whether a run is over: there are no more files, and all workers have finished. -/
def State.Final (s : State σ) : Prop :=
  s.closed = true ∧ ∀ w ∈ s.workers, w = .finished

end BMethod.Check.Schedule
