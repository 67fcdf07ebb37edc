import Triage.Batch

/-!
A batch of checks under way.  Each file is a task.  A worker takes a task, looks whether the batch
was given up, and if it was not checks the file and puts what it finds into a mailbox.  A collector
takes the findings out of the mailbox until it has them all, or until the ceiling of the batch has
passed; then it gives the batch up first and has the children killed after that.  What a worker is
at when it checks a file is of the type `κ`.
-/

namespace Triage

structure Task where
  place : Nat
  file : String
  deriving DecidableEq, Repr

/-- What a worker is at.  Until it is idle again it holds the mailbox open. -/
inductive Worker (κ : Type)
  | idle
  | starting (t : Task)
  /-- Has seen that the batch was not given up. -/
  | cleared (t : Task)
  | checking (t : Task) (k : κ)
  | leaving

/-- The task of a worker from which a finding may still come. -/
def Worker.task? : Worker κ → Option Task
  | idle | leaving => none
  | starting t | cleared t | checking t _ => some t

def Worker.isIdle : Worker κ → Bool
  | idle => true
  | _ => false

inductive Exit
  | complete
  | ceiling
  /-- Nobody holds the mailbox open any more, and findings are missing. -/
  | deserted
  deriving DecidableEq, Repr

inductive Collector
  | receiving
  | late
  /-- Has given the batch up; the children are still to be killed. -/
  | abandoning
  | done (e : Exit)
  deriving DecidableEq, Repr

def Collector.isLate : Collector → Bool
  | late | abandoning | done .ceiling => true
  | _ => false

def Collector.hasGivenUp : Collector → Bool
  | abandoning | done .ceiling => true
  | _ => false

structure Schedule (κ : Type) where
  queue : List Task
  workers : List (Worker κ)
  mailbox : List Finding := []
  collected : List Finding := []
  expected : Nat
  abandoned : Bool := false
  collector : Collector := .receiving

namespace Schedule

inductive Breakdown
  | because (reason : String)
  | unknown
  deriving DecidableEq, Repr

def Breakdown.reason : Breakdown → String
  | because reason => reason
  | unknown => "unknown panic"

/-- A deadline lies where no clock reaches. -/
def Breakdown.clock : Breakdown := because "overflow when adding duration to instant"

def broken (file : String) (b : Breakdown) : Finding :=
  ⟨file, .processError, s!"check task failed: {b.reason}", none⟩

end Schedule

abbrev Answer := Except Schedule.Breakdown Finding

/-- The finding for a file whose check came to `a`. -/
def Answer.finding (file : String) : Answer → Finding
  | .ok f => f
  | .error b => Schedule.broken file b

namespace Schedule

variable {κ : Type}

def workersFor (n : Nat) : Nat := max n 1

def tasksOf (files : List String) : List Task := files.mapIdx Task.mk

def start (workers : Nat) (files : List String) : Schedule κ :=
  { queue := tasksOf files, workers := List.replicate (workersFor workers) .idle
    expected := files.length }

def batch (s : Schedule κ) : Batch := ⟨s.collected, s.expected⟩

def full (s : Schedule κ) : Bool := s.expected ≤ s.collected.length

/-- Whether anybody holds the mailbox open: a task in the queue, or a worker. -/
def held (s : Schedule κ) : Bool := !s.queue.isEmpty || s.workers.any (!·.isIdle)

def put (s : Schedule κ) (w : Nat) (x : Worker κ) : Schedule κ :=
  { s with workers := s.workers.set w x }

def assign (s : Schedule κ) (i w : Nat) (t : Task) : Schedule κ :=
  { s.put w (.starting t) with queue := s.queue.eraseIdx i }

/-- A worker looks whether the batch was given up; then there is nothing to do for it. -/
def look (s : Schedule κ) (w : Nat) (t : Task) : Schedule κ :=
  s.put w (if s.abandoned then .leaving else .cleared t)

theorem look_of_abandoned {s : Schedule κ} (h : s.abandoned = true) (w : Nat) (t : Task) :
    s.look w t = s.put w .leaving := by
  simp only [look, h, if_true]

theorem look_of_not_abandoned {s : Schedule κ} (h : s.abandoned = false) (w : Nat) (t : Task) :
    s.look w t = s.put w (.cleared t) := by
  simp only [look, h, Bool.false_eq_true, if_false]

def check (s : Schedule κ) (w : Nat) (t : Task) (k : κ) : Schedule κ := s.put w (.checking t k)

def deliver (s : Schedule κ) (w : Nat) (f : Finding) : Schedule κ :=
  { s.put w .leaving with mailbox := s.mailbox ++ [f] }

def release (s : Schedule κ) (w : Nat) : Schedule κ := s.put w .idle

def receive (s : Schedule κ) : Schedule κ :=
  match s.mailbox with
  | [] => s
  | f :: mailbox => { s with mailbox, collected := s.collected ++ [f] }

theorem receive_eq {s : Schedule κ} {f : Finding} {fs : List Finding} (h : s.mailbox = f :: fs) :
    s.receive = { s with mailbox := fs, collected := s.collected ++ [f] } := by
  simp only [receive, h]

def timeOut (s : Schedule κ) : Schedule κ := { s with collector := .late }

def giveUp (s : Schedule κ) : Schedule κ :=
  { s with abandoned := true, collector := .abandoning }

def stop (s : Schedule κ) (e : Exit) : Schedule κ := { s with collector := .done e }

/-- The batch that a collector returns once it has stopped. -/
def returned? (s : Schedule κ) : Option Batch :=
  match s.collector with
  | .done _ => some s.batch
  | _ => none

end Schedule
end Triage
