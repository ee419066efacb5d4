import SessionManager.Domain
import SessionManager.Library.UnitOfWork
import Mathlib.Logic.Function.Basic

open unit_of_work

namespace session_manager.lifecycle

/-- Where an executor stands with its run: it holds the row lock of the PENDING
run, its agent may be at work, it has checked the run for the last time on a
copy with the given status, or it has committed the run COMPLETED and only has
to report it. -/
inductive Phase
  | starting
  | running
  | deciding (loaded : RunStatus)
  | tail
deriving DecidableEq

/-- An executor that has not yet written the end of its run. -/
def Phase.working : Phase → Bool
  | tail => false
  | starting | running | deciding _ => true

/-- What a task may still do to one session: make it READY on the evidence of a
CREATING row it has read, delete it on a copy that was STOPPED already, or work
on one of its runs. Any other task is idle. -/
inductive View (ρ : Type)
  | idle
  | marker
  | closed
  | exec (run : ρ) (phase : Phase)
deriving DecidableEq

/-- One session as its life cycle sees it: status and deletion mark, the runs in
the order of their creation with their statuses, and the tasks at work. -/
structure State (ρ π : Type) where
  session : Option (SessionStatus × Bool)
  created : List ρ
  runs : ρ → Option RunStatus
  views : π → View ρ

/-- The steps whose effect depends on what else happens to the session. -/
inductive Kind (ρ : Type)
  | quiet
  | mark
  | close (cancelled : List ρ)
  | expire
  | relapse

variable {ρ π : Type}

/-- A session nobody has created. -/
def State.initial : State ρ π :=
  { session := none, created := [], runs := fun _ => none, views := fun _ => .idle }

variable [DecidableEq π]

namespace State

/-- Task `p` is at `v` from now on. -/
def see (s : State ρ π) (p : π) (v : View ρ) : State ρ π :=
  { s with views := Function.update s.views p v }

section Simp

variable (s : State ρ π) (p q : π) (v : View ρ)

@[simp] theorem see_session : (s.see p v).session = s.session := rfl

@[simp] theorem see_created : (s.see p v).created = s.created := rfl

@[simp] theorem see_runs : (s.see p v).runs = s.runs := rfl

/-- Seeing changes the view of the task that sees; the session and its runs are
unchanged by definition. -/
theorem see_views : (s.see p v).views q = if q = p then v else s.views q := by
  simp [see, Function.update_apply]

/-- The task that acted sees its new view. -/
@[simp] theorem see_views_self : (s.see p v).views p = v := by
  simp [see_views]

variable {p q} in
/-- What one task comes to see is its own view; every other task keeps the one it has. -/
theorem see_views_of_ne (h : q ≠ p) : (s.see p v).views q = s.views q := by
  simp [see_views, h]

end Simp

/-- The session takes a status, when it exists. -/
def set (s : State ρ π) (status : SessionStatus) : Option (SessionStatus × Bool) :=
  s.session.map fun x => (status, x.2)

omit [DecidableEq π] in
/-- What setting a status leaves in the row: the new status, and the mark of deletion
that was there. A missing row stays missing. -/
theorem set_eq_some_iff {s : State ρ π} {status status' : SessionStatus} {deleted : Bool} :
    s.set status = some (status', deleted) ↔
      status' = status ∧ ∃ old, s.session = some (old, deleted) := by
  cases hsession : s.session with
  | none => simp [set, hsession]
  | some x =>
    obtain ⟨old, deleted'⟩ := x
    simp [set, hsession, eq_comm (a := status)]

/-- The runs once the given ones are cancelled. -/
def cancel [DecidableEq ρ] (s : State ρ π) (cancelled : List ρ) : ρ → Option RunStatus :=
  fun r => if r ∈ cancelled then some .CANCELLED else s.runs r

omit [DecidableEq π] in
/-- Cancelling no run changes no run. -/
@[simp] theorem cancel_nil [DecidableEq ρ] (s : State ρ π) : s.cancel [] = s.runs := by
  funext r
  simp [cancel]

def active (s : State ρ π) (r : ρ) : Prop := ∃ st, s.runs r = some st ∧ st.active = true

/-- A run that is active, or that an executor has not finished with. -/
def live (s : State ρ π) (r : ρ) : Prop :=
  s.active r ∨ ∃ p ph, s.views p = .exec r ph ∧ ph.working = true

end State

variable [DecidableEq ρ]

/-- The views task `p` can pass to while it writes nothing of the session. -/
inductive Shift (s : State ρ π) (p : π) : View ρ → Prop
  | stay : Shift s p (s.views p)
  | leave : Shift s p .idle
  | load_creating {deleted : Bool} (hview : s.views p = .idle)
      (hsession : s.session = some (.CREATING, deleted)) : Shift s p .marker
  | load_stopped {deleted : Bool} (hview : s.views p = .idle)
      (hsession : s.session = some (.STOPPED, deleted)) : Shift s p .closed
  | lock {r : ρ} (hview : s.views p = .idle) (hrun : s.runs r = some .PENDING)
      (hfree : ∀ q, s.views q ≠ .exec r .starting) : Shift s p (.exec r .starting)
  | read {r : ρ} {st : RunStatus} (hview : s.views p = .exec r .running)
      (hrun : s.runs r = some st) (hst : st ≠ .CANCELLED) : Shift s p (.exec r (.deciding st))
  | retry {r : ρ} {st : RunStatus} (hview : s.views p = .exec r (.deciding st)) :
      Shift s p (.exec r .running)

/-- What one step of task `p` can do to a session. -/
inductive Move (p : π) (s : State ρ π) : Kind ρ → State ρ π → Prop
  | shift {v : View ρ} (hshift : Shift s p v) : Move p s .quiet (s.see p v)
  /-- An executor fails after it committed its run, and takes the failure path. -/
  | relapse {r : ρ} (hview : s.views p = .exec r .tail) :
      Move p s .relapse (s.see p (.exec r .running))
  | insert (hsession : s.session = none) :
      Move p s .quiet { s.see p .marker with session := some (.CREATING, false) }
  | mark (hview : s.views p = .marker) :
      Move p s .mark { s.see p .idle with session := s.set .READY }
  | set {status : SessionStatus} (hstatus : status = .FAILED ∨ status = .STOPPING) :
      Move p s .quiet { s.see p .idle with session := s.set status }
  | expire : Move p s .expire { s.see p .idle with session := s.set .EXPIRED }
  | close {cancelled : List ρ} (status : SessionStatus → SessionStatus) (delete : Bool)
      (hstatus : (∀ old, status old = .STOPPED) ∨ s.views p = .closed ∧ ∀ old, status old = old)
      (hactive : ∀ r ∈ cancelled, s.active r)
      (hfree : ∀ r ∈ cancelled, ∀ q, s.views q ≠ .exec r .starting) :
      Move p s (.close cancelled)
        { s.see p .idle with
          session := s.session.map fun x => (status x.1, x.2 || delete)
          runs := s.cancel cancelled }
  | submit {r : ρ} (hsession : s.session = some (.READY, false)) (hfresh : s.runs r = none)
      (hactive : ∀ r', ¬ s.active r') :
      Move p s .quiet
        { s.see p .idle with
          session := some (.RUNNING, false)
          created := s.created ++ [r]
          runs := Function.update s.runs r (some .PENDING) }
  | start {r : ρ} {session : Option (SessionStatus × Bool)}
      (hview : s.views p = .exec r .starting) (hrun : s.runs r = some .PENDING)
      (hsession : session = s.session ∨ session = s.set .RUNNING) :
      Move p s .quiet
        { s.see p (.exec r .running) with
          session := session
          runs := Function.update s.runs r (some .RUNNING) }
  /-- Both ends of a run write the copy of the run and give the session back. -/
  | finish {r : ρ} {loaded old final : RunStatus} {v : View ρ}
      {session : Option (SessionStatus × Bool)}
      (hview : s.views p = .exec r (.deciding loaded)) (hrun : s.runs r = some old)
      (hfinal : final = .COMPLETED ∧ v = .exec r .tail ∨ final = .FAILED ∧ v = .idle)
      (hsession : session = s.session ∨ session = s.set .READY) :
      Move p s .quiet
        { s.see p v with
          session := session
          runs := Function.update s.runs r (some (column loaded final old)) }

end session_manager.lifecycle
