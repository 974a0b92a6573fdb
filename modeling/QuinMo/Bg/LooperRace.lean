import QuinMo.Lib.Run

/-!
# The traffic looper and the end of its instance

`launch` starts a looper while `close` may run on another thread, one access to what they share at
a time. `close` looks at the looper first and sets the closed flag last, so the check that
`launch` makes after starting the looper can come in between.
-/

namespace QuinMo.Bg.LooperRace

/-- The next step of the background block of `launch`. -/
inductive LaunchStep where
  | checkClosed
  | readService
  | writeLooper
  | checkStopped
  | startJob
  | checkStoppedAgain
  | cancelJob
  | checkClosedAgain
  | clearLooper
  | setStopped
  | cancelAndJoin
  | done
  deriving DecidableEq, Repr

/-- The next step of `close`. -/
inductive CloseStep where
  | readLooper
  | setStopped
  | cancelAndJoin
  | clearLooper
  | setClosed
  | done
  deriving DecidableEq, Repr

inductive Job where
  | missing
  | running
  | cancelled
  deriving DecidableEq, Repr

def Job.cancel : Job → Job
  | .missing => .missing
  | .running | .cancelled => .cancelled

structure State where
  launch : LaunchStep
  close : CloseStep
  /-- Whether the service is still there. -/
  service : Bool
  /-- Whether the field is set. -/
  looper : Bool
  closed : Bool
  stopped : Bool
  job : Job
  deriving DecidableEq, Repr

def launchStep (s : State) : Option State :=
  match s.launch with
  | .checkClosed => some { s with launch := if s.closed then .done else .readService }
  | .readService => some { s with launch := if s.service then .writeLooper else .done }
  | .writeLooper => some { s with looper := true, launch := .checkStopped }
  -- `TrafficLooper.start`
  | .checkStopped => some { s with launch := if s.stopped then .checkClosedAgain else .startJob }
  | .startJob => some { s with job := .running, launch := .checkStoppedAgain }
  | .checkStoppedAgain =>
    some { s with launch := if s.stopped then .cancelJob else .checkClosedAgain }
  | .cancelJob => some { s with job := s.job.cancel, launch := .checkClosedAgain }
  | .checkClosedAgain => some { s with launch := if s.closed then .clearLooper else .done }
  | .clearLooper => some { s with looper := false, launch := .setStopped }
  -- `TrafficLooper.stop`
  | .setStopped =>
    some { s with stopped := true, launch := if s.stopped then .done else .cancelAndJoin }
  | .cancelAndJoin => some { s with job := s.job.cancel, launch := .done }
  | .done => none

def closeStep (s : State) : Option State :=
  match s.close with
  | .readLooper => some { s with close := if s.looper then .setStopped else .clearLooper }
  -- `TrafficLooper.stop`
  | .setStopped =>
    some { s with stopped := true, close := if s.stopped then .clearLooper else .cancelAndJoin }
  | .cancelAndJoin => some { s with job := s.job.cancel, close := .clearLooper }
  | .clearLooper => some { s with looper := false, close := .setClosed }
  | .setClosed => some { s with closed := true, close := .done }
  | .done => none

inductive Actor where
  | launch
  | close
  deriving DecidableEq, Repr

def step (s : State) : Actor → Option State
  | .launch => launchStep s
  | .close => closeStep s

def initial (service : Bool) : State where
  launch := .checkClosed
  close := .readLooper
  service := service
  looper := false
  closed := false
  stopped := false
  job := .missing

def State.Finished (s : State) : Prop := s.launch = .done ∧ s.close = .done

instance (s : State) : Decidable s.Finished := inferInstanceAs (Decidable (_ ∧ _))

/-- The last look of `launch` at the closed flag must not come while `close` has passed by the
looper without stopping it and has not set the flag yet. -/
def LooksInTime (s : State) : Actor → Prop
  | .launch => s.launch = .checkClosedAgain → s.stopped = false →
      s.close ≠ .clearLooper ∧ s.close ≠ .setClosed
  | .close => True

instance (s : State) : (actor : Actor) → Decidable (LooksInTime s actor)
  | .launch => inferInstanceAs (Decidable (_ → _))
  | .close => inferInstanceAs (Decidable True)

/-- `close` will still cancel a running job. -/
def WillCancel (s : State) : Prop :=
  s.close = .readLooper ∧ s.looper = true ∧ s.stopped = false ∨
    s.close = .setStopped ∧ s.stopped = false ∨ s.close = .cancelAndJoin

/-- What holds of `close` as soon as the looper has been written. -/
def Written (close : CloseStep) (looper stopped : Bool) : Prop :=
  (close = .readLooper → looper = true ∧ stopped = false) ∧
    (close = .setStopped → stopped = false) ∧ (close = .cancelAndJoin → stopped = true)

/-- What holds when `launch` has come to a step. -/
def At (s : State) : LaunchStep → Prop
  | .checkClosed | .readService | .writeLooper =>
    s.looper = false ∧ s.stopped = false ∧ s.job = .missing ∧
      s.close ≠ .setStopped ∧ s.close ≠ .cancelAndJoin
  | .checkStopped | .startJob => s.job = .missing ∧ Written s.close s.looper s.stopped
  | .checkStoppedAgain =>
    (s.stopped = false → s.job = .running) ∧ Written s.close s.looper s.stopped
  | .cancelJob =>
    s.stopped = true ∧ s.close ≠ .readLooper ∧ s.close ≠ .setStopped
  | .checkClosedAgain =>
    (s.stopped = false → s.job = .running) ∧
      (s.stopped = true → s.job = .running → s.close = .cancelAndJoin) ∧
      Written s.close s.looper s.stopped
  | .clearLooper | .setStopped => s.close = .done ∧ (s.stopped = true → s.job ≠ .running)
  | .cancelAndJoin => s.close = .done
  | .done => s.job = .running → WillCancel s

structure Fine (s : State) : Prop where
  closed : s.closed = true ↔ s.close = .done
  there : At s s.launch

/-- A job that nobody cancels any more. -/
structure Leaked (s : State) : Prop where
  launch : s.launch = .done
  job : s.job = .running
  stopped : s.stopped = false
  passed : s.close = .clearLooper ∨ s.close = .setClosed ∨ s.close = .done

theorem fine_initial (service : Bool) : Fine (initial service) := by
  refine ⟨by simp [initial], ?_⟩
  exact ⟨rfl, rfl, rfl, nofun, nofun⟩

theorem Job.cancel_ne_running (job : Job) : job.cancel ≠ .running := by
  cases job <;> nofun

variable {s s' : State}

theorem launchStep_fine (h : Fine s) (inTime : LooksInTime s .launch)
    (next : launchStep s = some s') : Fine s' := by
  obtain ⟨launch, close, service, looper, isClosed, stopped, job⟩ := s
  obtain ⟨closed, there⟩ := h
  cases launch <;> cases next <;> refine ⟨closed, ?_⟩
  case checkClosed =>
    cases isClosed with
    | true => exact fun running => absurd (there.2.2.1.symm.trans running) nofun
    | false => exact there
  case readService =>
    cases service with
    | true => exact there
    | false => exact fun running => absurd (there.2.2.1.symm.trans running) nofun
  case writeLooper =>
    obtain ⟨_, rfl, rfl, noStop, noCancel⟩ := there
    exact ⟨rfl, fun _ => ⟨rfl, rfl⟩, fun _ => rfl, fun here => absurd here noCancel⟩
  case checkStopped =>
    obtain ⟨rfl, written⟩ := there
    cases stopped with
    | true => exact ⟨nofun, fun _ => nofun, written⟩
    | false => exact ⟨rfl, written⟩
  case startJob => exact ⟨fun _ => rfl, there.2⟩
  case checkStoppedAgain =>
    obtain ⟨running, written⟩ := there
    cases stopped with
    | true =>
      refine ⟨rfl, ?_, ?_⟩
      · intro here
        exact absurd (written.1 here).2 nofun
      · intro here
        exact absurd (written.2.1 here) nofun
    | false => exact ⟨fun _ => running rfl, nofun, written⟩
  case cancelJob =>
    obtain ⟨rfl, noRead, noStop⟩ := there
    exact ⟨nofun, fun _ running => absurd running job.cancel_ne_running,
      fun here => absurd here noRead, fun here => absurd here noStop, fun _ => rfl⟩
  case checkClosedAgain =>
    obtain ⟨running, leaving, written⟩ := there
    cases isClosed with
    | true =>
      have finished : close = .done := closed.mp rfl
      refine ⟨finished, fun isStopped isRunning => ?_⟩
      have := leaving isStopped isRunning
      rw [finished] at this
      cases this
    | false =>
      -- A job that runs on is one that `close` comes to.
      intro isRunning
      have open' : close ≠ .done := fun finished => absurd (closed.mpr finished) nofun
      cases stopped with
      | true => exact .inr (.inr (leaving rfl isRunning))
      | false =>
        obtain ⟨noClear, noSet⟩ := inTime rfl rfl
        cases close with
        | readLooper => exact .inl ⟨rfl, written.1 rfl⟩
        | setStopped => exact .inr (.inl ⟨rfl, rfl⟩)
        | cancelAndJoin => exact .inr (.inr rfl)
        | clearLooper => exact absurd rfl noClear
        | setClosed => exact absurd rfl noSet
        | done => exact absurd rfl open'
  case clearLooper => exact there
  case setStopped =>
    obtain ⟨finished, stays⟩ := there
    cases stopped with
    | true => exact fun isRunning => absurd isRunning (stays rfl)
    | false => exact finished
  case cancelAndJoin => exact fun isRunning => absurd isRunning job.cancel_ne_running

theorem closeStep_fine (h : Fine s) (next : closeStep s = some s') : Fine s' := by
  obtain ⟨launch, close, service, looper, isClosed, stopped, job⟩ := s
  obtain ⟨closed, there⟩ := h
  cases close <;> cases next <;> refine ⟨by grind, ?_⟩
  case readLooper => cases launch <;> simp only [At, Written, WillCancel] at there ⊢ <;> grind
  case setStopped => cases launch <;> simp only [At, Written, WillCancel] at there ⊢ <;> grind
  case cancelAndJoin =>
    have := job.cancel_ne_running
    cases launch <;> simp only [At, Written, WillCancel] at there ⊢ <;> grind [Job.cancel]
  case clearLooper => cases launch <;> simp only [At, Written, WillCancel] at there ⊢ <;> grind
  case setClosed => cases launch <;> simp only [At, Written, WillCancel] at there ⊢ <;> grind

theorem launchStep_leaked (h : Fine s) (early : ¬ LooksInTime s .launch)
    (next : launchStep s = some s') : Leaked s' := by
  obtain ⟨launch, close, service, looper, isClosed, stopped, job⟩ := s
  simp only [LooksInTime, Classical.not_imp] at early
  obtain ⟨rfl, rfl, passed⟩ := early
  have passed : close = .clearLooper ∨ close = .setClosed := by
    by_contra neither
    exact passed (not_or.mp neither)
  have open' : isClosed = false := by
    rw [Bool.eq_false_iff]
    intro isSet
    have finished : close = .done := h.closed.mp isSet
    rw [finished] at passed
    rcases passed with early | early <;> cases early
  subst open'
  cases next
  refine ⟨rfl, h.there.1 rfl, rfl, ?_⟩
  rcases passed with clearing | setting
  · exact .inl clearing
  · exact .inr (.inl setting)

theorem step_leaked {actor : Actor} (h : Leaked s) (next : step s actor = some s') : Leaked s' := by
  obtain ⟨launch, close, service, looper, isClosed, stopped, job⟩ := s
  obtain ⟨rfl, rfl, rfl, passed⟩ := h
  cases actor with
  | launch => cases next
  | close =>
    dsimp only at passed
    rcases passed with rfl | rfl | rfl
    · cases next
      exact ⟨rfl, rfl, rfl, .inr (.inl rfl)⟩
    · cases next
      exact ⟨rfl, rfl, rfl, .inr (.inr rfl)⟩
    · cases next

theorem step_early {actor : Actor} (h : Fine s) (next : step s actor = some s')
    (early : ¬ LooksInTime s actor) : Leaked s' := by
  cases actor with
  | launch => exact launchStep_leaked h early next
  | close => exact absurd trivial early

theorem step_fine {actor : Actor} (h : Fine s) (next : step s actor = some s')
    (inTime : LooksInTime s actor) : Fine s' := by
  cases actor with
  | launch => exact launchStep_fine h inTime next
  | close => exact closeStep_fine h next

/-- In an interleaving in which both finish, no job runs on exactly if the last look of `launch`
at the closed flag comes in time. -/
theorem looper_ends_iff (service : Bool) (schedule : List Actor)
    (finished : (Run.final step (initial service) schedule).Finished) :
    (Run.final step (initial service) schedule).job ≠ .running ↔
      Run.Along step LooksInTime (initial service) schedule := by
  rcases Run.final_cases step_fine step_early step_leaked (fine_initial service) schedule with
    ⟨along, fine⟩ | ⟨late, leaked⟩
  · refine iff_of_true ?_ along
    intro running
    have there := fine.there
    rw [finished.1] at there
    rcases there running with ⟨here, _⟩ | ⟨here, _⟩ | here <;>
      exact absurd (here.symm.trans finished.2) nofun
  · exact iff_of_false (fun ended => ended leaked.job) late

/-! `close` reads the looper just before `launch` writes it, and sets the flag after `launch` has
looked. -/

theorem looper_runs_on :
    (Run.final step (initial true) [.launch, .launch, .close, .launch, .launch, .launch, .launch,
      .launch, .close, .close]).Finished ∧
    (Run.final step (initial true) [.launch, .launch, .close, .launch, .launch, .launch, .launch,
      .launch, .close, .close]).job = .running := by
  decide

theorem looper_stopped :
    (Run.final step (initial true) [.launch, .launch, .launch, .close, .close, .launch, .close,
      .launch, .close, .launch, .launch, .close, .launch]).job ≠ .running :=
  (looper_ends_iff true _ (by decide)).mpr (by decide)

end QuinMo.Bg.LooperRace
