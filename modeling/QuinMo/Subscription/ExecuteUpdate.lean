import Mathlib.Logic.Function.Basic
import QuinMo.Lib.Run

/-!
# At most one update of a group

A call marks the group as updating in its own process and then takes a file lock, which the other
processes see. The lock can be taken while no process has it, and a process gives it up when it
closes a channel to the file.
-/

namespace QuinMo.Subscription.ExecuteUpdate

set_option linter.unusedSectionVars false

/-- Where a call of `executeUpdate` is. -/
inductive Phase where
  | notStarted
  /-- The group is marked; the file is opened and locked next. -/
  | marked
  /-- The lock was not given; the channel is closed next. -/
  | closingChannel
  /-- Without a lock; the mark is removed next. -/
  | dropping
  | locked
  /-- `doUpdate` is running. -/
  | updating
  | releasing
  | closing
  /-- `finishUpdate` comes next, which removes the mark first. -/
  | finishing
  | ended
  deriving DecidableEq, Repr

namespace Phase

def marks : Phase → Bool
  | .notStarted | .ended => false
  | _ => true

def holds : Phase → Bool
  | .locked | .updating | .releasing => true
  | _ => false

/-- The lock may still be there after a release that failed. -/
def mayHold : Phase → Bool
  | .locked | .updating | .releasing | .closing => true
  | _ => false

theorem marks_of_holds {phase : Phase} (h : phase.holds = true) : phase.marks = true := by
  cases phase <;> first | rfl | cases h

end Phase

structure State (P G C : Type) where
  phase : C → Phase
  updating : P → G → Bool
  lock : G → Option P

variable {P G C : Type} [DecidableEq P] [DecidableEq G] [DecidableEq C]

namespace State

def initial : State P G C := ⟨fun _ => .notStarted, fun _ _ => false, fun _ => none⟩

def goTo (s : State P G C) (c : C) (phase : Phase) : State P G C :=
  { s with phase := Function.update s.phase c phase }

def mark (s : State P G C) (p : P) (g : G) (on : Bool) : State P G C :=
  { s with updating := fun q h => if q = p ∧ h = g then on else s.updating q h }

def take (s : State P G C) (p : P) (g : G) : State P G C :=
  { s with lock := Function.update s.lock g (some p) }

/-- The process gives up its lock on the file. -/
def giveUp (s : State P G C) (p : P) (g : G) : State P G C :=
  if s.lock g = some p then { s with lock := Function.update s.lock g none } else s

end State

/-- What a call does next, with what it meets. -/
inductive Event where
  | add
  | openFails
  /-- `tryLock`, which may fail for other reasons than the lock. -/
  | tryLock (fails : Bool)
  | closeChannel
  | removeMark
  /-- There is no subscription, the user refuses, or something is thrown. -/
  | leave
  | doUpdate
  /-- Success, failure or cancellation. -/
  | updateEnds
  | release (fails : Bool)
  | close
  | finishUpdate
  deriving DecidableEq, Repr

variable (proc : C → P) (group : C → G)

/-- One step of a call; none if the call is elsewhere. -/
def step (s : State P G C) (op : C × Event) : Option (State P G C) :=
  let c := op.1
  let p := proc c
  let g := group c
  match s.phase c, op.2 with
  | .notStarted, .add =>
    if s.updating p g then some (s.goTo c .ended) else some ((s.mark p g true).goTo c .marked)
  | .marked, .openFails => some (s.goTo c .dropping)
  | .marked, .tryLock fails =>
    if s.lock g = none ∧ fails = false then some ((s.take p g).goTo c .locked)
    else some (s.goTo c .closingChannel)
  | .closingChannel, .closeChannel => some ((s.giveUp p g).goTo c .dropping)
  | .dropping, .removeMark => some ((s.mark p g false).goTo c .ended)
  | .locked, .leave => some (s.goTo c .releasing)
  | .locked, .doUpdate => some (s.goTo c .updating)
  | .updating, .updateEnds => some (s.goTo c .releasing)
  | .releasing, .release fails =>
    some ((if fails then s else s.giveUp p g).goTo c .closing)
  | .closing, .close => some ((s.giveUp p g).goTo c .finishing)
  | .finishing, .finishUpdate => some ((s.mark p g false).goTo c .ended)
  | _, _ => none

/-- A group is marked in a process while one call has marked it there. -/
structure Marks (s : State P G C) : Prop where
  marked : ∀ c, (s.phase c).marks = true → s.updating (proc c) (group c) = true
  marker : ∀ p g, s.updating p g = true → ∃ c, proc c = p ∧ group c = g ∧ (s.phase c).marks = true
  alone : ∀ c d, (s.phase c).marks = true → (s.phase d).marks = true → proc c = proc d →
    group c = group d → c = d

/-- A lock is held by a process while one of its calls has it. -/
structure Locks (s : State P G C) : Prop where
  held : ∀ c, (s.phase c).holds = true → s.lock (group c) = some (proc c)
  holder : ∀ g p, s.lock g = some p → ∃ c, proc c = p ∧ group c = g ∧ (s.phase c).mayHold = true

section
variable {proc group} {s : State P G C} {c : C}

theorem goTo_phase (s : State P G C) (c d : C) (phase : Phase) :
    (s.goTo c phase).phase d = if d = c then phase else s.phase d := by
  simp [State.goTo, Function.update_apply]

variable {phase : Phase}

/-- A call goes on without a change of its mark. -/
theorem Marks.goTo (h : Marks proc group s)
    (same : phase.marks = (s.phase c).marks) : Marks proc group (s.goTo c phase) := by
  have marks (d : C) : ((s.goTo c phase).phase d).marks = (s.phase d).marks := by
    rw [goTo_phase]
    split
    · rename_i here
      rw [same, here]
    · rfl
  refine ⟨?_, ?_, ?_⟩
  · intro d on
    exact h.marked d (marks d ▸ on)
  · intro p g updating
    obtain ⟨d, rfl, rfl, on⟩ := h.marker p g updating
    exact ⟨d, rfl, rfl, (marks d).trans on⟩
  · intro d e onD onE
    exact h.alone d e (marks d ▸ onD) (marks e ▸ onE)

theorem Marks.add (h : Marks proc group s) (free : s.updating (proc c) (group c) = false)
    (marks : phase.marks = true) :
    Marks proc group ((s.mark (proc c) (group c) true).goTo c phase) := by
  have other (d : C) (on : (s.phase d).marks = true) : ¬ (proc d = proc c ∧ group d = group c) := by
    rintro ⟨sameProc, sameGroup⟩
    have updating := h.marked d on
    rw [sameProc, sameGroup, free] at updating
    cases updating
  refine ⟨?_, ?_, ?_⟩
  · intro d on
    simp only [State.goTo, State.mark]
    split
    · rfl
    · rename_i apart
      rw [goTo_phase] at on
      split at on
      · rename_i here
        exact absurd ⟨congrArg proc here, congrArg group here⟩ apart
      · exact h.marked d on
  · intro p g updating
    simp only [State.goTo, State.mark] at updating
    split at updating
    · rename_i own
      exact ⟨c, own.1.symm, own.2.symm, by rw [goTo_phase, if_pos rfl, marks]⟩
    · obtain ⟨d, rfl, rfl, on⟩ := h.marker p g updating
      refine ⟨d, rfl, rfl, ?_⟩
      rw [goTo_phase]
      split
      · exact marks
      · exact on
  · intro d e onD onE sameProc sameGroup
    rw [goTo_phase] at onD onE
    split at onD <;> split at onE
    · rename_i hereD hereE
      rw [hereD, hereE]
    · rename_i hereD _
      subst hereD
      exact absurd ⟨sameProc.symm, sameGroup.symm⟩ (other e onE)
    · rename_i _ hereE
      subst hereE
      exact absurd ⟨sameProc, sameGroup⟩ (other d onD)
    · exact h.alone d e onD onE sameProc sameGroup

theorem Marks.remove (h : Marks proc group s) (on : (s.phase c).marks = true) :
    Marks proc group ((s.mark (proc c) (group c) false).goTo c .ended) := by
  refine ⟨?_, ?_, ?_⟩
  · intro d onD
    rw [goTo_phase] at onD
    split at onD
    · cases onD
    · rename_i away
      simp only [State.goTo, State.mark]
      rw [if_neg]
      · exact h.marked d onD
      · rintro ⟨sameProc, sameGroup⟩
        exact away (h.alone d c onD on sameProc sameGroup)
  · intro p g updating
    simp only [State.goTo, State.mark] at updating
    split at updating
    · cases updating
    · rename_i apart
      obtain ⟨d, rfl, rfl, onD⟩ := h.marker p g updating
      refine ⟨d, rfl, rfl, ?_⟩
      have away : d ≠ c := fun here => apart ⟨congrArg proc here, congrArg group here⟩
      rw [goTo_phase, if_neg away]
      exact onD
  · intro d e onD onE
    rw [goTo_phase] at onD onE
    split at onD
    · cases onD
    · split at onE
      · cases onE
      · exact h.alone d e onD onE

/-! ## Locks belong to calls -/

/-- A call goes on with as much of a lock as it has. -/
theorem Locks.goTo (h : Locks proc group s) (holds : phase.holds = true → (s.phase c).holds = true)
    (mayHold : (s.phase c).mayHold = true → phase.mayHold = true) :
    Locks proc group (s.goTo c phase) := by
  refine ⟨?_, ?_⟩
  · intro d on
    rw [goTo_phase] at on
    split at on
    · rename_i here
      subst here
      exact h.held d (holds on)
    · exact h.held d on
  · intro g p lock
    obtain ⟨d, rfl, rfl, on⟩ := h.holder g p lock
    refine ⟨d, rfl, rfl, ?_⟩
    rw [goTo_phase]
    split
    · rename_i here
      subst here
      exact mayHold on
    · exact on

theorem Locks.take (h : Locks proc group s) (free : s.lock (group c) = none) :
    Locks proc group ((s.take (proc c) (group c)).goTo c .locked) := by
  refine ⟨?_, ?_⟩
  · intro d on
    rw [goTo_phase] at on
    split at on
    · rename_i here
      subst here
      exact Function.update_self _ _ _
    · have lock := h.held d on
      have apart : group d ≠ group c := by
        intro same
        rw [same, free] at lock
        cases lock
      simpa [State.goTo, State.take, Function.update_of_ne apart] using lock
  · intro g p lock
    by_cases same : g = group c
    · subst same
      simp only [State.goTo, State.take, Function.update_self, Option.some.injEq] at lock
      exact ⟨c, lock, rfl, by simp [goTo_phase, Phase.mayHold]⟩
    · simp only [State.goTo, State.take, Function.update_of_ne same] at lock
      obtain ⟨d, rfl, rfl, on⟩ := h.holder g p lock
      refine ⟨d, rfl, rfl, ?_⟩
      have away : d ≠ c := fun here => same (congrArg group here)
      rw [goTo_phase, if_neg away]
      exact on

theorem giveUp_lock (s : State P G C) (p q : P) (g g' : G) :
    (s.giveUp p g).lock g' = some q ↔ s.lock g' = some q ∧ ¬ (g' = g ∧ q = p) := by
  unfold State.giveUp
  split
  · rename_i own
    by_cases same : g' = g
    · subst same
      simp only [Function.update_self, own, Option.some.injEq, true_and, reduceCtorEq, false_iff]
      exact fun both => both.2 both.1.symm
    · simp [same]
  · rename_i other
    refine ⟨fun lock => ⟨lock, ?_⟩, And.left⟩
    rintro ⟨rfl, rfl⟩
    exact other lock

theorem giveUp_marks (s : State P G C) (p : P) (g : G) :
    (s.giveUp p g).phase = s.phase ∧ (s.giveUp p g).updating = s.updating := by
  unfold State.giveUp
  split <;> exact ⟨rfl, rfl⟩

/-- A lock of the process is the lock of the call that has marked the group. -/
theorem Locks.giveUp (h : Locks proc group s) (marks : Marks proc group s)
    (on : (s.phase c).marks = true) (free : phase.holds = false) :
    Locks proc group ((s.giveUp (proc c) (group c)).goTo c phase) := by
  have phases (d : C) : ((s.giveUp (proc c) (group c)).goTo c phase).phase d =
      if d = c then phase else s.phase d := by
    rw [goTo_phase, (giveUp_marks s _ _).1]
  refine ⟨?_, ?_⟩
  · intro d onD
    rw [phases] at onD
    split at onD
    · exact absurd (free.symm.trans onD) nofun
    · rename_i away
      refine (giveUp_lock s _ _ _ _).mpr ⟨h.held d onD, ?_⟩
      rintro ⟨sameGroup, sameProc⟩
      exact away (marks.alone d c (Phase.marks_of_holds onD) on sameProc sameGroup)
  · intro g p lock
    obtain ⟨lock, apart⟩ := (giveUp_lock s _ _ _ _).mp lock
    obtain ⟨d, rfl, rfl, onD⟩ := h.holder g p lock
    refine ⟨d, rfl, rfl, ?_⟩
    have away : d ≠ c := fun here => apart ⟨congrArg group here, congrArg proc here⟩
    rw [phases, if_neg away]
    exact onD

theorem Marks.giveUp (h : Marks proc group s) (p : P) (g : G) :
    Marks proc group (s.giveUp p g) := by
  unfold State.giveUp
  split
  · exact ⟨h.marked, h.marker, h.alone⟩
  · exact h

theorem Marks.take (h : Marks proc group s) (p : P) (g : G) : Marks proc group (s.take p g) :=
  ⟨h.marked, h.marker, h.alone⟩

theorem Locks.mark (h : Locks proc group s) (p : P) (g : G) (on : Bool) :
    Locks proc group (s.mark p g on) :=
  ⟨h.held, h.holder⟩

variable (proc group) in
structure Sound (s : State P G C) : Prop where
  marks : Marks proc group s
  locks : Locks proc group s

theorem sound_initial : Sound proc group (State.initial : State P G C) :=
  ⟨⟨nofun, nofun, nofun⟩, ⟨nofun, nofun⟩⟩

theorem Sound.goTo (h : Sound proc group s) (same : phase.marks = (s.phase c).marks)
    (holds : phase.holds = true → (s.phase c).holds = true)
    (mayHold : (s.phase c).mayHold = true → phase.mayHold = true) :
    Sound proc group (s.goTo c phase) :=
  ⟨h.marks.goTo same, h.locks.goTo holds mayHold⟩

theorem Sound.giveUp (h : Sound proc group s) (on : (s.phase c).marks = true)
    (marks : phase.marks = true) (free : phase.holds = false) :
    Sound proc group ((s.giveUp (proc c) (group c)).goTo c phase) := by
  refine ⟨(h.marks.giveUp _ _).goTo ?_, h.locks.giveUp h.marks on free⟩
  rw [(giveUp_marks s _ _).1, on, marks]

theorem Sound.remove (h : Sound proc group s) (on : (s.phase c).marks = true)
    (free : (s.phase c).mayHold = false) :
    Sound proc group ((s.mark (proc c) (group c) false).goTo c .ended) := by
  refine ⟨h.marks.remove on, (h.locks.mark _ _ _).goTo nofun ?_⟩
  intro mayHold
  exact absurd (free.symm.trans mayHold) nofun

theorem Sound.add (h : Sound proc group s) (start : s.phase c = .notStarted)
    (free : s.updating (proc c) (group c) = false) :
    Sound proc group ((s.mark (proc c) (group c) true).goTo c .marked) := by
  refine ⟨h.marks.add free rfl, (h.locks.mark _ _ _).goTo nofun ?_⟩
  intro mayHold
  rw [State.mark, start] at mayHold
  cases mayHold

theorem Sound.take (h : Sound proc group s) (on : (s.phase c).marks = true)
    (free : s.lock (group c) = none) :
    Sound proc group ((s.take (proc c) (group c)).goTo c .locked) :=
  ⟨(h.marks.take _ _).goTo on.symm, h.locks.take free⟩

theorem step_sound {s' : State P G C} {op : C × Event} (h : Sound proc group s)
    (ok : step proc group s op = some s') : Sound proc group s' := by
  obtain ⟨c, event⟩ := op
  unfold step at ok
  dsimp only at ok
  split at ok <;> rename_i here
  · -- the group is marked, or the call ends
    split at ok
    · cases ok
      exact h.goTo (by rw [here]; rfl) nofun (by rw [here]; nofun)
    · rename_i free
      cases ok
      exact h.add here (by simpa using free)
  · cases ok
    exact h.goTo (by rw [here]; rfl) nofun (by rw [here]; nofun)
  · split at ok
    · rename_i free
      cases ok
      exact h.take (by rw [here]; rfl) free.1
    · cases ok
      exact h.goTo (by rw [here]; rfl) nofun (by rw [here]; nofun)
  · cases ok
    exact h.giveUp (by rw [here]; rfl) rfl rfl
  · cases ok
    exact h.remove (by rw [here]; rfl) (by rw [here]; rfl)
  · cases ok
    exact h.goTo (by rw [here]; rfl) (fun _ => by rw [here]; rfl) (fun _ => rfl)
  · cases ok
    exact h.goTo (by rw [here]; rfl) (fun _ => by rw [here]; rfl) (fun _ => rfl)
  · cases ok
    exact h.goTo (by rw [here]; rfl) (fun _ => by rw [here]; rfl) (fun _ => rfl)
  · split at ok
    · -- a release that fails leaves the lock to the closing of the channel
      cases ok
      exact h.goTo (by rw [here]; rfl) nofun (fun _ => rfl)
    · cases ok
      exact h.giveUp (by rw [here]; rfl) rfl rfl
  · cases ok
    exact h.giveUp (by rw [here]; rfl) rfl rfl
  · cases ok
    exact h.remove (by rw [here]; rfl) (by rw [here]; rfl)
  · cases ok

theorem Sound.one_updating (h : Sound proc group s) {c d : C} (updatingC : s.phase c = .updating)
    (updatingD : s.phase d = .updating) (same : group c = group d) : c = d := by
  have lockC := h.locks.held c (by rw [updatingC]; rfl)
  have lockD := h.locks.held d (by rw [updatingD]; rfl)
  rw [same, lockD, Option.some.injEq] at lockC
  exact h.marks.alone c d (by rw [updatingC]; rfl) (by rw [updatingD]; rfl) lockC.symm same

/-- No call is under way. -/
def Quiet (s : State P G C) : Prop := ∀ c, s.phase c = .notStarted ∨ s.phase c = .ended

theorem Sound.unmarked (h : Sound proc group s) (quiet : Quiet s) (p : P) (g : G) :
    s.updating p g = false := by
  rw [Bool.eq_false_iff]
  intro updating
  obtain ⟨c, _, _, on⟩ := h.marks.marker p g updating
  rcases quiet c with phase | phase <;> rw [phase] at on <;> cases on

theorem Sound.unlocked (h : Sound proc group s) (quiet : Quiet s) (g : G) : s.lock g = none := by
  cases lock : s.lock g with
  | none => rfl
  | some p =>
    obtain ⟨c, _, _, on⟩ := h.locks.holder g p lock
    rcases quiet c with phase | phase <;> rw [phase] at on <;> cases on

/-- A call that starts while all others have ended comes to its update. -/
theorem runs_again (h : Sound proc group s) (quiet : Quiet s) (start : s.phase c = .notStarted) :
    (Run.final (step proc group) s [(c, .add), (c, .tryLock false), (c, .doUpdate)]).phase c =
      .updating := by
  have unmarked := h.unmarked quiet (proc c) (group c)
  have unlocked := h.unlocked quiet (group c)
  simp [Run.final, step, start, unmarked, unlocked, State.goTo, State.mark, State.take]

end

/-- At no time do two updates of a group run; and when all calls have ended, no group is marked
in any process, no lock is held, and the next call can update. -/
theorem one_update_per_group (ops : List (C × Event)) :
    (∀ c d, (Run.final (step proc group) State.initial ops).phase c = .updating →
      (Run.final (step proc group) State.initial ops).phase d = .updating →
      group c = group d → c = d) ∧
    (Quiet (Run.final (step proc group) State.initial ops) →
      (∀ p g, (Run.final (step proc group) State.initial ops).updating p g = false) ∧
      (∀ g, (Run.final (step proc group) State.initial ops).lock g = none) ∧
      ∀ c, (Run.final (step proc group) State.initial ops).phase c = .notStarted →
        ∃ more, (Run.final (step proc group) (Run.final (step proc group) State.initial ops)
          more).phase c = .updating) := by
  have sound : Sound proc group (Run.final (step proc group) State.initial ops) :=
    Run.final_invariant step_sound sound_initial ops
  refine ⟨fun c d => sound.one_updating, fun quiet =>
    ⟨sound.unmarked quiet, sound.unlocked quiet, ?_⟩⟩
  intro c start
  exact ⟨_, runs_again sound quiet start⟩

end QuinMo.Subscription.ExecuteUpdate
