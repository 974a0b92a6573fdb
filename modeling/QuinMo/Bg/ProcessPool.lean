import Mathlib.Data.List.Nodup
import Mathlib.Logic.Function.Basic
import QuinMo.Lib.Run

/-!
# Plugin processes and credential files of an instance

`launch` writes temporary files and starts plugins while `close` may run on another thread. A
looper restarts its process when it exits and destroys it when the pool is cancelled; `close`
destroys the processes whose looper never started. After the loopers the registered files are
deleted.
-/

namespace QuinMo.Bg.ProcessPool

/-- What `launch` has to do for the plugins of the config. -/
inductive Task where
  | cacheFile
  | plugin
  deriving DecidableEq, Repr

/-- The next step of `launch`. Files and guards are numbered. -/
inductive LaunchStep where
  | checkClosed
  | next
  /-- The file is there; `cacheFiles.add` comes next, and then `writeText`. -/
  | register (file : Nat)
  | write (file : Nat)
  /-- The process was started; `guards.add` comes next. -/
  | addGuard (guard : Nat)
  | checkActive (guard : Nat)
  | destroyGuard (guard : Nat)
  | launchLooper (guard : Nat)
  | done
  deriving DecidableEq, Repr

/-- The guard that `launch` has in hand. -/
def LaunchStep.inHand : LaunchStep → Option Nat
  | .addGuard g | .checkActive g | .destroyGuard g | .launchLooper g => some g
  | _ => none

inductive CloseStep where
  | setClosed
  | cancel
  | readGuards
  | reap (rest : List Nat)
  | destroy (guard : Nat) (rest : List Nat)
  | done
  deriving DecidableEq, Repr

/-- `deleteCacheFiles`, which waits for the loopers. -/
inductive DeleteStep where
  | waiting
  | deleting (rest : List Nat)
  | clearing
  | done
  deriving DecidableEq, Repr

inductive Looper where
  | missing
  | launched
  /-- Dispatched while the pool was active; the body comes next. -/
  | starting
  | waiting
  /-- The process has exited. -/
  | exited
  /-- The `finally` part with a process that runs. -/
  | cleaning
  | ended
  deriving DecidableEq, Repr

structure Guard where
  /-- The process runs; otherwise it has exited or was destroyed. -/
  running : Bool
  looper : Looper
  looperStarted : Bool
  deriving DecidableEq, Repr

structure State where
  launch : LaunchStep
  script : List Task
  close : CloseStep
  delete : DeleteStep
  closed : Bool
  active : Bool
  started : Nat
  guard : Nat → Guard
  guards : List Nat
  created : Nat
  onDisk : Nat → Bool
  cacheFiles : List Nat

/-- `init` may have left files, which are all registered. -/
def initial (files : Nat) (script : List Task) : State where
  launch := .checkClosed
  script := script
  close := .setClosed
  delete := .waiting
  closed := false
  active := true
  started := 0
  guard := fun _ => ⟨false, .missing, false⟩
  guards := []
  created := files
  onDisk := fun f => decide (f < files)
  cacheFiles := List.range files

namespace State

def setGuard (s : State) (g : Nat) (guard : Guard) : State :=
  { s with guard := Function.update s.guard g guard }

def destroy (s : State) (g : Nat) : State := s.setGuard g { s.guard g with running := false }

def setLooper (s : State) (g : Nat) (looper : Looper) : State :=
  s.setGuard g { s.guard g with looper }

def setFile (s : State) (f : Nat) (onDisk : Bool) : State :=
  { s with onDisk := Function.update s.onDisk f onDisk }

end State

/-- A step of `launch`; a file or a process may fail to come, which ends it. -/
def launchStep (s : State) (fails : Bool) : Option State :=
  match s.launch with
  | .checkClosed => some { s with launch := if s.closed then .done else .next }
  | .next =>
    match s.script with
    | [] => some { s with launch := .done }
    | .cacheFile :: script =>
      if fails then some { s with launch := .done }
      else some { s.setFile s.created true with
        script, created := s.created + 1, launch := .register s.created }
    | .plugin :: script =>
      if fails then some { s with launch := .done }
      else some { s.setGuard s.started ⟨true, .missing, false⟩ with
        script, started := s.started + 1, launch := .addGuard s.started }
  | .register f => some { s with cacheFiles := s.cacheFiles ++ [f], launch := .write f }
  -- a file that is not there any more is created again
  | .write f => some { s.setFile f true with launch := if fails then .done else .next }
  | .addGuard g => some { s with guards := s.guards ++ [g], launch := .checkActive g }
  | .checkActive g =>
    some { s with launch := if s.active then .launchLooper g else .destroyGuard g }
  | .destroyGuard g => some { s.destroy g with launch := .next }
  -- on a cancelled pool the body never runs
  | .launchLooper g =>
    some { s.setLooper g (if s.active then .launched else .ended) with launch := .next }
  | .done => none

def closeStep (s : State) : Option State :=
  match s.close with
  | .setClosed => some { s with closed := true, close := .cancel }
  | .cancel => some { s with active := false, close := .readGuards }
  | .readGuards => some { s with close := .reap s.guards }
  | .reap [] => some { s with close := .done }
  | .reap (g :: rest) =>
    some { s with close := if (s.guard g).looperStarted then .reap rest else .destroy g rest }
  | .destroy g rest => some { s.destroy g with close := .reap rest }
  | .done => none

/-- All loopers of the pool are through. -/
def State.LoopersEnded (s : State) : Prop :=
  ∀ g < s.started, (s.guard g).looper = .missing ∨ (s.guard g).looper = .ended

instance (s : State) : Decidable s.LoopersEnded :=
  inferInstanceAs (Decidable (∀ g < s.started,
    (s.guard g).looper = .missing ∨ (s.guard g).looper = .ended))

def deleteStep (s : State) : Option State :=
  match s.delete with
  | .waiting =>
    if s.close = .done ∧ s.LoopersEnded then some { s with delete := .deleting s.cacheFiles }
    else none
  | .deleting [] => some { s with delete := .clearing }
  | .deleting (f :: rest) => some { s.setFile f false with delete := .deleting rest }
  | .clearing => some { s with cacheFiles := [], delete := .done }
  | .done => none

/-- What a looper meets: an exit code or the cancellation while it waits; after an exit, whether
it gives up. -/
inductive Meets where
  | exitCode
  | cancellation
  | restart
  | failure
  deriving DecidableEq, Repr

def looperStep (s : State) (g : Nat) (meets : Meets) : Option State :=
  let guard := s.guard g
  match guard.looper, meets with
  | .launched, _ => some (s.setLooper g (if s.active then .starting else .ended))
  | .starting, _ => some (s.setGuard g { guard with looperStarted := true, looper := .waiting })
  | .waiting, .exitCode => if guard.running then none else some (s.setLooper g .exited)
  | .waiting, .cancellation => if s.active then none else some (s.setLooper g .cleaning)
  | .exited, .restart => some (s.setGuard g { guard with running := true, looper := .waiting })
  | .exited, .failure => some (s.setLooper g .ended)
  | .cleaning, _ => some (s.setGuard g { guard with running := false, looper := .ended })
  | _, _ => none

inductive Op where
  | launch (fails : Bool)
  | close
  | delete
  | looper (g : Nat) (meets : Meets)
  /-- A process exits by itself. -/
  | exits (g : Nat)
  deriving DecidableEq, Repr

def step (s : State) : Op → Option State
  | .launch fails => launchStep s fails
  | .close => closeStep s
  | .delete => deleteStep s
  | .looper g meets => looperStep s g meets
  | .exits g => if (s.guard g).running then some (s.destroy g) else none

structure State.Finished (s : State) : Prop where
  launch : s.launch = .done
  close : s.close = .done
  delete : s.delete = .done
  loopers : s.LoopersEnded


/-! ## Processes -/

/-- `close` still comes to the guard in its pass over the list. -/
def State.WillReap (s : State) (g : Nat) : Prop :=
  match s.close with
  | .readGuards => g ∈ s.guards
  | .reap rest => g ∈ rest
  | .destroy h rest => g = h ∨ g ∈ rest
  | _ => False

/-- The looper destroys the process before it ends. -/
def Looper.Cleans (looper : Looper) : Prop :=
  looper = .starting ∨ looper = .waiting ∨ looper = .cleaning

/-- Some party is going to see to the process. -/
inductive State.Cared (s : State) (g : Nat) : Prop where
  | adding (now : s.launch = .addGuard g)
  | checking (now : s.launch = .checkActive g)
  | destroying (now : s.launch = .destroyGuard g)
  | launching (now : s.launch = .launchLooper g) (active : s.active = true)
  | launched (looper : (s.guard g).looper = .launched) (active : s.active = true)
  | looper (cleans : (s.guard g).looper.Cleans)
  | close (fresh : (s.guard g).looperStarted = false) (reaps : s.WillReap g)

structure State.Watched (s : State) (g : Nat) : Prop where
  cared : (s.guard g).running = true → s.Cared g
  begun : (s.guard g).looperStarted = true →
    (s.guard g).looper ≠ .missing ∧ (s.guard g).looper ≠ .launched ∧
      ((s.guard g).looper = .ended → (s.guard g).running = false)
  exited : (s.guard g).looper = .exited → (s.guard g).running = false
  listed : (s.guard g).looper ≠ .missing → g ∈ s.guards
  checked : s.launch = .checkActive g ∨ s.launch = .launchLooper g →
    (s.guard g).looper = .missing ∧ g ∈ s.guards
  fresh : s.launch = .addGuard g → (s.guard g).looper = .missing

namespace State

variable {s s' : State} {g h : Nat}

@[simp] theorem guard_setGuard (guard : Guard) : (s.setGuard g guard).guard g = guard :=
  Function.update_self ..

theorem guard_setGuard_of_ne (guard : Guard) (ne : g ≠ h) :
    (s.setGuard h guard).guard g = s.guard g :=
  Function.update_of_ne ne ..

/-- A step that is not about a guard and its process leaves it watched if a running process
stays cared for. -/
theorem Watched.frame (watched : s.Watched g) (guard : s'.guard g = s.guard g)
    (guards : g ∈ s.guards → g ∈ s'.guards)
    (launch : s'.launch = s.launch ∨ (∀ h, s'.launch = .addGuard h ∨ s'.launch = .checkActive h ∨
      s'.launch = .launchLooper h → h ≠ g))
    (cared : (s.guard g).running = true → s.Cared g → s'.Cared g) : s'.Watched g where
  cared running := cared (guard ▸ running) (watched.cared (guard ▸ running))
  begun := by
    rw [guard]
    exact watched.begun
  exited := by
    rw [guard]
    exact watched.exited
  listed started := guards (watched.listed (guard ▸ started))
  checked now := by
    rw [guard]
    rcases launch with same | other
    · have := watched.checked (same ▸ now)
      exact ⟨this.1, guards this.2⟩
    · exact absurd rfl (other g (.inr now))
  fresh now := by
    rw [guard]
    rcases launch with same | other
    · exact watched.fresh (same ▸ now)
    · exact absurd rfl (other g (.inl now))

theorem Cared.frame (cared : s.Cared g) (guard : s'.guard g = s.guard g)
    (launch : s'.launch = s.launch) (active : s'.active = s.active)
    (reaps : (s.guard g).looperStarted = false → s.WillReap g → s'.WillReap g) : s'.Cared g := by
  cases cared with
  | adding now => exact .adding (launch ▸ now)
  | checking now => exact .checking (launch ▸ now)
  | destroying now => exact .destroying (launch ▸ now)
  | launching now on => exact .launching (launch ▸ now) (active ▸ on)
  | launched looper on => exact .launched (guard ▸ looper) (active ▸ on)
  | looper cleans => exact .looper (guard ▸ cleans)
  | close fresh reap => exact .close (guard ▸ fresh) (reaps fresh reap)

/-- A process that is destroyed needs no care. -/
theorem Watched.destroy (watched : s.Watched g) (h : Nat) : (s.destroy h).Watched g := by
  by_cases same : g = h
  · subst h
    refine ⟨?_, ?_, ?_, ?_, ?_, ?_⟩ <;> simp [State.destroy]
    · intro begun
      exact (watched.begun begun).imp_right And.left
    · exact watched.listed
    · exact watched.checked
    · exact watched.fresh
  · have guard : (s.destroy h).guard g = s.guard g := guard_setGuard_of_ne _ same
    exact watched.frame guard id (.inl rfl) fun _ cared => cared.frame guard rfl rfl fun _ => id

theorem Watched.not_started (watched : s.Watched g)
    (looper : (s.guard g).looper = .missing ∨ (s.guard g).looper = .launched) :
    (s.guard g).looperStarted = false := by
  by_contra begun
  obtain ⟨missing, launched, -⟩ := watched.begun (Bool.not_eq_false _ ▸ begun)
  exact looper.elim missing launched

/-- Whoever counted on an active pool is in the list that `close` goes through. -/
theorem Watched.cancel (watched : s.Watched g) (now : s.close = .cancel) :
    { s with active := false, close := .readGuards : State }.Watched g := by
  refine watched.frame rfl id (.inl rfl) ?_
  intro _ cared
  cases cared with
  | adding now => exact .adding now
  | checking now => exact .checking now
  | destroying now => exact .destroying now
  | launching now _ =>
    obtain ⟨missing, listed⟩ := watched.checked (.inr now)
    exact .close (watched.not_started (.inl missing)) listed
  | launched looper _ =>
    have listed := watched.listed (by simp [looper])
    exact .close (watched.not_started (.inr looper)) listed
  | looper cleans => exact .looper cleans
  | close _ reaps => simp [WillReap, now] at reaps

end State

variable {s s' : State} {op : Op} {g : Nat} {fails : Bool}

theorem closeStep_watched (watched : ∀ g, s.Watched g)
    (next : closeStep s = some s') (g : Nat) : s'.Watched g := by
  unfold closeStep at next
  split at next
  case h_1 now | h_3 now | h_4 now =>
    cases next
    exact (watched g).frame rfl id (.inl rfl) fun _ cared => cared.frame rfl rfl rfl (by
      simp [State.WillReap, now])
  case h_2 now =>
    cases next
    exact (watched g).cancel now
  case h_5 h rest now =>
    cases next
    refine (watched g).frame rfl id (.inl rfl) fun _ cared => cared.frame rfl rfl rfl ?_
    intro fresh reaps
    simp only [State.WillReap, now, List.mem_cons] at reaps ⊢
    by_cases started : (s.guard h).looperStarted = true
    · rw [if_pos started]
      exact reaps.resolve_left fun same => by simp [← same, fresh] at started
    · rw [if_neg started]
      exact reaps
  case h_6 h rest now =>
    cases next
    refine ((watched g).destroy h).frame rfl id (.inl rfl) fun running cared =>
      cared.frame rfl rfl rfl ?_
    intro _ reaps
    simp only [State.WillReap, State.destroy, State.setGuard, now] at reaps
    apply reaps.resolve_left
    rintro rfl
    simp [State.destroy] at running
  case h_7 => cases next

/-- A looper that destroys the process itself may take any of its steps. -/
theorem State.Watched.own {h : Nat} (watched : ∀ g, s.Watched g) (guard : Guard)
    (listed : h ∈ s.guards)
    (apart : s.launch ≠ .addGuard h ∧ s.launch ≠ .checkActive h ∧ s.launch ≠ .launchLooper h)
    (cared : guard.running = true → (s.setGuard h guard).Cared h)
    (begun : guard.looperStarted = true → guard.looper ≠ .missing ∧ guard.looper ≠ .launched ∧
      (guard.looper = .ended → guard.running = false))
    (exited : guard.looper = .exited → guard.running = false) (g : Nat) :
    (s.setGuard h guard).Watched g := by
  by_cases same : g = h
  · subst g
    refine ⟨?_, ?_, ?_, ?_, ?_, ?_⟩
    · rw [guard_setGuard]
      exact cared
    · rw [guard_setGuard]
      exact begun
    · rw [guard_setGuard]
      exact exited
    · exact fun _ => listed
    · exact fun now => (now.elim apart.2.1 apart.2.2).elim
    · exact fun now => (apart.1 now).elim
  · have frame : (s.setGuard h guard).guard g = s.guard g := guard_setGuard_of_ne _ same
    exact (watched g).frame frame id (.inl rfl) fun _ cared =>
      cared.frame frame rfl rfl fun _ => id

/-- A guard with a looper is in the list, and `launch` is through with it. -/
theorem State.Watched.apart (watched : s.Watched g) (there : (s.guard g).looper ≠ .missing) :
    s.launch ≠ .addGuard g ∧ s.launch ≠ .checkActive g ∧ s.launch ≠ .launchLooper g :=
  ⟨fun now => there (watched.fresh now), fun now => there (watched.checked (.inl now)).1,
    fun now => there (watched.checked (.inr now)).1⟩

theorem looperStep_watched {h : Nat} {meets : Meets} (watched : ∀ g, s.Watched g)
    (next : looperStep s h meets = some s') (g : Nat) : s'.Watched g := by
  have there : (s.guard h).looper ≠ .missing := by
    intro missing
    simp [looperStep, missing] at next
  have listed := (watched h).listed there
  have apart := (watched h).apart there
  have own := fun guard => State.Watched.own watched guard listed apart
  have cleans {guard : Guard} (cleans : guard.looper.Cleans) : (s.setGuard h guard).Watched g := by
    apply own
    · exact fun _ => .looper (by simpa using cleans)
    · rcases cleans with eq | eq | eq <;> simp [eq]
    · rcases cleans with eq | eq | eq <;> simp [eq]
  cases looper : (s.guard h).looper with
  | missing => exact absurd looper there
  | launched =>
    simp only [looperStep, looper] at next
    cases next
    have fresh := (watched h).not_started (.inr looper)
    apply own
    · intro running
      by_cases active : s.active = true
      · exact .looper (by simp [active, Looper.Cleans])
      · cases (watched h).cared running with
        | close _ reaps => exact .close (by simp [fresh]) reaps
        | adding now => exact absurd now apart.1
        | checking now => exact absurd now apart.2.1
        | destroying now => exact .destroying now
        | launching now _ => exact absurd now apart.2.2
        | launched _ on => exact absurd on active
        | looper cleans => simp [looper, Looper.Cleans] at cleans
    · simp [fresh]
    · split <;> simp
  | starting =>
    simp only [looperStep, looper] at next
    cases next
    exact cleans (.inr (.inl rfl))
  | waiting =>
    cases meets with
    | exitCode =>
      simp only [looperStep, looper, Option.ite_none_left_eq_some, Option.some.injEq] at next
      obtain ⟨stopped, rfl⟩ := next
      apply own <;> simp [stopped]
    | cancellation =>
      simp only [looperStep, looper, Option.ite_none_left_eq_some, Option.some.injEq] at next
      obtain ⟨_, rfl⟩ := next
      exact cleans (.inr (.inr rfl))
    | restart | failure => simp [looperStep, looper] at next
  | exited =>
    have stopped := (watched h).exited looper
    cases meets with
    | exitCode | cancellation => simp [looperStep, looper] at next
    | restart =>
      simp only [looperStep, looper] at next
      cases next
      exact cleans (.inr (.inl rfl))
    | failure =>
      simp only [looperStep, looper] at next
      cases next
      apply own <;> simp [stopped]
  | cleaning =>
    simp only [looperStep, looper] at next
    cases next
    apply own <;> simp
  | ended => simp [looperStep, looper] at next

/-- `launch` moves on without this guard. -/
theorem State.Watched.pass (watched : s.Watched g)
    (before : s.launch.inHand ≠ some g) (after : s'.launch.inHand ≠ some g)
    (guard : s'.guard g = s.guard g) (guards : g ∈ s.guards → g ∈ s'.guards)
    (active : s'.active = s.active) (close : s'.close = s.close) : s'.Watched g := by
  apply watched.frame guard guards
  · right
    rintro h (now | now | now) rfl <;> exact after (by rw [now]; rfl)
  · intro _ cared
    cases cared with
    | adding now | checking now | destroying now | launching now =>
      exact absurd (by rw [now]; rfl) before
    | launched looper on => exact .launched (guard ▸ looper) (active ▸ on)
    | looper cleans => exact .looper (guard ▸ cleans)
    | close fresh reaps =>
      refine .close (guard ▸ fresh) ?_
      unfold WillReap at reaps ⊢
      rw [close]
      split at reaps
      case h_1 now => exact guards reaps
      all_goals exact reaps

theorem launchStep_watched (watched : ∀ g, s.Watched g)
    (next : launchStep s fails = some s') (g : Nat) : s'.Watched g := by
  have seen := watched g
  cases now : s.launch with
  | checkClosed =>
    rw [launchStep, now] at next
    cases next
    refine seen.pass (by simp [now, LaunchStep.inHand]) ?_ rfl id rfl rfl
    dsimp only
    split <;> simp [LaunchStep.inHand]
  | next =>
    have before : s.launch.inHand ≠ some g := by simp [now, LaunchStep.inHand]
    simp only [launchStep, now] at next
    split at next
    case h_1 =>
      cases next
      exact seen.pass before nofun rfl id rfl rfl
    case h_2 =>
      split at next <;> cases next <;> exact seen.pass before nofun rfl id rfl rfl
    case h_3 =>
      split at next
      · cases next
        exact seen.pass before nofun rfl id rfl rfl
      · cases next
        by_cases same : g = s.started
        · subst g
          constructor <;> simp [State.setGuard]
          exact .adding rfl
        · refine seen.pass before ?_ (State.guard_setGuard_of_ne _ same) id rfl rfl
          simpa [LaunchStep.inHand] using Ne.symm same
  | register f =>
    rw [launchStep, now] at next
    cases next
    exact seen.pass (by simp [now, LaunchStep.inHand]) nofun rfl id rfl rfl
  | write f =>
    rw [launchStep, now] at next
    cases next
    refine seen.pass (by simp [now, LaunchStep.inHand]) ?_ rfl id rfl rfl
    dsimp only
    split <;> simp [LaunchStep.inHand]
  | addGuard h =>
    rw [launchStep, now] at next
    cases next
    by_cases same : g = h
    · subst h
      have missing := seen.fresh now
      exact ⟨fun _ => .checking rfl, seen.begun, seen.exited, by simp, by simp [missing], nofun⟩
    · have other : some h ≠ some g := by simpa using Ne.symm same
      refine seen.pass (by rw [now]; exact other) other rfl ?_ rfl rfl
      exact List.mem_append_left _
  | checkActive h =>
    rw [launchStep, now] at next
    cases next
    by_cases same : g = h
    · subst h
      have checked := seen.checked (.inl now)
      refine ⟨?_, seen.begun, seen.exited, seen.listed, fun _ => checked, ?_⟩
      · intro running
        by_cases active : s.active = true
        · exact .launching (if_pos active) active
        · exact .destroying (if_neg active)
      · exact fun _ => checked.1
    · have other : some h ≠ some g := by simpa using Ne.symm same
      refine seen.pass (by rw [now]; exact other) ?_ rfl id rfl rfl
      dsimp only
      split <;> exact other
  | destroyGuard h =>
    rw [launchStep, now] at next
    cases next
    by_cases same : g = h
    · subst h
      refine (seen.destroy g).frame rfl id (.inr nofun) ?_
      intro running
      simp [State.destroy] at running
    · have other : s.launch.inHand ≠ some g := by simpa [now, LaunchStep.inHand] using Ne.symm same
      exact (seen.destroy h).pass other nofun rfl id rfl rfl
  | launchLooper h =>
    rw [launchStep, now] at next
    cases next
    by_cases same : g = h
    · subst h
      obtain ⟨missing, listed⟩ := seen.checked (.inr now)
      have fresh := seen.not_started (.inl missing)
      refine ⟨?_, by simp [State.setLooper, fresh], ?_, fun _ => listed, nofun, nofun⟩
      · intro running
        by_cases active : s.active = true
        · exact .launched (by simp [State.setLooper, active]) active
        · simp only [State.setLooper, State.guard_setGuard] at running
          cases seen.cared running with
          | launching _ on => exact absurd on active
          | close _ reaps => exact .close (by simp [State.setLooper, fresh]) reaps
          | adding other | checking other | destroying other => simp [now] at other
          | launched looper _ => simp [missing] at looper
          | looper cleans => simp [missing, Looper.Cleans] at cleans
      · simp only [State.setLooper, State.guard_setGuard]
        split <;> simp
    · have other : s.launch.inHand ≠ some g := by simpa [now, LaunchStep.inHand] using Ne.symm same
      exact seen.pass other nofun (State.guard_setGuard_of_ne _ same) id rfl rfl
  | done => simp [launchStep, now] at next

theorem deleteStep_watched (watched : s.Watched g)
    (next : deleteStep s = some s') : s'.Watched g := by
  unfold deleteStep at next
  split at next
  case h_1 =>
    split at next <;> cases next
    exact watched.frame rfl id (.inl rfl) fun _ cared => cared.frame rfl rfl rfl fun _ => id
  case h_5 => cases next
  all_goals
    cases next
    exact watched.frame rfl id (.inl rfl) fun _ cared => cared.frame rfl rfl rfl fun _ => id

/-- Every step of every party leaves each guard watched. -/
theorem step_watched (watched : ∀ g, s.Watched g)
    (next : step s op = some s') (g : Nat) : s'.Watched g := by
  cases op with
  | launch fails => exact launchStep_watched watched next g
  | close => exact closeStep_watched watched next g
  | delete => exact deleteStep_watched (watched g) next
  | looper h meets => exact looperStep_watched watched next g
  | exits h =>
    simp only [step, Option.ite_none_right_eq_some, Option.some.injEq] at next
    obtain ⟨_, rfl⟩ := next
    exact (watched g).destroy h

theorem initial_watched (files : Nat) (script : List Task) (g : Nat) :
    (initial files script).Watched g :=
  ⟨nofun, nofun, nofun, fun there => absurd rfl there, nofun, nofun⟩

/-- No process of the pool runs any more. -/
def State.NoProcess (s : State) : Prop := ∀ g < s.started, (s.guard g).running = false

theorem State.Finished.noProcess (finished : s.Finished)
    (watched : ∀ g, s.Watched g) : s.NoProcess := by
  intro g created
  by_contra running
  have ended := finished.loopers g created
  cases (watched g).cared (Bool.not_eq_false _ ▸ running) with
  | adding now | checking now | destroying now | launching now => simp [finished.launch] at now
  | launched looper => simp [looper] at ended
  | looper cleans => rcases ended with ended | ended <;> simp [ended, Looper.Cleans] at cleans
  | close _ reaps => simp [WillReap, finished.close] at reaps

/-! ## Files -/

/-- The files that the deletion has before it. -/
def State.pending (s : State) : List Nat :=
  match s.delete with
  | .waiting => s.cacheFiles
  | .deleting rest => rest
  | _ => []

/-- A file is registered before the deletion takes the list, and it is written while it is
there. -/
def InTime (s : State) : Op → Prop
  | .launch _ =>
    match s.launch with
    | .register _ => s.delete = .waiting
    | .write f => s.onDisk f = true
    | _ => True
  | _ => True

instance (s : State) (op : Op) : Decidable (InTime s op) := by
  unfold InTime
  split
  · split <;> infer_instance
  · infer_instance

namespace State

/-- Every file on disk is going to be registered or deleted. -/
structure Kept (s : State) : Prop where
  there : ∀ f, s.onDisk f = true → s.launch = .register f ∨ f ∈ s.pending
  unique : s.pending.Nodup
  bounded : ∀ f ∈ s.pending, f < s.created
  held : ∀ f, s.launch = .register f → s.onDisk f = true ∧ f ∉ s.pending ∧ f < s.created
  written : ∀ f, s.launch = .write f →
    (s.delete = .waiting → f ∈ s.pending) ∧ (f ∈ s.pending → s.onDisk f = true)

/-- A file is on disk that no deletion comes to any more. -/
def Lost (s : State) : Prop :=
  s.delete ≠ .waiting ∧ ∃ f, s.onDisk f = true ∧ f ∉ s.pending

variable {s s' : State}

theorem Kept.frame (kept : s.Kept) (delete : s'.delete = s.delete)
    (files : s'.cacheFiles = s.cacheFiles) (onDisk : s'.onDisk = s.onDisk)
    (created : s'.created = s.created)
    (launch : s'.launch = s.launch ∨ ∀ f, s.launch ≠ .register f ∧ s'.launch ≠ .register f ∧
      s'.launch ≠ .write f) :
    s'.Kept := by
  have pending : s'.pending = s.pending := by rw [State.pending, State.pending, delete, files]
  obtain ⟨there, unique, bounded, held, written⟩ := kept
  refine ⟨?_, pending ▸ unique, ?_, ?_, ?_⟩
  · intro f on
    rw [pending]
    rcases launch with same | other
    · rw [same]
      exact there f (onDisk ▸ on)
    · exact .inr ((there f (onDisk ▸ on)).resolve_left (other f).1)
  · rw [pending, created]
    exact bounded
  · intro f now
    rw [onDisk, pending, created]
    rcases launch with same | other
    · exact held f (same ▸ now)
    · exact absurd now (other f).2.1
  · intro f now
    rw [onDisk, pending, delete]
    rcases launch with same | other
    · exact written f (same ▸ now)
    · exact absurd now (other f).2.2

theorem Lost.frame (lost : s.Lost) (delete : s'.delete = s.delete)
    (onDisk : ∀ f, s.onDisk f = true → s'.onDisk f = true) : s'.Lost := by
  obtain ⟨begun, f, on, passed⟩ := lost
  refine ⟨delete ▸ begun, f, onDisk f on, ?_⟩
  unfold State.pending at passed ⊢
  rw [delete]
  cases now : s.delete with
  | waiting => exact absurd now begun
  | deleting rest => simpa [now] using passed
  | clearing => simp
  | done => simp

end State

/-- Nothing that concerns files has changed. -/
structure State.SameFiles (s s' : State) : Prop where
  launch : s'.launch = s.launch
  delete : s'.delete = s.delete
  cacheFiles : s'.cacheFiles = s.cacheFiles
  onDisk : s'.onDisk = s.onDisk
  created : s'.created = s.created

theorem closeStep_files (next : closeStep s = some s') : s.SameFiles s' := by
  unfold closeStep at next
  split at next <;> cases next <;> exact ⟨rfl, rfl, rfl, rfl, rfl⟩

theorem looperStep_files {meets : Meets}
    (next : looperStep s g meets = some s') : s.SameFiles s' := by
  unfold looperStep at next
  dsimp only at next
  split at next
  case h_3 | h_4 =>
    rw [Option.ite_none_left_eq_some] at next
    cases next.2
    exact ⟨rfl, rfl, rfl, rfl, rfl⟩
  all_goals
    cases next
    try exact ⟨rfl, rfl, rfl, rfl, rfl⟩

/-- Only `launch` and the deletion have to do with files. -/
theorem step_files (next : step s op = some s') :
    (∃ fails, op = .launch fails) ∨ op = .delete ∨ s.SameFiles s' := by
  cases op with
  | launch fails => exact .inl ⟨fails, rfl⟩
  | delete => exact .inr (.inl rfl)
  | close => exact .inr (.inr (closeStep_files next))
  | looper g meets => exact .inr (.inr (looperStep_files next))
  | exits g =>
    simp only [step, Option.ite_none_right_eq_some, Option.some.injEq] at next
    obtain ⟨_, rfl⟩ := next
    exact .inr (.inr ⟨rfl, rfl, rfl, rfl, rfl⟩)

/-- The first file of the pass is deleted. -/
theorem State.Kept.deleted (kept : s.Kept) {f : Nat} {rest : List Nat}
    (now : s.delete = .deleting (f :: rest)) :
    { s.setFile f false with delete := .deleting rest : State }.Kept := by
  have before : s.pending = f :: rest := by rw [pending, now]
  obtain ⟨there, unique, bounded, held, written⟩ := kept
  rw [before] at unique bounded
  simp only [before, List.mem_cons] at there held written
  obtain ⟨first, unique⟩ := List.nodup_cons.mp unique
  have other {g : Nat} (ne : g ≠ f) : (s.setFile f false).onDisk g = s.onDisk g :=
    Function.update_of_ne ne ..
  refine ⟨?_, unique, fun g mem => bounded g (.tail _ mem), ?_, ?_⟩
  · intro g on
    have ne : g ≠ f := by
      rintro rfl
      simp [setFile] at on
    exact (there g (other ne ▸ on)).imp_right fun mem => mem.resolve_left ne
  · intro g writing
    obtain ⟨on, absent, old⟩ := held g writing
    have ne : g ≠ f := fun same => absent (.inl same)
    exact ⟨(other ne).trans on, fun mem => absent (.inr mem), old⟩
  · intro g writing
    refine ⟨nofun, fun mem => ?_⟩
    have ne : g ≠ f := by
      rintro rfl
      exact first mem
    exact (other ne).trans ((written g writing).2 (.inr mem))

/-- The deletion moves on to a step with the same files before it. -/
theorem State.Kept.turn (kept : s.Kept) (pending : s'.pending = s.pending)
    (begun : s'.delete ≠ .waiting) (launch : s'.launch = s.launch) (onDisk : s'.onDisk = s.onDisk)
    (created : s'.created = s.created) : s'.Kept := by
  obtain ⟨there, unique, bounded, held, written⟩ := kept
  rw [← pending] at unique bounded there held written
  rw [← created] at bounded held
  rw [← onDisk] at there held written
  rw [← launch] at there held written
  exact ⟨there, unique, bounded, held, fun f writing => ⟨(absurd · begun), (written f writing).2⟩⟩

theorem deleteStep_kept (kept : s.Kept) (next : deleteStep s = some s') : s'.Kept := by
  unfold deleteStep at next
  split at next
  case h_1 now =>
    rw [Option.ite_none_right_eq_some] at next
    cases next.2
    exact kept.turn (by simp [State.pending, now]) nofun rfl rfl rfl
  case h_2 now | h_4 now =>
    cases next
    exact kept.turn (by simp [State.pending, now]) nofun rfl rfl rfl
  case h_3 f rest now =>
    cases next
    exact kept.deleted now
  case h_5 => cases next

theorem deleteStep_lost (lost : s.Lost) (next : deleteStep s = some s') : s'.Lost := by
  obtain ⟨begun, f, on, passed⟩ := lost
  unfold deleteStep at next
  split at next
  case h_1 now => exact absurd now begun
  case h_2 | h_4 =>
    cases next
    exact ⟨nofun, f, on, List.not_mem_nil⟩
  case h_3 g rest now =>
    cases next
    rw [State.pending, now, List.mem_cons, not_or] at passed
    exact ⟨nofun, f, (Function.update_of_ne passed.1 ..).trans on, passed.2⟩
  case h_5 => cases next

theorem State.Kept.created_file (kept : s.Kept) (now : s.launch = .next) (script : List Task) :
    { s.setFile s.created true with
      script, created := s.created + 1, launch := .register s.created : State }.Kept := by
  obtain ⟨there, unique, bounded, held, written⟩ := kept
  refine ⟨?_, unique, ?_, ?_, nofun⟩
  · intro f on
    by_cases same : f = s.created
    · exact .inl (by rw [same])
    · have old : (s.setFile s.created true).onDisk f = s.onDisk f := Function.update_of_ne same ..
      have := there f (old ▸ on)
      rw [now] at this
      exact .inr (this.resolve_left nofun)
  · intro f mem
    exact Nat.lt_succ_of_lt (bounded f mem)
  · rintro f ⟨⟩
    refine ⟨Function.update_self .., fun mem => ?_, Nat.lt_succ_self _⟩
    exact Nat.lt_irrefl _ (bounded _ mem)

theorem State.Kept.registered (kept : s.Kept) {f : Nat} (now : s.launch = .register f)
    (waits : s.delete = .waiting) :
    { s with cacheFiles := s.cacheFiles ++ [f], launch := .write f : State }.Kept := by
  have before : s.pending = s.cacheFiles := by rw [pending, waits]
  have after : { s with cacheFiles := s.cacheFiles ++ [f], launch := .write f : State }.pending =
      s.cacheFiles ++ [f] := by
    simp [pending, waits]
  obtain ⟨there, unique, bounded, held, -⟩ := kept
  rw [before] at there unique bounded held
  obtain ⟨on, absent, old⟩ := held f now
  refine ⟨?_, ?_, ?_, nofun, ?_⟩
  · intro g there'
    rw [after, List.mem_append, List.mem_singleton]
    have := there g there'
    rw [now, LaunchStep.register.injEq] at this
    exact .inr (this.symm.imp_right Eq.symm)
  · rw [after, List.nodup_append]
    refine ⟨unique, List.nodup_singleton f, ?_⟩
    rintro g mem h (_ | ⟨_, ⟨⟩⟩) rfl
    exact absent mem
  · rw [after]
    intro g mem
    rcases List.mem_append.mp mem with mem | mem
    · exact bounded g mem
    · exact List.mem_singleton.mp mem ▸ old
  · rintro g ⟨⟩
    rw [after]
    exact ⟨fun _ => List.mem_append_right _ (List.mem_singleton_self f), fun _ => on⟩

theorem launchStep_kept (kept : s.Kept)
    (next : launchStep s fails = some s') (inTime : InTime s (.launch fails)) : s'.Kept := by
  cases now : s.launch with
  | next =>
    simp only [launchStep, now] at next
    split at next
    case h_1 =>
      cases next
      exact kept.frame rfl rfl rfl rfl (.inr fun f => by simp [now])
    case h_2 =>
      split at next <;> cases next
      · exact kept.frame rfl rfl rfl rfl (.inr fun f => by simp [now])
      · exact kept.created_file now _
    case h_3 =>
      split at next <;> cases next <;>
        exact kept.frame rfl rfl rfl rfl (.inr fun f => by simp [now])
  | register f =>
    rw [launchStep, now] at next
    cases next
    simp only [InTime, now] at inTime
    exact kept.registered now inTime
  | write f =>
    rw [launchStep, now] at next
    cases next
    simp only [InTime, now] at inTime
    have same : (s.setFile f true).onDisk = s.onDisk := by
      rw [← inTime]
      exact Function.update_eq_self ..
    refine kept.frame rfl rfl same rfl (.inr fun f => ?_)
    cases fails <;> simp [now]
  | done => simp [launchStep, now] at next
  | _ =>
    rw [launchStep, now] at next
    cases next
    refine kept.frame rfl rfl rfl rfl (.inr fun f => ?_)
    simp only [now]
    grind

theorem launchStep_lost (kept : s.Kept)
    (next : launchStep s fails = some s') (late : ¬ InTime s (.launch fails)) : s'.Lost := by
  cases now : s.launch with
  | register f =>
    rw [launchStep, now] at next
    cases next
    simp only [InTime, now] at late
    obtain ⟨on, absent, -⟩ := kept.held f now
    exact State.Lost.frame ⟨late, f, on, absent⟩ rfl fun _ => id
  | write f =>
    rw [launchStep, now] at next
    cases next
    simp only [InTime, now] at late
    obtain ⟨listed, there⟩ := kept.written f now
    have passed : f ∉ s.pending := fun mem => late (there mem)
    exact ⟨fun waits => passed (listed waits), f, Function.update_self .., passed⟩
  | _ => simp [InTime, now] at late

theorem launchStep_stays_lost (lost : s.Lost) (next : launchStep s fails = some s') : s'.Lost := by
  have kept (f g : Nat) (on : s.onDisk g = true) : (s.setFile f true).onDisk g = true := by
    simp [State.setFile, Function.update_apply, on]
  cases now : s.launch with
  | next =>
    simp only [launchStep, now] at next
    split at next
    case h_1 =>
      cases next
      exact lost.frame rfl fun _ => id
    case h_2 =>
      split at next <;> cases next
      · exact lost.frame rfl fun _ => id
      · exact lost.frame rfl (kept _)
    case h_3 => split at next <;> cases next <;> exact lost.frame rfl fun _ => id
  | write f =>
    rw [launchStep, now] at next
    cases next
    exact lost.frame rfl (kept f)
  | done => simp [launchStep, now] at next
  | _ =>
    rw [launchStep, now] at next
    cases next
    exact lost.frame rfl fun _ => id

/-! ### Whole runs -/

theorem step_kept (kept : s.Kept) (next : step s op = some s')
    (inTime : InTime s op) : s'.Kept := by
  rcases step_files next with ⟨fails, rfl⟩ | rfl | same
  · exact launchStep_kept kept next inTime
  · exact deleteStep_kept kept next
  · exact kept.frame same.delete same.cacheFiles same.onDisk same.created (.inl same.launch)

theorem step_lost (kept : s.Kept) (next : step s op = some s')
    (late : ¬ InTime s op) : s'.Lost := by
  cases op with
  | launch fails => exact launchStep_lost kept next late
  | _ => exact absurd trivial late

theorem step_stays_lost (lost : s.Lost) (next : step s op = some s') : s'.Lost := by
  rcases step_files next with ⟨fails, rfl⟩ | rfl | same
  · exact launchStep_stays_lost lost next
  · exact deleteStep_lost lost next
  · exact lost.frame same.delete fun f on => same.onDisk ▸ on

theorem initial_kept (files : Nat) (script : List Task) : (initial files script).Kept where
  there _ on := .inr (List.mem_range.mpr (of_decide_eq_true on))
  unique := List.nodup_range
  bounded _ mem := List.mem_range.mp mem
  held := nofun
  written := nofun

/-- No file of the instance is left. -/
def State.NoFile (s : State) : Prop := ∀ f, s.onDisk f = false

theorem State.Finished.noFile_of_kept (finished : s.Finished) (kept : s.Kept) : s.NoFile := by
  intro f
  by_contra on
  rcases kept.there f (Bool.not_eq_false _ ▸ on) with now | mem
  · simp [finished.launch] at now
  · simp [pending, finished.delete] at mem

/-- When `launch`, `close`, the loopers and the deletion are through, no process runs, and no
file is left exactly if each file was registered before the deletion took the list and was not
deleted before it was written. -/
theorem closed_clean_iff (files : Nat) (script : List Task) (ops : List Op)
    (finished : (Run.final step (initial files script) ops).Finished) :
    (Run.final step (initial files script) ops).NoProcess ∧
        (Run.final step (initial files script) ops).NoFile ↔
      Run.Along step InTime (initial files script) ops := by
  have watched : ∀ g, (Run.final step (initial files script) ops).Watched g :=
    Run.final_invariant step_watched (initial_watched files script) ops
  rw [and_iff_right (finished.noProcess watched)]
  rcases Run.final_cases step_kept step_lost step_stays_lost (initial_kept files script) ops with
    ⟨inTime, kept⟩ | ⟨late, -, f, on, -⟩
  · exact iff_of_true (finished.noFile_of_kept kept) inTime
  · refine iff_of_false (fun noFile => ?_) late
    simp [noFile f] at on

/-- At any time, whatever the parties have done, each process that runs is cared for, and none runs
when they are through. -/
theorem processes_cared_for (files : Nat) (script : List Task) (ops : List Op) :
    (∀ g, (Run.final step (initial files script) ops).Watched g) ∧
      ((Run.final step (initial files script) ops).Finished →
        (Run.final step (initial files script) ops).NoProcess) := by
  have watched := @Run.final_invariant _ _ step (∀ g, ·.Watched g) step_watched _
    (initial_watched files script) ops
  exact ⟨watched, fun finished => finished.noProcess watched⟩

/-- `launch` looks at the flag; the instance is closed and its files are deleted; then `launch`
writes the credentials of a plugin to a file. -/
def writtenAfterClose : List Op :=
  .launch false :: List.replicate 4 .close ++ List.replicate 3 .delete ++
    List.replicate 4 (.launch false)

theorem credentials_left :
    (Run.final step (initial 0 [.cacheFile]) writtenAfterClose).Finished ∧
      ¬ ((Run.final step (initial 0 [.cacheFile]) writtenAfterClose).NoProcess ∧
        (Run.final step (initial 0 [.cacheFile]) writtenAfterClose).NoFile) := by
  refine ⟨⟨by decide, by decide, by decide, by decide⟩, fun clean => ?_⟩
  exact absurd (clean.2 0) (by decide)

/-- A plugin is launched before the instance is closed, and its looper destroys it. -/
def closedAfterLaunch : List Op :=
  List.replicate 9 (.launch false) ++ [.looper 0 .restart, .looper 0 .restart] ++
    List.replicate 5 .close ++ [.looper 0 .cancellation, .looper 0 .cancellation] ++
    List.replicate 4 .delete

theorem nothing_left :
    (Run.final step (initial 0 [.cacheFile, .plugin]) closedAfterLaunch).NoProcess ∧
      (Run.final step (initial 0 [.cacheFile, .plugin]) closedAfterLaunch).NoFile :=
  (closed_clean_iff 0 [.cacheFile, .plugin] closedAfterLaunch
    ⟨by decide, by decide, by decide, by decide⟩).mpr (by decide)

end QuinMo.Bg.ProcessPool
