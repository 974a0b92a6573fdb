import QuinMo.Lib.Fault

/-!
# Programs that may be killed

Each step is carried out, fails with part of its work done, or is the last one because the process
is killed in it. A triple says what holds of the disk where a program starts, where it ends, and
wherever it fails or is killed.
-/

namespace QuinMo.Crash

open Fault

/-- How far a step got: so many bytes of a write, these entries of a directory. -/
structure Part where
  length : Nat
  kept : List Bool
  deriving DecidableEq, Repr

inductive Fate where
  | done
  | fails (part : Part)
  | killed (part : Part)
  deriving DecidableEq, Repr

/-- The steps meet the fates in turn, and those after the last fate are carried out. -/
structure Machine (D : Type) where
  disk : D
  fates : List Fate
  alive : Bool

variable {D α β : Type}

abbrev Program (D α : Type) := Run (Machine D) α

namespace Program

/-- `partly` is the disk when the step was broken off, `full` when it was carried out. -/
def step (partly : Part → D → D) (full : D → Except String D) : Program D Unit := fun m =>
  if m.alive then
    match m.fates with
    | .fails part :: fates => (.error "failed", { m with disk := partly part m.disk, fates })
    | .killed part :: fates => (.error "killed", ⟨partly part m.disk, fates, false⟩)
    | fates =>
      match full m.disk with
      | .ok disk => (.ok (), { m with disk, fates := fates.tail })
      | .error e => (.error e, { m with fates := fates.tail })
  else (.error "killed", m)

/-- A removal, which does not fail. -/
def remove (partly : Part → D → D) (full : D → D) : Program D Unit := fun m =>
  if m.alive then
    match m.fates with
    | .killed part :: fates => (.error "killed", ⟨partly part m.disk, fates, false⟩)
    | fates => (.ok (), { m with disk := full m.disk, fates := fates.tail })
  else (.error "killed", m)

def read (f : D → α) : Program D α := fun m =>
  if m.alive then (.ok (f m.disk), m) else (.error "killed", m)

def throw (e : String) : Program D α := fun m => (.error e, m)

/-- The error is a value, unless the process was killed. -/
def attempt (x : Program D α) : Program D (Except String α) := fun m =>
  match x m with
  | (r, m') => if m'.alive then (.ok r, m') else (.error "killed", m')

def raise : Except String α → Program D α
  | .ok a => pure a
  | .error e => throw e

def context (text : String) (x : Program D α) : Program D α := fun m =>
  match x m with
  | (.ok a, m') => (.ok a, m')
  | (.error e, m') => (.error (text ++ e), m')

end Program

/-- Nothing comes in between. -/
def Machine.Undisturbed (m : Machine D) : Prop := m.alive = true ∧ ∀ fate ∈ m.fates, fate = .done

theorem Machine.Undisturbed.tail {disk disk' : D} {fates : List Fate} {alive : Bool}
    (h : Undisturbed ⟨disk, fates, alive⟩) : Undisturbed ⟨disk', fates.tail, alive⟩ :=
  ⟨h.1, fun fate mem => h.2 fate (List.mem_of_mem_tail mem)⟩

/-- From `pre` a run ends with `post`, and `crash` holds of the disk wherever it fails or is
killed. If it is `calm`, nothing disturbs the run. -/
def Triple (calm : Prop) (pre : D → Prop) (x : Program D α) (post : α → D → Prop)
    (crash : D → Prop) : Prop :=
  ∀ m : Machine D, (calm → m.Undisturbed) → pre m.disk →
    Ends x m (fun a m' => (calm → m'.Undisturbed) ∧ post a m'.disk)
      fun m' => (calm → m'.Undisturbed) ∧ crash m'.disk

namespace Triple

variable {calm : Prop} {pre pre' crash : D → Prop} {post post' : α → D → Prop} {x : Program D α}

theorem weaken {crash' : D → Prop} (h : Triple calm pre x post crash)
    (before : ∀ d, pre' d → pre d) (after : ∀ a d, post a d → post' a d)
    (broken : ∀ d, crash d → crash' d) : Triple calm pre' x post' crash' := fun m quiet holds =>
  (h m quiet (before m.disk holds)).weaken (fun a _ done => ⟨done.1, after a _ done.2⟩)
    fun _ lost => ⟨lost.1, broken _ lost.2⟩

theorem pure {a : α} (h : ∀ d, pre d → post a d) :
    Triple calm pre (Pure.pure a : Program D α) post crash :=
  fun m quiet holds => .pure ⟨quiet, h m.disk holds⟩

theorem throw {e : String} (h : ∀ d, pre d → crash d) :
    Triple calm pre (Program.throw e : Program D α) post crash :=
  fun m quiet holds => And.intro quiet (h m.disk holds)

theorem bind {f : α → Program D β} {last : β → D → Prop} (post : α → D → Prop)
    (first : Triple calm pre x post crash) (rest : ∀ a, Triple calm (post a) (f a) last crash) :
    Triple calm pre (x >>= f) last crash :=
  fun m quiet holds => (first m quiet holds).bind fun a m' done => rest a m' done.1 done.2

theorem step {partly : Part → D → D} {full : D → Except String D} {post : Unit → D → Prop}
    (killed : ¬ calm → ∀ d, pre d → crash d)
    (broken : ¬ calm → ∀ part d, pre d → crash (partly part d))
    (fails : ∀ d e, pre d → full d = .error e → crash d)
    (after : ∀ d d', pre d → full d = .ok d' → post () d') :
    Triple calm pre (Program.step partly full) post crash := by
  rintro ⟨disk, fates, alive⟩ quiet holds
  unfold Ends Program.step
  cases alive with
  | false =>
    have loud : ¬ calm := fun c => nomatch (quiet c).1
    exact ⟨fun c => absurd c loud, killed loud disk holds⟩
  | true =>
    match fates with
    | .fails part :: _ | .killed part :: _ =>
      have loud : ¬ calm := fun c => nomatch (quiet c).2 _ List.mem_cons_self
      exact ⟨fun c => absurd c loud, broken loud part disk holds⟩
    | [] | .done :: _ =>
      dsimp only
      cases out : full disk with
      | ok d => exact ⟨fun c => (quiet c).tail, after disk d holds out⟩
      | error e => exact ⟨fun c => (quiet c).tail, fails disk e holds out⟩

theorem remove {partly : Part → D → D} {full : D → D} {post : Unit → D → Prop}
    (killed : ¬ calm → ∀ d, pre d → crash d)
    (broken : ¬ calm → ∀ part d, pre d → crash (partly part d))
    (after : ∀ d, pre d → post () (full d)) :
    Triple calm pre (Program.remove partly full) post crash := by
  rintro ⟨disk, fates, alive⟩ quiet holds
  unfold Ends Program.remove
  cases alive with
  | false =>
    have loud : ¬ calm := fun c => nomatch (quiet c).1
    exact ⟨fun c => absurd c loud, killed loud disk holds⟩
  | true =>
    match fates with
    | .killed part :: _ =>
      have loud : ¬ calm := fun c => nomatch (quiet c).2 _ List.mem_cons_self
      exact ⟨fun c => absurd c loud, broken loud part disk holds⟩
    | [] | .done :: _ | .fails _ :: _ => exact ⟨fun c => (quiet c).tail, after disk holds⟩

theorem read {f : D → α} (killed : ¬ calm → ∀ d, pre d → crash d) :
    Triple calm pre (Program.read f) (fun a d => pre d ∧ a = f d) crash := by
  rintro ⟨disk, fates, alive⟩ quiet holds
  unfold Ends Program.read
  cases alive with
  | false =>
    have loud : ¬ calm := fun c => nomatch (quiet c).1
    exact ⟨fun c => absurd c loud, killed loud disk holds⟩
  | true => exact ⟨quiet, holds, rfl⟩

/-- A read whose value is known. -/
theorem bind_read {f : D → α} {g : α → Program D β} {last : β → D → Prop} (a : α)
    (known : ∀ d, pre d → f d = a) (killed : ¬ calm → ∀ d, pre d → crash d)
    (rest : Triple calm pre (g a) last crash) :
    Triple calm pre (Program.read f >>= g) last crash := by
  refine bind _ (read killed) fun b m quiet holds => ?_
  obtain ⟨holds, rfl⟩ := holds
  rw [known m.disk holds]
  exact rest m quiet holds

theorem attempt (h : Triple calm pre x post crash)
    (killed : ¬ calm → ∀ a d, post a d → crash d) : Triple calm pre (Program.attempt x)
      (fun r d => match r with | .ok a => post a d | .error _ => crash d) crash := by
  intro m quiet holds
  have ends := h m quiet holds
  unfold Ends Program.attempt
  rcases out : x m with ⟨e | a, ⟨disk, fates, alive⟩⟩
  · cases alive
    · exact ends.error out
    · exact ends.error out
  · obtain ⟨quiet', done⟩ := ends.ok out
    cases alive
    · exact ⟨quiet', killed (fun c => nomatch (quiet' c).1) a disk done⟩
    · exact ⟨quiet', done⟩

theorem context {text : String} (h : Triple calm pre x post crash) :
    Triple calm pre (Program.context text x) post crash := by
  intro m quiet holds
  have ends := h m quiet holds
  unfold Ends Program.context
  rcases out : x m with ⟨e | a, m'⟩
  · exact ends.error out
  · exact ends.ok out

end Triple

end QuinMo.Crash
