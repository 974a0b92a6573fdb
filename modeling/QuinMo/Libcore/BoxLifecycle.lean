import Mathlib.Logic.Function.Basic
import QuinMo.Lib.Run

/-!
# The lifecycle of core instances

`Start` and `Close` hold the mutex of their instance; another one guards the main instance and the
protect server. `Close` takes that one only to clear the main instance, so `SetAsMain`, which does
not look at the state of its instance, can come between its parts.
-/

namespace QuinMo.Libcore.BoxLifecycle

variable {I : Type} [DecidableEq I]

/-- How the underlying `Box.Start` ends. -/
inductive Outcome where
  | ok
  | error
  | panic
  deriving DecidableEq, Repr

/-- Calls that reach the underlying box. -/
inductive BoxCall where
  | start
  | close
  deriving DecidableEq, Repr

/-- Where a `Close` of the instance is that holds its mutex. -/
inductive Closing where
  | idle
  | clearingMain
  | closingBox
  deriving DecidableEq, Repr

structure BoxInstance where
  /-- 0 = created, 1 = started, 2 = closed. -/
  state : Nat
  closing : Closing
  /-- A `Close` has completed. -/
  closed : Bool
  /-- The channel of the underlying box that its own `Close` closes; later calls find it closed
  and do nothing. -/
  done : Bool
  calls : List BoxCall
  deriving DecidableEq, Repr

def BoxInstance.new : BoxInstance := ⟨0, .idle, false, false, []⟩

/-- `Close` of the underlying box. -/
def BoxInstance.closeBox (b : BoxInstance) : BoxInstance :=
  if b.done then b else { b with done := true, calls := b.calls ++ [.close] }

/-- `Start` of the underlying box: it closes itself if it cannot be started, but not on its way
out of a panic. -/
def BoxInstance.startBox (b : BoxInstance) (outcome : Outcome) : BoxInstance :=
  let b := { b with calls := b.calls ++ [.start] }
  if outcome = .error then b.closeBox else b

/-- `Start`, with the mutex held throughout; a failure or a panic rolls back. -/
def BoxInstance.start (b : BoxInstance) (outcome : Outcome) : BoxInstance :=
  if b.state = 0 then
    { b.startBox outcome with state := if outcome = .ok then 1 else 0 }
  else b

structure World (I : Type) where
  instances : I → BoxInstance
  mainInstance : Option I
  /-- The protect server is on. -/
  protectCloser : Bool

def World.initial : World I := ⟨fun _ => .new, none, false⟩

def World.set (w : World I) (i : I) (b : BoxInstance) : World I :=
  { w with instances := Function.update w.instances i b }

inductive Op (I : Type) where
  | start (i : I) (outcome : Outcome)
  | beginClose (i : I)
  | clearMain (i : I)
  | finishClose (i : I)
  /-- `served` says whether the protect server could be started. -/
  | setAsMain (i : I) (served : Bool)

/-- One part of a call under the mutexes it needs; none if the mutex of the instance is held. -/
def step (w : World I) : Op I → Option (World I)
  | .start i outcome =>
    let b := w.instances i
    if b.closing = .idle then some (w.set i (b.start outcome)) else none
  | .beginClose i =>
    let b := w.instances i
    if b.closing = .idle then
      -- no double close
      some (if b.state = 2 then w else w.set i { b with state := 2, closing := .clearingMain })
    else none
  | .clearMain i =>
    let b := w.instances i
    if b.closing = .clearingMain then
      let w := w.set i { b with closing := .closingBox }
      some (if w.mainInstance = some i then { w with mainInstance := none, protectCloser := false }
        else w)
    else none
  | .finishClose i =>
    let b := w.instances i
    if b.closing = .closingBox then
      some (w.set i { b.closeBox with closing := .idle, closed := true })
    else none
  | .setAsMain i served => some { w with mainInstance := some i, protectCloser := served }

/-- No start comes after a close. -/
def NoLateStart (calls : List BoxCall) : Prop :=
  calls.Pairwise fun earlier later => earlier = .close → later ≠ .start

/-- The box was closed once if the instance was closed, and it was not started after that. -/
structure BoxInstance.BoxRight (b : BoxInstance) : Prop where
  once : b.closed = true → b.calls.count .close = 1
  order : NoLateStart b.calls

structure Right (w : World I) : Prop where
  main : ∀ i, w.mainInstance = some i → (w.instances i).closed = false
  protect : w.protectCloser = true ↔ w.mainInstance.isSome = true
  boxes : ∀ i, (w.instances i).BoxRight

/-- What an operation must find. A `Start` that is let through must find a box that was not closed
by a failed start before it. Only an instance that is not closed is made the main instance, with a
protect server that starts, and not while its `Close` is past the main instance. -/
def Allowed (w : World I) : Op I → Prop
  | .start i _ => (w.instances i).state = 0 → (w.instances i).done = false
  | .setAsMain i served => (w.instances i).closed = false ∧ served = true
  | .finishClose i => w.mainInstance ≠ some i
  | _ => True

instance (w : World I) : (op : Op I) → Decidable (Allowed w op)
  | .start i _ =>
    inferInstanceAs (Decidable ((w.instances i).state = 0 → (w.instances i).done = false))
  | .setAsMain i served =>
    inferInstanceAs (Decidable ((w.instances i).closed = false ∧ served = true))
  | .finishClose i => inferInstanceAs (Decidable (w.mainInstance ≠ some i))
  | .beginClose _ | .clearMain _ => inferInstanceAs (Decidable True)

/-- How the state code, a running `Close` and the calls to the box belong together. -/
structure BoxInstance.Sound (b : BoxInstance) : Prop where
  closed : b.closed = true → b.state = 2 ∧ b.done = true
  closing : b.closing ≠ .idle → b.state = 2 ∧ b.closed = false
  count : b.calls.count .close = if b.done then 1 else 0

theorem BoxInstance.sound_new : BoxInstance.new.Sound :=
  ⟨nofun, fun busy => absurd rfl busy, rfl⟩

variable {b : BoxInstance}

theorem BoxInstance.Sound.open_of_state (h : b.Sound) (running : b.state ≠ 2) :
    b.closed = false := by
  rw [Bool.eq_false_iff]
  intro closed
  exact running (h.closed closed).1

theorem BoxInstance.closeBox_done (b : BoxInstance) : b.closeBox.done = true := by
  unfold BoxInstance.closeBox
  split <;> simp_all

theorem BoxInstance.closeBox_state (b : BoxInstance) : b.closeBox.state = b.state := by
  unfold BoxInstance.closeBox
  split <;> rfl

/-- However often the box is closed, one call has an effect. -/
theorem BoxInstance.closeBox_count (count : b.calls.count .close = if b.done then 1 else 0) :
    b.closeBox.calls.count .close = 1 := by
  unfold BoxInstance.closeBox
  cases done : b.done with
  | true => simpa [done] using count
  | false => simpa [done] using count

theorem BoxInstance.startBox_count (count : b.calls.count .close = if b.done then 1 else 0)
    (outcome : Outcome) :
    (b.startBox outcome).calls.count .close = if (b.startBox outcome).done then 1 else 0 := by
  have started : (b.calls ++ [BoxCall.start]).count .close = if b.done then 1 else 0 := by
    simpa using count
  unfold BoxInstance.startBox
  dsimp only
  split
  · rw [BoxInstance.closeBox_done]
    exact BoxInstance.closeBox_count started
  · exact started

theorem BoxInstance.startBox_rest (b : BoxInstance) (outcome : Outcome) :
    (b.startBox outcome).closed = b.closed ∧ (b.startBox outcome).closing = b.closing := by
  unfold BoxInstance.startBox BoxInstance.closeBox
  dsimp only
  repeat' split
  all_goals exact ⟨rfl, rfl⟩

theorem BoxInstance.Sound.start (h : b.Sound) (outcome : Outcome) : (b.start outcome).Sound := by
  unfold BoxInstance.start
  split
  · rename_i created
    obtain ⟨sameClosed, sameClosing⟩ := b.startBox_rest outcome
    have notClosed := h.open_of_state (by rw [created]; decide)
    refine ⟨?_, ?_, BoxInstance.startBox_count h.count outcome⟩
    · intro closed
      exact absurd (notClosed.symm.trans (sameClosed.symm.trans closed)) nofun
    · intro busy
      have two := (h.closing (sameClosing ▸ busy)).1
      rw [created] at two
      cases two
  · exact h

theorem BoxInstance.Sound.beginClose (h : b.Sound) (running : b.state ≠ 2) :
    { b with state := 2, closing := .clearingMain : BoxInstance }.Sound := by
  have notClosed := h.open_of_state running
  refine ⟨?_, fun _ => ⟨rfl, notClosed⟩, h.count⟩
  intro closed
  exact absurd (notClosed.symm.trans closed) nofun

theorem BoxInstance.Sound.clearMain (h : b.Sound)
    (busy : b.closing = .clearingMain) : { b with closing := .closingBox : BoxInstance }.Sound :=
  ⟨h.closed, fun _ => h.closing (by rw [busy]; nofun), h.count⟩

theorem BoxInstance.Sound.finishClose (h : b.Sound) (busy : b.closing = .closingBox) :
    { b.closeBox with closing := .idle, closed := true : BoxInstance }.Sound := by
  obtain ⟨two, -⟩ := h.closing (by rw [busy]; nofun)
  refine ⟨fun _ => ⟨?_, b.closeBox_done⟩, fun busy => absurd rfl busy, ?_⟩
  · rw [← two]
    exact b.closeBox_state
  · dsimp only
    rw [b.closeBox_done]
    exact BoxInstance.closeBox_count h.count

/-! ## The calls to the box -/

theorem BoxInstance.Sound.once (h : b.Sound) (closed : b.closed = true) :
    b.calls.count .close = 1 := by
  rw [h.count, (h.closed closed).2, if_pos rfl]

/-- Closing the box adds nothing that could come too late. -/
theorem BoxInstance.closeBox_order (order : NoLateStart b.calls) : NoLateStart b.closeBox.calls := by
  unfold BoxInstance.closeBox
  split
  · exact order
  · refine List.pairwise_append.mpr ⟨order, List.pairwise_singleton .., ?_⟩
    intro earlier _ later last _
    rw [List.mem_singleton.mp last]
    nofun

/-- The box may be started if no effective close stands among its calls. -/
theorem BoxInstance.startBox_order_iff (h : b.Sound) (order : NoLateStart b.calls)
    (outcome : Outcome) :
    NoLateStart (b.startBox outcome).calls ↔ b.done = false := by
  constructor
  · intro right
    have starts : b.calls ++ [.start] <+: (b.startBox outcome).calls := by
      unfold BoxInstance.startBox BoxInstance.closeBox
      dsimp only
      repeat' split
      · exact List.prefix_rfl
      · exact List.prefix_append ..
      · exact List.prefix_rfl
    have late := (List.pairwise_append.mp (right.sublist starts.sublist)).2.2
    rw [Bool.eq_false_iff]
    intro done
    have closed : BoxCall.close ∈ b.calls := by
      rw [← List.count_pos_iff, h.count, if_pos done]
      decide
    exact late .close closed .start (List.mem_singleton_self _) rfl rfl
  · intro notDone
    have none : BoxCall.close ∉ b.calls := by
      rw [← List.count_eq_zero, h.count, notDone]
      rfl
    have started : NoLateStart (b.calls ++ [.start]) := by
      refine List.pairwise_append.mpr ⟨order, List.pairwise_singleton .., ?_⟩
      rintro earlier there later _ rfl
      exact absurd there none
    unfold BoxInstance.startBox
    dsimp only
    split
    · exact BoxInstance.closeBox_order started
    · exact started

def Sound (w : World I) : Prop := ∀ i, (w.instances i).Sound

omit [DecidableEq I] in
theorem sound_initial : Sound (World.initial : World I) := fun _ => BoxInstance.sound_new

omit [DecidableEq I] in
theorem right_initial : Right (World.initial : World I) :=
  ⟨nofun, by simp [World.initial], fun _ => ⟨nofun, .nil⟩⟩

theorem Sound.set {w : World I} (h : Sound w) (i : I) (sound : b.Sound) : Sound (w.set i b) := by
  intro j
  by_cases same : j = i
  · subst same
    simpa [World.set] using sound
  · simpa [World.set, Function.update_of_ne same] using h j

section
variable {w w' : World I} {i : I}

theorem step_start {outcome : Outcome} (ok : step w (.start i outcome) = some w') :
    w' = w.set i ((w.instances i).start outcome) := by
  simp only [step, Option.ite_none_right_eq_some, Option.some.injEq] at ok
  exact ok.2.symm

theorem step_beginClose (ok : step w (.beginClose i) = some w') :
    w' = w ∨ (w.instances i).state ≠ 2 ∧
      w' = w.set i { w.instances i with state := 2, closing := .clearingMain } := by
  simp only [step, Option.ite_none_right_eq_some, Option.some.injEq] at ok
  obtain ⟨_, rfl⟩ := ok
  split
  · exact .inl rfl
  · rename_i running
    exact .inr ⟨running, rfl⟩

theorem step_clearMain (ok : step w (.clearMain i) = some w') :
    (w.instances i).closing = .clearingMain ∧
      (w' = w.set i { w.instances i with closing := .closingBox } ∨
        w' = { w.set i { w.instances i with closing := .closingBox } with
          mainInstance := none, protectCloser := false }) := by
  simp only [step, Option.ite_none_right_eq_some, Option.some.injEq] at ok
  obtain ⟨busy, rfl⟩ := ok
  refine ⟨busy, ?_⟩
  split
  · exact .inr rfl
  · exact .inl rfl

theorem step_finishClose (ok : step w (.finishClose i) = some w') :
    (w.instances i).closing = .closingBox ∧
      w' = w.set i { (w.instances i).closeBox with closing := .idle, closed := true } := by
  simp only [step, Option.ite_none_right_eq_some, Option.some.injEq] at ok
  exact ⟨ok.1, ok.2.symm⟩

end

theorem step_sound {w w' : World I} {op : Op I} (h : Sound w) (ok : step w op = some w') :
    Sound w' := by
  cases op with
  | start i outcome =>
    rw [step_start ok]
    exact h.set i ((h i).start outcome)
  | beginClose i =>
    obtain rfl | ⟨running, rfl⟩ := step_beginClose ok
    · exact h
    · exact h.set i ((h i).beginClose running)
  | clearMain i =>
    obtain ⟨busy, next⟩ := step_clearMain ok
    have sound := h.set i ((h i).clearMain busy)
    obtain rfl | rfl := next
    · exact sound
    · exact sound
  | finishClose i =>
    obtain ⟨busy, rfl⟩ := step_finishClose ok
    exact h.set i ((h i).finishClose busy)
  | setAsMain i served =>
    cases ok
    exact h

/-- Where the main instance and the protect server stay as they are, what is left to show is about
the changed instance. -/
theorem Right.set {w : World I} (h : Right w) {i : I} (box : b.BoxRight)
    (main : w.mainInstance = some i → b.closed = false) : Right (w.set i b) := by
  refine ⟨?_, h.protect, ?_⟩
  · intro j chosen
    by_cases here : j = i
    · subst here
      simpa [World.set] using main chosen
    · simpa [World.set, Function.update_of_ne here] using h.main j chosen
  · intro j
    by_cases here : j = i
    · subst here
      simpa [World.set] using box
    · simpa [World.set, Function.update_of_ne here] using h.boxes j

section
variable {w w' : World I} {i : I} (sound : Sound w) (h : Right w)

include h

theorem setAsMain_right_iff {served : Bool} (ok : step w (.setAsMain i served) = some w') :
    Right w' ↔ (w.instances i).closed = false ∧ served = true := by
  cases ok
  constructor
  · intro right
    exact ⟨right.main i rfl, right.protect.mpr rfl⟩
  · rintro ⟨open', rfl⟩
    refine ⟨?_, by simp, h.boxes⟩
    rintro j ⟨rfl⟩
    exact open'

theorem beginClose_right (ok : step w (.beginClose i) = some w') : Right w' := by
  obtain rfl | ⟨_, rfl⟩ := step_beginClose ok
  · exact h
  · exact h.set ⟨(h.boxes i).once, (h.boxes i).order⟩ (h.main i)

theorem clearMain_right (ok : step w (.clearMain i) = some w') : Right w' := by
  obtain ⟨_, next⟩ := step_clearMain ok
  have right : Right (w.set i { w.instances i with closing := .closingBox }) :=
    h.set ⟨(h.boxes i).once, (h.boxes i).order⟩ (h.main i)
  obtain rfl | rfl := next
  · exact right
  · exact ⟨nofun, by simp, right.boxes⟩

include sound

theorem start_right_iff {outcome : Outcome} (ok : step w (.start i outcome) = some w') :
    Right w' ↔ ((w.instances i).state = 0 → (w.instances i).done = false) := by
  have next := (sound i).start outcome
  have order := BoxInstance.startBox_order_iff (sound i) (h.boxes i).order outcome
  rw [step_start ok]
  by_cases created : (w.instances i).state = 0
  · rw [imp_iff_right created, ← order]
    constructor
    · intro right
      have late := (right.boxes i).order
      simpa [World.set, BoxInstance.start, created] using late
    · intro late
      apply h.set
      · refine ⟨next.once, ?_⟩
        simpa [BoxInstance.start, created] using late
      · intro _
        have rest := ((w.instances i).startBox_rest outcome).1
        have notClosed := (sound i).open_of_state (by rw [created]; decide)
        simp [BoxInstance.start, created, rest, notClosed]
  · have same : (w.instances i).start outcome = w.instances i := by
      rw [BoxInstance.start, if_neg created]
    rw [same]
    refine iff_of_true (h.set (h.boxes i) (h.main i)) ?_
    exact fun zero => absurd zero created

theorem finishClose_right_iff (ok : step w (.finishClose i) = some w') :
    Right w' ↔ w.mainInstance ≠ some i := by
  obtain ⟨busy, rfl⟩ := step_finishClose ok
  constructor
  · intro right main
    have open' := right.main i main
    simp [World.set] at open'
  · intro other
    apply h.set
    · exact ⟨((sound i).finishClose busy).once, BoxInstance.closeBox_order (h.boxes i).order⟩
    · intro main
      exact absurd main other

theorem step_right_iff {op : Op I} (ok : step w op = some w') : Right w' ↔ Allowed w op := by
  cases op with
  | start i outcome => exact start_right_iff sound h ok
  | beginClose i => exact iff_of_true (beginClose_right h ok) trivial
  | clearMain i => exact iff_of_true (clearMain_right h ok) trivial
  | finishClose i => exact finishClose_right_iff sound h ok
  | setAsMain i served => exact setAsMain_right_iff h ok

end

/-! ## Interleavings -/

/-- All states of an interleaving are right exactly if every operation is allowed where it is
carried out. -/
theorem lifecycle_right_iff (ops : List (Op I)) :
    (∀ w ∈ Run.states step (World.initial : World I) ops, Right w) ↔
      Run.Along step Allowed (World.initial : World I) ops := by
  apply Run.states_iff Sound
  · intro w op w' sound h ok
    exact step_right_iff sound h ok
  · intro w op w' sound _ ok _
    exact step_sound sound ok
  · exact sound_initial
  · exact right_initial

/-- The instance is not started again after a start that failed and closed the box. -/
def NoRetry (i : I) (w : World I) : Op I → Prop
  | .start j _ => j = i → (w.instances i).state = 0 → (w.instances i).done = false
  | _ => True

/-- `last` is the last call that the box has got. -/
def BoxInstance.Left (b : BoxInstance) (last : BoxCall) : Prop := b.calls.getLast? = some last

theorem BoxInstance.closeBox_left (fine : b.done = true → b.Left .close) :
    b.closeBox.Left .close := by
  unfold BoxInstance.closeBox BoxInstance.Left
  split
  · rename_i done
    exact fine done
  · exact List.getLast?_concat

theorem BoxInstance.start_left (fine : b.done = true → b.Left .close)
    (first : b.state = 0 → b.done = false) (outcome : Outcome) :
    (b.start outcome).done = true → (b.start outcome).Left .close := by
  unfold BoxInstance.start
  split
  · rename_i created
    have notDone := first created
    unfold BoxInstance.startBox BoxInstance.closeBox
    cases outcome with
    | ok => simp [notDone]
    | panic => simp [notDone]
    | error =>
      intro _
      simp [notDone, BoxInstance.Left]
  · exact fine

/-- A box that was closed stays so, and a start of it adds one call. -/
theorem BoxInstance.start_done (done : b.done = true) (outcome : Outcome) :
    (b.start outcome).done = true ∧ (b.start outcome).calls =
      b.calls ++ if b.state = 0 then [.start] else [] := by
  unfold BoxInstance.start BoxInstance.startBox BoxInstance.closeBox
  by_cases created : b.state = 0 <;> cases outcome <;> simp [created, done]

section
variable {w w' : World I} {i : I} {op : Op I}

/-- What one operation does to the box of an instance. -/
theorem step_box (ok : step w op = some w') (i : I) :
    (∃ outcome, op = .start i outcome ∧ w'.instances i = (w.instances i).start outcome) ∨
      NoRetry i w op ∧
        ((w'.instances i).done = (w.instances i).done ∧
            (w'.instances i).calls = (w.instances i).calls ∨
          (w'.instances i).done = (w.instances i).closeBox.done ∧
            (w'.instances i).calls = (w.instances i).closeBox.calls) := by
  cases op with
  | start j outcome =>
    rw [step_start ok]
    by_cases here : i = j
    · subst here
      exact .inl ⟨outcome, rfl, by simp [World.set]⟩
    · refine .inr ⟨fun same => absurd same.symm here, .inl ?_⟩
      simp [World.set, Function.update_of_ne here]
  | beginClose j =>
    refine .inr ⟨trivial, .inl ?_⟩
    obtain rfl | ⟨_, rfl⟩ := step_beginClose ok
    · exact ⟨rfl, rfl⟩
    · by_cases here : i = j
      · subst here
        simp [World.set]
      · simp [World.set, Function.update_of_ne here]
  | clearMain j =>
    refine .inr ⟨trivial, .inl ?_⟩
    obtain ⟨_, rfl | rfl⟩ := step_clearMain ok <;>
    · by_cases here : i = j
      · subst here
        simp [World.set]
      · simp [World.set, Function.update_of_ne here]
  | finishClose j =>
    refine .inr ⟨trivial, ?_⟩
    obtain ⟨_, rfl⟩ := step_finishClose ok
    by_cases here : i = j
    · subst here
      exact .inr (by simp [World.set])
    · exact .inl (by simp [World.set, Function.update_of_ne here])
  | setAsMain j served =>
    cases ok
    exact .inr ⟨trivial, .inl ⟨rfl, rfl⟩⟩

/-- If the box of the instance was closed, that was the last call to it. -/
def BoxDown (i : I) (w : World I) : Prop :=
  (w.instances i).done = true → (w.instances i).Left .close

/-- The box of the instance was closed and started after it. -/
def BoxUp (i : I) (w : World I) : Prop :=
  (w.instances i).done = true ∧ (w.instances i).Left .start

theorem step_boxDown (down : BoxDown i w) (ok : step w op = some w') (first : NoRetry i w op) :
    BoxDown i w' := by
  unfold BoxDown at *
  obtain ⟨outcome, rfl, next⟩ | ⟨_, ⟨done, calls⟩ | ⟨done, calls⟩⟩ := step_box ok i
  · rw [next]
    exact BoxInstance.start_left down (first rfl) outcome
  · rwa [done, BoxInstance.Left, calls]
  · rw [done, BoxInstance.Left, calls]
    exact fun _ => BoxInstance.closeBox_left down

theorem step_retry (ok : step w op = some w') (retry : ¬ NoRetry i w op) : BoxUp i w' := by
  obtain ⟨outcome, rfl, next⟩ | ⟨first, _⟩ := step_box ok i
  · simp only [NoRetry, forall_const, Classical.not_imp, Bool.not_eq_false] at retry
    obtain ⟨created, done⟩ := retry
    obtain ⟨still, calls⟩ := BoxInstance.start_done done outcome
    rw [if_pos created] at calls
    rw [BoxUp, next, BoxInstance.Left, calls]
    exact ⟨still, List.getLast?_concat⟩
  · exact absurd first retry

/-- Nothing closes the box a second time. -/
theorem step_boxUp (up : BoxUp i w) (ok : step w op = some w') : BoxUp i w' := by
  obtain ⟨was, left⟩ := up
  obtain ⟨outcome, rfl, next⟩ | ⟨_, ⟨done, calls⟩ | ⟨done, calls⟩⟩ := step_box ok i
  · obtain ⟨still, calls⟩ := BoxInstance.start_done was outcome
    rw [BoxUp, next, BoxInstance.Left, calls]
    refine ⟨still, ?_⟩
    split
    · exact List.getLast?_concat
    · rwa [List.append_nil]
  · rw [BoxUp, done, BoxInstance.Left, calls]
    exact ⟨was, left⟩
  · rw [BoxInstance.closeBox, if_pos was] at done calls
    rw [BoxUp, done, BoxInstance.Left, calls]
    exact ⟨was, left⟩

end

theorem closed_made_main :
    ∃ w ∈ Run.states step (World.initial : World Nat)
      [.beginClose 0, .clearMain 0, .finishClose 0, .setAsMain 0 true], ¬ Right w := by
  refine ⟨_, List.mem_of_getElem? (i := 3) rfl, ?_⟩
  intro right
  exact absurd (right.main 0 rfl) (by decide)

end QuinMo.Libcore.BoxLifecycle
