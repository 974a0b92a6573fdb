import Mathlib.Logic.Basic

/-!
# Computations that may throw anywhere

What a computation wrote before it throws stays written unless a transaction puts it back.
Statements are marked with points, one of which can be chosen to throw.
-/

namespace QuinMo.Fault

variable {S α β P : Type}

def Run (S α : Type) := S → Except String α × S

namespace Run

def pure (a : α) : Run S α := fun s => (.ok a, s)

def bind (x : Run S α) (f : α → Run S β) : Run S β := fun s =>
  match x s with
  | (.ok a, s') => f a s'
  | (.error e, s') => (.error e, s')

instance : Monad (Run S) where
  pure := pure
  bind := bind

def fail (e : String) : Run S α := fun s => (.error e, s)

def runIf (c : Prop) [Decidable c] (x : Run S Unit) : Run S Unit := if c then x else pure ()

/-- A statement throws at the chosen point, or fails by itself, without an effect. -/
def statement [DecidableEq P] (fault : Option P) (point : P) (f : S → Except String (α × S)) :
    Run S α := fun s =>
  if fault = some point then (.error "fault", s)
  else match f s with
    | .ok (a, s') => (.ok a, s')
    | .error e => (.error e, s)

/-- When the body throws, `restore old new` puts back what the transaction is about. -/
def transaction (restore : S → S → S) (body : Run S α) : Run S α := fun s =>
  match body s with
  | (.ok a, s') => (.ok a, s')
  | (.error e, s') => (.error e, restore s s')

/-- When the body throws, the cleanup is run and the body's exception is thrown on. -/
def rescue (body : Run S α) (cleanup : Run S Unit) : Run S α := fun s =>
  match body s with
  | (.ok a, s') => (.ok a, s')
  | (.error e, s') => (.error e, (cleanup s').2)

end Run

variable {s t : S} {e : String}

variable {x : Run S α} {f : α → Run S β}

theorem bind_of_ok {a : α} (h : x s = (.ok a, t)) : (x >>= f) s = f a t := by
  change Run.bind x f s = f a t
  simp only [Run.bind, h]

theorem bind_of_error (h : x s = (.error e, t)) : (x >>= f) s = (.error e, t) := by
  change Run.bind x f s = _
  simp only [Run.bind, h]

theorem statement_ok [DecidableEq P] {fault : Option P} {point : P}
    {f : S → Except String (α × S)} {a : α} : Run.statement fault point f s = (.ok a, t) ↔
      fault ≠ some point ∧ f s = .ok (a, t) := by
  unfold Run.statement
  split
  · simp_all
  · rcases run : f s with _ | ⟨a', t'⟩ <;> simp_all

/-- From `s` the computation ends as `post` says, or it throws and leaves what `thrown` says. -/
def Ends (x : Run S α) (s : S) (post : α → S → Prop) (thrown : S → Prop) : Prop :=
  match x s with
  | (.ok a, t) => post a t
  | (.error _, t) => thrown t

namespace Ends

variable {post : α → S → Prop} {thrown : S → Prop}

theorem ok {a : α} (h : Ends x s post thrown) (run : x s = (.ok a, t)) : post a t := by
  rwa [Ends, run] at h

theorem error (h : Ends x s post thrown) (run : x s = (.error e, t)) : thrown t := by
  rwa [Ends, run] at h

/-- What holds at both ends holds of the state that is left. -/
theorem final (h : Ends x s post thrown) {inv : S → Prop} (after : ∀ a t, post a t → inv t)
    (broken : ∀ t, thrown t → inv t) : inv (x s).2 := by
  rcases run : x s with ⟨_ | a, t⟩
  · exact broken t (h.error run)
  · exact after a t (h.ok run)

theorem weaken {post' : α → S → Prop} {thrown' : S → Prop} (h : Ends x s post thrown)
    (after : ∀ a t, post a t → post' a t) (broken : ∀ t, thrown t → thrown' t) :
    Ends x s post' thrown' := by
  unfold Ends
  rcases run : x s with ⟨_ | a, t⟩
  · exact broken t (h.error run)
  · exact after a t (h.ok run)

theorem pure {a : α} (h : post a s) : Ends (Pure.pure a : Run S α) s post thrown := h

theorem bind {last : β → S → Prop} (first : Ends x s post thrown)
    (rest : ∀ a t, post a t → Ends (f a) t last thrown) : Ends (x >>= f) s last thrown := by
  unfold Ends
  rcases run : x s with ⟨_ | a, t⟩
  · rw [bind_of_error run]
    exact first.error run
  · rw [bind_of_ok run]
    exact rest a t (first.ok run)

theorem runIf {c : Prop} [Decidable c] {x : Run S Unit} {post : Unit → S → Prop}
    (run : c → Ends x s post thrown) (skip : ¬ c → post () s) :
    Ends (Run.runIf c x) s post thrown := by
  unfold Run.runIf
  split
  · exact run ‹_›
  · exact skip ‹_›

section
variable [DecidableEq P] {fault : Option P} {point : P} {f : S → Except String (α × S)}

theorem statement (chosen : fault = some point → thrown s) (fails : ∀ e, f s = .error e → thrown s)
    (done : ∀ a t, f s = .ok (a, t) → fault ≠ some point → post a t) :
    Ends (Run.statement fault point f) s post thrown := by
  unfold Ends Run.statement
  by_cases here : fault = some point
  · rw [if_pos here]
    exact chosen here
  · rw [if_neg here]
    rcases run : f s with e | ⟨a, t⟩
    · exact fails e run
    · exact done a t run here

theorem statement_bind {g : α → Run S β} {last : β → S → Prop}
    (chosen : fault = some point → thrown s) (fails : ∀ e, f s = .error e → thrown s)
    (rest : ∀ a t, f s = .ok (a, t) → fault ≠ some point → Ends (g a) t last thrown) :
    Ends (Run.statement fault point f >>= g) s last thrown := by
  have first : Ends (Run.statement fault point f) s
      (fun a t => f s = .ok (a, t) ∧ fault ≠ some point) thrown :=
    statement chosen fails fun _ _ done other => ⟨done, other⟩
  exact first.bind fun a t h => rest a t h.1 h.2

end

theorem transaction {restore : S → S → S} (h : Ends x s post fun t => thrown (restore s t)) :
    Ends (Run.transaction restore x) s post thrown := by
  unfold Ends Run.transaction
  rcases run : x s with ⟨_ | a, t⟩
  · exact h.error run
  · exact h.ok run

theorem rescue {cleanup : Run S Unit} (h : Ends x s post fun t => thrown (cleanup t).2) :
    Ends (Run.rescue x cleanup) s post thrown := by
  unfold Ends Run.rescue
  rcases run : x s with ⟨_ | a, t⟩
  · exact h.error run
  · exact h.ok run

end Ends

/-! ## What a computation comes to -/

/-- The result with the state it leaves, or the exception without it. -/
def outcome (run : Except String α × S) : Except String (α × S) := run.1.map (·, run.2)

theorem outcome_bind (x : Run S α) (f : α → Run S β) (s : S) :
    outcome ((x >>= f) s) = outcome (x s) >>= fun r => outcome (f r.1 r.2) := by
  rcases run : x s with ⟨e | a, t⟩
  · rw [bind_of_error run]
    rfl
  · rw [bind_of_ok run]
    rfl

/-- A statement that is not chosen to throw. -/
theorem outcome_statement [DecidableEq P] (point : P) (f : S → Except String (α × S)) (s : S) :
    outcome (Run.statement none point f s) = f s := by
  unfold Run.statement
  rw [if_neg (by simp)]
  cases f s with
  | error e => rfl
  | ok r => rfl

theorem outcome_transaction (restore : S → S → S) (body : Run S α) (s : S) :
    outcome (Run.transaction restore body s) = outcome (body s) := by
  unfold Run.transaction
  rcases body s with ⟨e | a, t⟩
  · rfl
  · rfl

theorem outcome_rescue (body : Run S α) (cleanup : Run S Unit) (s : S) :
    outcome (Run.rescue body cleanup s) = outcome (body s) := by
  unfold Run.rescue
  rcases body s with ⟨e | a, t⟩
  · rfl
  · rfl

theorem outcome_runIf (c : Prop) [Decidable c] (x : Run S Unit) (s : S) :
    outcome (Run.runIf c x s) = if c then outcome (x s) else .ok ((), s) := by
  unfold Run.runIf
  split
  · rfl
  · rfl

theorem outcome_ok {run : Except String α × S} {a : α} {t : S} :
    outcome run = .ok (a, t) ↔ run = (.ok a, t) := by
  rcases run with ⟨e | b, u⟩ <;> simp [outcome, Except.map]

end QuinMo.Fault
