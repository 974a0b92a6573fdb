import Mathlib.Data.List.Basic

/-!
# Runs of operations

An operation that cannot be carried out changes nothing. An exact condition for one operation to
keep an invariant gives an exact condition for a run.
-/

namespace QuinMo.Run

variable {σ ω : Type} (step : σ → ω → Option σ)

/-- The states after the operations that are carried out. -/
def states (s : σ) : List ω → List σ
  | [] => []
  | op :: ops =>
    match step s op with
    | some s' => s' :: states s' ops
    | none => states s ops

/-- Every operation that is carried out meets its condition in the state it finds. -/
def Along (Keeps : σ → ω → Prop) (s : σ) : List ω → Prop
  | [] => True
  | op :: ops =>
    match step s op with
    | some s' => Keeps s op ∧ Along Keeps s' ops
    | none => Along Keeps s ops

instance Along.decidable (Keeps : σ → ω → Prop) [∀ s op, Decidable (Keeps s op)] (s : σ) :
    (ops : List ω) → Decidable (Along step Keeps s ops)
  | [] => inferInstanceAs (Decidable True)
  | op :: ops => by
    unfold Along
    have := fun s' => Along.decidable Keeps s' ops
    split <;> infer_instance

/-- The state at the end. -/
def final (s : σ) : List ω → σ
  | [] => s
  | op :: ops =>
    match step s op with
    | some s' => final s' ops
    | none => final s ops

variable {step} (Aux : σ → Prop) {Inv : σ → Prop} {Keeps : σ → ω → Prop}

/-- If the condition says when one operation keeps `Inv`, then `Inv` holds all along a run
exactly if every operation meets its condition. `Aux` holds of every state where `Inv` does. -/
theorem states_iff (keeps : ∀ s op s', Aux s → Inv s → step s op = some s' → (Inv s' ↔ Keeps s op))
    (aux : ∀ s op s', Aux s → Inv s → step s op = some s' → Inv s' → Aux s') {s : σ} (start : Aux s)
    (inv : Inv s) (ops : List ω) : (∀ s' ∈ states step s ops, Inv s') ↔ Along step Keeps s ops := by
  induction ops generalizing s with
  | nil => simp [states, Along]
  | cons op ops ih =>
    simp only [states, Along]
    cases next : step s op with
    | none => exact ih start inv
    | some s' =>
      dsimp only
      rw [List.forall_mem_cons, ← keeps s op s' start inv next]
      apply and_congr_right
      intro kept
      exact ih (aux s op s' start inv next kept) kept

/-- Two conditions on operations say the same of a run if they do in every state that the
operations with the second one lead to. -/
theorem along_congr {Inv : σ → Prop} {P Q : σ → ω → Prop}
    (same : ∀ {s op s'}, Inv s → step s op = some s' → (P s op ↔ Q s op))
    (keeps : ∀ {s op s'}, Inv s → step s op = some s' → Q s op → Inv s')
    {s : σ} (start : Inv s) (ops : List ω) : Along step P s ops ↔ Along step Q s ops := by
  induction ops generalizing s with
  | nil => rfl
  | cons op ops ih =>
    simp only [Along]
    cases next : step s op with
    | none => exact ih start
    | some s' =>
      dsimp only
      rw [same start next]
      apply and_congr_right
      intro met
      exact ih (keeps start next met)

/-- What every operation keeps holds at the end. -/
theorem final_invariant {Inv : σ → Prop} (keeps : ∀ {s op s'}, Inv s → step s op = some s' → Inv s')
    {s : σ} (start : Inv s) (ops : List ω) : Inv (final step s ops) := by
  induction ops generalizing s with
  | nil => exact start
  | cons op ops ih =>
    rw [final]
    cases next : step s op with
    | none => exact ih start
    | some s' => exact ih (keeps start next)

/-- An operation that misses its condition leads to states that are lost for good; so the end
tells whether one did. -/
theorem final_cases {Fine Lost : σ → Prop} {Keeps : σ → ω → Prop}
    (keeps : ∀ {s op s'}, Fine s → step s op = some s' → Keeps s op → Fine s')
    (loses : ∀ {s op s'}, Fine s → step s op = some s' → ¬ Keeps s op → Lost s')
    (stays : ∀ {s op s'}, Lost s → step s op = some s' → Lost s') {s : σ} (start : Fine s)
    (ops : List ω) : (Along step Keeps s ops ∧ Fine (final step s ops)) ∨
      (¬ Along step Keeps s ops ∧ Lost (final step s ops)) := by
  induction ops generalizing s with
  | nil => exact .inl ⟨trivial, start⟩
  | cons op ops ih =>
    simp only [Along, final]
    cases next : step s op with
    | none => exact ih start
    | some s' =>
      dsimp only
      by_cases met : Keeps s op
      · rw [and_iff_right met]
        exact ih (keeps start next met)
      · refine .inr ⟨fun both => met both.1, ?_⟩
        exact final_invariant stays (loses start next met) ops

end QuinMo.Run
