import Mathlib.Order.WellFounded

/-!
# Loops that end

A loop takes turns until one gives its outcome. A turn may also wait for something that never
comes.
-/

namespace QuinMo.Loop

variable {σ ρ : Type}

inductive Turn (σ ρ : Type) where
  | again (s : σ)
  | done (outcome : ρ)

/-- None when the turns are used up or one of them waits for ever. -/
def run (turn : σ → Option (Turn σ ρ)) : Nat → σ → Option ρ
  | 0, _ => none
  | fuel + 1, s =>
    match turn s with
    | some (.again s) => run turn fuel s
    | some (.done outcome) => some outcome
    | none => none

variable {turn : σ → Option (Turn σ ρ)}

theorem run_again {s next : σ} (h : turn s = some (.again next)) (fuel : Nat) :
    run turn (fuel + 1) s = run turn fuel next := by
  rw [run, h]

theorem run_done {s : σ} {outcome : ρ} (h : turn s = some (.done outcome)) (fuel : Nat) :
    run turn (fuel + 1) s = some outcome := by
  rw [run, h]

/-- A turn taken in `s` ends the loop, or keeps an invariant and comes closer to the end. -/
def Advances (Inv : σ → Prop) (closer : σ → σ → Prop) (s : σ) : Option (Turn σ ρ) → Prop
  | some (.done _) => True
  | some (.again next) => Inv next ∧ closer next s
  | none => False

/-- If every turn advances, the loop has one outcome, which every large enough number of turns
gives. -/
theorem run_ends {Inv : σ → Prop} {closer : σ → σ → Prop} (wf : WellFounded closer)
    (advances : ∀ s, Inv s → Advances Inv closer s (turn s)) {s : σ} (inv : Inv s) :
    ∃ n outcome, ∀ fuel, n ≤ fuel → run turn fuel s = some outcome := by
  induction s using wf.induction with
  | _ s ih =>
    have advance := advances s inv
    match taken : turn s with
    | some (.done outcome) =>
      refine ⟨1, outcome, fun fuel enough => ?_⟩
      obtain ⟨fuel, rfl⟩ := Nat.exists_eq_add_of_le' enough
      exact run_done taken fuel
    | some (.again next) =>
      rw [taken] at advance
      obtain ⟨n, outcome, rest⟩ := ih next advance.2 advance.1
      refine ⟨n + 1, outcome, fun fuel enough => ?_⟩
      obtain ⟨fuel, rfl⟩ := Nat.exists_eq_add_of_le' (Nat.le_trans (Nat.le_add_left 1 n) enough)
      rw [run_again taken]
      exact rest fuel (by omega)
    | none =>
      rw [taken] at advance
      exact advance.elim

end QuinMo.Loop
