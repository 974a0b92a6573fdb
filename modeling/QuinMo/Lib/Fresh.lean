import Mathlib.Data.List.Basic
import Mathlib.Data.List.Nodup
import Mathlib.Data.Finset.Card

/-!
# The first candidate that is not taken

A loop that tries one candidate after the other ends as soon as there are more
candidates than taken names.
-/

namespace QuinMo.Fresh

variable {α : Type}

/-- Try `candidate k`, `candidate (k + 1)`, … for at most `fuel` more rounds. -/
def search (taken : α → Bool) (candidate : Nat → α) : Nat → Nat → Nat
  | 0, k => k
  | fuel + 1, k => if taken (candidate k) then search taken candidate fuel (k + 1) else k

/-- The search stops at a free candidate or after all its rounds, and passes over
taken candidates only. -/
theorem search_spec (taken : α → Bool) (candidate : Nat → α) (fuel k : Nat) :
    let r := search taken candidate fuel k
    k ≤ r ∧ r ≤ k + fuel ∧ (∀ j, k ≤ j → j < r → taken (candidate j) = true) ∧
      (taken (candidate r) = true → r = k + fuel) := by
  induction fuel generalizing k with
  | zero => exact ⟨Nat.le_refl _, Nat.le_refl _, fun j a b => by simp only [search] at b; omega,
      fun _ => rfl⟩
  | succ fuel ih =>
    simp only [search]
    split
    · rename_i hk
      obtain ⟨low, high, passed, last⟩ := ih (k + 1)
      refine ⟨by omega, by omega, ?_, fun h => by have := last h; omega⟩
      intro j hj hlt
      by_cases e : j = k
      · exact e ▸ hk
      · exact passed j (by omega) hlt
    · rename_i hk
      exact ⟨Nat.le_refl _, by omega, fun j a b => by omega, fun h => absurd h hk⟩

/-- With more rounds than taken names the search ends at a free candidate. The
candidate it starts from may be repeated later; the others differ. -/
theorem search_free (taken : α → Bool) (candidate : Nat → α) (names : List α) (fuel : Nat)
    (known : ∀ a, taken a = true → a ∈ names) (enough : names.length < fuel)
    (distinct : ∀ i j, 0 < i → 0 < j → candidate i = candidate j → i = j) :
    taken (candidate (search taken candidate fuel 0)) = false := by
  classical
  obtain ⟨_, _, passed, last⟩ := search_spec taken candidate fuel 0
  by_contra busy
  have busy : taken (candidate (search taken candidate fuel 0)) = true := by simpa using busy
  have stop := last busy
  let tried := (List.range fuel).map fun j => candidate (j + 1)
  have nodup : tried.Nodup := by
    refine (List.nodup_range (n := fuel)).map_on ?_
    intro i _ j _ e
    have := distinct (i + 1) (j + 1) (by omega) (by omega) e
    omega
  have inside : ∀ a ∈ tried, a ∈ names := by
    intro a ha
    obtain ⟨j, hj, rfl⟩ := List.mem_map.mp ha
    have hj := List.mem_range.mp hj
    apply known
    by_cases e : j + 1 = fuel
    · rw [show j + 1 = search taken candidate fuel 0 by omega]
      exact busy
    · exact passed (j + 1) (by omega) (by omega)
  have := (List.subperm_of_subset nodup inside).length_le
  simp only [tried, List.length_map, List.length_range] at this
  omega

/-- The loop without a bound: started at `k` it ends at `n`. -/
inductive Ends (taken : α → Bool) (candidate : Nat → α) : Nat → Nat → Prop
  | free {k : Nat} (free : taken (candidate k) = false) : Ends taken candidate k k
  | next {k n : Nat} (busy : taken (candidate k) = true) (rest : Ends taken candidate (k + 1) n) :
      Ends taken candidate k n

section
variable {taken : α → Bool} {candidate : Nat → α} {k n : Nat}

theorem Ends.not_taken (h : Ends taken candidate k n) : taken (candidate n) = false := by
  induction h with
  | free free => exact free
  | next _ _ ih => exact ih

/-- The first candidate is passed over unless the loop ends there. -/
theorem Ends.first_taken (h : Ends taken candidate k n) (later : k < n) :
    taken (candidate k) = true := by
  cases h with
  | free => omega
  | next busy _ => exact busy

end

theorem ends_of_passed {taken : α → Bool} {candidate : Nat → α} {k n : Nat} (le : k ≤ n)
    (passed : ∀ j, k ≤ j → j < n → taken (candidate j) = true)
    (free : taken (candidate n) = false) : Ends taken candidate k n := by
  obtain ⟨d, rfl⟩ := Nat.exists_eq_add_of_le le
  induction d generalizing k with
  | zero => exact .free free
  | succ d ih =>
    have step : k + (d + 1) = k + 1 + d := by omega
    rw [step] at passed free ⊢
    refine .next (passed k (Nat.le_refl k) (by omega)) (ih (by omega) ?_ free)
    exact fun j low => passed j (by omega)

/-- A search that ends at a free candidate ends where the loop does. -/
theorem search_ends {taken : α → Bool} {candidate : Nat → α} {fuel : Nat}
    (free : taken (candidate (search taken candidate fuel 0)) = false) :
    Ends taken candidate 0 (search taken candidate fuel 0) := by
  obtain ⟨low, _, passed, _⟩ := search_spec taken candidate fuel 0
  exact ends_of_passed low passed free

end QuinMo.Fresh
