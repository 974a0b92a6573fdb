import Mathlib.Data.List.Induction
import Mathlib.Logic.Function.Basic

/-!
# Assignments to the fields of a record

A program that only assigns is the list of its assignments. After it a field has the last value
that was assigned to it.
-/

namespace QuinMo.Assign

variable {F : Type} [DecidableEq F] {V : F → Type}

/-- `record.field = value`. -/
def assign (record : (f : F) → V f) (a : (f : F) × V f) : (f : F) → V f :=
  Function.update record a.1 a.2

def assignAll (record : (f : F) → V f) (as : List ((f : F) × V f)) : (f : F) → V f :=
  as.foldl assign record

variable {record record' : (f : F) → V f} {as as' : List ((f : F) × V f)} {f : F}

theorem assignAll_append : assignAll record (as ++ as') = assignAll (assignAll record as) as' :=
  List.foldl_append

theorem assign_self (v : V f) : assign record ⟨f, v⟩ f = v := Function.update_self ..

theorem assign_other {a : (f : F) × V f} (other : a.1 ≠ f) : assign record a f = record f :=
  Function.update_of_ne (Ne.symm other) ..

theorem assign_congr (same : record f = record' f) (a : (f : F) × V f) :
    assign record a f = assign record' a f := by
  by_cases here : a.1 = f
  · obtain ⟨g, v⟩ := a
    cases here
    rw [assign_self, assign_self]
  · rw [assign_other here, assign_other here, same]

/-- What a field has afterwards depends on no other field. -/
theorem assignAll_congr (same : record f = record' f) :
    assignAll record as f = assignAll record' as f := by
  induction as generalizing record record' with
  | nil => exact same
  | cons a as ih => exact ih (assign_congr same a)

theorem assignAll_other (other : ∀ a ∈ as, a.1 ≠ f) : assignAll record as f = record f := by
  induction as generalizing record with
  | nil => rfl
  | cons a as ih =>
    have first : assign record a f = record f := assign_other (other a List.mem_cons_self)
    rw [← first]
    exact ih fun b mem => other b (List.mem_cons_of_mem _ mem)

/-- The last value counts. -/
theorem assignAll_concat (v : V f) : assignAll record (as ++ [⟨f, v⟩]) f = v := by
  rw [assignAll_append]
  exact assign_self v

/-- A field that is assigned has one of the values afterwards. -/
theorem assignAll_mem (record : (f : F) → V f) (assigned : ∃ a ∈ as, a.1 = f) :
    (⟨f, assignAll record as f⟩ : (f : F) × V f) ∈ as := by
  induction as using List.reverseRecOn with
  | nil => exact absurd assigned (by simp)
  | append_singleton as a ih =>
    by_cases here : a.1 = f
    · obtain ⟨g, v⟩ := a
      cases here
      rw [assignAll_concat]
      exact List.mem_append_right _ (List.mem_singleton_self _)
    · have before : ∃ b ∈ as, b.1 = f := by
        obtain ⟨b, mem, same⟩ := assigned
        rcases List.mem_append.mp mem with mem | mem
        · exact ⟨b, mem, same⟩
        · rw [List.mem_singleton.mp mem] at same
          exact absurd same here
      have last : assignAll record (as ++ [a]) f = assignAll record as f := by
        rw [assignAll_append]
        exact assign_other here
      rw [last]
      exact List.mem_append_left _ (ih before)

section
variable {N : Type} (view : V f → N)

/-- All values that a field is given look the same. -/
def Agree (as : List ((f : F) × V f)) : Prop :=
  ∀ v v', (⟨f, v⟩ : (f : F) × V f) ∈ as → (⟨f, v'⟩ : (f : F) × V f) ∈ as → view v = view v'

theorem assignAll_perm (perm : as.Perm as') (agree : Agree view as) :
    view (assignAll record as f) = view (assignAll record as' f) := by
  by_cases assigned : ∃ a ∈ as, a.1 = f
  · have assigned' : ∃ a ∈ as', a.1 = f := by
      obtain ⟨a, mem, same⟩ := assigned
      exact ⟨a, perm.mem_iff.mp mem, same⟩
    exact agree _ _ (assignAll_mem record assigned)
      (perm.mem_iff.mpr (assignAll_mem record assigned'))
  · have other : ∀ a ∈ as, a.1 ≠ f := fun a mem same => assigned ⟨a, mem, same⟩
    have other' : ∀ a ∈ as', a.1 ≠ f := fun a mem => other a (perm.mem_iff.mpr mem)
    rw [assignAll_other other, assignAll_other other']

theorem assignAll_view {n : N} (start : view (record f) = n)
    (values : ∀ v, (⟨f, v⟩ : (f : F) × V f) ∈ as → view v = n) :
    view (assignAll record as f) = n := by
  by_cases assigned : ∃ a ∈ as, a.1 = f
  · exact values _ (assignAll_mem record assigned)
  · rw [assignAll_other fun a mem same => assigned ⟨a, mem, same⟩, start]

end

end QuinMo.Assign
