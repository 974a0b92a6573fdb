import Mathlib.Data.List.Basic

/-!
# Following names

Names need not be unique and need not be defined, so following one is a matter of every node that
has it.
-/

namespace QuinMo.Follow

/-- Named nodes. A node without a mark is outside of what is being visited. -/
structure Net (N T I : Type) where
  nodes : List N
  name : N → T
  mark : N → Option I
  next : N → List T

variable {N T I : Type}

/-- Whichever node is taken for each name, following `t` visits exactly these marks and
then stops. -/
def Visits (net : Net N T I) : List I → T → Prop
  | [], t => (∃ x ∈ net.nodes, net.name x = t) ∧
      ∀ x ∈ net.nodes, net.name x = t → net.mark x = none
  | i :: l, t => (∃ x ∈ net.nodes, net.name x = t) ∧
      ∀ x ∈ net.nodes, net.name x = t → net.mark x = some i ∧
        (net.next x = [] → l = []) ∧ ∀ t' ∈ net.next x, Visits net l t'

section
variable {net : Net N T I}

variable {l : List I} {t : T}

theorem Visits.defined (h : Visits net l t) : ∃ x ∈ net.nodes, net.name x = t := by
  cases l with
  | nil => exact h.1
  | cons i l => exact h.1

/-- A node on the way has the mark that is due, and whatever it continues at visits
the others. -/
theorem Visits.through (h : Visits net l t) {x : N} (hx : x ∈ net.nodes) (name : net.name x = t)
    {i : I} (mark : net.mark x = some i) : ∃ rest, l = i :: rest ∧ (net.next x = [] → rest = []) ∧
      ∀ t' ∈ net.next x, Visits net rest t' := by
  cases l with
  | nil =>
    have := h.2 x hx name
    simp [mark] at this
  | cons j rest =>
    obtain ⟨same, stop, go⟩ := h.2 x hx name
    rw [mark, Option.some.injEq] at same
    exact ⟨rest, by rw [same], stop, go⟩

theorem Visits.outside (h : Visits net l t) {x : N} (hx : x ∈ net.nodes)
    (name : net.name x = t) (mark : net.mark x = none) : l = [] := by
  cases l with
  | nil => rfl
  | cons i rest =>
    have := (h.2 x hx name).1
    simp [mark] at this

/-- What a name visits is determined. -/
theorem Visits.unique {k : List I} (hl : Visits net l t) (hk : Visits net k t) : l = k := by
  induction l generalizing k t with
  | nil =>
    obtain ⟨x, hx, name⟩ := hl.1
    exact (hk.outside hx name (hl.2 x hx name)).symm
  | cons i l ih =>
    obtain ⟨x, hx, name⟩ := hl.1
    obtain ⟨mark, stop, go⟩ := hl.2 x hx name
    obtain ⟨rest, rfl, stop', go'⟩ := hk.through hx name mark
    cases next : net.next x with
    | nil => rw [stop next, stop' next]
    | cons t' _ =>
      have here : t' ∈ net.next x := by simp [next]
      rw [ih (go t' here) (go' t' here)]

/-- What is expected of each name is visited when every node with the name has the
mark that is due and continues at names of which the rest is expected. -/
theorem visits_of_expected {E : List I → T → Prop}
    (defined : ∀ l t, E l t → ∃ x ∈ net.nodes, net.name x = t)
    (outside : ∀ t, E [] t → ∀ x ∈ net.nodes, net.name x = t → net.mark x = none)
    (node : ∀ i l t, E (i :: l) t → ∀ x ∈ net.nodes, net.name x = t → net.mark x = some i ∧
      (net.next x = [] → l = []) ∧ ∀ t' ∈ net.next x, E l t')
    (h : E l t) : Visits net l t := by
  induction l generalizing t with
  | nil => exact ⟨defined [] t h, outside t h⟩
  | cons i l ih =>
    refine ⟨defined (i :: l) t h, ?_⟩
    intro x hx name
    obtain ⟨mark, stop, go⟩ := node i l t h x hx name
    exact ⟨mark, stop, fun t' ht => ih (go t' ht)⟩

end

end QuinMo.Follow
