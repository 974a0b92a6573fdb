import Mathlib.Data.List.Nodup

/-!
# Maps in the order of insertion

A second value for a key takes the place of the first one.
-/

namespace QuinMo.LinkedMap

variable {K V : Type} [DecidableEq K]

def containsKey (m : List (K × V)) (k : K) : Bool := m.any (·.1 == k)

def put (m : List (K × V)) (k : K) (v : V) : List (K × V) :=
  if containsKey m k then m.map fun e => if e.1 = k then (k, v) else e else m ++ [(k, v)]

def associateBy (key : V → K) (vs : List V) : List (K × V) :=
  vs.foldl (fun m v => put m (key v) v) []

variable {m : List (K × V)} {k : K}

theorem containsKey_iff : containsKey m k = true ↔ k ∈ m.map (·.1) := by
  simp [containsKey]

theorem containsKey_lookup (m : List (K × V)) (k : K) : containsKey m k = (m.lookup k).isSome := by
  induction m with
  | nil => rfl
  | cons e m ih =>
    obtain ⟨j, v⟩ := e
    by_cases same : k = j
    · simp [containsKey, same]
    · have other : (j == k) = false := by simpa using Ne.symm same
      have other' : (k == j) = false := by simpa using same
      simpa [containsKey, List.lookup_cons, other, other'] using ih

theorem put_new (new : containsKey m k = false) (v : V) : put m k v = m ++ [(k, v)] := by
  simp [put, new]

theorem lookup_append_new (new : containsKey m k = false) (v : V)
    (j : K) : (m ++ [(k, v)]).lookup j = if j = k then some v else m.lookup j := by
  rw [List.lookup_append]
  by_cases same : j = k
  · subst same
    have absent : m.lookup j = none := by
      rw [containsKey_lookup, Option.isSome_eq_false_iff, Option.isNone_iff_eq_none] at new
      exact new
    simp [absent]
  · have other : (j == k) = false := by simpa using same
    simp [List.lookup_cons, same, other]

theorem lookup_put (m : List (K × V)) (k : K) (v : V) (j : K) :
    (put m k v).lookup j = if j = k then some v else m.lookup j := by
  cases known : containsKey m k with
  | false => rw [put_new known, lookup_append_new known]
  | true =>
    rw [put, if_pos known]
    by_cases own : j = k
    · rw [if_pos own, own]
      induction m with
      | nil => cases known
      | cons e m ih =>
        by_cases same : e.1 = k
        · simp [same]
        · have other : (k == e.1) = false := beq_eq_false_iff_ne.mpr (Ne.symm same)
          have tail : containsKey m k = true := by simpa [containsKey, same] using known
          rw [List.map_cons, if_neg same, List.lookup_cons, other]
          exact ih tail
    · rw [if_neg own]
      clear known
      induction m with
      | nil => rfl
      | cons e m ih =>
        by_cases same : e.1 = k
        · have other : (j == e.1) = false := beq_eq_false_iff_ne.mpr (same ▸ own)
          have other' : (j == k) = false := beq_eq_false_iff_ne.mpr own
          rw [List.map_cons, if_pos same, List.lookup_cons, List.lookup_cons, other, other', ih]
        · rw [List.map_cons, if_neg same, List.lookup_cons, List.lookup_cons, ih]

theorem put_keys (distinct : (m.map (·.1)).Nodup) (k : K) (v : V) :
    ((put m k v).map (·.1)).Nodup := by
  cases known : containsKey m k with
  | false =>
    rw [put_new known, List.map_append, List.map_singleton, ← List.concat_eq_append]
    refine distinct.concat fun mem => ?_
    rw [containsKey_iff.mpr mem] at known
    cases known
  | true =>
    have same : (put m k v).map (·.1) = m.map (·.1) := by
      rw [put, if_pos known, List.map_map]
      refine List.map_congr_left fun e _ => ?_
      simp only [Function.comp]
      split
      · rename_i eq
        exact eq.symm
      · rfl
    rw [same]
    exact distinct

theorem mem_iff_lookup (distinct : (m.map (·.1)).Nodup) {v : V} :
    (k, v) ∈ m ↔ m.lookup k = some v := by
  induction m with
  | nil => simp
  | cons e m ih =>
    obtain ⟨j, u⟩ := e
    rw [List.map_cons, List.nodup_cons] at distinct
    rw [List.mem_cons, List.lookup_cons, ih distinct.2]
    by_cases same : k = j
    · subst same
      have absent : m.lookup k = none := by
        rw [← Option.not_isSome_iff_eq_none, ← containsKey_lookup, containsKey_iff]
        exact distinct.1
      simp [absent, eq_comm]
    · have other : (k == j) = false := beq_eq_false_iff_ne.mpr same
      simp [same, other]

/-- Distinct keys keep all values, in their order. -/
theorem associateBy_of_nodup {key : V → K} {vs : List V} (distinct : (vs.map key).Nodup) :
    associateBy key vs = vs.map fun v => (key v, v) := by
  have general : ∀ (rest done : List V), ((done ++ rest).map key).Nodup →
      rest.foldl (fun m v => put m (key v) v) (done.map fun v => (key v, v)) =
        (done ++ rest).map fun v => (key v, v) := by
    intro rest
    induction rest with
    | nil => intro done _; simp
    | cons v rest ih =>
      intro done distinct
      have new : containsKey (done.map fun v => (key v, v)) (key v) = false := by
        rw [Bool.eq_false_iff, ne_eq, containsKey_iff]
        simp only [List.map_map, List.map_append, List.map_cons] at distinct ⊢
        intro listed
        exact (List.nodup_append.mp distinct).2.2 _ listed _ List.mem_cons_self rfl
      rw [List.foldl_cons, put_new new]
      have next := ih (done ++ [v]) (by simpa using distinct)
      simpa using next
  exact general vs [] (by simpa using distinct)

end QuinMo.LinkedMap
