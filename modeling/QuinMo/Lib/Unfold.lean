import Mathlib.Logic.Relation
import Mathlib.Data.List.Basic
import Mathlib.Data.List.Nodup
import Mathlib.Data.List.Perm.Subperm
import QuinMo.Lib.Outcome

/-!
# Unfolding nested references

A node is a leaf or names a list of members. The walk keeps the nodes above the current one on a
path and stops when a node with members comes up again. What it sees of a graph without such loops
is a finite tree.
-/

namespace QuinMo.Unfold

open Outcome Relation

variable {α : Type}

inductive Tree (α : Type) where
  | leaf (a : α)
  | node (members : List (Tree α))

mutual

/-- The leaves, every node replaced in place by its members in their order. -/
def Tree.flat : Tree α → List α
  | .leaf a => [a]
  | .node ts => flatAll ts

def flatAll : List (Tree α) → List α
  | [] => []
  | t :: ts => t.flat ++ flatAll ts

end

mutual

/-- The leaves, with the list of a node turned round once its members are listed. -/
def Tree.weave : Tree α → List α
  | .leaf a => [a]
  | .node ts => (weaveAll ts).reverse

def weaveAll : List (Tree α) → List α
  | [] => []
  | t :: ts => t.weave ++ weaveAll ts

end

mutual

/-- The leaves read last member first or first member first, the direction changing
with every level of nesting. -/
def Tree.alternating : Bool → Tree α → List α
  | _, .leaf a => [a]
  | lastFirst, .node ts => alternatingAll lastFirst ts

def alternatingAll : Bool → List (Tree α) → List α
  | _, [] => []
  | true, t :: ts => alternatingAll true ts ++ t.alternating false
  | false, t :: ts => t.alternating true ++ alternatingAll false ts

end

mutual

theorem Tree.weave_eq_alternating (t : Tree α) :
    t.alternating true = t.weave ∧ t.alternating false = t.weave.reverse := by
  cases t with
  | leaf a => simp [Tree.alternating, Tree.weave]
  | node ts =>
    obtain ⟨hr, hf⟩ := weaveAll_eq_alternating ts
    simp [Tree.alternating, Tree.weave, hr, hf]

theorem weaveAll_eq_alternating (ts : List (Tree α)) :
    alternatingAll true ts = (weaveAll ts).reverse ∧ alternatingAll false ts = weaveAll ts := by
  cases ts with
  | nil => simp [alternatingAll, weaveAll]
  | cons t ts =>
    obtain ⟨tr, tf⟩ := t.weave_eq_alternating
    obtain ⟨hr, hf⟩ := weaveAll_eq_alternating ts
    simp [alternatingAll, weaveAll, tr, tf, hr, hf]

end

mutual

theorem Tree.weave_length (t : Tree α) : t.weave.length = t.flat.length := by
  cases t with
  | leaf a => rfl
  | node ts => simp [Tree.weave, Tree.flat, weaveAll_length ts]

theorem weaveAll_length (ts : List (Tree α)) : (weaveAll ts).length = (flatAll ts).length := by
  cases ts with
  | nil => rfl
  | cons t ts => simp [weaveAll, flatAll, t.weave_length, weaveAll_length ts]

end

mutual

theorem Tree.mem_weave (t : Tree α) (a : α) : a ∈ t.weave ↔ a ∈ t.flat := by
  cases t with
  | leaf b => rfl
  | node ts => simp [Tree.weave, Tree.flat, mem_weaveAll ts]

theorem mem_weaveAll (ts : List (Tree α)) (a : α) : a ∈ weaveAll ts ↔ a ∈ flatAll ts := by
  cases ts with
  | nil => rfl
  | cons t ts => simp [weaveAll, flatAll, t.mem_weave, mem_weaveAll ts]

end

theorem weaveAll_eq_flatAll_iff (ts : List (Tree α)) :
    weaveAll ts = flatAll ts ↔ ∀ t ∈ ts, t.weave = t.flat := by
  induction ts with
  | nil => simp [weaveAll, flatAll]
  | cons t ts ih =>
    simp only [weaveAll, flatAll, List.forall_mem_cons]
    rw [← ih]
    constructor
    · intro h
      exact List.append_inj h t.weave_length
    · rintro ⟨h, hs⟩
      rw [h, hs]

/-- Turning the list round at every level gives the reverse of the flat list exactly
when every member reads, in alternating directions, as its own reverse. -/
theorem Tree.weave_eq_reverse_iff (ts : List (Tree α)) :
    (Tree.node ts).weave = (Tree.node ts).flat.reverse ↔
      ∀ t ∈ ts, t.alternating false = t.flat.reverse := by
  simp only [Tree.weave, Tree.flat, List.reverse_inj, weaveAll_eq_flatAll_iff]
  constructor
  · intro h t ht
    rw [t.weave_eq_alternating.2, h t ht]
  · intro h t ht
    have := h t ht
    rw [t.weave_eq_alternating.2] at this
    exact List.reverse_inj.mp this

section
variable (kids : α → Option (List α))

/-- `b` is one of the members of `a`. -/
def Edge (a b : α) : Prop := ∃ as, kids a = some as ∧ b ∈ as

mutual

inductive Unfolds : α → Tree α → Prop
  | leaf (a : α) : kids a = none → Unfolds a (.leaf a)
  | node (a : α) (as : List α) (ts : List (Tree α)) :
      kids a = some as → UnfoldsAll as ts → Unfolds a (.node ts)

inductive UnfoldsAll : List α → List (Tree α) → Prop
  | nil : UnfoldsAll [] []
  | cons (a : α) (t : Tree α) (as : List α) (ts : List (Tree α)) :
      Unfolds a t → UnfoldsAll as ts → UnfoldsAll (a :: as) (t :: ts)

end

variable {kids}

mutual

theorem Unfolds.unique {a : α} {t u : Tree α} (ht : Unfolds kids a t) (hu : Unfolds kids a u) :
    t = u := by
  cases ht with
  | leaf _ h =>
    cases hu with
    | leaf => rfl
    | node _ as us h' _ => simp [h] at h'
  | node _ as ts h hts =>
    cases hu with
    | leaf _ h' => simp [h] at h'
    | node _ bs us h' hus =>
      have e : as = bs := by simpa [h] using h'
      subst e
      rw [UnfoldsAll.unique hts hus]

theorem UnfoldsAll.unique {as : List α} {ts us : List (Tree α)} (ht : UnfoldsAll kids as ts)
    (hu : UnfoldsAll kids as us) : ts = us := by
  cases ht with
  | nil => cases hu; rfl
  | cons a t as ts h hs =>
    cases hu with
    | cons _ u _ us h' hs' => rw [Unfolds.unique h h', UnfoldsAll.unique hs hs']

end

variable {a b : α} {t : Tree α}

theorem UnfoldsAll.mem {as : List α} {ts : List (Tree α)} (h : UnfoldsAll kids as ts)
    (ha : a ∈ as) : ∃ t ∈ ts, Unfolds kids a t := by
  induction as generalizing ts with
  | nil => simp at ha
  | cons b bs ih =>
    cases h with
    | cons _ t _ ts h hs =>
      rcases List.mem_cons.mp ha with rfl | ha
      · exact ⟨t, by simp, h⟩
      · obtain ⟨u, hu, hau⟩ := ih hs ha
        exact ⟨u, by simp [hu], hau⟩

/-- The tree of a member is smaller than the tree of its node. -/
theorem Unfolds.edge (h : Unfolds kids a t) (hab : Edge kids a b) :
    ∃ u, Unfolds kids b u ∧ sizeOf u < sizeOf t := by
  obtain ⟨as, hk, hb⟩ := hab
  cases h with
  | leaf _ h => simp [hk] at h
  | node _ bs ts h hts =>
    have e : bs = as := by simpa [hk] using h.symm
    subst e
    obtain ⟨u, hu, hbu⟩ := hts.mem hb
    refine ⟨u, hbu, ?_⟩
    have := List.sizeOf_lt_of_mem hu
    simp only [Tree.node.sizeOf_spec]
    omega

theorem Unfolds.reaches (h : Unfolds kids a t)
    (hab : ReflTransGen (Edge kids) a b) : ∃ u, Unfolds kids b u := by
  induction hab with
  | refl => exact ⟨t, h⟩
  | tail _ hbc ih =>
    obtain ⟨u, hu⟩ := ih
    obtain ⟨v, hv, _⟩ := hu.edge hbc
    exact ⟨v, hv⟩

theorem Unfolds.trans_smaller (h : Unfolds kids a t)
    (hab : TransGen (Edge kids) a b) : ∃ u, Unfolds kids b u ∧ sizeOf u < sizeOf t := by
  induction hab with
  | single hab => exact h.edge hab
  | tail _ hbc ih =>
    obtain ⟨u, hu, small⟩ := ih
    obtain ⟨v, hv, smaller⟩ := hu.edge hbc
    exact ⟨v, hv, by omega⟩

/-- A node that unfolds to a finite tree reaches no node on a cycle. -/
theorem Unfolds.acyclic (h : Unfolds kids a t)
    (hab : ReflTransGen (Edge kids) a b) : ¬ TransGen (Edge kids) b b := by
  intro cycle
  obtain ⟨u, hu⟩ := h.reaches hab
  obtain ⟨v, hv, small⟩ := hu.trans_smaller cycle
  rw [hv.unique hu] at small
  omega

/-- Every leaf of the tree is a node without members that the walk reached. -/
theorem Unfolds.mem_flat (h : Unfolds kids a t) (hb : b ∈ t.flat) :
    kids b = none ∧ ReflTransGen (Edge kids) a b := by
  generalize hn : sizeOf t = n
  induction n using Nat.strongRecOn generalizing a t with
  | ind n ih =>
    cases h with
    | leaf _ h =>
      simp only [Tree.flat, List.mem_singleton] at hb
      subst hb
      exact ⟨h, .refl⟩
    | node _ as ts hk hts =>
      have go : ∀ (cs : List α) (us : List (Tree α)), UnfoldsAll kids cs us →
          sizeOf us < n → b ∈ flatAll us → ∃ c ∈ cs, kids b = none ∧
            ReflTransGen (Edge kids) c b := by
        intro cs
        induction cs with
        | nil =>
          intro us hus _ hb
          cases hus
          simp [flatAll] at hb
        | cons c cs go =>
          intro us hus small hb
          cases hus with
          | cons _ u _ us hu hus =>
            simp only [List.cons.sizeOf_spec] at small
            simp only [flatAll, List.mem_append] at hb
            rcases hb with hb | hb
            · obtain ⟨e, r⟩ := ih (sizeOf u) (by omega) hu hb rfl
              exact ⟨c, by simp, e, r⟩
            · obtain ⟨d, hd, e, r⟩ := go us hus (by omega) hb
              exact ⟨d, by simp [hd], e, r⟩
      simp only [Tree.node.sizeOf_spec] at hn
      obtain ⟨c, hc, e, r⟩ := go as ts hts (by omega) hb
      exact ⟨e, .head ⟨as, hk, hc⟩ r⟩

end

/-! ## The walk -/

/-- Why a walk stops early. -/
inductive Stop (α : Type) where
  | loop (a : α)
  | fuel

/-- Append what `f` gives for each element, stopping at the first failure. -/
def gather {ε β : Type} (f : α → Except ε β) : List α → Except ε (List β)
  | [] => .ok []
  | a :: as => do
    let b ← f a
    let bs ← gather f as
    return b :: bs

theorem gather_mem {ε β : Type} {f : α → Except ε β} {as : List α} {bs : List β}
    (h : gather f as = .ok bs) {a : α} {b : β} (ha : a ∈ as) (hb : f a = .ok b) : b ∈ bs := by
  induction as generalizing bs with
  | nil => simp at ha
  | cons c as ih =>
    simp only [gather, bind_ok, pure_ok] at h
    obtain ⟨d, hd, ds, rest, rfl⟩ := h
    rcases List.mem_cons.mp ha with rfl | ha
    · rw [hb, Except.ok.injEq] at hd
      simp [hd]
    · exact List.mem_cons_of_mem d (ih rest ha)

/-- Unfold `a`, with the nodes above it on `path`. -/
def walk [DecidableEq α] (kids : α → Option (List α)) : Nat → List α → α →
    Except (Stop α) (Tree α)
  | 0, _, _ => .error .fuel
  | fuel + 1, path, a =>
    match kids a with
    | none => .ok (.leaf a)
    | some as =>
      if a ∈ path then .error (.loop a)
      else (gather (walk kids fuel (a :: path)) as).map .node

section
variable {kids : α → Option (List α)}

theorem gather_unfolds {f : α → Except (Stop α) (Tree α)} {as : List α} {ts : List (Tree α)}
    (each : ∀ a ∈ as, ∀ t, f a = .ok t → Unfolds kids a t) (h : gather f as = .ok ts) :
    UnfoldsAll kids as ts := by
  induction as generalizing ts with
  | nil =>
    simp only [gather, Except.ok.injEq] at h
    exact h ▸ .nil
  | cons a as ih =>
    simp only [gather, bind_ok, pure_ok] at h
    obtain ⟨t, ht, us, hus, rfl⟩ := h
    exact .cons _ _ _ _ (each a (by simp) t ht)
      (ih (fun b hb => each b (by simp [hb])) hus)

theorem gather_error {ε β : Type} {f : α → Except ε β} {as : List α} {e : ε}
    (h : gather f as = .error e) : ∃ a ∈ as, f a = .error e := by
  induction as with
  | nil => simp [gather] at h
  | cons a as ih =>
    cases ha : f a with
    | error e' =>
      simp only [gather, ha, bind, Except.bind, Except.error.injEq] at h
      exact ⟨a, by simp, h ▸ ha⟩
    | ok b =>
      cases hs : gather f as with
      | error e' =>
        simp only [gather, ha, hs, bind, Except.bind, Except.error.injEq] at h
        obtain ⟨c, hc, hf⟩ := ih (h ▸ hs)
        exact ⟨c, by simp [hc], hf⟩
      | ok bs => simp [gather, ha, hs, bind, Except.bind, pure, Except.pure] at h

variable [DecidableEq α]

theorem walk_ok {fuel : Nat} {path : List α} {a : α} {t : Tree α}
    (h : walk kids fuel path a = .ok t) : Unfolds kids a t := by
  induction fuel generalizing path a t with
  | zero => simp [walk] at h
  | succ fuel ih =>
    simp only [walk] at h
    cases hk : kids a with
    | none =>
      simp only [hk, Except.ok.injEq] at h
      exact h ▸ .leaf a hk
    | some as =>
      simp only [hk] at h
      split at h
      · cases h
      · cases hg : gather (walk kids fuel (a :: path)) as with
        | error e => simp [hg, Except.map] at h
        | ok ts =>
          simp only [hg, Except.map, Except.ok.injEq] at h
          exact h ▸ .node a as ts hk (gather_unfolds (fun b _ t ht => ih ht) hg)

/-- A walk that meets a node of its path again has found a cycle. -/
theorem walk_loop {fuel : Nat} {path : List α} {a b : α}
    (above : ∀ p ∈ path, TransGen (Edge kids) p a) (h : walk kids fuel path a = .error (.loop b)) :
    ReflTransGen (Edge kids) a b ∧ TransGen (Edge kids) b b := by
  induction fuel generalizing path a with
  | zero => simp [walk] at h
  | succ fuel ih =>
    simp only [walk] at h
    cases hk : kids a with
    | none => simp [hk] at h
    | some as =>
      simp only [hk] at h
      split at h
      · rename_i hp
        simp only [Except.error.injEq, Stop.loop.injEq] at h
        subst h
        exact ⟨.refl, above a hp⟩
      · cases hg : gather (walk kids fuel (a :: path)) as with
        | ok ts => simp [hg, Except.map] at h
        | error e =>
          simp only [hg, Except.map, Except.error.injEq] at h
          subst h
          obtain ⟨c, hc, hw⟩ := gather_error hg
          have edge : Edge kids a c := ⟨as, hk, hc⟩
          obtain ⟨r, cycle⟩ := ih (fun p hp => by
            rcases List.mem_cons.mp hp with rfl | hp
            · exact .single edge
            · exact (above p hp).tail edge) hw
          exact ⟨.head edge r, cycle⟩

/-- With one round more than there are nodes the walk does not run out of rounds. -/
theorem walk_fuel (univ : List α) (closed : ∀ a b, a ∈ univ → Edge kids a b → b ∈ univ) {fuel : Nat}
    {path : List α} {a : α} (ha : a ∈ univ) (inside : path ⊆ univ) (nodup : path.Nodup)
    (enough : univ.length < fuel + path.length) : walk kids fuel path a ≠ .error .fuel := by
  induction fuel generalizing path a with
  | zero =>
    have := (List.subperm_of_subset nodup inside).length_le
    omega
  | succ fuel ih =>
    intro h
    simp only [walk] at h
    cases hk : kids a with
    | none => simp [hk] at h
    | some as =>
      simp only [hk] at h
      split at h
      · simp at h
      · rename_i hp
        cases hg : gather (walk kids fuel (a :: path)) as with
        | ok ts => simp [hg, Except.map] at h
        | error e =>
          simp only [hg, Except.map, Except.error.injEq] at h
          subst h
          obtain ⟨c, hc, hw⟩ := gather_error hg
          refine ih (closed a c ha ⟨as, hk, hc⟩) ?_ ?_ ?_ hw
          · exact List.cons_subset.mpr ⟨ha, inside⟩
          · exact List.nodup_cons.mpr ⟨hp, nodup⟩
          · simp only [List.length_cons]
            omega

end

end QuinMo.Unfold
