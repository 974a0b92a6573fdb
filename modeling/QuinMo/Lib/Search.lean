import Mathlib.Data.List.Basic
import Mathlib.Logic.Relation

/-!
# Depth-first search that knows its path

A search for a node that is hit. It carries the keys of the nodes it is inside of, gives up at a
node that is one of them, and forgets a node when it leaves it.
-/

namespace QuinMo.Search

open Relation

/-- The first yes; no answer when a question before it has none. -/
def anyOf {α : Type} (f : α → Option Bool) : List α → Option Bool
  | [] => some false
  | a :: as =>
    match f a with
    | some true => some true
    | some false => anyOf f as
    | none => none

theorem anyOf_answers {α : Type} {f : α → Option Bool} {as : List α}
    (each : ∀ a ∈ as, (f a).isSome = true) :
    ∃ answer, anyOf f as = some answer ∧ (answer = true ↔ ∃ a ∈ as, f a = some true) := by
  induction as with
  | nil => exact ⟨false, rfl, by simp⟩
  | cons a as ih =>
    obtain ⟨rest, found, means⟩ := ih fun b hb => each b (List.mem_cons_of_mem a hb)
    obtain ⟨first, asked⟩ := Option.isSome_iff_exists.mp (each a List.mem_cons_self)
    cases first with
    | true => exact ⟨true, by rw [anyOf, asked], by simp [asked]⟩
    | false =>
      refine ⟨rest, by rw [anyOf, asked]; exact found, ?_⟩
      rw [means]
      simp [asked]

theorem anyOf_congr {α : Type} {f g : α → Option Bool} {as : List α}
    (same : ∀ a ∈ as, f a = g a) : anyOf f as = anyOf g as := by
  induction as with
  | nil => rfl
  | cons a as ih =>
    rw [anyOf, anyOf, same a List.mem_cons_self, ih fun b hb => same b (List.mem_cons_of_mem a hb)]

section

variable {α κ : Type} (key : α → κ) (next : α → List α)

/-- A walk all of whose later nodes are off the path. -/
def Free (path : List κ) : α → α → Prop :=
  ReflTransGen fun a b => b ∈ next a ∧ key b ∉ path

variable {key next}

variable {a : α} {nodes : List α} {path : List κ}

/-- A free walk leaves its first node for good at some point. -/
theorem Free.leaves (closed : ∀ a ∈ nodes, next a ⊆ nodes)
    (keys : ∀ a ∈ nodes, ∀ b ∈ nodes, key a = key b → a = b) {d : α} (ha : a ∈ nodes)
    (walk : Free key next path a d) : d ∈ nodes ∧
      (d = a ∨ ∃ b ∈ next a, key b ∉ key a :: path ∧ Free key next (key a :: path) b d) := by
  induction walk with
  | refl => exact ⟨ha, Or.inl rfl⟩
  | @tail c d _ step ih =>
    obtain ⟨hc, before⟩ := ih
    have hd : d ∈ nodes := closed c hc step.1
    refine ⟨hd, ?_⟩
    by_cases back : key d = key a
    · exact Or.inl (keys d hd a ha back)
    · have off : key d ∉ key a :: path := by simp [back, step.2]
      rcases before with rfl | ⟨b, hb, offB, walk⟩
      · exact Or.inr ⟨d, step.1, off, .refl⟩
      · exact Or.inr ⟨b, hb, offB, walk.tail ⟨step.1, off⟩⟩

theorem Free.enter {b d : α} (hb : b ∈ next a) (off : key b ∉ key a :: path)
    (walk : Free key next (key a :: path) b d) : Free key next path a d := by
  have wider : Free key next path b d :=
    ReflTransGen.mono (fun _ _ step => ⟨step.1,
      fun on => step.2 (List.mem_cons_of_mem _ on)⟩) b d walk
  exact wider.head ⟨hb, fun on => off (List.mem_cons_of_mem _ on)⟩

variable [DecidableEq κ] (key next) (hit : α → Bool)

def search : Nat → List κ → α → Option Bool
  | 0, _, _ => none
  | fuel + 1, path, a =>
    if key a ∈ path then some false
    else if hit a then some true
    else anyOf (search fuel (key a :: path)) (next a)

/-- The nodes the search can still enter. -/
def left (nodes : List α) (path : List κ) : Nat := (nodes.filter fun a => key a ∉ path).length

variable {key next hit}

theorem left_cons (ha : a ∈ nodes) (off : key a ∉ path) :
    left key nodes (key a :: path) < left key nodes path := by
  have fewer : nodes.filter (fun b => key b ∉ key a :: path) =
      (nodes.filter fun b => key b ∉ path).filter fun b => key b ≠ key a := by
    rw [List.filter_filter]
    apply List.filter_congr
    intro b _
    simp [not_or]
  unfold left
  rw [fewer, List.length_filter_lt_length_iff_exists]
  exact ⟨a, List.mem_filter.mpr ⟨ha, by simpa using off⟩, by simp⟩

theorem search_answers (closed : ∀ a ∈ nodes, next a ⊆ nodes)
    (keys : ∀ a ∈ nodes, ∀ b ∈ nodes, key a = key b → a = b) {fuel : Nat}
    (ha : a ∈ nodes) (enough : left key nodes path < fuel) :
    ∃ answer, search key next hit fuel path a = some answer ∧
      (answer = true ↔ key a ∉ path ∧ ∃ d, Free key next path a d ∧ hit d = true) := by
  induction fuel generalizing path a with
  | zero => omega
  | succ fuel ih =>
    rw [search]
    by_cases on : key a ∈ path
    · exact ⟨false, if_pos on, by simp [on]⟩
    rw [if_neg on]
    by_cases here : hit a = true
    · exact ⟨true, if_pos here, by simpa [on] using ⟨a, .refl, here⟩⟩
    rw [if_neg here]
    -- the path grows by a node that was off it, so one unit of fuel less is enough
    have less := left_cons ha on
    have shorter : left key nodes (key a :: path) < fuel := by omega
    have each : ∀ b ∈ next a, _ := fun b hb => ih (closed a ha hb) shorter
    obtain ⟨answer, found, means⟩ := anyOf_answers (f := search key next hit fuel (key a :: path))
      fun b hb => by
        obtain ⟨_, answered, -⟩ := each b hb
        simp [answered]
    refine ⟨answer, found, ?_⟩
    rw [means]
    constructor
    · rintro ⟨b, hb, yes⟩
      obtain ⟨given, answered, meaning⟩ := each b hb
      rw [yes] at answered
      obtain ⟨off, d, walk, hits⟩ := meaning.mp (Option.some.inj answered).symm
      exact ⟨on, d, walk.enter hb off, hits⟩
    · rintro ⟨-, d, walk, hits⟩
      rcases (walk.leaves closed keys ha).2 with rfl | ⟨b, hb, off, rest⟩
      · exact absurd hits here
      · obtain ⟨given, answered, meaning⟩ := each b hb
        have yes : given = true := meaning.mpr ⟨off, d, rest, hits⟩
        exact ⟨b, hb, yes ▸ answered⟩

/-- With nothing on the path the search decides whether a hit can be reached. -/
theorem search_reaches (closed : ∀ a ∈ nodes, next a ⊆ nodes)
    (keys : ∀ a ∈ nodes, ∀ b ∈ nodes, key a = key b → a = b) {fuel : Nat} (ha : a ∈ nodes)
    (enough : nodes.length < fuel) : ∃ answer, search key next hit fuel [] a = some answer ∧
      (answer = true ↔ ∃ d, ReflTransGen (fun a b => b ∈ next a) a d ∧ hit d = true) := by
  have all : left key nodes [] < fuel := by simpa [left] using enough
  obtain ⟨answer, found, means⟩ :
      ∃ answer, search key next hit fuel [] a = some answer ∧
        (answer = true ↔ key a ∉ [] ∧ ∃ d, Free key next [] a d ∧ hit d = true) :=
    search_answers closed keys ha all
  have free : ∀ d, Free key next [] a d ↔ ReflTransGen (fun a b => b ∈ next a) a d := by
    intro d
    simp [Free]
  refine ⟨answer, found, ?_⟩
  rw [means]
  simp [free]

end

section

variable {α : Type} {old new : α → α → Prop} {v : α}

/-- A walk with the new steps is one with the old steps, or comes through `v`. -/
theorem walk_change (same : ∀ x y, x ≠ v → new x y → old x y) {x y : α}
    (walk : ReflTransGen new x y) :
    ReflTransGen old x y ∨ ReflTransGen old x v ∧ ReflTransGen new x v ∧ ReflTransGen new v y := by
  induction walk using ReflTransGen.head_induction_on with
  | refl => exact Or.inl .refl
  | @head x z step walk ih =>
    by_cases here : x = v
    · subst here
      exact Or.inr ⟨.refl, .refl, walk.head step⟩
    · have kept := same x z here step
      rcases ih with before | ⟨before, thither, onward⟩
      · exact Or.inl (before.head kept)
      · exact Or.inr ⟨before.head kept, thither.head step, onward⟩

theorem acyclic_change (acyclic : ∀ x, ¬ TransGen old x x) (same : ∀ x y, x ≠ v → new x y → old x y)
    (safe : ∀ y, new v y → ¬ ReflTransGen old y v) (x : α) : ¬ TransGen new x x := by
  have atNode : ¬ TransGen new v v := by
    intro cycle
    obtain ⟨z, step, walk⟩ := TransGen.head'_iff.mp cycle
    rcases walk_change same walk with back | ⟨back, -, -⟩ <;> exact safe z step back
  intro cycle
  obtain ⟨z, step, walk⟩ := TransGen.head'_iff.mp cycle
  by_cases here : x = v
  · exact atNode (here ▸ cycle)
  · rcases walk_change same walk with back | ⟨-, thither, onward⟩
    · exact acyclic x (TransGen.head' (same x z here step) back)
    · exact atNode (TransGen.tail' onward step |>.trans_left thither)

end

end QuinMo.Search
