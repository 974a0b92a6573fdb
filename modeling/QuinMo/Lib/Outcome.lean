import Mathlib.Data.List.Basic

/-!
# Computations that may fail

Rules for taking a successful computation apart, and for a loop whose body may fail.
-/

namespace QuinMo.Outcome

variable {ε α β σ : Type}

variable {x : Except ε α} {s : σ}

/-- A sequence succeeds when its first part does and the rest does on its value. -/
@[simp] theorem bind_ok {f : α → Except ε β} {r : β} :
    (x >>= f) = .ok r ↔ ∃ a, x = .ok a ∧ f a = .ok r := by
  cases x with
  | error e => simp [bind, Except.bind]
  | ok a => simp [bind, Except.bind]

@[simp] theorem pure_ok {a r : α} : (pure a : Except ε α) = .ok r ↔ a = r := by
  simp [pure, Except.pure]

/-- A computation whose value is only put in its place. -/
theorem bind_pure_ok {f : α → σ} {u v : β} :
    (x >>= fun a => pure (u, f a)) = .ok (v, s) ↔ u = v ∧ ∃ a, x = .ok a ∧ s = f a := by
  simp only [bind_ok, pure_ok, Prod.mk.injEq]
  constructor
  · rintro ⟨a, done, same, rfl⟩
    exact ⟨same, a, done, rfl⟩
  · rintro ⟨same, a, done, rfl⟩
    exact ⟨a, done, same, rfl⟩

@[simp] theorem throw_ok {e : ε} {r : α} : (throw e : Except ε α) = .ok r ↔ False := by
  simp [throw, throwThe, MonadExceptOf.throw]

/-- Run `body` on every element in turn, stopping at the first failure. -/
def forEach (body : σ → α → Except ε σ) : List α → σ → Except ε σ
  | [], s => .ok s
  | a :: as, s => do
    let s ← body s a
    forEach body as s

theorem forEach_append (body : σ → α → Except ε σ) (as bs : List α) (s : σ) :
    forEach body (as ++ bs) s = forEach body as s >>= forEach body bs := by
  induction as generalizing s with
  | nil => rfl
  | cons a as ih =>
    simp only [List.cons_append, forEach, bind_assoc]
    congr 1
    funext s
    exact ih s

/-- A finished loop keeps what every round that succeeds keeps. -/
theorem forEach_keeps (Inv : σ → Prop) {body : σ → α → Except ε σ} {as : List α} {t : σ}
    (round : ∀ s a t, Inv s → body s a = .ok t → Inv t) (start : Inv s)
    (run : forEach body as s = .ok t) : Inv t := by
  induction as generalizing s with
  | nil =>
    cases run
    exact start
  | cons a as ih =>
    obtain ⟨u, first, rest⟩ := bind_ok.mp run
    exact ih (round s a u start first) rest

/-- A finished loop has come to each element with the state its predecessors left. -/
theorem forEach_at {body : σ → α → Except ε σ} {pre post : List α} {a : α} {t : σ}
    (run : forEach body (pre ++ a :: post) s = .ok t) :
    ∃ u v, forEach body pre s = .ok u ∧ body u a = .ok v := by
  rw [forEach_append, bind_ok] at run
  obtain ⟨u, before, rest⟩ := run
  simp only [forEach, bind_ok] at rest
  obtain ⟨v, round, _⟩ := rest
  exact ⟨u, v, before, round⟩

/-- Both computations fail for the same reason, or both succeed with related results. -/
inductive Agree (R : α → β → Prop) : Except ε α → Except ε β → Prop
  | error (e : ε) : Agree R (.error e) (.error e)
  | ok {a : α} {b : β} : R a b → Agree R (.ok a) (.ok b)

theorem Agree.of_eq (x : Except ε α) : Agree Eq x x := by
  cases x with
  | error e => exact .error e
  | ok a => exact .ok rfl

theorem Agree.bind {γ δ : Type} {R : α → β → Prop} {S : γ → δ → Prop}
    {y : Except ε β} {f : α → Except ε γ} {g : β → Except ε δ} (first : Agree R x y)
    (next : ∀ a b, R a b → Agree S (f a) (g b)) : Agree S (x >>= f) (y >>= g) := by
  cases first with
  | error e => exact .error e
  | ok related => exact next _ _ related

/-- Two loops over the same elements stay related. -/
theorem Agree.forEach {τ : Type} {R : σ → τ → Prop} {f : σ → α → Except ε σ}
    {g : τ → α → Except ε τ} {as : List α}
    (round : ∀ s t, R s t → ∀ a ∈ as, Agree R (f s a) (g t a)) {t : τ} (start : R s t) :
    Agree R (Outcome.forEach f as s) (Outcome.forEach g as t) := by
  induction as generalizing s t with
  | nil => exact .ok start
  | cons a as ih =>
    refine (round s t start a List.mem_cons_self).bind fun s t related => ?_
    exact ih (fun s t related b inside => round s t related b (List.mem_cons_of_mem _ inside))
      related

theorem Agree.left_ok {R : α → β → Prop} {y : Except ε β} (h : Agree R x y)
    {a : α} (ok : x = .ok a) : ∃ b, y = .ok b ∧ R a b := by
  cases h with
  | error e => cases ok
  | ok related =>
    cases ok
    exact ⟨_, rfl, related⟩

end QuinMo.Outcome
