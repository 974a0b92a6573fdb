import Mathlib.Data.Prod.Lex
import QuinMo.Libcore.DnsRouter

/-!
# Waiting for an answer and being called back

Both ways deliver the same, because the walk only gives a pending exchange when no rule is armed.
That there is something to deliver is the larger part: every turn of the loop ends it or comes
closer to the end, and an evaluation that is not done still has its signal before it.
-/

namespace QuinMo.Libcore.Dns

open Loop

/-- What stays the same when evaluations are only looked at. Armed rules can be triggered. -/
structure Looked (s s' : State) : Prop where
  ruleIndex : s'.ruleIndex = s.ruleIndex
  anonymousFuture : s'.anonymousFuture = s.anonymousFuture
  namedFutures : s'.namedFutures = s.namedFutures
  futures : s'.futures = s.futures
  terminalFuture : s'.terminalFuture = s.terminalFuture
  woken : s'.woken = s.woken
  queries : s'.queries = s.queries
  armedRules : s'.armedRules.Sublist s.armedRules
  clock : s.clock ≤ s'.clock

namespace Looked

variable {s s' s'' : State}

theorem refl (s : State) : Looked s s :=
  ⟨rfl, rfl, rfl, rfl, rfl, rfl, rfl, .refl _, Nat.le_refl _⟩

theorem trans (h : Looked s s') (h' : Looked s' s'') : Looked s s'' where
  ruleIndex := h'.ruleIndex.trans h.ruleIndex
  anonymousFuture := h'.anonymousFuture.trans h.anonymousFuture
  namedFutures := h'.namedFutures.trans h.namedFutures
  futures := h'.futures.trans h.futures
  terminalFuture := h'.terminalFuture.trans h.terminalFuture
  woken := h'.woken.trans h.woken
  queries := h'.queries.trans h.queries
  armedRules := h'.armedRules.trans h.armedRules
  clock := h.clock.trans h'.clock

theorem armed (h : Looked s s') {rules : List ArmedRule} (sub : rules.Sublist s.armedRules) :
    Looked s { s' with armedRules := rules } :=
  { h with armedRules := sub }

end Looked

theorem looked_tick (s : State) : Looked s s.tick :=
  { Looked.refl s with clock := Nat.le_succ _ }

theorem looked_resolved (s : State) (k : Nat) : Looked s (s.resolved k).2 := looked_tick s

theorem looked_view (s : State) (k : Nat) : Looked s (s.view k).2 := looked_tick s

theorem looked_anonymousResponse (s : State) : Looked s s.anonymousResponse.2 := by
  unfold State.anonymousResponse
  split
  · exact looked_view _ _
  · exact .refl s

theorem looked_unresolved (s : State) (ks : List Nat) : Looked s (s.unresolved ks).2 := by
  induction ks generalizing s with
  | nil => exact .refl s
  | cons k ks ih => exact (looked_resolved s k).trans (ih _)

theorem looked_firstUnresolved (s : State) (ks : List Nat) : Looked s (s.firstUnresolved ks).2 := by
  induction ks generalizing s with
  | nil => exact .refl s
  | cons k ks ih =>
    simp only [State.firstUnresolved]
    split
    · exact (looked_resolved s k).trans (ih _)
    · exact looked_resolved s k

theorem looked_settleOne (s : State) (k : Nat) : Looked s (s.settleOne k) := by
  unfold State.settleOne
  split
  · exact .refl s
  · split
    · exact .refl s
    · simp only
      split
      · split
        · exact { looked_tick s with }
        · exact { (looked_tick s).trans (looked_tick _) with }
      · exact looked_tick s

theorem looked_settleDNSFutures (s : State) : Looked s s.settleDNSFutures := by
  unfold State.settleDNSFutures
  generalize List.range s.futures.length = ks
  induction ks generalizing s with
  | nil => exact .refl s
  | cons k ks ih => exact (looked_settleOne s k).trans (ih _)

theorem looked_armedResponse (armed : ArmedRule) (s : State) :
    Looked s (Call.armedResponse armed s).2.2 := by
  unfold Call.armedResponse
  split
  · exact .refl s
  · split
    · exact looked_tick s
    · exact .refl s

variable (c : Call)

theorem looked_trigger (armed : ArmedRule) (s : State) : Looked s (c.trigger armed s).2 := by
  unfold Call.trigger
  generalize shown : (if armed.bindsAnonymous = true then _ else _ : Option Msg × State) = seen
  have look : Looked s seen.2 := by
    rw [← shown]
    split
    · split
      · exact looked_view _ _
      · exact .refl s
    · exact looked_anonymousResponse s
  obtain ⟨response, t⟩ := seen
  dsimp only at look ⊢
  split
  · exact look
  · split
    · have answer := look.trans (looked_armedResponse armed t)
      split <;> exact answer
    · split <;> exact look
    all_goals exact look

variable {c}

/-- Futures that are named exist. Nothing is known before it can be. -/
structure Sound (c : Call) (s : State) : Prop where
  index : s.ruleIndex ≤ c.rules.length
  signal : ∀ f ∈ s.futures, f.doneAt ≤ f.signalAt
  woken : s.woken < s.clock
  named : ∀ tag k, s.namedFutures tag = some k → k < s.futures.length
  anonymous : ∀ k, s.anonymousFuture = some k → k < s.futures.length
  terminal : ∀ k, s.terminalFuture = some k → k < s.futures.length
  armed : ∀ armed ∈ s.armedRules, ∀ k ∈ armed.futures, k < s.futures.length

/-- The evaluation was not done when the clock last moved. -/
def Late (s : State) (k : Nat) : Prop := ∃ f, s.futures[k]? = some f ∧ s.clock ≤ f.doneAt

/-- The signal of the evaluation has not been received. -/
def Waits (s : State) (k : Nat) : Prop := ∃ f, s.futures[k]? = some f ∧ s.woken < f.signalAt

namespace Sound

variable {s s' : State}

theorem start : Sound c c.start where
  index := Nat.zero_le _
  signal := by simp [Call.start]
  woken := Nat.zero_lt_one
  named := by simp [Call.start]
  anonymous := by simp [Call.start]
  terminal := by simp [Call.start]
  armed := by simp [Call.start]

theorem looked (h : Sound c s) (look : Looked s s') : Sound c s' where
  index := look.ruleIndex ▸ h.index
  signal := look.futures ▸ h.signal
  woken := by
    rw [look.woken]
    exact h.woken.trans_le look.clock
  named := by
    rw [look.namedFutures, look.futures]
    exact h.named
  anonymous := by
    rw [look.anonymousFuture, look.futures]
    exact h.anonymous
  terminal := by
    rw [look.terminalFuture, look.futures]
    exact h.terminal
  armed := by
    rw [look.futures]
    exact fun armed mem => h.armed armed (look.armedRules.subset mem)

theorem waits (h : Sound c s) {k : Nat} (late : Late s k) : Waits s k := by
  obtain ⟨f, found, after⟩ := late
  have signal := h.signal f (List.mem_of_getElem? found)
  exact ⟨f, found, h.woken.trans_le (after.trans signal)⟩

theorem bindings (h : Sound c s) (rule : DNSRule) :
    ∀ k ∈ s.bindings rule, k < s.futures.length := by
  intro k mem
  rw [State.bindings, List.mem_append, List.mem_filterMap] at mem
  obtain ⟨tag, -, named⟩ | anonymous := mem
  · exact h.named tag k named
  · split at anonymous
    · exact h.anonymous k (Option.mem_toList.mp anonymous)
    · cases anonymous

end Sound

variable {s s' : State} {k : Nat} {t : State} {suspension : Suspension}

theorem Waits.looked (h : Waits s k) (look : Looked s s') : Waits s' k := by
  obtain ⟨f, found, after⟩ := h
  exact ⟨f, look.futures ▸ found, look.woken ▸ after⟩

theorem Late.of_looked (h : Late s' k) (look : Looked s s') : Late s k := by
  obtain ⟨f, found, after⟩ := h
  exact ⟨f, look.futures ▸ found, look.clock.trans after⟩

theorem late_of_not_resolved (valid : k < s.futures.length)
    (h : (s.resolved k).1 = false) : Late (s.resolved k).2 k := by
  refine ⟨s.futures[k], List.getElem?_eq_getElem valid, ?_⟩
  have after : s.clock < s.futures[k].doneAt := by
    simpa [State.resolved, State.isDone, List.getElem?_eq_getElem valid] using h
  exact after

theorem firstUnresolved_late {ks : List Nat} (valid : ∀ k ∈ ks, k < s.futures.length)
    (h : (s.firstUnresolved ks).1 = some k) :
    k ∈ ks ∧ Late (s.firstUnresolved ks).2 k ∧ s.clock < (s.firstUnresolved ks).2.clock := by
  induction ks generalizing s with
  | nil => cases h
  | cons j ks ih =>
    rw [List.forall_mem_cons] at valid
    simp only [State.firstUnresolved] at h ⊢
    split at h
    · next done =>
      rw [if_pos done]
      obtain ⟨mem, late, passed⟩ := ih (s := (s.resolved j).2) valid.2 h
      exact ⟨List.mem_cons_of_mem j mem, late, (Nat.lt_succ_self _).trans passed⟩
    · next undone =>
      cases h
      rw [if_neg undone]
      exact ⟨List.mem_cons_self, late_of_not_resolved valid.1 (by simpa using undone),
        Nat.lt_succ_self _⟩

theorem mem_of_mem_unresolved {ks : List Nat} (h : k ∈ (s.unresolved ks).1) : k ∈ ks := by
  induction ks generalizing s with
  | nil => exact h
  | cons j ks ih =>
    simp only [State.unresolved] at h
    split at h
    · exact List.mem_cons_of_mem j (ih h)
    · obtain rfl | mem := List.mem_cons.mp h
      · exact List.mem_cons_self
      · exact List.mem_cons_of_mem j (ih mem)

theorem late_of_firstUnresolved {s₀ : State} (look : Looked s₀ s) {ks : List Nat}
    (valid : ∀ k ∈ ks, k < s₀.futures.length) (waiting : (s.firstUnresolved ks).1.isSome) :
    ∃ k, Late s₀ k := by
  obtain ⟨k, first⟩ := Option.isSome_iff_exists.mp waiting
  obtain ⟨-, late, -⟩ := firstUnresolved_late (look.futures ▸ valid) first
  exact ⟨k, late.of_looked (look.trans (looked_firstUnresolved s ks))⟩

/-- The sweep as seen from the state `s₀` it starts in: it only looks, and rules that stay armed
wait for an evaluation. -/
theorem sweepFrom_spec {s₀ : State} (sound : Sound c s₀) (kept rules : List ArmedRule) (s : State)
    (look : Looked s₀ s) (sub : (kept ++ rules).Sublist s₀.armedRules)
    (waits : kept ≠ [] → ∃ k, Late s₀ k) : Looked s₀ (c.sweepFrom kept rules s).2 ∧
      ((c.sweepFrom kept rules s).1 = none →
        (c.sweepFrom kept rules s).2.armedRules ≠ [] → ∃ k, Late s₀ k) := by
  induction rules generalizing kept s with
  | nil => exact ⟨look.armed (by simpa using sub), fun _ => waits⟩
  | cons armed rules ih =>
    have mem : armed ∈ s₀.armedRules := sub.subset (by simp)
    have checked := look.trans (looked_firstUnresolved s armed.futures)
    have fewer : (kept ++ rules).Sublist s₀.armedRules :=
      ((List.sublist_cons_self armed rules).append_left kept).trans sub
    have acted := (checked.armed fewer).trans (looked_trigger c armed _)
    simp only [Call.sweepFrom]
    split
    · next waiting =>
      have late := late_of_firstUnresolved look (sound.armed armed mem) waiting
      exact ih _ _ checked (by simpa using sub) fun _ => late
    · split
      · next commit t triggered =>
        rw [triggered] at acted
        exact ⟨acted, fun impossible => by cases impossible⟩
      · next t triggered =>
        rw [triggered] at acted
        exact ih _ _ acted fewer waits

theorem sweepArmedDNSRules_spec (sound : Sound c s) : Looked s (c.sweepArmedDNSRules s).2 ∧
      ((c.sweepArmedDNSRules s).1 = none →
        (c.sweepArmedDNSRules s).2.armedRules ≠ [] → ∃ k, Late s k) :=
  sweepFrom_spec sound [] s.armedRules s (.refl s) (.refl _) fun h => absurd rfl h

/-! ## What a rule can do -/

/-- A suspension that the loop can go on from. -/
def Fits (c : Call) (s : State) : Suspension → Prop
  | .await k => k < s.futures.length
  | .drain => s.armedRules ≠ []
  | .pending exchange => s.armedRules = [] ∧
      (exchange.fallback → s.ruleIndex < c.rules.length) ∧
      ∀ k, exchange.future = some k → k < s.futures.length

/-- How a walk that is suspended has come on: to a later rule, or by sending the speculative
query, or else it has only looked. -/
def Onward (s s' : State) : Prop :=
  s.ruleIndex < s'.ruleIndex ∨
    (s'.ruleIndex = s.ruleIndex ∧ s.terminalFuture = none ∧ s'.terminalFuture ≠ none) ∨
    Looked s s'

/-- A suspended walk. -/
structure Suspended (c : Call) (s : State) (suspension : Suspension) (s' : State) : Prop where
  sound : Sound c s'
  fits : Fits c s' suspension
  late : ∀ k, suspension = .await k →
    Late s' k ∧ (s'.ruleIndex = s.ruleIndex → s.clock < s'.clock)
  onward : Onward s s'

theorem Onward.of_looked (look : Looked s t) (h : Onward t s') : Onward s s' := by
  obtain further | ⟨same, unsent, sent⟩ | looked := h
  · exact .inl (look.ruleIndex ▸ further)
  · exact .inr (.inl ⟨same.trans look.ruleIndex, look.terminalFuture ▸ unsent, sent⟩)
  · exact .inr (.inr (look.trans looked))

theorem Onward.index_le (h : Onward s s') : s.ruleIndex ≤ s'.ruleIndex := by
  obtain further | ⟨same, -⟩ | looked := h
  · exact further.le
  · exact same.ge
  · exact looked.ruleIndex.ge

/-- What visiting a rule gives. -/
def Visited (c : Call) (s : State) : Call.Step → Prop
  | .next s' => Sound c s' ∧ s'.ruleIndex = s.ruleIndex
  | .deliver _ _ => True
  | .suspend suspension s' => Suspended c s suspension s'

theorem Visited.of_looked (look : Looked s t) {step : Call.Step}
    (h : Visited c t step) : Visited c s step := by
  cases step with
  | next s' => exact ⟨h.1, h.2.trans look.ruleIndex⟩
  | deliver => trivial
  | suspend suspension s' =>
    refine { h with onward := h.onward.of_looked look, late := fun k await => ?_ }
    obtain ⟨late, passed⟩ := h.late k await
    exact ⟨late, fun same => look.clock.trans_lt (passed (same.trans look.ruleIndex.symm))⟩

theorem visited_drain (sound : Sound c s) (armed : (!s.armedRules.isEmpty) = true) :
    Visited c s (.suspend .drain s) where
  sound := sound
  fits := by simpa [Fits] using armed
  late := by simp
  onward := .inr (.inr (.refl s))

theorem visited_await (sound : Sound c s) (look : Looked s t)
    (late : Late t k) (passed : s.clock < t.clock) : Visited c s (.suspend (.await k) t) where
  sound := sound.looked look
  fits := by
    obtain ⟨f, found, -⟩ := late
    exact (List.getElem?_eq_some_iff.mp found).1
  late := by
    rintro j ⟨⟩
    exact ⟨late, fun _ => passed⟩
  onward := .inr (.inr look)

theorem sound_launch (sound : Sound c s) (tag : String) (terminal : Bool)
    (transport : DNSTransport) (options : DNSQueryOptions) :
    Sound c (c.launchDNSEvaluate s tag terminal transport options).2 where
  index := sound.index
  signal := by
    intro f mem
    obtain old | new := List.mem_append.mp mem
    · exact sound.signal f old
    · rw [List.mem_singleton.mp new]
      exact Nat.le_add_right _ _
  woken := sound.woken
  named tag k h := by
    simpa [Call.launchDNSEvaluate] using (sound.named tag k h).trans (Nat.lt_succ_self _)
  anonymous k h := by
    simpa [Call.launchDNSEvaluate] using (sound.anonymous k h).trans (Nat.lt_succ_self _)
  terminal k h := by
    simpa [Call.launchDNSEvaluate] using (sound.terminal k h).trans (Nat.lt_succ_self _)
  armed a mem k h := by
    simpa [Call.launchDNSEvaluate] using (sound.armed a mem k h).trans (Nat.lt_succ_self _)

theorem launch_valid (s : State) (tag : String) (terminal : Bool) (transport : DNSTransport)
    (options : DNSQueryOptions) : (c.launchDNSEvaluate s tag terminal transport options).1 <
      (c.launchDNSEvaluate s tag terminal transport options).2.futures.length := by
  simp [Call.launchDNSEvaluate]

variable {exchange pending : PendingExchange}

theorem trigger_plain {armed : ArmedRule} (h : (c.trigger armed s).1 = some (.pending exchange)) :
    exchange.future = none ∧ exchange.fallback = false := by
  unfold Call.trigger at h
  generalize (if armed.bindsAnonymous = true then _ else _ : Option Msg × State) = seen at h
  dsimp only at h
  split at h
  · cases h
  · split at h
    · split at h <;> cases h
    · split at h
      · cases h
      · cases h
      · cases h
        exact ⟨rfl, rfl⟩
    all_goals cases h

/-- A query that an armed rule decides for is a new one, and final: the fallback of the rule is
not looked at. -/
theorem sweepFrom_plain {kept rules : List ArmedRule}
    (h : (c.sweepFrom kept rules s).1 = some (.pending exchange)) :
    exchange.future = none ∧ exchange.fallback = false := by
  induction rules generalizing kept s with
  | nil => cases h
  | cons armed rules ih =>
    simp only [Call.sweepFrom] at h
    split at h
    · exact ih h
    · split at h
      · next triggered =>
        cases h
        exact trigger_plain (congrArg Prod.fst triggered)
      · exact ih h

theorem visited_arm (sound : Sound c s) (rule : DNSRule) : Visited c s (c.arm rule s) := by
  have look := looked_unresolved s (s.bindings rule)
  have valid : ∀ k ∈ (s.unresolved (s.bindings rule)).1, k < s.futures.length :=
    fun k mem => sound.bindings rule k (mem_of_mem_unresolved mem)
  simp only [Call.arm]
  generalize s.unresolved (s.bindings rule) = seen at look valid ⊢
  obtain ⟨ks, t⟩ := seen
  dsimp only at look valid ⊢
  generalize armedEq : ({ rule := rule, futures := ks, .. } : ArmedRule) = armed
  have futures : armed.futures = ks := by rw [← armedEq]
  have soundArmed : Sound c { t with armedRules := t.armedRules ++ [armed] } :=
    { sound.looked look with
      armed := by
        intro a mem k h
        obtain old | new := List.mem_append.mp mem
        · exact (sound.looked look).armed a old k h
        · rw [List.mem_singleton.mp new, futures] at h
          exact look.futures ▸ valid k h }
  have swept := (sweepArmedDNSRules_spec soundArmed).1
  split
  · split
    · next exchange u sweep =>
      rw [sweep] at swept
      obtain ⟨future, fallback⟩ := sweepFrom_plain (congrArg Prod.fst sweep)
      exact
        { sound := { soundArmed.looked swept with armed := by simp }
          fits := ⟨rfl, by simp [fallback], by simp [future]⟩
          late := by simp
          onward := .inr (.inr (look.trans { swept with armedRules := List.nil_sublist _ })) }
    · trivial
    · next u sweep =>
      rw [sweep] at swept
      exact ⟨soundArmed.looked swept, swept.ruleIndex.trans look.ruleIndex⟩
  · exact ⟨soundArmed, look.ruleIndex⟩

theorem visited_evaluate (sound : Sound c s) (server tag : String) (speculative : Bool)
    (options : DNSRouteOptions) : Visited c s (c.evaluate server tag speculative options s) := by
  unfold Call.evaluate
  split
  · split
    · exact ⟨{ sound with anonymous := by simp }, rfl⟩
    · exact ⟨sound, rfl⟩
  · next transport _ =>
    split
    · next h => exact visited_drain sound (by simp_all)
    · have launched := sound_launch sound tag false transport
        (applyDNSRouteOptions s.effectiveOptions options)
      have valid := launch_valid (c := c) s tag false transport
        (applyDNSRouteOptions s.effectiveOptions options)
      simp only
      split
      · refine ⟨{ launched with anonymous := ?_ }, rfl⟩
        rintro k ⟨⟩
        exact valid
      · refine ⟨{ launched with named := ?_ }, rfl⟩
        intro other k h
        dsimp only at h
        obtain rfl | differs := eq_or_ne other tag
        · rw [Function.update_self] at h
          cases h
          exact valid
        · rw [Function.update_of_ne differs] at h
          exact launched.named other k h

theorem visited_respondAnonymous (sound : Sound c s) (hasBindings : Bool) :
    Visited c s (Call.respondAnonymous hasBindings s) := by
  unfold Call.respondAnonymous
  split
  · trivial
  · next k anonymous =>
    have valid : ∀ j ∈ [k], j < s.futures.length := by simpa using sound.anonymous k anonymous
    cases hasBindings with
    | true =>
      simp only [↓reduceIte, Option.isSome_none, Bool.false_eq_true]
      split <;> trivial
    | false =>
      simp only [↓reduceIte, Bool.false_eq_true]
      split
      · next waiting =>
        obtain ⟨j, first⟩ := Option.isSome_iff_exists.mp waiting
        obtain ⟨mem, late, passed⟩ := firstUnresolved_late valid first
        rw [List.mem_singleton] at mem
        exact visited_await sound (looked_firstUnresolved s [k]) (mem ▸ late) passed
      · split <;> trivial

theorem visited_respond (sound : Sound c s) (rule : DNSRule) :
    Visited c s (Call.respond rule s) := by
  unfold Call.respond
  split
  · next armed => exact visited_drain sound armed
  · split
    · split <;> trivial
    · exact visited_respondAnonymous sound rule.hasBindings

/-- A route that is taken at once, with no rule armed. -/
theorem visited_pending (sound : Sound c s) (inside : s.ruleIndex < c.rules.length)
    (armed : ¬ (!s.armedRules.isEmpty) = true) (exchange : PendingExchange)
    (valid : ∀ k, exchange.future = some k → k < s.futures.length) :
    Visited c s (.suspend (.pending exchange) s) where
  sound := sound
  fits := ⟨by simpa using armed, fun _ => inside, valid⟩
  late := by simp
  onward := .inr (.inr (.refl s))

theorem visited_route (sound : Sound c s) (inside : s.ruleIndex < c.rules.length)
    (server : String) (speculative fallback : Bool) (options : DNSRouteOptions) :
    Visited c s (c.route server speculative fallback options s) := by
  unfold Call.route
  split
  · exact ⟨sound, rfl⟩
  · exact ⟨sound, rfl⟩
  · next transport options _ =>
    split
    · next armed =>
      split
      · next send =>
        have launched := sound_launch sound "" true transport options
        have valid := launch_valid (c := c) s "" true transport options
        have unsent : s.terminalFuture = none := by simp_all
        refine
          { sound := { launched with terminal := ?_ }
            fits := by simpa [Fits, Call.launchDNSEvaluate] using armed
            late := by simp
            onward := .inr (.inl ⟨rfl, unsent, by simp⟩) }
        rintro k ⟨⟩
        exact valid
      · exact visited_drain sound armed
    · next armed =>
      split
      · next k terminal =>
        split
        · apply visited_pending sound inside armed
          rintro j ⟨⟩
          exact sound.terminal k terminal
        · exact visited_pending sound inside armed _ (by simp)
      · exact visited_pending sound inside armed _ (by simp)

theorem visited_act (sound : Sound c s) (inside : s.ruleIndex < c.rules.length)
    (rule : DNSRule) : Visited c s (c.act rule s) := by
  unfold Call.act
  split
  · exact ⟨{ sound with }, rfl⟩
  · exact visited_evaluate sound ..
  · exact visited_respond sound rule
  · exact visited_route sound inside ..
  · split
    · next armed => exact visited_drain sound armed
    · split
      · trivial
      · trivial
      · exact ⟨sound, rfl⟩
  · split
    · next armed => exact visited_drain sound armed
    · trivial
  · exact ⟨sound, rfl⟩

theorem visited_consider (sound : Sound c s) (inside : s.ruleIndex < c.rules.length)
    (rule : DNSRule) : Visited c s (c.consider rule s) := by
  have look := looked_anonymousResponse s
  simp only [Call.consider]
  split
  · exact ⟨sound.looked look, look.ruleIndex⟩
  · exact (visited_act (sound.looked look) (look.ruleIndex ▸ inside) rule).of_looked look

theorem visited_visit (sound : Sound c s) (inside : s.ruleIndex < c.rules.length)
    (rule : DNSRule) : Visited c s (c.visit rule s) := by
  have settled := looked_settleDNSFutures s
  have first := looked_firstUnresolved s.settleDNSFutures (s.settleDNSFutures.bindings rule)
  unfold Call.visit
  split
  · simp only
    split
    · exact (visited_arm (sound.looked settled) rule).of_looked settled
    · split
      · next k t found =>
        have unresolved := firstUnresolved_late ((sound.looked settled).bindings rule)
          (congrArg Prod.fst found)
        rw [found] at first unresolved
        obtain ⟨-, late, passed⟩ := unresolved
        exact visited_await sound (settled.trans first) late (settled.clock.trans_lt passed)
      · next t found =>
        rw [found] at first
        have look := settled.trans first
        exact (visited_consider (sound.looked look) (look.ruleIndex ▸ inside) rule).of_looked look
  · exact visited_consider sound inside rule

/-! ## The walk -/

theorem walkFrom_suspended (rules : List DNSRule) (sound : Sound c s)
    (place : s.ruleIndex + rules.length = c.rules.length)
    (h : c.walkFrom rules s = .suspend suspension s') : Suspended c s suspension s' := by
  induction rules generalizing s with
  | nil =>
    simp only [Call.walkFrom] at h
    split at h
    · next armed =>
      cases h
      exact visited_drain sound armed
    · next armed =>
      cases h
      exact
        { sound
          fits := ⟨by simpa using armed, by simp, by simp⟩
          late := by simp
          onward := .inr (.inr (.refl _)) }
  | cons rule rules ih =>
    rw [List.length_cons] at place
    have visited := visited_visit sound (by omega) rule
    simp only [Call.walkFrom] at h
    split at h
    · next t visit =>
      rw [visit] at visited
      obtain ⟨kept, same⟩ := visited
      have moved : Sound c { t with ruleIndex := t.ruleIndex + 1 } :=
        { kept with index := by simp only; omega }
      have rest := ih moved (by simp only; omega) h
      have further : s.ruleIndex < s'.ruleIndex := same ▸ rest.onward.index_le
      refine { rest with onward := .inl further, late := fun k await => ?_ }
      exact ⟨(rest.late k await).1, fun same => absurd same (by omega)⟩
    · cases h
    · next visit =>
      cases h
      rw [visit] at visited
      exact visited

/-- Where the walk stops for a query that decides, no rule is armed. -/
theorem walkDNSRules_suspended (sound : Sound c s) (h : c.walkDNSRules s = .suspend suspension s') :
    Suspended c s suspension s' := by
  refine walkFrom_suspended _ sound ?_ h
  have index := sound.index
  rw [List.length_drop]
  omega

/-- Cancelling an evaluation can only change how it ends. -/
theorem cancel_cases (s : State) (k : Nat) : (k ∈ s.cancelled ∧ c.cancel s k = s) ∨
      ∃ futures, c.cancel s k = { s with futures, cancelled := k :: s.cancelled } ∧
        futures.length = s.futures.length ∧
        ∀ f ∈ futures, f ∈ s.futures ∨ f.doneAt ≤ f.signalAt := by
  unfold Call.cancel
  split
  · next known => exact .inl ⟨known, rfl⟩
  · refine .inr ?_
    simp only
    split
    · split
      · exact ⟨_, rfl, rfl, fun _ => .inl⟩
      · refine ⟨_, rfl, List.length_set, fun f mem => ?_⟩
        refine (List.mem_or_eq_of_mem_set mem).imp_right ?_
        rintro rfl
        exact Nat.le_add_right _ _
    · exact ⟨_, rfl, rfl, fun _ => .inl⟩

/-- The evaluations of a list are cancelled and the rest of the walk is as it was. -/
structure Cancelled (c : Call) (ks : List Nat) (s s' : State) : Prop where
  length : s'.futures.length = s.futures.length
  ruleIndex : s'.ruleIndex = s.ruleIndex
  queries : s'.queries = s.queries
  sound : Sound c s → Sound c s'
  cancelled : ∀ k, k ∈ s'.cancelled ↔ k ∈ ks ∨ k ∈ s.cancelled

theorem cancel_cancelled (s : State) (k : Nat) : Cancelled c [k] s (c.cancel s k) := by
  obtain ⟨known, same⟩ | ⟨futures, eq, length, ends⟩ := cancel_cases (c := c) s k
  · rw [same]
    exact ⟨rfl, rfl, rfl, id, by simp_all⟩
  · rw [eq]
    refine ⟨length, rfl, rfl, fun sound => ?_, by simp⟩
    exact
      { sound with
        signal := fun f mem => (ends f mem).elim (sound.signal f) id
        named := length ▸ sound.named
        anonymous := length ▸ sound.anonymous
        terminal := length ▸ sound.terminal
        armed := length ▸ sound.armed }

theorem foldl_cancel (ks : List Nat) (s : State) : Cancelled c ks s (ks.foldl c.cancel s) := by
  induction ks generalizing s with
  | nil => exact ⟨rfl, rfl, rfl, id, by simp⟩
  | cons k ks ih =>
    have first := cancel_cancelled (c := c) s k
    have rest := ih (c.cancel s k)
    refine ⟨rest.length.trans first.length, rest.ruleIndex.trans first.ruleIndex,
      rest.queries.trans first.queries, rest.sound ∘ first.sound, fun j => ?_⟩
    rw [List.foldl_cons, rest.cancelled, first.cancelled, List.mem_singleton, List.mem_cons]
    tauto

/-- Every evaluation that was launched is cancelled. -/
def AllCancelled (s : State) : Prop := ∀ k < s.futures.length, k ∈ s.cancelled

theorem allCancelled_cancelDNSFutures (s : State) : AllCancelled (c.cancelDNSFutures s) := by
  have done := foldl_cancel (c := c) (List.range s.futures.length) s
  intro k inside
  rw [Call.cancelDNSFutures, done.length] at inside
  exact (done.cancelled k).mpr (.inl (List.mem_range.mpr inside))

/-- The time when the last evaluation is done. -/
def horizon (s : State) : Nat := (s.futures.map (·.doneAt)).foldr max 0

/-- What a suspension can be followed by at the same rule when all is done. -/
def rank : Option Suspension → Nat
  | none | some (.await _) => 2
  | some .drain => 1
  | some (.pending _) => 0

/-- The rules ahead; whether the speculative query can still be sent; the time until all is done;
what the loop has been suspended for. -/
def ahead (c : Call) (loop : Call.Resumed) : Nat × Nat × Nat × Nat :=
  (c.rules.length - loop.1.ruleIndex, if loop.1.terminalFuture = none then 1 else 0,
    horizon loop.1 + 1 - loop.1.clock, rank loop.2)

def Closer (c : Call) : Call.Resumed → Call.Resumed → Prop :=
  InvImage (Prod.Lex (· < ·) (Prod.Lex (· < ·) (Prod.Lex (· < ·) (· < ·)))) (ahead c)

theorem closer_wf (c : Call) : WellFounded (Closer c) := by
  have nat : WellFounded ((· < ·) : Nat → Nat → Prop) := Nat.lt_wfRel.wf
  exact InvImage.wf _ (nat.prod_lex (nat.prod_lex (nat.prod_lex nat)))

theorem le_foldr_max {n : Nat} {ns : List Nat} (mem : n ∈ ns) : n ≤ ns.foldr max 0 := by
  induction ns with
  | nil => cases mem
  | cons m ns ih =>
    rw [List.foldr_cons]
    obtain rfl | rest := List.mem_cons.mp mem
    · exact Nat.le_max_left _ _
    · exact (ih rest).trans (Nat.le_max_right _ _)

theorem Late.le_horizon (late : Late s k) : s.clock ≤ horizon s := by
  obtain ⟨f, found, after⟩ := late
  exact after.trans (le_foldr_max (List.mem_map_of_mem (List.mem_of_getElem? found)))

theorem Looked.horizon_eq (look : Looked s s') : horizon s' = horizon s := by
  rw [horizon, horizon, look.futures]

variable {w : Option Suspension}

/-- At the same rule, time that passes before the horizon comes closer. -/
theorem closer_of_later {w' : Option Suspension} (look : Looked s s') (passed : s.clock < s'.clock)
    (before : s.clock ≤ horizon s) : Closer c (s', w') (s, w) := by
  simp only [Closer, InvImage, Prod.lex_def, ahead, look.ruleIndex, look.terminalFuture,
    look.horizon_eq, true_and]
  omega

theorem closer_of_rank {w' : Option Suspension} (look : Looked s s') (lower : rank w' < rank w) :
    Closer c (s', w') (s, w) := by
  have clock := look.clock
  simp only [Closer, InvImage, Prod.lex_def, ahead, look.ruleIndex, look.terminalFuture,
    look.horizon_eq, true_and]
  omega

/-- A walk that is suspended again comes closer, unless it was suspended for armed rules both
times. -/
theorem closer_of_suspended {w' : Suspension} (look : Looked s t) (sus : Suspended c t w' s')
    (lower : w' = .drain → Looked t s' → 1 < rank w) (ranked : 0 < rank w) :
    Closer c (s', some w') (s, w) := by
  have index := sus.sound.index
  have sameIndex := look.ruleIndex
  obtain further | ⟨same, unsent, sent⟩ | again := sus.onward
  · simp only [Closer, InvImage, Prod.lex_def, ahead]
    omega
  · have unsent : s.terminalFuture = none := look.terminalFuture ▸ unsent
    simp only [Closer, InvImage, Prod.lex_def, ahead, if_neg sent, if_pos unsent]
    omega
  · have whole := look.trans again
    cases w' with
    | await k =>
      obtain ⟨late, passes⟩ := sus.late k rfl
      have passed := look.clock.trans_lt (passes again.ruleIndex)
      have before := late.le_horizon
      rw [whole.horizon_eq] at before
      exact closer_of_later whole passed (whole.clock.trans before)
    | drain => exact closer_of_rank whole (lower rfl again)
    | pending => exact closer_of_rank whole ranked

theorem select_event (now t : Nat) :
    ∃ happens u, c.select now (some t) = some (happens, u) ∧ now ≤ u := by
  unfold Call.select
  cases c.ctxDone with
  | none => exact ⟨_, _, rfl, Nat.le_max_left _ _⟩
  | some u =>
    simp only
    split
    · exact ⟨_, _, rfl, Nat.le_max_left _ _⟩
    · split <;> exact ⟨_, _, rfl, Nat.le_max_left _ _⟩

theorem nextSignal_some (waits : ∃ k, Waits s k) : ∃ t, Call.nextSignal s = some t := by
  obtain ⟨k, f, found, after⟩ := waits
  have mem : f.signalAt ∈ (s.futures.map (·.signalAt)).filter (s.woken < ·) := by
    simpa using ⟨⟨f, List.mem_of_getElem? found, rfl⟩, after⟩
  exact Option.isSome_iff_exists.mp (List.isSome_min?_of_mem mem)

/-- The query that decides has its answer, or the context is gone. -/
theorem finishPendingExchange_some (sound : Sound c s) (exchange : PendingExchange)
    (valid : ∀ k, exchange.future = some k → k < s.futures.length) :
    ∃ result s', c.finishPendingExchange s exchange = some (result, s') ∧ Sound c s' ∧
      s'.ruleIndex = s.ruleIndex := by
  have cancels := foldl_cancel (c := c)
    ((List.range s.futures.length).filter (some · ≠ exchange.future)) s
  simp only [Call.finishPendingExchange]
  generalize List.foldl c.cancel s _ = t at cancels ⊢
  have kept := cancels.sound sound
  split
  · next k future =>
    have inside : k < t.futures.length := cancels.length ▸ valid k future
    obtain ⟨happens, u, select, now⟩ := select_event (c := c) t.clock t.futures[k].doneAt
    have later : Looked t { t with clock := u + 1 } :=
      { Looked.refl t with clock := now.trans (Nat.le_succ u) }
    rw [List.getElem?_eq_getElem inside, Option.map_some, select, Option.map_some]
    cases happens with
    | false => exact ⟨_, _, rfl, kept.looked later, cancels.ruleIndex⟩
    | true =>
      have viewed := later.trans (looked_view _ k)
      exact ⟨_, _, rfl, kept.looked viewed, cancels.ruleIndex⟩
  · refine ⟨_, _, rfl, ?_, cancels.ruleIndex⟩
    have woken := kept.woken
    exact { kept with woken := by simp only; omega }

/-! ## The loop ends -/

/-- The states of the loop. -/
def Resumable (c : Call) (loop : Call.Resumed) : Prop :=
  Sound c loop.1 ∧ ∀ w, loop.2 = some w → Fits c loop.1 w

theorem resumable_some {w : Suspension} (sound : Sound c s) (fits : Fits c s w) :
    Resumable c (s, some w) := by
  refine ⟨sound, ?_⟩
  rintro _ ⟨⟩
  exact fits

theorem Fits.looked (h : Fits c s (.pending exchange)) (look : Looked s s') :
    Fits c s' (.pending exchange) :=
  ⟨List.sublist_nil.mp (h.1 ▸ look.armedRules), look.ruleIndex ▸ h.2.1, look.futures ▸ h.2.2⟩

section Turns

variable {s t : State} (sound : Sound c s) (look : Looked s t)
include sound look

/-- Where an evaluation is not done, waiting ends: the context is gone, or a signal is received. -/
theorem waitOn_advances {w : Suspension} (fits : Fits c t w) {k : Nat} (late : Late s k) :
    Advances (Resumable c) (Closer c) (s, some w) (c.waitOn t w) := by
  obtain ⟨signalled, next⟩ := nextSignal_some ⟨k, (sound.waits late).looked look⟩
  obtain ⟨happens, u, select, now⟩ := select_event (c := c) t.clock signalled
  simp only [Call.waitOn, Call.wait, next, select, Option.map_some]
  cases happens with
  | false => trivial
  | true =>
    -- receiving the signal changes no more than a look, but for `woken`
    have closer : Closer c ({ t with clock := u + 1, woken := u }, some w) (s, some w) := by
      have before := late.le_horizon
      have passed := look.clock.trans now
      have same : horizon { t with clock := u + 1, woken := u } = horizon s := look.horizon_eq
      simp only [Closer, InvImage, Prod.lex_def, ahead, same]
      simp only [look.ruleIndex, look.terminalFuture, true_and]
      omega
    refine ⟨resumable_some { sound.looked look with woken := Nat.lt_succ_self u } ?_, closer⟩
    cases w <;> exact fits

theorem walkOn_advances (lower : t.armedRules ≠ [] → 1 < rank w) (ranked : 0 < rank w) :
    Advances (Resumable c) (Closer c) (s, w) (some (c.walkOn t)) := by
  unfold Call.walkOn
  split
  · trivial
  · next walked =>
    have sus := walkDNSRules_suspended (sound.looked look) walked
    refine ⟨resumable_some sus.sound sus.fits, closer_of_suspended look sus ?_ ranked⟩
    rintro rfl again
    refine lower fun empty => sus.fits ?_
    exact List.sublist_nil.mp (empty ▸ again.armedRules)

theorem settlePending_advances (fits : Fits c t (.pending pending)) :
    Advances (Resumable c) (Closer c) (s, some (.pending pending)) (c.settlePending t pending) := by
  obtain ⟨-, inside, valid⟩ := fits
  obtain ⟨result, u, finished, kept, index⟩ :=
    finishPendingExchange_some (sound.looked look) pending valid
  simp only [Call.settlePending, finished, Option.map_some]
  split
  · next falls =>
    have below := inside (by simp_all)
    have ticked := kept.looked (looked_tick u)
    have sameIndex := look.ruleIndex
    refine ⟨⟨{ ticked with index := by simp only; omega }, by simp⟩, ?_⟩
    simp only [Closer, InvImage, Prod.lex_def, ahead]
    omega
  · trivial

theorem continueWith_advances (fits : ∀ v, w = some v → Fits c s v)
    (waits : t.armedRules ≠ [] → ∃ k, Late s k) :
    Advances (Resumable c) (Closer c) (s, w) (c.continueWith t w) := by
  match w, fits with
  | none, _ => exact walkOn_advances sound look (by simp [rank]) (by simp [rank])
  | some (.pending pending), fits =>
    exact settlePending_advances sound look ((fits _ rfl).looked look)
  | some (.await k), fits =>
    have valid : k < t.futures.length := look.futures ▸ (fits _ rfl : k < s.futures.length)
    have looked := look.trans (looked_resolved t k)
    simp only [Call.continueWith]
    split
    · exact walkOn_advances sound looked (by simp [rank]) (by simp [rank])
    · next undone =>
      have late := late_of_not_resolved valid (by simpa using undone)
      exact waitOn_advances sound looked (w := .await k) valid (late.of_looked looked)
  | some .drain, fits =>
    simp only [Call.continueWith]
    split
    · next empty =>
      exact walkOn_advances sound look (by simp [List.isEmpty_iff.mp empty]) (by simp [rank])
    · next undone =>
      have armed : t.armedRules ≠ [] := fun h => undone (List.isEmpty_iff.mpr h)
      obtain ⟨k, late⟩ := waits armed
      exact waitOn_advances sound look (w := .drain) armed late

end Turns

/-- Every turn of the loop ends it or comes closer to its end. -/
theorem turn_advances (loop : Call.Resumed) (inv : Resumable c loop) :
    Advances (Resumable c) (Closer c) loop (c.turn loop) := by
  obtain ⟨s, w⟩ := loop
  obtain ⟨sound, fits⟩ := inv
  have settled := looked_settleDNSFutures s
  obtain ⟨swept, waits⟩ := sweepArmedDNSRules_spec (sound.looked settled)
  unfold Call.turn
  dsimp only
  split
  · next exchange t sweep =>
    rw [sweep] at swept
    obtain ⟨future, -⟩ := sweepFrom_plain (congrArg Prod.fst sweep)
    obtain ⟨result, s', finished, -⟩ := finishPendingExchange_some
      (sound.looked (settled.trans swept)) exchange (by simp [future])
    rw [finished]
    trivial
  · trivial
  · next t sweep =>
    rw [sweep] at swept waits
    refine continueWith_advances sound (settled.trans swept) fits fun armed => ?_
    obtain ⟨k, late⟩ := waits rfl armed
    exact ⟨k, late.of_looked settled⟩

theorem resume_ends {s₀ : State} (sus : Suspended c s₀ suspension s) :
    ∃ n result s', ∀ fuel, n ≤ fuel →
      c.resumeExchangeWithRules fuel s suspension = some (result, c.cancelDNSFutures s') := by
  obtain ⟨n, ⟨result, s'⟩, ends⟩ :=
    run_ends (closer_wf c) turn_advances (resumable_some sus.sound sus.fits)
  refine ⟨n, result, s', fun fuel enough => ?_⟩
  rw [Call.resumeExchangeWithRules, ends fuel enough, Option.map_some]

/-- What a new query that decides delivers. -/
def answer (c : Call) (s : State) (pending : PendingExchange) : ExchangeResult where
  response := (c.query s pending.transport pending.options).1
  transport := some pending.transport
  err := (c.query s pending.transport pending.options).2

theorem answer_congr (queries : s'.queries = s.queries)
    (pending : PendingExchange) : answer c s' pending = answer c s pending := by
  simp only [answer, Call.query, queries]

theorem finishPendingExchange_new (s : State) (future : pending.future = none) :
    ∃ s', c.finishPendingExchange s pending = some (answer c s pending, s') := by
  have cancels := foldl_cancel (c := c)
    ((List.range s.futures.length).filter (some · ≠ pending.future)) s
  simp only [Call.finishPendingExchange]
  generalize List.foldl c.cancel s _ = t at cancels ⊢
  rw [future, ← answer_congr cancels.queries pending]
  exact ⟨_, rfl⟩

/-- With no rule armed the loop sends the query that decides at once, as the asynchronous exchange
does. -/
theorem resume_pending (armed : s.armedRules = []) (future : pending.future = none)
    (fallback : pending.fallback = false) :
    ∃ s', ∀ fuel, 1 ≤ fuel → c.resumeExchangeWithRules fuel s (.pending pending) =
      some (answer c s pending, c.cancelDNSFutures s') := by
  have settled := looked_settleDNSFutures s
  have unarmed : s.settleDNSFutures.armedRules = [] :=
    List.sublist_nil.mp (armed ▸ settled.armedRules)
  obtain ⟨t, swept, queries⟩ : ∃ t, c.sweepArmedDNSRules s.settleDNSFutures = (none, t) ∧
      t.queries = s.queries := by
    rw [Call.sweepArmedDNSRules, unarmed]
    exact ⟨_, rfl, settled.queries⟩
  obtain ⟨s', finished⟩ := finishPendingExchange_new (c := c) t future
  rw [answer_congr queries] at finished
  have ends : c.turn (s, some (.pending pending)) = some (.done (answer c s pending, s')) := by
    simp [Call.turn, swept, Call.continueWith, Call.settlePending, finished, fallback]
  refine ⟨s', fun fuel enough => ?_⟩
  obtain ⟨fuel, rfl⟩ := Nat.exists_eq_add_of_le' enough
  rw [Call.resumeExchangeWithRules, run_done ends, Option.map_some]

/-- The asynchronous exchange enters the loop unless the walk ended with a new query that is
final. -/
theorem exchangeWithRulesAsync_resumed (walked : c.walkDNSRules c.start = .suspend suspension s)
    (enters : ∀ pending, suspension = .pending pending →
      ¬ (pending.future = none ∧ pending.fallback = false))
    (fuel : Nat) :
    c.exchangeWithRulesAsync fuel = (c.resumeExchangeWithRules fuel s suspension).map ([·]) := by
  rw [Call.exchangeWithRulesAsync, walked]
  cases suspension with
  | await | drain => rfl
  | pending pending =>
    have goes := enters pending rfl
    simp only
    rw [if_neg (by simpa using goes)]

/-- Waiting for the answer and being called back give the same. For every list of rules, whatever
the queries give and whenever they complete, both exchanges come to an end; the callback is called
once, with the result that the other one returns; and all evaluations they launched are cancelled
when they deliver. -/
theorem exchange_agrees (c : Call) :
    ∃ n result s s', ∀ fuel, n ≤ fuel →
      c.exchangeWithRules fuel = some (result, s) ∧
      c.exchangeWithRulesAsync fuel = some [(result, s')] ∧
      AllCancelled s ∧ AllCancelled s' := by
  have all := allCancelled_cancelDNSFutures (c := c)
  cases walked : c.walkDNSRules c.start with
  | deliver result s =>
    refine ⟨0, result, c.cancelDNSFutures s, c.cancelDNSFutures s, fun fuel _ => ?_⟩
    refine ⟨?_, ?_, all s, all s⟩
    · rw [Call.exchangeWithRules, walked]
    · rw [Call.exchangeWithRulesAsync, walked]
  | suspend suspension s =>
    have sus := walkDNSRules_suspended .start walked
    have sync (fuel : Nat) :
        c.exchangeWithRules fuel = c.resumeExchangeWithRules fuel s suspension := by
      rw [Call.exchangeWithRules, walked]
    by_cases shortcut : ∃ pending, suspension = .pending pending ∧
        pending.future = none ∧ pending.fallback = false
    · obtain ⟨pending, rfl, future, fallback⟩ := shortcut
      obtain ⟨s', resumed⟩ := resume_pending (c := c) sus.fits.1 future fallback
      have queries := (foldl_cancel (c := c) (List.range s.futures.length) s).queries
      refine ⟨1, answer c s pending, c.cancelDNSFutures s', c.cancelDNSFutures s, ?_⟩
      intro fuel enough
      refine ⟨(sync fuel).trans (resumed fuel enough), ?_, all s', all s⟩
      rw [← answer_congr queries pending, Call.exchangeWithRulesAsync, walked]
      simp only [future, fallback]
      rfl
    · obtain ⟨n, result, s', resumed⟩ := resume_ends sus
      refine ⟨n, result, c.cancelDNSFutures s', c.cancelDNSFutures s', fun fuel enough => ?_⟩
      have async := exchangeWithRulesAsync_resumed walked
        (fun pending is both => shortcut ⟨pending, is, both⟩) fuel
      rw [resumed fuel enough, Option.map_some] at async
      exact ⟨(sync fuel).trans (resumed fuel enough), async, all s', all s'⟩

end QuinMo.Libcore.Dns
