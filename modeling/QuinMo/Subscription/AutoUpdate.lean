import QuinMo.Subscription.GroupEditing

/-!
# Automatic updates

`reconfigureUpdater` schedules one worker for all subscriptions from the smallest delay and the
soonest due moment, in 64-bit arithmetic. The worker looks at each subscription by itself, in
32-bit arithmetic. Times are seconds; every update succeeds at once and writes the time.
-/

namespace QuinMo.Subscription.AutoUpdate

open GroupEditing

/-- `autoUpdateDelay` in seconds. -/
def delay (s : SubscriptionBean) : Int := s.settings.autoUpdateDelay * 60

/-- The moment from which the subscription may be updated. -/
def dueAt (s : SubscriptionBean) : Int := s.info.lastUpdated + delay s

/-- The test of `doRemoteWork`, on `Int`s of 32 bits. -/
def isDue (time : Int) (s : SubscriptionBean) : Bool :=
  !decide (toInt (toInt time - s.info.lastUpdated) < toInt (delay s))

/-- Whether the worker starts an update of the subscription. -/
def starts (connected : Bool) (time : Int) (s : SubscriptionBean) : Bool :=
  s.settings.autoUpdate && (connected || !s.settings.updateWhenConnectedOnly) && isDue time s

def work (connected : Bool) (time : Int) (s : SubscriptionBean) : SubscriptionBean :=
  if starts connected time s then { s with info := { s.info with lastUpdated := toInt time } } else s

def doRemoteWork (connected : Bool) (time : Int) (groups : List SubscriptionBean) :
    List SubscriptionBean :=
  groups.map (work connected time)

structure Schedule where
  start : Int
  period : Int

/-- `reconfigureUpdater`: nothing is scheduled if no subscription updates itself. -/
def reconfigureUpdater (groups : List SubscriptionBean) (now : Int) : Option Schedule :=
  let subscriptions := groups.filter (·.settings.autoUpdate)
  match (subscriptions.map (·.settings.autoUpdateDelay)).min?,
    (subscriptions.map fun s => dueAt s - now).min? with
  | some minDelay, some minInitDelay => some ⟨now + max minInitDelay 0, max minDelay 15 * 60⟩
  | _, _ => none

/-- When the worker runs for the `k`th time. -/
def Schedule.time (plan : Schedule) (k : Nat) : Int := plan.start + k * plan.period

/-- The subscriptions before the `k`th run. -/
def before (plan : Schedule) (connected : Nat → Bool) (groups : List SubscriptionBean) :
    Nat → List SubscriptionBean
  | 0 => groups
  | k + 1 => doRemoteWork (connected k) (plan.time k) (before plan connected groups k)

/-- The last second of 32 bits, and one more. -/
def limit : Int := 2147483648

/-- The clock stays below the limit up to the run before. -/
def Schedule.Reached (plan : Schedule) (k : Nat) : Prop := ∀ j < k, plan.time j < limit

structure Stored (s : SubscriptionBean) : Prop where
  positive : 0 < s.settings.autoUpdateDelay
  delay_int : s.settings.autoUpdateDelay < limit
  low : -limit ≤ s.info.lastUpdated
  high : s.info.lastUpdated < limit

/-- No 32-bit operation of the test wraps around, and a subscription that is due may be updated:
the service is connected, or the subscription does not wait for it. -/
structure Fits (connected : Bool) (time : Int) (s : SubscriptionBean) : Prop where
  delay_fits : delay s < limit
  elapsed_fits : time - s.info.lastUpdated < limit
  allowed : dueAt s ≤ time → connected = true ∨ s.settings.updateWhenConnectedOnly = false

/-- One period after the later of the due moment and the scheduling. -/
def deadline (plan : Schedule) (now : Int) (s : SubscriptionBean) : Int :=
  max (dueAt s) now + plan.period

/-- As long as the clock stays below the limit: no update before its delay has passed, and each
subscription is updated by its deadline. -/
structure OnTime (plan : Schedule) (now : Int) (connected : Nat → Bool)
    (groups : List SubscriptionBean) : Prop where
  notBefore : ∀ k, plan.Reached (k + 1) → ∀ s ∈ before plan connected groups k,
    starts (connected k) (plan.time k) s = true → dueAt s ≤ plan.time k
  inTime : ∀ k, plan.Reached k → ∀ (i : Nat) s,
    (before plan connected groups k)[i]? = some s → s.settings.autoUpdate = true →
    deadline plan now s < limit →
    ∃ j ≥ k, plan.time j ≤ deadline plan now s ∧
      (before plan connected groups j)[i]? = some s ∧ starts (connected j) (plan.time j) s = true

/-- Every test the worker makes fits 32 bits. -/
def AllFit (plan : Schedule) (connected : Nat → Bool) (groups : List SubscriptionBean) : Prop :=
  ∀ k, plan.time k < limit → ∀ s ∈ before plan connected groups k,
    s.settings.autoUpdate = true → Fits (connected k) (plan.time k) s

section
variable {connected : Bool} {time : Int} {s : SubscriptionBean}

theorem toInt_of_fits {n : Int} (low : -limit ≤ n) (high : n < limit) : toInt n = n := by
  unfold toInt limit at *
  apply Int.bmod_eq_of_le <;> omega

theorem toInt_of_nonneg {n : Int} (low : 0 ≤ n) (high : n < limit) : toInt n = n := by
  apply toInt_of_fits _ high
  unfold limit
  omega

/-- A test that fits tells whether the delay has passed. -/
theorem starts_iff (stored : Stored s) (fits : Fits connected time s) (first : 0 ≤ time)
    (clock : time < limit) (auto : s.settings.autoUpdate = true) :
    starts connected time s = true ↔ dueAt s ≤ time := by
  obtain ⟨positive, -, low, high⟩ := stored
  have positive' : 0 < delay s := by unfold delay; omega
  have elapsed : toInt (time - s.info.lastUpdated) = time - s.info.lastUpdated := by
    apply toInt_of_fits _ fits.elapsed_fits
    unfold limit at *
    omega
  have due : isDue time s = true ↔ dueAt s ≤ time := by
    rw [isDue, toInt_of_nonneg first clock, elapsed, toInt_of_nonneg (by omega) fits.delay_fits,
      dueAt]
    simp only [Bool.not_eq_true', decide_eq_false_iff_not]
    omega
  rw [starts, auto, Bool.true_and, Bool.and_eq_true, due]
  constructor
  · exact And.right
  · intro passed
    refine ⟨?_, passed⟩
    rcases fits.allowed passed with on | free
    · rw [on, Bool.true_or]
    · rw [free, Bool.not_false, Bool.or_true]

end

/-! ## Along the run -/

section
variable {plan : Schedule} {now : Int} {connected : Nat → Bool} {groups : List SubscriptionBean}
  {s : SubscriptionBean} {k : Nat}

/-- What a schedule says about its subscriptions. -/
structure Schedule.For (plan : Schedule) (now : Int) (groups : List SubscriptionBean) : Prop where
  period_pos : 0 < plan.period
  later : now ≤ plan.start
  soon : ∀ s ∈ groups, s.settings.autoUpdate = true → plan.start ≤ max (dueAt s) now

theorem reconfigureUpdater_for (h : reconfigureUpdater groups now = some plan) :
    plan.For now groups := by
  unfold reconfigureUpdater at h
  dsimp only at h
  split at h
  · next minDelay minInitDelay _ soonest =>
    cases h
    refine ⟨?_, ?_, ?_⟩
    · dsimp only
      omega
    · dsimp only
      omega
    · intro s listed auto
      have least : minInitDelay ≤ dueAt s - now := by
        apply (List.min?_eq_some_iff.mp soonest).2
        exact List.mem_map_of_mem (List.mem_filter.mpr ⟨listed, auto⟩)
      dsimp only
      omega
  · cases h

theorem time_succ (plan : Schedule) (k : Nat) : plan.time (k + 1) = plan.time k + plan.period := by
  unfold Schedule.time
  push_cast
  rw [Int.add_mul, Int.one_mul, Int.add_assoc]

theorem time_nonneg (first : 0 ≤ now) (schedule : plan.For now groups) (k : Nat) :
    0 ≤ plan.time k := by
  have := schedule.period_pos
  have := schedule.later
  induction k with
  | zero => simp only [Schedule.time]; omega
  | succ k ih => rw [time_succ]; omega

/-- A subscription between two runs: the next one comes by its deadline. -/
def Kept (plan : Schedule) (now time : Int) (s : SubscriptionBean) : Prop :=
  s.settings.autoUpdate = true → Stored s ∧ time ≤ deadline plan now s

theorem work_kept {on : Bool} {time : Int} (first : 0 ≤ time) (clock : time < limit)
    (fits : s.settings.autoUpdate = true → Fits on time s) (kept : Kept plan now time s) :
    Kept plan now (time + plan.period) (work on time s) := by
  unfold work
  split
  · intro auto
    obtain ⟨stored, -⟩ := kept auto
    have positive := stored.positive
    have clock' := toInt_of_nonneg first clock
    refine ⟨⟨positive, stored.delay_int, ?_, ?_⟩, ?_⟩
    · dsimp only
      unfold limit
      omega
    · dsimp only
      omega
    · simp only [deadline, dueAt, delay, clock']
      omega
  · next idle =>
    intro auto
    obtain ⟨stored, -⟩ := kept auto
    have early := mt (starts_iff stored (fits auto) first clock auto).mpr idle
    refine ⟨stored, ?_⟩
    unfold deadline
    omega

variable (first : 0 ≤ now) (schedule : plan.For now groups)
  (stored : ∀ s ∈ groups, s.settings.autoUpdate = true → Stored s)
  (fits : AllFit plan connected groups)
include first schedule stored fits

theorem before_kept (reached : plan.Reached k) :
    ∀ s ∈ before plan connected groups k, Kept plan now (plan.time k) s := by
  induction k with
  | zero =>
    intro s listed auto
    have soon := schedule.soon s listed auto
    have := schedule.period_pos
    refine ⟨stored s listed auto, ?_⟩
    simp only [Schedule.time, deadline]
    omega
  | succ k ih =>
    intro s' listed
    obtain ⟨s, there, rfl⟩ := List.mem_map.mp listed
    have clock := reached k (by omega)
    rw [time_succ]
    apply work_kept (time_nonneg first schedule k) clock
    · exact fits k clock s there
    · exact ih (fun j earlier => reached j (by omega)) s there

theorem starts_iff_due (reached : plan.Reached k) (listed : s ∈ before plan connected groups k)
    (auto : s.settings.autoUpdate = true) (clock : plan.time k < limit) :
    starts (connected k) (plan.time k) s = true ↔ dueAt s ≤ plan.time k := by
  obtain ⟨stored, -⟩ := before_kept first schedule stored fits reached s listed auto
  exact starts_iff stored (fits k clock s listed auto) (time_nonneg first schedule k) clock auto

/-- By induction on the seconds that are left until the subscription is due. -/
theorem updated_by_deadline {i : Nat} (n : Nat) (reached : plan.Reached k)
    (there : (before plan connected groups k)[i]? = some s) (auto : s.settings.autoUpdate = true)
    (within : deadline plan now s < limit) (soon : dueAt s ≤ plan.time k + n) :
    ∃ j ≥ k, plan.time j ≤ deadline plan now s ∧
      (before plan connected groups j)[i]? = some s ∧
      starts (connected j) (plan.time j) s = true := by
  have period_pos := schedule.period_pos
  induction n generalizing k with
  | zero =>
    have listed := List.mem_of_getElem? there
    obtain ⟨-, next⟩ := before_kept first schedule stored fits reached s listed auto
    have due := starts_iff_due first schedule stored fits reached listed auto (by omega)
    exact ⟨k, by omega, next, there, due.mpr (by omega)⟩
  | succ n ih =>
    by_cases late : dueAt s ≤ plan.time k + n
    · exact ih reached there late
    · have early : plan.time k < limit := by
        unfold deadline at within
        omega
      have idle := mt (starts_iff_due first schedule stored fits reached
        (List.mem_of_getElem? there) auto early).mp (by omega)
      have stays : (before plan connected groups (k + 1))[i]? = some s := by
        rw [before, doRemoteWork, List.getElem?_map, there, Option.map_some, work, if_neg idle]
      have next : plan.Reached (k + 1) := by
        intro j earlier
        rcases Nat.lt_succ_iff_lt_or_eq.mp earlier with before | rfl
        · exact reached j before
        · exact early
      obtain ⟨j, after, found⟩ := ih next stays (by rw [time_succ]; omega)
      exact ⟨j, by omega, found⟩

end

/-- A subscription with the default settings but its delay, which updates itself. -/
def subscription (autoUpdateDelay lastUpdated : Int) : SubscriptionBean :=
  { SubscriptionBean.defaults with
    settings := { SubscriptionBean.defaults.settings with autoUpdate := true, autoUpdateDelay }
    info := { Info.cleared with lastUpdated } }

/-- The subscription waits for the service. -/
def whenConnected (s : SubscriptionBean) : SubscriptionBean :=
  { s with settings := { s.settings with updateWhenConnectedOnly := true } }

end QuinMo.Subscription.AutoUpdate
