import Mathlib.Algebra.Order.BigOperators.Group.Finset
import Mathlib.Data.Fintype.Fin

/-!
# Racing requests

`doH3Direct` sends one request several ways at once and takes the first good response, handed over
on an unbuffered channel that the waiting side may have left. The steps are the accesses to what
both sides share. The body of the request is buffered before, which does not fail: it is over
bytes in memory.
-/

namespace QuinMo.Libcore

/-- How a request ends. An error may come with a response. -/
inductive RequestOutcome where
  | error (response : Bool)
  | non200
  | ok
  | panic
  deriving DecidableEq, Repr

def RequestOutcome.Failing : RequestOutcome → Prop
  | .ok => False
  | _ => True

/-- The body of the response a goroutine has got. -/
inductive Body where
  | none
  | opened
  | closed
  deriving DecidableEq, Repr

/-- Where a goroutine is. From `deferred` on it is in its deferred function. -/
inductive Place where
  /-- in the request -/
  | running
  /-- reads and closes the body of a response that is not 200 -/
  | reading
  /-- is about to join its error; the body is closed afterwards if it is kept -/
  | recording (keeps : Bool)
  /-- is about to count its success -/
  | counting
  /-- is about to send its response or to see that the wait is over -/
  | sending
  /-- is about to close the body -/
  | closing
  | deferred
  /-- has seen no success -/
  | failing
  /-- has counted the last failure -/
  | cancelling
  /-- has returned, with its failure counted or not -/
  | finished (counted : Bool)
  deriving DecidableEq, Repr

@[ext] structure Goroutine where
  place : Place := .running
  outcome : Option RequestOutcome := none
  body : Body := .none
  /-- its context is cancelled -/
  cancelled : Bool := false
  deriving DecidableEq, Repr

/-- What `doH3Direct` returns. An error is the joined errors or that of the wait context. -/
inductive RaceError (n : Nat) where
  | joined (errors : List (Fin n))
  | waitErr
  deriving DecidableEq

structure RaceResult (n : Nat) where
  response : Option (Fin n)
  err : Option (RaceError n)
  deriving DecidableEq

/-- Where the waiting side is. -/
inductive Waiter (n : Nat) where
  | waiting
  /-- has seen that the wait is over, and looks for a response once more -/
  | polling
  /-- cancels the contexts of the losers from this one on -/
  | succeeding (winner : Fin n) (next : Nat)
  /-- cancels all contexts from this one on -/
  | givingUp (next : Nat)
  /-- has the results, and cancels the wait context -/
  | leaving (r : RaceResult n)
  | returned (r : RaceResult n)
  /-- the caller has closed the body of the response -/
  | released (winner : Fin n)
  deriving DecidableEq

structure Race (n : Nat) where
  goroutines : Fin n → Goroutine := fun _ => {}
  successCount : Nat := 0
  failedCount : Nat := 0
  finalErr : List (Fin n) := []
  deadline : Bool := false
  /-- `waitCancel` was called -/
  waitCancelled : Bool := false
  waiter : Waiter n := .waiting

namespace Race

variable {n : Nat}

/-- `waitCtx.Done()` is closed. -/
def done (s : Race n) : Bool := s.deadline || s.waitCancelled

/-- The next state of one goroutine. -/
def set (s : Race n) (i : Fin n) (g : Goroutine) : Race n :=
  { s with goroutines := Function.update s.goroutines i g }

def move (s : Race n) (i : Fin n) (p : Place) : Race n :=
  s.set i { s.goroutines i with place := p }

/-- Its context is cancelled by the waiting side. -/
def cancel (s : Race n) (i : Fin n) : Race n :=
  s.set i { s.goroutines i with cancelled := true }

/-- The joined errors, or the error of the wait context if there are none. -/
def errorOfWait (s : Race n) : Option (RaceError n) :=
  if s.finalErr = [] then if s.done then some .waitErr else none
  else some (.joined s.finalErr)

/-- The end of a request: where the goroutine goes on, and whether it has a body. -/
def afterRequest : RequestOutcome → Place × Body
  | .error true => (.recording true, .opened)
  | .error false => (.recording false, .none)
  | .non200 => (.reading, .opened)
  | .ok => (.counting, .opened)
  | .panic => (.deferred, .none)

/-- One step of a goroutine, of the waiting side or of the clock. -/
inductive Step : Race n → Race n → Prop
  | respond (s : Race n) (i : Fin n) (o : RequestOutcome) (at_ : (s.goroutines i).place = .running) :
      Step s (s.set i { s.goroutines i with
        place := (afterRequest o).1, outcome := some o, body := (afterRequest o).2 })
  | read (s : Race n) (i : Fin n) (at_ : (s.goroutines i).place = .reading) :
      Step s (s.set i { s.goroutines i with place := .recording false, body := .closed })
  | record (s : Race n) (i : Fin n) (keeps : Bool)
      (at_ : (s.goroutines i).place = .recording keeps) :
      Step s { s.move i (if keeps then .closing else .deferred) with finalErr := s.finalErr ++ [i] }
  | count (s : Race n) (i : Fin n) (at_ : (s.goroutines i).place = .counting) :
      Step s { s.move i (if s.successCount = 0 then .sending else .closing) with
        successCount := s.successCount + 1 }
  | send (s : Race n) (i : Fin n) (at_ : (s.goroutines i).place = .sending)
      (receives : s.waiter = .waiting ∨ s.waiter = .polling) :
      Step s { s.move i .deferred with waiter := .succeeding i 0 }
  | abandon (s : Race n) (i : Fin n) (at_ : (s.goroutines i).place = .sending)
      (ended : s.done = true) : Step s (s.move i .closing)
  | close (s : Race n) (i : Fin n) (at_ : (s.goroutines i).place = .closing) :
      Step s (s.set i { s.goroutines i with place := .deferred, body := .closed })
  | check (s : Race n) (i : Fin n) (at_ : (s.goroutines i).place = .deferred) :
      Step s (s.move i (if s.successCount = 0 then .failing else .finished false))
  | fail (s : Race n) (i : Fin n) (at_ : (s.goroutines i).place = .failing) :
      Step s { s.move i (if n ≤ s.failedCount + 1 then .cancelling else .finished true) with
        failedCount := s.failedCount + 1 }
  | wake (s : Race n) (i : Fin n) (at_ : (s.goroutines i).place = .cancelling) :
      Step s { s.move i (.finished true) with waitCancelled := true }
  | fire (s : Race n) (ahead : s.deadline = false) : Step s { s with deadline := true }
  | notice (s : Race n) (at_ : s.waiter = .waiting) (ended : s.done = true) :
      Step s { s with waiter := .polling }
  /-- A goroutine that is about to send need not have got to the channel yet. -/
  | giveUp (s : Race n) (at_ : s.waiter = .polling) : Step s { s with waiter := .givingUp 0 }
  | cancelOne (s : Race n) (i : Fin n) (at_ : s.waiter = .givingUp i) :
      Step s { s.cancel i with waiter := .givingUp (i + 1) }
  | fetch (s : Race n) (at_ : s.waiter = .givingUp n) :
      Step s { s with waiter := .leaving ⟨none, s.errorOfWait⟩ }
  | cancelLoser (s : Race n) (winner i : Fin n) (at_ : s.waiter = .succeeding winner i) :
      Step s { (if i = winner then s else s.cancel i) with waiter := .succeeding winner (i + 1) }
  | succeed (s : Race n) (winner : Fin n) (at_ : s.waiter = .succeeding winner n) :
      Step s { s with waiter := .leaving ⟨some winner, none⟩ }
  | leave (s : Race n) (r : RaceResult n) (at_ : s.waiter = .leaving r) :
      Step s { s with waiter := .returned r, waitCancelled := true }
  /-- The hook of the body cancels the context of the winner. -/
  | release (s : Race n) (r : RaceResult n) (winner : Fin n) (at_ : s.waiter = .returned r)
      (won : r.response = some winner) :
      Step s { s.set winner { s.goroutines winner with body := .closed, cancelled := true } with
        waiter := .released winner }

inductive Reachable : Race n → Prop
  | start : Reachable {}
  | step {s t : Race n} : Reachable s → Step s t → Reachable t

/-! ## What every goroutine keeps to -/

/-- The goroutine whose response was handed over. -/
def winner (s : Race n) : Option (Fin n) :=
  match s.waiter with
  | .succeeding w _ => some w
  | .leaving r => r.response
  | .returned r => r.response
  | .released w => some w
  | _ => none

def Failed (g : Goroutine) : Prop := ∃ o, g.outcome = some o ∧ o.Failing

/-- What a goroutine has at each place, with the number of successes so far and whether its
response was handed over. -/
def Local (g : Goroutine) (successes : Nat) (handed : Prop) : Prop :=
  match g.place with
  | .running => g.outcome = none ∧ g.body = .none ∧ ¬ handed
  | .reading => g.outcome = some .non200 ∧ ¬ handed
  | .recording keeps => Failed g ∧ (g.body = .opened → keeps = true) ∧ ¬ handed
  | .counting => g.outcome = some .ok ∧ ¬ handed
  | .sending => g.outcome = some .ok ∧ 1 ≤ successes ∧ ¬ handed
  | .closing => (Failed g ∨ 1 ≤ successes) ∧ ¬ handed
  | .deferred => (Failed g ∧ ¬ handed ∨ 1 ≤ successes) ∧ (g.body = .opened → handed)
  | .finished false => 1 ≤ successes ∧ (g.body = .opened → handed)
  | .failing | .cancelling | .finished true => Failed g ∧ g.body ≠ .opened ∧ ¬ handed

variable {s : Race n} {i : Fin n} {g : Goroutine} {t : Race n} {a : Nat} {p : Prop}

theorem Local.mono {b : Nat} {q : Prop} (h : Local g a p) (le : a ≤ b)
    (same : p ↔ q) : Local g b q := by
  rw [propext same] at h
  obtain ⟨place, outcome, body, cancelled⟩ := g
  cases place with
  | running | reading | recording | counting | failing | cancelling => exact h
  | sending => exact ⟨h.1, Nat.le_trans h.2.1 le, h.2.2⟩
  | closing | deferred => exact ⟨h.1.imp_right (Nat.le_trans · le), h.2⟩
  | finished counted =>
    cases counted with
    | false => exact ⟨Nat.le_trans h.1 le, h.2⟩
    | true => exact h

/-- The context is not looked at by its own goroutine. -/
theorem Local.cancel (h : Local g a p) (c : Bool) : Local { g with cancelled := c } a p := h

/-- The failure of the goroutine is counted. -/
def Counted : Place → Bool
  | .cancelling | .finished true => true
  | _ => false

def AllFailed (s : Race n) : Prop := ∀ i, Failed (s.goroutines i)

/-- The results are there for the caller. -/
def left (s : Race n) : Bool :=
  match s.waiter with
  | .returned _ | .released _ => true
  | _ => false

/-- What the waiting side has done at each place. -/
def Waits (s : Race n) : Prop :=
  match s.waiter with
  | .waiting => True
  | .polling => s.done = true
  | .givingUp k =>
    k ≤ n ∧ s.done = true ∧ ∀ j : Fin n, j < k → (s.goroutines j).cancelled = true
  | .succeeding w k => k ≤ n ∧ ∀ j : Fin n, j < k → j ≠ w → (s.goroutines j).cancelled = true
  | .leaving r | .returned r =>
    (∃ w, r = ⟨some w, none⟩ ∧ ∀ j, j ≠ w → (s.goroutines j).cancelled = true) ∨
      (∃ e, r = ⟨none, some e⟩) ∧ (∀ j, (s.goroutines j).cancelled = true) ∧
        (s.deadline = true ∨ AllFailed s)
  | .released w => (∀ j, (s.goroutines j).cancelled = true) ∧ (s.goroutines w).body = .closed

structure Inv (s : Race n) : Prop where
  each : ∀ i, Local (s.goroutines i) s.successCount (s.winner = some i)
  counted : s.failedCount = (Finset.univ.filter fun i => Counted (s.goroutines i).place).card
  woken : ∀ i, (s.goroutines i).place = .cancelling → AllFailed s
  ended : s.waitCancelled = true → s.left = false → AllFailed s
  waits : Waits s

theorem Inv.start : Inv ({} : Race n) where
  each i := ⟨rfl, rfl, by simp [winner]⟩
  counted := by simp [Counted]
  woken i h := by cases h
  ended h := by cases h
  waits := trivial

/-- What a goroutine has, with its place known. -/
theorem Inv.at {p : Place} (h : Inv s) (at_ : (s.goroutines i).place = p) :
    Local { s.goroutines i with place := p } s.successCount (s.winner = some i) := by
  subst at_
  exact h.each i

theorem Inv.waits_at {w : Waiter n} (h : Inv s) (at_ : s.waiter = w) :
    Waits { s with waiter := w } := by
  subst at_
  exact h.waits

theorem AllFailed.set (h : AllFailed s)
    (stays : ∀ o, (s.goroutines i).outcome = some o → g.outcome = some o) :
    AllFailed (s.set i g) := by
  intro j
  by_cases own : j = i
  · subst own
    obtain ⟨o, outcome, failing⟩ := h j
    exact ⟨o, by simp [Race.set, stays o outcome], failing⟩
  · simpa [Race.set, own] using h j

theorem Waits.mono (h : Waits s) (waiter : t.waiter = s.waiter)
    (deadline : s.deadline = true → t.deadline = true)
    (cancelled : s.waitCancelled = true → t.waitCancelled = true)
    (contexts : ∀ j, (s.goroutines j).cancelled = true → (t.goroutines j).cancelled = true)
    (failed : AllFailed s → AllFailed t)
    (body : ∀ w, s.waiter = .released w → (s.goroutines w).body = .closed →
      (t.goroutines w).body = .closed) :
    Waits t := by
  have done : s.done = true → t.done = true := by
    simp only [Race.done, Bool.or_eq_true]
    exact fun ended => ended.imp deadline cancelled
  unfold Waits at h ⊢
  rw [waiter]
  cases place : s.waiter with
  | waiting => trivial
  | polling =>
    rw [place] at h
    exact done h
  | succeeding w k =>
    rw [place] at h
    exact ⟨h.1, fun j below other => contexts j (h.2 j below other)⟩
  | givingUp k =>
    rw [place] at h
    exact ⟨h.1, done h.2.1, fun j below => contexts j (h.2.2 j below)⟩
  | leaving r | returned r =>
    rw [place] at h
    exact h.imp (fun ⟨w, won, losers⟩ => ⟨w, won, fun j other => contexts j (losers j other)⟩)
      fun ⟨err, all, why⟩ => ⟨err, fun j => contexts j (all j), why.imp deadline failed⟩
  | released w =>
    rw [place] at h
    exact ⟨fun j => contexts j (h.1 j), body w place h.2⟩

/-- Counting again after one element has changed. -/
theorem card_filter_update (p q : Fin n → Bool) (i : Fin n) (same : ∀ j, j ≠ i → q j = p j) :
    (Finset.univ.filter fun j => q j = true).card + (if p i then 1 else 0) =
      (Finset.univ.filter fun j => p j = true).card + (if q i then 1 else 0) := by
  have split (r : Fin n → Bool) : (Finset.univ.filter fun j => r j = true).card =
      ((Finset.univ.erase i).filter fun j => r j = true).card + (if r i then 1 else 0) := by
    rw [← Finset.insert_erase (Finset.mem_univ i), Finset.filter_insert]
    cases r i <;> simp
  have rest : ((Finset.univ.erase i).filter fun j => q j = true) =
      (Finset.univ.erase i).filter fun j => p j = true := by
    refine Finset.filter_congr fun j hj => ?_
    rw [same j (Finset.ne_of_mem_erase hj)]
  rw [split q, split p, rest]
  omega

/-- A step of one goroutine that keeps its context cancelled and, once there is one, its outcome. -/
theorem Inv.goroutine (h : Inv s) (goroutines : t.goroutines = (s.set i g).goroutines)
    (waiter : t.waiter = s.waiter) (deadline : t.deadline = s.deadline)
    (here : Local g t.successCount (s.winner = some i)) (more : s.successCount ≤ t.successCount)
    (stays : ∀ o, (s.goroutines i).outcome = some o → g.outcome = some o)
    (context : (s.goroutines i).cancelled = true → g.cancelled = true)
    (body : s.winner = some i → g.body = (s.goroutines i).body ∨ g.body = .closed)
    (failed : t.failedCount + (if Counted (s.goroutines i).place then 1 else 0) =
      s.failedCount + (if Counted g.place then 1 else 0))
    (woken : g.place = .cancelling → AllFailed t)
    (ended : t.waitCancelled = true → s.waitCancelled = true ∨ AllFailed t)
    (keeps : s.waitCancelled = true → t.waitCancelled = true) : Inv t := by
  have winner : t.winner = s.winner := by simp only [Race.winner, waiter]
  have own : t.goroutines i = g := by simp [goroutines, Race.set]
  have other {j : Fin n} (differ : j ≠ i) : t.goroutines j = s.goroutines j := by
    simp [goroutines, Race.set, differ]
  have still (all : AllFailed s) : AllFailed t := by
    have set := all.set stays
    intro j
    rw [goroutines]
    exact set j
  have contexts (j : Fin n) (cancelled : (s.goroutines j).cancelled = true) :
      (t.goroutines j).cancelled = true := by
    by_cases eq : j = i
    · rw [eq, own]
      exact context (eq ▸ cancelled)
    · rw [other eq, cancelled]
  refine ⟨?_, ?_, ?_, ?_, ?_⟩
  · intro j
    rw [winner]
    by_cases eq : j = i
    · rw [eq, own]
      exact here
    · rw [other eq]
      exact (h.each j).mono more Iff.rfl
  · have changed := card_filter_update (fun j => Counted (s.goroutines j).place)
      (fun j => Counted (t.goroutines j).place) i fun j differ => by rw [other differ]
    rw [own] at changed
    have before := h.counted
    omega
  · intro j place
    by_cases eq : j = i
    · rw [eq, own] at place
      exact woken place
    · rw [other eq] at place
      exact still (h.woken j place)
  · intro cancelled left
    have left' : s.left = false := by simpa only [Race.left, waiter] using left
    exact (ended cancelled).elim (fun old => still (h.ended old left')) id
  · refine h.waits.mono waiter ?_ ?_ contexts still ?_
    · rw [deadline]
      exact id
    · exact fun old => keeps old
    · intro w released closed
      by_cases eq : w = i
      · subst eq
        rw [own]
        exact (body (by rw [Race.winner, released])).elim (·.trans closed) id
      · rw [other eq, closed]

/-- A step of the waiting side that leaves the goroutines alone, their contexts apart. -/
theorem Inv.waiting (h : Inv s)
    (same : ∀ j, (t.goroutines j).place = (s.goroutines j).place ∧ (t.goroutines j).outcome =
      (s.goroutines j).outcome ∧ (t.goroutines j).body = (s.goroutines j).body)
    (counts : t.successCount = s.successCount ∧ t.failedCount = s.failedCount)
    (winner : t.winner = s.winner)
    (ended : t.waitCancelled = true → t.left = false → s.waitCancelled = true ∧ s.left = false)
    (waits : Waits t) : Inv t := by
  have failed (all : AllFailed s) : AllFailed t := by
    intro j
    obtain ⟨o, outcome, failing⟩ := all j
    exact ⟨o, by rw [(same j).2.1, outcome], failing⟩
  refine ⟨fun j => ?_, ?_, fun j place => ?_, fun cancelled here => ?_, waits⟩
  · have there := h.each j
    obtain ⟨place, outcome, body⟩ := same j
    have eq : t.goroutines j = { s.goroutines j with cancelled := (t.goroutines j).cancelled } :=
      Goroutine.ext place outcome body rfl
    rw [winner, counts.1, eq]
    exact there.cancel _
  · rw [counts.2, h.counted]
    refine congrArg Finset.card (Finset.filter_congr fun j _ => ?_)
    rw [(same j).1]
  · rw [(same j).1] at place
    exact failed (h.woken j place)
  · obtain ⟨old, before⟩ := ended cancelled here
    exact failed (h.ended old before)

/-- A step to another place of the waiting side, before it leaves. -/
theorem Inv.waiter (h : Inv s) {w : Waiter n} (winner : { s with waiter := w }.winner = s.winner)
    (here : s.left = false) (waits : Waits { s with waiter := w }) : Inv { s with waiter := w } :=
  h.waiting (fun _ => ⟨rfl, rfl, rfl⟩) ⟨rfl, rfl⟩ winner (fun old _ => ⟨old, here⟩) waits

theorem Local.release (h : Local g a p) (handed : p) (c : Bool) :
    Local { g with body := .closed, cancelled := c } a p := by
  obtain ⟨place, outcome, body, cancelled⟩ := g
  cases place with
  | running | recording | sending | failing | cancelling => exact absurd handed h.2.2
  | reading | counting | closing => exact absurd handed h.2
  | deferred => exact ⟨h.1, fun _ => handed⟩
  | finished counted =>
    cases counted with
    | false => exact ⟨h.1, fun _ => handed⟩
    | true => exact absurd handed h.2.2

theorem Inv.respond (h : Inv s) (o : RequestOutcome) (at_ : (s.goroutines i).place = .running) :
    Inv (s.set i { s.goroutines i with
      place := (afterRequest o).1, outcome := some o, body := (afterRequest o).2 }) := by
  have here := h.at at_
  obtain ⟨none, _, notHanded⟩ := here
  have uncounted : Counted (afterRequest o).1 = false := by
    cases o with
    | error response => cases response <;> rfl
    | non200 | ok | panic => rfl
  have notWoken : (afterRequest o).1 ≠ .cancelling := by
    intro eq
    rw [eq] at uncounted
    cases uncounted
  refine h.goroutine rfl rfl rfl ?_ (Nat.le_refl _) ?_ id (fun handed => absurd handed notHanded) ?_
    (fun eq => absurd eq notWoken) (fun old => .inl old) id
  · cases o with
    | error response =>
      cases response with
      | false => exact ⟨⟨_, rfl, trivial⟩, nofun, notHanded⟩
      | true => exact ⟨⟨_, rfl, trivial⟩, fun _ => rfl, notHanded⟩
    | non200 | ok => exact ⟨rfl, notHanded⟩
    | panic => exact ⟨.inl ⟨⟨_, rfl, trivial⟩, notHanded⟩, nofun⟩
  · intro o' outcome
    rw [none] at outcome
    cases outcome
  · have before : Counted (s.goroutines i).place = false := by rw [at_]; rfl
    simp [uncounted, before, Race.set]

/-- A step of a goroutine that changes its place only, and counts nothing. -/
theorem Inv.moves (h : Inv s) {p : Place}
    (goroutines : t.goroutines = (s.move i p).goroutines) (waiter : t.waiter = s.waiter)
    (deadline : t.deadline = s.deadline) (cancelled : t.waitCancelled = s.waitCancelled)
    (failed : t.failedCount = s.failedCount) (more : s.successCount ≤ t.successCount)
    (here : Local { s.goroutines i with place := p } t.successCount (s.winner = some i))
    (uncounted : Counted (s.goroutines i).place = false ∧ Counted p = false) : Inv t := by
  refine h.goroutine goroutines waiter deadline here more (fun _ => id) id (fun _ => .inl rfl) ?_
    (fun eq => ?_) (fun old => .inl (cancelled ▸ old)) (fun old => cancelled ▸ old)
  · simp [uncounted, failed]
  · change p = .cancelling at eq
    rw [eq] at uncounted
    cases uncounted.2

theorem Local.failed (h : Local g a p) (counted : Counted g.place = true) : Failed g := by
  obtain ⟨place, outcome, body, cancelled⟩ := g
  cases place with
  | cancelling => exact h.1
  | finished own =>
    cases own with
    | false => cases counted
    | true => exact h.1
  | running | reading | recording | counting | sending | closing | deferred | failing =>
    cases counted

/-- When the last failure is counted, all requests have failed. -/
theorem Inv.allFailed (h : Inv s) (before : Counted (s.goroutines i).place = false)
    (failed : Failed (s.goroutines i)) (many : n ≤ s.failedCount + 1) : AllFailed s := by
  intro j
  by_cases own : j = i
  · rw [own]
    exact failed
  · refine (h.each j).failed ?_
    by_contra uncounted
    -- neither of the two is counted, so there are at most n - 2 that are
    have few : (Finset.univ.filter fun k => Counted (s.goroutines k).place).card ≤
        (Finset.univ \ {i, j} : Finset (Fin n)).card := by
      refine Finset.card_le_card fun k hk => ?_
      have counted := (Finset.mem_filter.mp hk).2
      simp only [Finset.mem_sdiff, Finset.mem_univ, true_and, Finset.mem_insert,
        Finset.mem_singleton, not_or]
      constructor
      · rintro rfl
        rw [before] at counted
        cases counted
      · rintro rfl
        exact uncounted counted
    rw [Finset.card_sdiff_of_subset (Finset.subset_univ _), Finset.card_pair (Ne.symm own),
      Finset.card_univ, Fintype.card_fin, ← h.counted] at few
    have size : 2 ≤ n := by
      have := Finset.card_le_univ ({i, j} : Finset (Fin n))
      rwa [Finset.card_pair (Ne.symm own), Fintype.card_fin] at this
    omega

theorem cancel_same (s : Race n) (i j : Fin n) :
    ((s.cancel i).goroutines j).place = (s.goroutines j).place ∧
      ((s.cancel i).goroutines j).outcome = (s.goroutines j).outcome ∧
      ((s.cancel i).goroutines j).body = (s.goroutines j).body := by
  by_cases own : j = i
  · subst own
    simp [Race.cancel, Race.set]
  · simp [Race.cancel, Race.set, own]

theorem cancel_next {j : Fin n} (earlier : j < i → (s.goroutines j).cancelled = true)
    (below : (j : Nat) < i + 1) : ((s.cancel i).goroutines j).cancelled = true := by
  by_cases own : j = i
  · subst own
    simp [Race.cancel, Race.set]
  · have differ : (j : Nat) ≠ i := fun eq => own (Fin.ext eq)
    have less : j < i := by
      change (j : Nat) < i
      omega
    simpa [Race.cancel, Race.set, own] using earlier less

theorem Inv.step (h : Inv s) (step : Step s t) : Inv t := by
  cases step with
  | respond i o at_ => exact h.respond o at_
  | read i at_ =>
    have here := h.at at_
    refine h.goroutine rfl rfl rfl ⟨⟨_, here.1, trivial⟩, nofun, here.2⟩ (Nat.le_refl _)
      (fun _ => id) id (fun _ => .inr rfl) ?_ nofun (fun old => .inl old) id
    simp [at_, Counted, Race.set]
  | record i keeps at_ =>
    have here := h.at at_
    obtain ⟨failed, kept, notHanded⟩ := here
    cases keeps with
    | false =>
      refine h.moves rfl rfl rfl rfl rfl (Nat.le_refl _) ⟨.inl ⟨failed, notHanded⟩, ?_⟩
        ⟨by rw [at_]; rfl, rfl⟩
      exact fun opened => absurd (kept opened) Bool.false_ne_true
    | true =>
      exact h.moves rfl rfl rfl rfl rfl (Nat.le_refl _) ⟨.inl failed, notHanded⟩
        ⟨by rw [at_]; rfl, rfl⟩
  | count i at_ =>
    have here := h.at at_
    refine h.moves (p := if s.successCount = 0 then .sending else .closing) rfl rfl rfl rfl rfl
      (Nat.le_succ _) ?_ ⟨by rw [at_]; rfl, by split <;> rfl⟩
    split
    · exact ⟨here.1, Nat.le_add_left 1 _, here.2⟩
    · exact ⟨.inr (Nat.le_add_left 1 _), here.2⟩
  | send i at_ receives =>
    have here := h.at at_
    have nobody : s.winner = none := by
      rcases receives with eq | eq <;> simp only [winner, eq]
    have open_ : s.left = false := by
      rcases receives with eq | eq <;> simp only [left, eq]
    have still (all : AllFailed s) :
        AllFailed { s.move i .deferred with waiter := .succeeding i 0 } := all.set fun _ => id
    refine ⟨fun j => ?_, ?_, fun j place => ?_, fun old _ => still (h.ended old open_), ?_⟩
    · by_cases own : j = i
      · subst own
        have there : Local { s.goroutines j with place := .deferred } s.successCount
            (some j = some j) := ⟨.inr here.2.1, fun _ => rfl⟩
        simpa [Race.move, Race.set, winner] using there
      · have there := (h.each j).mono (Nat.le_refl _) (q := some i = some j)
          (by rw [nobody]; simp [Ne.symm own])
        simpa [Race.move, Race.set, own, winner] using there
    · refine h.counted.trans (congrArg Finset.card (Finset.filter_congr fun j _ => ?_))
      by_cases own : j = i
      · subst own
        simp [Race.move, Race.set, at_, Counted]
      · simp [Race.move, Race.set, own]
    · by_cases own : j = i
      · subst own
        simp [Race.move, Race.set] at place
      · exact still (h.woken j (by simpa [Race.move, Race.set, own] using place))
    · exact ⟨Nat.zero_le n, fun _ below => absurd below (Nat.not_lt_zero _)⟩
  | abandon i at_ ended =>
    have here := h.at at_
    exact h.moves rfl rfl rfl rfl rfl (Nat.le_refl _) ⟨.inr here.2.1, here.2.2⟩
      ⟨by rw [at_]; rfl, rfl⟩
  | close i at_ =>
    have here := h.at at_
    refine h.goroutine rfl rfl rfl ⟨here.1.imp_left (⟨·, here.2⟩), nofun⟩ (Nat.le_refl _)
      (fun _ => id) id (fun _ => .inr rfl) ?_ nofun (fun old => .inl old) id
    simp [at_, Counted, Race.set]
  | check i at_ =>
    have here := h.at at_
    refine h.moves (p := if s.successCount = 0 then .failing else .finished false) rfl rfl rfl rfl
      rfl (Nat.le_refl _) ?_ ⟨by rw [at_]; rfl, by split <;> rfl⟩
    split
    · rename_i zero
      obtain ⟨failed, notHanded⟩ := here.1.resolve_right (by omega)
      exact ⟨failed, fun opened => notHanded (here.2 opened), notHanded⟩
    · rename_i some
      exact ⟨by change 1 ≤ s.successCount; omega, here.2⟩
  | fail i at_ =>
    have here := h.at at_
    have counted : Counted (if n ≤ s.failedCount + 1 then Place.cancelling else .finished true) =
        true := by
      split <;> rfl
    have before : Counted (s.goroutines i).place = false := by rw [at_]; rfl
    refine h.goroutine
      (g := { s.goroutines i with
        place := if n ≤ s.failedCount + 1 then .cancelling else .finished true })
      rfl rfl rfl ?_ (Nat.le_refl _) (fun _ => id) id (fun _ => .inl rfl) ?_ ?_
        (fun old => .inl old) id
    · split
      · exact here
      · exact here
    · simp only [counted, before]
      rfl
    · intro last
      have many : n ≤ s.failedCount + 1 := by
        by_contra few
        simp only [if_neg few] at last
        cases last
      exact AllFailed.set (h.allFailed before here.1 many) fun _ => id
  | wake i at_ =>
    have here := h.at at_
    have all : AllFailed { s.move i (.finished true) with waitCancelled := true } :=
      AllFailed.set (h.woken i at_) fun _ => id
    refine h.goroutine rfl rfl rfl here (Nat.le_refl _) (fun _ => id) id (fun _ => .inl rfl) ?_ nofun
      (fun _ => .inr all) (fun _ => rfl)
    simp [at_, Counted, Race.move, Race.set]
  | fire ahead =>
    refine ⟨h.each, h.counted, h.woken, h.ended, ?_⟩
    exact h.waits.mono rfl (fun _ => rfl) id (fun _ => id) id fun _ _ => id
  | notice at_ ended =>
    exact h.waiter (by simp only [winner, at_]) (by simp only [left, at_]) ended
  | giveUp at_ =>
    have waits := h.waits_at at_
    exact h.waiter (by simp only [winner, at_]) (by simp only [left, at_])
      ⟨Nat.zero_le n, waits, fun _ below => absurd below (Nat.not_lt_zero _)⟩
  | cancelOne i at_ =>
    have waits := h.waits_at at_
    refine h.waiting (cancel_same s i) ⟨rfl, rfl⟩ (by simp only [winner, at_])
      (fun old _ => ⟨old, by simp only [left, at_]⟩) ⟨i.isLt, waits.2.1, fun j below => ?_⟩
    exact cancel_next (fun less => waits.2.2 j less) below
  | fetch at_ =>
    have waits := h.waits_at at_
    have open_ : s.left = false := by simp only [left, at_]
    have why : s.deadline = true ∨ AllFailed s := by
      have ended := waits.2.1
      simp only [done, Bool.or_eq_true] at ended
      exact ended.imp_right fun cancelled => h.ended cancelled open_
    have some_error : ∃ e, s.errorOfWait = some e := by
      unfold errorOfWait
      split
      · exact ⟨_, if_pos waits.2.1⟩
      · exact ⟨_, rfl⟩
    obtain ⟨e, err⟩ := some_error
    exact h.waiter (by simp only [winner, at_]) open_
      (.inr ⟨⟨e, by rw [err]⟩, fun j => waits.2.2 j j.isLt, why⟩)
  | cancelLoser w i at_ =>
    have waits := h.waits_at at_
    have here : s.left = false := by simp only [left, at_]
    by_cases own : i = w
    · rw [if_pos own]
      refine h.waiter (by simp only [winner, at_]) here ⟨i.isLt, fun j below other => ?_⟩
      have differ : (j : Nat) ≠ i := fun eq => other (own ▸ Fin.ext eq)
      exact waits.2 j (by omega) other
    · rw [if_neg own]
      refine h.waiting (cancel_same s i) ⟨rfl, rfl⟩ (by simp only [winner, at_])
        (fun old _ => ⟨old, here⟩) ⟨i.isLt, fun j below other => ?_⟩
      exact cancel_next (fun less => waits.2 j less other) below
  | succeed w at_ =>
    have waits := h.waits_at at_
    exact h.waiter (by simp only [winner, at_]) (by simp only [left, at_])
      (.inl ⟨w, rfl, fun j other => waits.2 j j.isLt other⟩)
  | leave r at_ =>
    have waits := h.waits_at at_
    exact h.waiting (fun _ => ⟨rfl, rfl, rfl⟩) ⟨rfl, rfl⟩ (by simp only [winner, at_])
      (fun _ left => nomatch left) waits
  | release r w at_ won =>
    have handed : s.winner = some w := by simp only [winner, at_, won]
    have waits := h.waits_at at_
    have losers : ∀ j, j ≠ w → (s.goroutines j).cancelled = true := by
      rcases waits with ⟨w', rfl, losers⟩ | ⟨⟨e, rfl⟩, _⟩
      · cases won
        exact losers
      · cases won
    have shut := h.goroutine (t := s.set w
      { s.goroutines w with body := .closed, cancelled := true })
      rfl rfl rfl ((h.each w).release handed true) (Nat.le_refl _) (fun _ => id) (fun _ => rfl)
      (fun _ => .inr rfl) rfl (fun place => AllFailed.set (h.woken w place) fun _ => id)
      (fun old => .inl old) id
    refine shut.waiting (fun _ => ⟨rfl, rfl, rfl⟩) ⟨rfl, rfl⟩ handed.symm
      (fun _ left => nomatch left)
      ⟨fun j => ?_, by simp [Race.set]⟩
    by_cases own : j = w
    · subst own
      simp [Race.set]
    · simpa [Race.set, own] using losers j own

theorem Reachable.inv (h : Reachable s) : Inv s := by
  induction h with
  | start => exact .start
  | step _ step ih => exact ih.step step

/-! ## The race ends -/

/-- How many steps a goroutine has left at most. -/
def rank : Place → Nat
  | .finished _ => 0
  | .cancelling => 1
  | .failing => 2
  | .deferred => 3
  | .closing => 4
  | .sending | .recording _ => 5
  | .counting | .reading => 6
  | .running => 7

def waiterRank : Waiter n → Nat
  | .released _ => 0
  | .returned _ => 1
  | .leaving _ => 2
  | .succeeding _ k | .givingUp k => 3 + (n - k)
  | .polling => n + 4
  | .waiting => n + 5

def ranks (gs : Fin n → Goroutine) : Nat := ∑ i, rank (gs i).place

def work (s : Race n) : Nat :=
  ranks s.goroutines + waiterRank s.waiter + if s.deadline then 0 else 1

theorem ranks_le (gs : Fin n → Goroutine)
    (le : rank g.place ≤ rank (gs i).place) : ranks (Function.update gs i g) ≤ ranks gs := by
  refine Finset.sum_le_sum fun j _ => ?_
  by_cases own : j = i
  · subst own
    simpa using le
  · simp [own]

theorem ranks_lt (gs : Fin n → Goroutine)
    (lt : rank g.place < rank (gs i).place) : ranks (Function.update gs i g) < ranks gs := by
  refine Finset.sum_lt_sum (fun j _ => ?_) ⟨i, Finset.mem_univ i, by simpa using lt⟩
  by_cases own : j = i
  · subst own
    simpa using lt.le
  · simp [own]

/-- A step of a goroutine, which may also hand its response over. -/
theorem work_goroutine {p q : Place} (goroutines : t.goroutines = Function.update s.goroutines i g)
    (at_ : (s.goroutines i).place = p) (next : g.place = q) (lt : rank q < rank p)
    (waiter : waiterRank t.waiter ≤ waiterRank s.waiter) (deadline : t.deadline = s.deadline) :
    work t < work s := by
  have less := ranks_lt s.goroutines (i := i) (g := g) (by rw [at_, next]; exact lt)
  rw [work, work, goroutines, deadline]
  omega

/-- A step of the waiting side. -/
theorem work_waiter (goroutines : ranks t.goroutines ≤ ranks s.goroutines)
    (waiter : waiterRank t.waiter < waiterRank s.waiter) (deadline : t.deadline = s.deadline) :
    work t < work s := by
  rw [work, work, deadline]
  omega

theorem Step.work_lt (step : Step s t) : work t < work s := by
  cases step with
  | respond i o at_ =>
    have less : rank (afterRequest o).1 < rank .running := by
      cases o with
      | error response => cases response <;> decide
      | non200 | ok | panic => decide
    exact work_goroutine rfl at_ rfl less (Nat.le_refl _) rfl
  | read i at_ =>
    exact work_goroutine (q := .recording false) rfl at_ rfl (by decide) (Nat.le_refl _) rfl
  | record i keeps at_ =>
    have less : rank (if keeps then .closing else .deferred) < rank (.recording keeps) := by
      cases keeps <;> decide
    exact work_goroutine rfl at_ rfl less (Nat.le_refl _) rfl
  | count i at_ =>
    have less : rank (if s.successCount = 0 then .sending else .closing) < rank .counting := by
      split <;> decide
    exact work_goroutine rfl at_ rfl less (Nat.le_refl _) rfl
  | send i at_ receives =>
    refine work_goroutine (q := .deferred) rfl at_ rfl (by decide) ?_ rfl
    rcases receives with eq | eq <;> simp only [eq, waiterRank] <;> omega
  | abandon i at_ ended =>
    exact work_goroutine (q := .closing) rfl at_ rfl (by decide) (Nat.le_refl _) rfl
  | close i at_ =>
    exact work_goroutine (q := .deferred) rfl at_ rfl (by decide) (Nat.le_refl _) rfl
  | check i at_ =>
    have less : rank (if s.successCount = 0 then .failing else .finished false) <
        rank .deferred := by
      split <;> decide
    exact work_goroutine rfl at_ rfl less (Nat.le_refl _) rfl
  | fail i at_ =>
    have less : rank (if n ≤ s.failedCount + 1 then .cancelling else .finished true) <
        rank .failing := by
      split <;> decide
    exact work_goroutine rfl at_ rfl less (Nat.le_refl _) rfl
  | wake i at_ =>
    exact work_goroutine (q := .finished true) rfl at_ rfl (by decide) (Nat.le_refl _) rfl
  | fire ahead =>
    simp [work, ahead]
  | notice at_ ended =>
    exact work_waiter (Nat.le_refl _) (by rw [at_]; exact Nat.lt_succ_self _) rfl
  | giveUp at_ =>
    exact work_waiter (Nat.le_refl _) (by simp only [at_, waiterRank]; omega) rfl
  | cancelOne i at_ =>
    refine work_waiter (ranks_le _ (Nat.le_refl _)) ?_ rfl
    simp only [at_, waiterRank]
    omega
  | fetch at_ =>
    exact work_waiter (Nat.le_refl _) (by simp only [at_, waiterRank]; omega) rfl
  | cancelLoser w i at_ =>
    have less : waiterRank (.succeeding w (i + 1)) < waiterRank s.waiter := by
      simp only [at_, waiterRank]
      omega
    by_cases own : i = w
    · rw [if_pos own]
      exact work_waiter (Nat.le_refl _) less rfl
    · rw [if_neg own]
      exact work_waiter (ranks_le _ (Nat.le_refl _)) less rfl
  | succeed w at_ =>
    exact work_waiter (Nat.le_refl _) (by simp only [at_, waiterRank]; omega) rfl
  | leave r at_ =>
    exact work_waiter (Nat.le_refl _) (by rw [at_]; exact Nat.lt_succ_self _) rfl
  | release r w at_ won =>
    exact work_waiter (ranks_le _ (Nat.le_refl _)) (by rw [at_]; exact Nat.lt_succ_self _) rfl

theorem step_wellFounded : WellFounded fun t s : Race n => Step s t :=
  Subrelation.wf (fun step => Step.work_lt step) (measure work).wf

/-- The caller has closed the body of the response. -/
def closedByCaller (s : Race n) : Bool :=
  match s.waiter with
  | .released _ => true
  | _ => false

/-- The race itself can go on, without the caller. -/
def GoesOn (s : Race n) : Prop := ∃ t, Step s t ∧ t.closedByCaller = s.closedByCaller

def Finished (s : Race n) (i : Fin n) : Prop := ∃ counted, (s.goroutines i).place = .finished counted

theorem waiter_goesOn (waits : Waits s) (here : s.left = false) : GoesOn s := by
  cases at_ : s.waiter with
  | waiting =>
    by_cases ahead : s.deadline = false
    · exact ⟨_, .fire s ahead, rfl⟩
    · have ended : s.done = true := by simp [done, ahead]
      exact ⟨_, .notice s at_ ended, by simp [closedByCaller, at_]⟩
  | polling => exact ⟨_, .giveUp s at_, by simp [closedByCaller, at_]⟩
  | succeeding w k =>
    simp only [Waits, at_] at waits
    rcases Nat.lt_or_eq_of_le waits.1 with less | rfl
    · exact ⟨_, .cancelLoser s w ⟨k, less⟩ at_, by simp [closedByCaller, at_]⟩
    · exact ⟨_, .succeed s w at_, by simp [closedByCaller, at_]⟩
  | givingUp k =>
    simp only [Waits, at_] at waits
    rcases Nat.lt_or_eq_of_le waits.1 with less | rfl
    · exact ⟨_, .cancelOne s ⟨k, less⟩ at_, by simp [closedByCaller, at_]⟩
    · exact ⟨_, .fetch s at_, by simp [closedByCaller, at_]⟩
  | leaving r => exact ⟨_, .leave s r at_, by simp [closedByCaller, at_]⟩
  | returned r => simp [left, at_] at here
  | released w => simp [left, at_] at here

/-- A goroutine that is not stuck in sending always goes on. -/
theorem goroutine_goesOn
    (ended : (s.goroutines i).place = .sending → s.done = true) : GoesOn s ∨ Finished s i := by
  cases at_ : (s.goroutines i).place with
  | running => exact .inl ⟨_, .respond s i .panic at_, rfl⟩
  | reading => exact .inl ⟨_, .read s i at_, rfl⟩
  | recording keeps => exact .inl ⟨_, .record s i keeps at_, rfl⟩
  | counting => exact .inl ⟨_, .count s i at_, rfl⟩
  | sending => exact .inl ⟨_, .abandon s i at_ (ended at_), rfl⟩
  | closing => exact .inl ⟨_, .close s i at_, rfl⟩
  | deferred => exact .inl ⟨_, .check s i at_, rfl⟩
  | failing => exact .inl ⟨_, .fail s i at_, rfl⟩
  | cancelling => exact .inl ⟨_, .wake s i at_, rfl⟩
  | finished counted => exact .inr ⟨counted, at_⟩

/-- The wait context is cancelled on return. -/
theorem Reachable.done_of_left (h : Reachable s) (there : s.left = true) : s.done = true := by
  induction h with
  | start => cases there
  | step _ step ih =>
    cases step with
    | leave r at_ => simp [done]
    | release r w at_ won => exact ih (by simp only [left, at_])
    | fire ahead => simp [done]
    | wake i at_ => simp [done]
    | abandon i at_ ended => exact ended
    | notice | giveUp | cancelOne | fetch | cancelLoser | succeed | send => cases there
    | respond | read | record | count | close | check | fail => exact ih there

theorem Reachable.goesOn (h : Reachable s) : GoesOn s ∨ s.left = true ∧ ∀ i, Finished s i := by
  cases there : s.left with
  | false => exact .inl (waiter_goesOn h.inv.waits there)
  | true =>
    by_cases going : GoesOn s
    · exact .inl going
    · have ended := h.done_of_left there
      exact .inr ⟨rfl, fun i => (goroutine_goesOn fun _ => ended).resolve_left going⟩

/-- A goroutine that has returned leaves no body open but that of the winner. -/
theorem Inv.body_of_finished (h : Inv s) (finished : Finished s i)
    (open_ : (s.goroutines i).body = .opened) : s.winner = some i := by
  obtain ⟨counted, at_⟩ := finished
  cases counted with
  | false => exact (h.at at_).2 open_
  | true => exact absurd open_ (h.at at_).2.1

/-- The results of `doH3Direct`: a response or an error, the error only for a reason, and no
context left but that of the winner. -/
def Returns (s : Race n) (r : RaceResult n) : Prop :=
  Xor (r.response.isSome = true) (r.err.isSome = true) ∧
    (r.err.isSome = true → s.deadline = true ∨ AllFailed s) ∧
    ∀ i, r.response ≠ some i → (s.goroutines i).cancelled = true

theorem Inv.returns (h : Inv s) {r : RaceResult n} (at_ : s.waiter = .returned r) :
    Returns s r := by
  have waits := h.waits_at at_
  rcases waits with ⟨w, rfl, losers⟩ | ⟨⟨e, rfl⟩, all, why⟩
  · refine ⟨.inl ⟨rfl, nofun⟩, nofun, fun i other => losers i ?_⟩
    exact fun eq => other (congrArg some eq.symm)
  · exact ⟨.inr ⟨rfl, nofun⟩, fun _ => why, fun i _ => all i⟩

/-- Every race ends, with one result, and leaves nothing behind: it goes on by itself until the
results are there and every goroutine has returned, and then the only body that can be open is
the one of the response that was returned, until the caller closes it. -/
theorem race_leaks_nothing (n : Nat) :
    WellFounded (fun t s : Race n => Step s t) ∧ ∀ s : Race n, Reachable s →
      (GoesOn s ∨ s.left = true ∧ ∀ i, Finished s i) ∧
      (∀ r, s.waiter = .returned r → Returns s r) ∧
      (∀ i, s.left = true → Finished s i → (s.goroutines i).body = .opened →
        s.waiter = .returned ⟨some i, none⟩) ∧
      ∀ w, s.waiter = .released w →
        (s.goroutines w).body = .closed ∧ ∀ i, (s.goroutines i).cancelled = true := by
  refine ⟨step_wellFounded, fun s h => ⟨h.goesOn, fun r at_ => h.inv.returns at_, ?_, ?_⟩⟩
  · intro i there finished open_
    have won := h.inv.body_of_finished finished open_
    have waits := h.inv.waits
    cases at_ : s.waiter with
    | returned r =>
      simp only [Waits, at_] at waits
      simp only [winner, at_] at won
      rcases waits with ⟨w, rfl, _⟩ | ⟨⟨e, rfl⟩, _⟩
      · cases won
        rfl
      · cases won
    | released w =>
      simp only [Waits, at_] at waits
      simp only [winner, at_, Option.some.injEq] at won
      rw [won, open_] at waits
      cases waits.2
    | waiting => simp [left, at_] at there
    | polling => simp [left, at_] at there
    | succeeding w k => simp [left, at_] at there
    | givingUp k => simp [left, at_] at there
    | leaving r => simp [left, at_] at there
  · intro w at_
    have waits := h.inv.waits
    simp only [Waits, at_] at waits
    exact ⟨waits.2, waits.1⟩

/-- Two good responses: the first is returned, and the other one is closed. -/
theorem good_response_returns : ∃ s : Race 2, Reachable s ∧ (s.goroutines 1).body = .closed ∧
    s.waiter = .returned ⟨some 0, none⟩ ∧ Returns s ⟨some 0, none⟩ := by
  have first := Reachable.step (n := 2) .start (.respond _ 0 .ok rfl)
  have both := first.step (.respond _ 1 .ok rfl)
  have counted := (both.step (.count _ 0 rfl)).step (.count _ 1 rfl)
  have closed := (counted.step (.send _ 0 rfl (.inl rfl))).step (.close _ 1 rfl)
  have won := (closed.step (.cancelLoser _ 0 0 rfl)).step (.cancelLoser _ 0 1 rfl)
  have returned := (won.step (.succeed _ 0 rfl)).step (.leave _ ⟨some 0, none⟩ rfl)
  exact ⟨_, returned, rfl, rfl, ((race_leaks_nothing 2).2 _ returned).2.1 _ rfl⟩

end Race

end QuinMo.Libcore
