import QuinMo.Lib.LinkedMap
import QuinMo.Lib.Run

/-!
# Listeners for the default network

The actor takes messages of clients and of the system's callback one by one. A message that the
callback sent may come after it was unregistered; so each message is taken with the registration
in which it was sent, of which the actor knows nothing.
-/

namespace QuinMo.Bg.NetworkListener

set_option linter.unusedSectionVars false

open LinkedMap

variable {K H N : Type} [DecidableEq K] [DecidableEq N]

/-- What a listener is told. -/
structure Notification (K H N : Type) where
  key : K
  listener : H
  network : Option N

structure NetworkActor (K H N : Type) where
  listeners : List (K × H)
  distinct : (listeners.map (·.1)).Nodup
  network : Option N

namespace NetworkActor

def initial : NetworkActor K H N := ⟨[], List.nodup_nil, none⟩

def notifyAll (a : NetworkActor K H N) (network : Option N) : List (Notification K H N) :=
  a.listeners.map fun (key, listener) => ⟨key, listener, network⟩

/-- `listeners[key] = listener`. -/
def add (a : NetworkActor K H N) (key : K) (listener : H) : NetworkActor K H N where
  listeners := put a.listeners key listener
  distinct := put_keys a.distinct key listener
  network := a.network

def remove (a : NetworkActor K H N) (key : K) : NetworkActor K H N where
  listeners := a.listeners.filter (·.1 ≠ key)
  distinct := a.distinct.sublist (List.filter_sublist.map _)
  network := a.network

def start (a : NetworkActor K H N) (key : K) (listener : H) :
    NetworkActor K H N × List (Notification K H N) :=
  (a.add key listener,
    match a.network with
    | some network => [⟨key, listener, some network⟩]
    | none => [])

/-- The last listener takes the network with it. -/
def stop (a : NetworkActor K H N) (key : K) : NetworkActor K H N :=
  if containsKey a.listeners key && (a.remove key).listeners.isEmpty then
    { a.remove key with network := none }
  else a.remove key

def put (a : NetworkActor K H N) (network : N) : NetworkActor K H N × List (Notification K H N) :=
  ({ a with network := some network }, a.notifyAll (some network))

def update (a : NetworkActor K H N) (network : N) : List (Notification K H N) :=
  if a.network = some network then a.notifyAll a.network else []

def lost (a : NetworkActor K H N) (network : N) : NetworkActor K H N × List (Notification K H N) :=
  if a.network = some network then ({ a with network := none }, a.notifyAll none) else (a, [])

end NetworkActor

/-- Messages of clients, and of the callback with the registration that sent them. -/
inductive Message (K H N : Type) where
  | start (key : K) (listener : H)
  | stop (key : K)
  | put (registration : Nat) (network : N)
  | update (registration : Nat) (network : N)
  | lost (registration : Nat) (network : N)

structure World (K H N : Type) where
  actor : NetworkActor K H N
  /-- How often the callback was registered; registrations are numbered from 1. -/
  registrations : Nat
  /-- The registration of the last message of the callback. -/
  lastSender : Nat
  /-- The network that the current registration announced last and that it did not lose. -/
  announced : Option N

def World.initial : World K H N := ⟨.initial, 0, 0, none⟩

/-- The callback is registered while there are listeners. -/
def World.registered (w : World K H N) : Bool := !w.actor.listeners.isEmpty

/-- The callback sends one message after the other, each while it is registered. -/
def World.CanSend (w : World K H N) (registration : Nat) : Prop :=
  1 ≤ registration ∧ w.lastSender ≤ registration ∧ registration ≤ w.registrations

instance (w : World K H N) (registration : Nat) : Decidable (w.CanSend registration) :=
  inferInstanceAs (Decidable (_ ∧ _ ∧ _))

/-- Whether a message was sent by the registration that is current. -/
def World.Current (w : World K H N) (registration : Nat) : Prop :=
  w.registered = true ∧ registration = w.registrations

instance (w : World K H N) (registration : Nat) : Decidable (w.Current registration) :=
  inferInstanceAs (Decidable (_ ∧ _))

def start (w : World K H N) (key : K) (listener : H) : World K H N :=
  if w.registered then { w with actor := (w.actor.start key listener).1 }
  else { w with
    actor := (w.actor.start key listener).1
    registrations := w.registrations + 1
    announced := none }

def stop (w : World K H N) (key : K) : World K H N :=
  { w with
    actor := w.actor.stop key
    announced := if (w.actor.stop key).listeners.isEmpty then none else w.announced }

/-- The message is processed; none if the callback cannot have sent it. -/
def step (w : World K H N) : Message K H N → Option (World K H N)
  | .start key listener => some (start w key listener)
  | .stop key => some (stop w key)
  | .put registration network =>
    if w.CanSend registration then some { w with
      actor := (w.actor.put network).1
      lastSender := registration
      announced := if w.Current registration then some network else w.announced }
    else none
  | .update registration _ =>
    if w.CanSend registration then some { w with lastSender := registration } else none
  | .lost registration network =>
    if w.CanSend registration then some { w with
      actor := (w.actor.lost network).1
      lastSender := registration
      announced := if w.Current registration ∧ w.announced = some network then none
        else w.announced }
    else none

def notifications (w : World K H N) : Message K H N → List (Notification K H N)
  | .start key listener => (w.actor.start key listener).2
  | .stop _ => []
  | .put _ network => (w.actor.put network).2
  | .update _ network => w.actor.update network
  | .lost _ network => (w.actor.lost network).2

/-- Every listener is told this once. -/
def ToldOnce (w : World K H N) (told : List (Notification K H N)) (network : Option N) : Prop :=
  ∀ key listener, (key, listener) ∈ w.actor.listeners →
    told.filter (·.key = key) = [⟨key, listener, network⟩]

/-- Every listener is told once of a new network and of the loss of the network. -/
def TellsAll (w : World K H N) (message : Message K H N) : Prop :=
  match message with
  | .put _ network => ToldOnce w (notifications w message) (some network)
  | .lost _ network =>
    w.actor.network = some network → ToldOnce w (notifications w message) none
  | _ => True

/-- A network that is handed to a listener is the announced one, when the message is processed. -/
def HandsAnnounced (w : World K H N) (message : Message K H N) : Prop :=
  ∀ w', step w message = some w' → ∀ told ∈ notifications w message, ∀ network,
    told.network = some network → w'.announced = some network

def Right (w : World K H N) (message : Message K H N) : Prop :=
  HandsAnnounced w message ∧ TellsAll w message

/-- What a message must find: no first listener comes while a network is remembered, and no
`Put` of an ended registration comes while there are listeners. -/
def InTime (w : World K H N) : Message K H N → Prop
  | .start _ _ => w.registered = false → w.actor.network = none
  | .put registration _ => w.registered = true → registration = w.registrations
  | _ => True

theorem NetworkActor.notifyAll_once (a : NetworkActor K H N) (network : Option N) {key : K}
    {listener : H} (listed : (key, listener) ∈ a.listeners) :
    (a.notifyAll network).filter (·.key = key) = [⟨key, listener, network⟩] := by
  obtain ⟨listeners, distinct, _⟩ := a
  unfold notifyAll
  dsimp only at listed ⊢
  induction listeners with
  | nil => cases listed
  | cons e listeners ih =>
    obtain ⟨fresh, apart⟩ := List.nodup_cons.mp distinct
    rw [List.map_cons]
    rcases List.mem_cons.mp listed with rfl | listed
    · have others : (listeners.map fun e => (⟨e.1, e.2, network⟩ : Notification K H N)).filter
          (·.key = key) = [] := by
        apply List.filter_eq_nil_iff.mpr
        intro told inside
        obtain ⟨e, he, rfl⟩ := List.mem_map.mp inside
        have other : e.1 ≠ key := by
          rintro rfl
          exact fresh (List.mem_map.mpr ⟨e, he, rfl⟩)
        simp [other]
      rw [List.filter_cons_of_pos (by simp), others]
    · have other : e.1 ≠ key := by
        rintro rfl
        exact fresh (List.mem_map.mpr ⟨_, listed, rfl⟩)
      rw [List.filter_cons_of_neg (by simp [other])]
      exact ih apart listed

theorem tellsAll (w : World K H N) (message : Message K H N) : TellsAll w message := by
  cases message with
  | put registration network =>
    intro key listener listed
    exact w.actor.notifyAll_once (some network) listed
  | lost registration network =>
    intro known key listener listed
    simp only [notifications, NetworkActor.lost, known, if_true]
    exact w.actor.notifyAll_once none listed
  | start | stop | update => trivial

/-! ## What holds as long as messages come in time -/

structure Sound (w : World K H N) : Prop where
  senders : w.lastSender ≤ w.registrations
  off : w.registered = false → w.announced = none
  /-- While there are listeners, the network is the announced one, and there is none as long as
  the current registration has sent nothing. -/
  on : w.registered = true → w.actor.network = w.announced ∧
    (w.lastSender < w.registrations → w.announced = none)

variable {w : World K H N} {registration : Nat} {w' : World K H N} {network : N}

theorem registered_of_mem {e : K × H} (listed : e ∈ w.actor.listeners) : w.registered = true := by
  cases listeners : w.actor.listeners with
  | nil =>
    rw [listeners] at listed
    cases listed
  | cons => simp [World.registered, listeners]

theorem canSend_of_put
    (next : step w (.put registration network) = some w') : w.CanSend registration ∧
      w' = { w with
        actor := (w.actor.put network).1
        lastSender := registration
        announced := if w.Current registration then some network else w.announced } := by
  simp only [step, Option.ite_none_right_eq_some] at next
  exact ⟨next.1, (Option.some.inj next.2).symm⟩

theorem canSend_of_update (next : step w (.update registration network) = some w') :
    w.CanSend registration ∧ w' = { w with lastSender := registration } := by
  simp only [step, Option.ite_none_right_eq_some] at next
  exact ⟨next.1, (Option.some.inj next.2).symm⟩

theorem canSend_of_lost
    (next : step w (.lost registration network) = some w') : w.CanSend registration ∧
      w' = { w with
        actor := (w.actor.lost network).1
        lastSender := registration
        announced := if w.Current registration ∧ w.announced = some network then none
          else w.announced } := by
  simp only [step, Option.ite_none_right_eq_some] at next
  exact ⟨next.1, (Option.some.inj next.2).symm⟩

theorem sound_initial : Sound (World.initial : World K H N) :=
  ⟨Nat.le_refl 0, fun _ => rfl, nofun⟩

theorem put_ne_nil (m : List (K × H)) (key : K) (listener : H) : put m key listener ≠ [] := by
  unfold LinkedMap.put
  split
  · rename_i known
    cases m with
    | nil => exact absurd (LinkedMap.containsKey_iff.mp known) List.not_mem_nil
    | cons e m => exact List.cons_ne_nil _ _
  · exact fun none => absurd (List.append_eq_nil_iff.mp none).2 (List.cons_ne_nil _ _)

theorem start_registered (w : World K H N) (key : K) (listener : H) :
    (start w key listener).registered = true := by
  have some_listener : (put w.actor.listeners key listener).isEmpty = false := by
    rw [List.isEmpty_eq_false_iff]
    exact put_ne_nil _ _ _
  unfold start
  split <;> simp [World.registered, NetworkActor.start, NetworkActor.add, some_listener]

theorem start_sound (h : Sound w) (key : K) (listener : H)
    (inTime : w.registered = false → w.actor.network = none) : Sound (start w key listener) := by
  have on := start_registered w key listener
  refine ⟨?_, fun off => absurd (on.symm.trans off) nofun, fun _ => ?_⟩
  · unfold start
    split
    · exact h.senders
    · exact Nat.le_succ_of_le h.senders
  · unfold start
    split
    · rename_i registered
      exact h.on registered
    · rename_i unregistered
      exact ⟨inTime (by simpa using unregistered), fun _ => rfl⟩

theorem stop_listeners (a : NetworkActor K H N) (key : K) :
    (a.stop key).listeners = a.listeners.filter (·.1 ≠ key) := by
  unfold NetworkActor.stop
  split <;> rfl

theorem stop_sound (h : Sound w) (key : K) : Sound (stop w key) := by
  refine ⟨h.senders, ?_, ?_⟩
  · intro off
    have empty : (w.actor.stop key).listeners.isEmpty = true := by
      simpa [World.registered, stop] using off
    simp [stop, empty]
  · intro on
    have some_left : (w.actor.stop key).listeners.isEmpty = false := by
      simpa [World.registered, stop] using on
    have registered : w.registered = true := by
      rw [stop_listeners] at some_left
      cases none : w.actor.listeners with
      | nil => simp [none] at some_left
      | cons e rest => simp [World.registered, none]
    have network : (w.actor.stop key).network = w.actor.network := by
      have left : (w.actor.remove key).listeners.isEmpty = false := by
        rw [stop_listeners] at some_left
        exact some_left
      unfold NetworkActor.stop
      rw [left, Bool.and_false, if_neg Bool.false_ne_true]
      rfl
    have kept := h.on registered
    simp only [stop, some_left, network]
    exact kept

theorem put_sound (h : Sound w) (next : step w (.put registration network) = some w')
    (inTime : w.registered = true → registration = w.registrations) : Sound w' := by
  obtain ⟨canSend, rfl⟩ := canSend_of_put next
  refine ⟨canSend.2.2, ?_, ?_⟩
  · intro off
    have off : w.registered = false := off
    have late : ¬ w.Current registration := fun current => absurd (current.1.symm.trans off) nofun
    dsimp only
    rw [if_neg late]
    exact h.off off
  · intro on
    have on : w.registered = true := on
    have same := inTime on
    refine ⟨(if_pos ⟨on, same⟩).symm, ?_⟩
    intro early
    exact absurd same (Nat.ne_of_lt early)

theorem update_sound (h : Sound w) (next : step w (.update registration network) = some w') :
    Sound w' := by
  obtain ⟨canSend, rfl⟩ := canSend_of_update next
  refine ⟨canSend.2.2, h.off, ?_⟩
  intro on
  obtain ⟨same, silent⟩ := h.on on
  exact ⟨same, fun early => silent (Nat.lt_of_le_of_lt canSend.2.1 early)⟩

theorem lost_sound (h : Sound w) (next : step w (.lost registration network) = some w') :
    Sound w' := by
  obtain ⟨canSend, rfl⟩ := canSend_of_lost next
  have listeners : (w.actor.lost network).1.listeners = w.actor.listeners := by
    unfold NetworkActor.lost
    split <;> rfl
  refine ⟨canSend.2.2, ?_, ?_⟩
  · intro off
    have off : w.registered = false := by simpa [World.registered, listeners] using off
    have late : ¬ w.Current registration := fun current => absurd (current.1.symm.trans off) nofun
    dsimp only
    rw [if_neg fun both => late both.1]
    exact h.off off
  · intro on
    have on : w.registered = true := by simpa [World.registered, listeners] using on
    obtain ⟨same, silent⟩ := h.on on
    by_cases known : w.announced = some network
    · -- only the current registration can lose a network that it has announced
      have spoke : ¬ w.lastSender < w.registrations := by
        intro early
        rw [silent early] at known
        cases known
      have current : w.Current registration := by
        refine ⟨on, ?_⟩
        have := canSend.2.1
        have := canSend.2.2
        omega
      dsimp only
      rw [if_pos ⟨current, known⟩]
      refine ⟨?_, fun _ => rfl⟩
      simp [NetworkActor.lost, same, known]
    · dsimp only
      rw [if_neg fun both => known both.2]
      have missed : w.actor.network ≠ some network := fun here => known (same.symm.trans here)
      refine ⟨?_, fun early => silent (Nat.lt_of_le_of_lt canSend.2.1 early)⟩
      rw [NetworkActor.lost, if_neg missed]
      exact same

theorem step_sound {message : Message K H N} (h : Sound w)
    (next : step w message = some w') (inTime : InTime w message) : Sound w' := by
  cases message with
  | start key listener =>
    cases next
    exact start_sound h key listener inTime
  | stop key =>
    cases next
    exact stop_sound h key
  | put registration network => exact put_sound h next inTime
  | update registration network => exact update_sound h next
  | lost registration network => exact lost_sound h next

theorem start_hands_iff (h : Sound w) (key : K) (listener : H) :
    HandsAnnounced w (.start key listener) ↔ (w.registered = false → w.actor.network = none) := by
  constructor
  · intro hands off
    cases known : w.actor.network with
    | none => rfl
    | some network =>
      have told : (⟨key, listener, some network⟩ : Notification K H N) ∈
          notifications w (.start key listener) := by
        simp [notifications, NetworkActor.start, known]
      have announced := hands _ rfl _ told network rfl
      rw [start, if_neg (by simp [off])] at announced
      cases announced
  · rintro inTime w' ⟨rfl⟩ told handed network same
    have known : w.actor.network = some network := by
      simp only [notifications, NetworkActor.start] at handed
      split at handed
      · rename_i other found
        rw [List.mem_singleton.mp handed] at same
        exact found.trans same
      · cases handed
    cases on : w.registered with
    | false =>
      rw [inTime on] at known
      cases known
    | true =>
      rw [start, if_pos on]
      exact (h.on on).1.symm.trans known

theorem put_hands_iff (h : Sound w) (next : step w (.put registration network) = some w') :
    HandsAnnounced w (.put registration network) ↔
      (w.registered = true → registration = w.registrations) := by
  obtain ⟨canSend, result⟩ := canSend_of_put next
  have announced : w'.announced = if w.Current registration then some network else w.announced :=
    congrArg World.announced result
  constructor
  · intro hands on
    cases some_listener : w.actor.listeners with
    | nil => simp [World.registered, some_listener] at on
    | cons e rest =>
      have told : (⟨e.1, e.2, some network⟩ : Notification K H N) ∈
          notifications w (.put registration network) := by
        simp [notifications, NetworkActor.put, NetworkActor.notifyAll, some_listener]
      have right := hands w' next _ told network rfl
      by_contra ended
      -- the current registration has sent nothing yet
      have early : w.lastSender < w.registrations := by
        have := canSend.2.1
        have := canSend.2.2
        omega
      rw [announced, if_neg fun current => ended current.2, (h.on on).2 early] at right
      cases right
  · intro inTime w'' next' told handed other same
    rw [next] at next'
    cases next'
    obtain ⟨e, listed, rfl⟩ := List.mem_map.mp handed
    have on := registered_of_mem listed
    rw [announced, if_pos ⟨on, inTime on⟩]
    exact same

theorem update_hands (h : Sound w) (registration : Nat) (network : N) :
    HandsAnnounced w (.update registration network) := by
  intro w' next told handed other same
  obtain ⟨_, rfl⟩ := canSend_of_update next
  simp only [notifications, NetworkActor.update] at handed
  split at handed
  · obtain ⟨e, listed, rfl⟩ := List.mem_map.mp handed
    exact (h.on (registered_of_mem listed)).1.symm.trans same
  · cases handed

theorem lost_hands (w : World K H N) (registration : Nat) (network : N) :
    HandsAnnounced w (.lost registration network) := by
  intro w' _ told handed other same
  simp only [notifications, NetworkActor.lost] at handed
  split at handed
  · obtain ⟨e, _, rfl⟩ := List.mem_map.mp handed
    cases same
  · cases handed

theorem right_iff {message : Message K H N} (h : Sound w)
    (next : step w message = some w') : Right w message ↔ InTime w message := by
  rw [Right, and_iff_left (tellsAll w message)]
  cases message with
  | start key listener => exact start_hands_iff h key listener
  | stop key => exact iff_of_true (fun _ _ _ told => nomatch told) trivial
  | put registration network => exact put_hands_iff h next
  | update registration network => exact iff_of_true (update_hands h registration network) trivial
  | lost registration network => exact iff_of_true (lost_hands w registration network) trivial

/-- Listeners are told right all along a sequence of messages exactly if every message comes in
time. -/
theorem told_right_iff (messages : List (Message K H N)) :
    Run.Along step Right World.initial messages ↔ Run.Along step InTime World.initial messages :=
  Run.along_congr right_iff step_sound sound_initial messages

/-! A `Put` of a registration that has ended comes late, and the next listener is handed its
network. -/

theorem late_put_handed : ¬ Run.Along step Right (World.initial : World Nat Unit Nat)
    [.start 1 (), .stop 1, .put 1 7, .start 1 ()] := by
  intro right
  obtain ⟨_, _, _, ⟨hands, _⟩, _⟩ := right
  have := hands _ rfl ⟨1, (), some 7⟩ (List.mem_singleton.mpr rfl) 7 rfl
  cases this

end QuinMo.Bg.NetworkListener
