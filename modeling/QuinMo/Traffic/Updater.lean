import QuinMo.Config.Options
import QuinMo.Lib.LinkedMap
import Mathlib.Algebra.Group.Prod
import Mathlib.Algebra.Order.Ring.Int
import Mathlib.Data.List.Induction

/-!
# Counting traffic

The box is asked for the bytes of each tag once in a sweep, and the other items of the tag share
them through a map. When the clock has not moved since an item was updated, the box is not asked,
and the map then has the item itself with all it has counted so far.
-/

namespace QuinMo.Traffic

open Config

/-- Bytes sent and bytes received. -/
abbrev Bytes := Int × Int

structure TrafficLooperData where
  tag : String
  tx : Int := 0
  rx : Int := 0
  txBase : Int := 0
  rxBase : Int := 0
  txRate : Int := 0
  rxRate : Int := 0
  lastUpdate : Int := 0
  ignore : Bool := false
  deriving DecidableEq, Repr

namespace TrafficLooperData

def bytes (d : TrafficLooperData) : Bytes := (d.tx, d.rx)

def base (d : TrafficLooperData) : Bytes := (d.txBase, d.rxBase)

/-- An item that takes part in the difference of its tag. -/
def plus (item diff : TrafficLooperData) : TrafficLooperData :=
  { item with
    rx := item.rx + diff.rx
    tx := item.tx + diff.tx
    rxRate := diff.rxRate
    txRate := diff.txRate }

end TrafficLooperData

/-- What the looper cannot influence: the clock at each reading, and the bytes each tag has
passed in all by then. -/
structure Environment where
  clock : Nat → Int
  passed : Nat → String → Bytes

/-- The items are objects that the tables share, so they are kept in a heap. A query gives
the bytes a tag has passed since the last query, which `drained` remembers. -/
structure World where
  heap : Nat → TrafficLooperData
  items : List Nat
  idMap : List (Int × Nat)
  tagMap : List (String × Nat)
  selectorNowId : Int
  selectorNowFakeTag : String
  readings : Nat
  drained : String → Bytes

def World.set (w : World) (i : Nat) (d : TrafficLooperData) : World :=
  { w with heap := Function.update w.heap i d }

/-- What `updateOne` returns: the item itself or a record of what the query gave. -/
inductive Diff where
  | item (i : Nat)
  | record (d : TrafficLooperData)

def Diff.read (heap : Nat → TrafficLooperData) : Diff → TrafficLooperData
  | .item i => heap i
  | .record d => d

section
variable (env : Environment)

def interval (w : World) (i : Nat) : Int := env.clock w.readings - (w.heap i).lastUpdate

/-- `queryStats` for both directions. -/
def queryStats (w : World) (tag : String) : Bytes := env.passed w.readings tag - w.drained tag

/-- The clock has not moved, so the item is left with no rate. -/
def unmoved (w : World) (i : Nat) : World :=
  { w with
    heap := Function.update w.heap i
      { w.heap i with lastUpdate := env.clock w.readings, rxRate := 0, txRate := 0 }
    readings := w.readings + 1 }

/-- The difference that a query gave. -/
def difference (w : World) (i : Nat) : TrafficLooperData where
  tag := (w.heap i).tag
  tx := (queryStats env w (w.heap i).tag).1
  rx := (queryStats env w (w.heap i).tag).2
  txRate := ((queryStats env w (w.heap i).tag).1 * 1000).tdiv (interval env w i)
  rxRate := ((queryStats env w (w.heap i).tag).2 * 1000).tdiv (interval env w i)

def queried (w : World) (i : Nat) : World :=
  { w with
    heap := Function.update w.heap i
      { w.heap i with
        lastUpdate := env.clock w.readings
        tx := (w.heap i).tx + (difference env w i).tx
        rx := (w.heap i).rx + (difference env w i).rx
        txRate := (difference env w i).txRate
        rxRate := (difference env w i).rxRate }
    readings := w.readings + 1
    drained := Function.update w.drained (w.heap i).tag (env.passed w.readings (w.heap i).tag) }

def updateOne (w : World) (i : Nat) : World × Diff :=
  if interval env w i ≤ 0 then (unmoved env w i, .item i)
  else (queried env w i, .record (difference env w i))

/-- One item of the sweep, with what the tags have given so far. -/
def visit (s : World × List (String × Diff)) (i : Nat) : World × List (String × Diff) :=
  if (s.1.heap i).ignore then s
  else match s.2.lookup (s.1.heap i).tag with
    | none => ((updateOne env s.1 i).1, ((s.1.heap i).tag, (updateOne env s.1 i).2) :: s.2)
    | some diff => (s.1.set i ((s.1.heap i).plus (diff.read s.1.heap)), s.2)

def updateAll (w : World) : World := (w.items.foldl (visit env) (w, [])).1

end

def clearOne (w : World) (id : Int) : World :=
  match w.idMap.lookup id with
  | some i => w.set i { w.heap i with rx := 0, tx := 0, rxBase := 0, txBase := 0 }
  | none => w

def clearStats (w : World) (profileIds : List Int) : World := profileIds.foldl clearOne w

def selectMain (w : World) (id : Int) : World :=
  match w.idMap.lookup id with
  | none => w
  | some new =>
    let w' := match w.idMap.lookup w.selectorNowId with
      | some old => w.set old { w.heap old with tag := w.selectorNowFakeTag, ignore := true }
      | none => w
    let w' := { w' with selectorNowFakeTag := (w'.heap new).tag, selectorNowId := id }
    w'.set new { w'.heap new with tag := TAG_PROXY, ignore := false }

inductive Event where
  | updateAll
  | clearStats (profileIds : List Int)
  | selectMain (id : Int)

def step (env : Environment) (w : World) : Event → World
  | .updateAll => updateAll env w
  | .clearStats ids => clearStats w ids
  | .selectMain id => selectMain w id

def run (env : Environment) (w : World) (events : List Event) : World := events.foldl (step env) w

/-! ## The sweep -/

/-- The items that ask for their tag, in this order: the first ones with it that count. -/
def leaders (heap : Nat → TrafficLooperData) (items : List Nat) : List Nat :=
  items.foldl (fun found i =>
    if (heap i).ignore = true ∨ (heap i).tag ∈ found.map fun j => (heap j).tag then found
    else found ++ [i]) []

/-- The clock has not moved since the item was last updated. -/
def Stale (env : Environment) (w : World) (place i : Nat) : Prop :=
  env.clock (w.readings + place) ≤ (w.heap i).lastUpdate

instance (env : Environment) (w : World) (place i : Nat) : Decidable (Stale env w place i) :=
  inferInstanceAs (Decidable (_ ≤ _))

/-- What the followers of the leader at this place are given. -/
def shared (env : Environment) (w : World) (after : String → Bytes) (place i : Nat) : Bytes :=
  if Stale env w place i then (w.heap i).bytes
  else after (w.heap i).tag - w.drained (w.heap i).tag

section
variable {env : Environment} {w : World}

theorem leaders_concat (heap : Nat → TrafficLooperData) (items : List Nat) (i : Nat) :
    leaders heap (items ++ [i]) =
      if (heap i).ignore = true ∨ (heap i).tag ∈ (leaders heap items).map fun j => (heap j).tag then
        leaders heap items
      else leaders heap items ++ [i] := by
  unfold leaders
  rw [List.foldl_concat]

/-- What stands in the map for the tag of a leader, and what the leader has counted. -/
def Led (env : Environment) (w : World) (s : World × List (String × Diff)) (place i : Nat) : Prop :=
  (Stale env w place i → s.2.lookup (w.heap i).tag = some (.item i) ∧
    s.1.drained (w.heap i).tag = w.drained (w.heap i).tag ∧
    (s.1.heap i).bytes = (w.heap i).bytes) ∧
  (¬ Stale env w place i → ∃ d, s.2.lookup (w.heap i).tag = some (.record d) ∧
    d.bytes = s.1.drained (w.heap i).tag - w.drained (w.heap i).tag ∧
    (s.1.heap i).bytes = (w.heap i).bytes + d.bytes ∧
    s.1.drained (w.heap i).tag = env.passed (w.readings + place) (w.heap i).tag)

/-- What a sweep that started in `w` has done after the items `done`. -/
structure Swept (env : Environment) (w : World) (done : List Nat)
    (s : World × List (String × Diff)) : Prop where
  tags : ∀ j, (s.1.heap j).tag = (w.heap j).tag
  left : ∀ j, j ∉ done ∨ (w.heap j).ignore = true → s.1.heap j = w.heap j
  readings : s.1.readings = w.readings + (leaders w.heap done).length
  counted : ∀ i ∈ leaders w.heap done, i ∈ done ∧ (w.heap i).ignore = false
  unasked : ∀ tag, tag ∉ (leaders w.heap done).map (fun j => (w.heap j).tag) →
    s.2.lookup tag = none ∧ s.1.drained tag = w.drained tag
  covered : ∀ j ∈ done, (w.heap j).ignore = false →
    (w.heap j).tag ∈ (leaders w.heap done).map fun i => (w.heap i).tag
  leads : ∀ place i, (leaders w.heap done)[place]? = some i → Led env w s place i
  follows : ∀ j ∈ done, (w.heap j).ignore = false → j ∉ leaders w.heap done →
    ∀ place i, (leaders w.heap done)[place]? = some i → (w.heap i).tag = (w.heap j).tag →
      (s.1.heap j).bytes = (w.heap j).bytes + shared env w s.1.drained place i

theorem Swept.start : Swept env w [] (w, []) := by
  constructor <;> simp [leaders]

section
variable {done : List Nat} {s : World × List (String × Diff)} {i : Nat}

variable {place k : Nat} {v : World}

/-- A leader's entry does not depend on the other items. -/
theorem Led.frame {s' : World × List (String × Diff)} (h : Led env w s place k)
    (map : s'.2.lookup (w.heap k).tag = s.2.lookup (w.heap k).tag)
    (drained : s'.1.drained (w.heap k).tag = s.1.drained (w.heap k).tag)
    (own : s'.1.heap k = s.1.heap k) : Led env w s' place k := by
  unfold Led at h ⊢
  rw [map, drained, own]
  exact h

/-- What a follower reads. -/
theorem Led.read (h : Led env w s place k) {diff : Diff}
    (found : s.2.lookup (w.heap k).tag = some diff) :
    (diff.read s.1.heap).bytes = shared env w s.1.drained place k := by
  unfold shared
  by_cases stale : Stale env w place k
  · obtain ⟨entry, _, own⟩ := h.1 stale
    cases entry.symm.trans found
    rw [if_pos stale]
    exact own
  · obtain ⟨d, entry, bytes, _⟩ := h.2 stale
    cases entry.symm.trans found
    rw [if_neg stale]
    exact bytes

theorem Led.entry (h : Led env w s place k) : (s.2.lookup (w.heap k).tag).isSome = true := by
  by_cases stale : Stale env w place k
  · rw [(h.1 stale).1]
    rfl
  · obtain ⟨d, entry, _⟩ := h.2 stale
    rw [entry]
    rfl

theorem Led.counts (h : Led env w s place k) : (s.1.heap k).bytes =
      (w.heap k).bytes + (s.1.drained (w.heap k).tag - w.drained (w.heap k).tag) := by
  by_cases stale : Stale env w place k
  · obtain ⟨_, undrained, own⟩ := h.1 stale
    rw [own, undrained, sub_self, add_zero]
  · obtain ⟨d, _, bytes, own, _⟩ := h.2 stale
    rw [own, bytes]

theorem getElem?_concat {l : List Nat} (h : (l ++ [i])[place]? = some k) :
    l[place]? = some k ∨ place = l.length ∧ k = i := by
  rcases Nat.lt_or_ge place l.length with small | large
  · rw [List.getElem?_append_left small] at h
    exact .inl h
  · rw [List.getElem?_append_right large, List.getElem?_singleton] at h
    split at h
    · rename_i zero
      cases h
      exact .inr ⟨by omega, rfl⟩
    · cases h

theorem shared_congr {after after' : String → Bytes}
    (h : after (w.heap k).tag = after' (w.heap k).tag) :
    shared env w after place k = shared env w after' place k := by
  unfold shared
  rw [h]

theorem updateOne_heap {j : Nat} (differ : j ≠ i) : (updateOne env v i).1.heap j = v.heap j := by
  unfold updateOne
  split <;> exact Function.update_of_ne differ _ _

theorem updateOne_tag {j : Nat} : ((updateOne env v i).1.heap j).tag = (v.heap j).tag := by
  by_cases own : j = i
  · subst own
    unfold updateOne
    split
    · simp [unmoved]
    · simp [queried]
  · rw [updateOne_heap own]

theorem updateOne_readings : (updateOne env v i).1.readings = v.readings + 1 := by
  unfold updateOne
  split <;> rfl

theorem updateOne_drained {tag : String} (differ : tag ≠ (v.heap i).tag) :
    (updateOne env v i).1.drained tag = v.drained tag := by
  unfold updateOne
  split
  · rfl
  · exact Function.update_of_ne differ _ _

/-- The entry of an item that asks. -/
theorem updateOne_led (item : v.heap i = w.heap i) (readings : v.readings = w.readings + place)
    (undrained : v.drained (w.heap i).tag = w.drained (w.heap i).tag) (map : List (String × Diff)) :
    Led env w ((updateOne env v i).1, ((w.heap i).tag, (updateOne env v i).2) :: map) place i := by
  have still : interval env v i ≤ 0 ↔ Stale env w place i := by
    unfold interval Stale
    rw [item, readings]
    omega
  refine ⟨fun stale => ?_, fun moved => ?_⟩
  · rw [updateOne, if_pos (still.mpr stale)]
    simp [unmoved, undrained, item, TrafficLooperData.bytes]
  · rw [updateOne, if_neg (mt still.mp moved)]
    refine ⟨difference env v i, by simp, ?_, ?_, ?_⟩
    · simp [queried, difference, queryStats, item, undrained, TrafficLooperData.bytes]
      rfl
    · simp [queried, item, TrafficLooperData.bytes]
    · simp [queried, item, readings]

theorem Swept.ignored (h : Swept env w done s) (ignore : (w.heap i).ignore = true) :
    Swept env w (done ++ [i]) s := by
  have same : leaders w.heap (done ++ [i]) = leaders w.heap done := by
    rw [leaders_concat, if_pos (.inl ignore)]
  have old {j : Nat} (hj : j ∈ done ++ [i]) (counts : (w.heap j).ignore = false) : j ∈ done := by
    rcases List.mem_append.mp hj with own | last
    · exact own
    · rw [List.mem_singleton.mp last, ignore] at counts
      cases counts
  refine ⟨h.tags, ?_, ?_, ?_, ?_, ?_, ?_, ?_⟩
  · rintro j (out | ignored)
    · exact h.left j (.inl fun mem => out (List.mem_append_left _ mem))
    · exact h.left j (.inr ignored)
  · rw [same, h.readings]
  · rw [same]
    exact fun j hj => ⟨List.mem_append_left _ (h.counted j hj).1, (h.counted j hj).2⟩
  · rw [same]
    exact h.unasked
  · rw [same]
    exact fun j hj counts => h.covered j (old hj counts) counts
  · rw [same]
    exact h.leads
  · rw [same]
    exact fun j hj counts => h.follows j (old hj counts) counts

/-- The first item of a tag asks for it. -/
theorem Swept.leader (h : Swept env w done s) (new : i ∉ done) (counts : (w.heap i).ignore = false)
    (first : (w.heap i).tag ∉ (leaders w.heap done).map fun j => (w.heap j).tag) :
    Swept env w (done ++ [i])
      ((updateOne env s.1 i).1, ((w.heap i).tag, (updateOne env s.1 i).2) :: s.2) := by
  have more : leaders w.heap (done ++ [i]) = leaders w.heap done ++ [i] := by
    rw [leaders_concat, if_neg]
    simpa [counts] using first
  have item : s.1.heap i = w.heap i := h.left i (.inl new)
  have undrained := (h.unasked _ first).2
  have other {k : Nat} (hk : k ∈ leaders w.heap done) : k ≠ i ∧ (w.heap k).tag ≠ (w.heap i).tag :=
    ⟨fun eq => new (eq ▸ (h.counted k hk).1),
      fun eq => first (eq ▸ List.mem_map_of_mem (f := fun j => (w.heap j).tag) hk)⟩
  refine ⟨?_, ?_, ?_, ?_, ?_, ?_, ?_, ?_⟩
  · intro j
    rw [updateOne_tag, h.tags]
  · intro j hj
    have differ : j ≠ i := by
      rintro rfl
      rcases hj with out | ignored
      · exact out (by simp)
      · rw [counts] at ignored
        cases ignored
    rw [updateOne_heap differ]
    exact h.left j (hj.imp_left fun out mem => out (List.mem_append_left _ mem))
  · rw [updateOne_readings, h.readings, more, List.length_append, Nat.add_assoc]
    rfl
  · intro k hk
    rw [more] at hk
    rcases List.mem_append.mp hk with old | last
    · exact ⟨List.mem_append_left _ (h.counted k old).1, (h.counted k old).2⟩
    · rw [List.mem_singleton.mp last]
      exact ⟨by simp, counts⟩
  · intro tag out
    rw [more, List.map_append, List.mem_append, not_or] at out
    have differ : tag ≠ (w.heap i).tag := by simpa using out.2
    have differ' : (tag == (w.heap i).tag) = false := beq_eq_false_iff_ne.mpr differ
    rw [List.lookup_cons, differ', updateOne_drained (by rw [item]; exact differ)]
    exact h.unasked tag out.1
  · intro j hj live
    rw [more, List.map_append, List.mem_append]
    rcases List.mem_append.mp hj with old | last
    · exact .inl (h.covered j old live)
    · rw [List.mem_singleton.mp last]
      exact .inr (by simp)
  · intro place k hk
    rw [more] at hk
    rcases getElem?_concat hk with old | ⟨rfl, rfl⟩
    · have differ := other (List.mem_of_getElem? old)
      have differ' : ((w.heap k).tag == (w.heap i).tag) = false := beq_eq_false_iff_ne.mpr differ.2
      refine (h.leads place k old).frame ?_ (updateOne_drained (by rw [item]; exact differ.2))
        (updateOne_heap differ.1)
      rw [List.lookup_cons, differ']
    · exact updateOne_led item h.readings undrained s.2
  · intro j hj live out place k hk same
    rw [more] at out hk
    have old : j ∈ done ∧ j ∉ leaders w.heap done := by
      simp only [List.mem_append, List.mem_singleton, not_or] at hj out
      exact ⟨hj.resolve_right out.2, out.1⟩
    have differ : j ≠ i := fun eq => new (eq ▸ old.1)
    have covered := h.covered j old.1 live
    rcases getElem?_concat hk with own | ⟨rfl, rfl⟩
    · have apart := other (List.mem_of_getElem? own)
      rw [updateOne_heap differ, h.follows j old.1 live old.2 place k own same]
      exact congrArg _ (shared_congr (updateOne_drained (by rw [item]; exact apart.2)).symm)
    · exact absurd (same ▸ covered) first

/-- Another item of a tag gets what the first one left in the map. -/
theorem Swept.follower (h : Swept env w done s) (new : i ∉ done) (counts : (w.heap i).ignore = false)
    {diff : Diff} (found : s.2.lookup (w.heap i).tag = some diff) :
    Swept env w (done ++ [i]) (s.1.set i ((w.heap i).plus (diff.read s.1.heap)), s.2) := by
  have asked : (w.heap i).tag ∈ (leaders w.heap done).map fun j => (w.heap j).tag := by
    by_contra out
    rw [(h.unasked _ out).1] at found
    cases found
  have more : leaders w.heap (done ++ [i]) = leaders w.heap done := by
    rw [leaders_concat, if_pos (.inr asked)]
  have led {k : Nat} (hk : k ∈ leaders w.heap done) : k ≠ i :=
    fun eq => new (eq ▸ (h.counted k hk).1)
  refine ⟨?_, ?_, ?_, ?_, ?_, ?_, ?_, ?_⟩
  · intro j
    by_cases own : j = i
    · subst own
      simp [World.set, TrafficLooperData.plus]
    · simp [World.set, own, h.tags]
  · intro j hj
    have differ : j ≠ i := by
      rintro rfl
      rcases hj with out | ignored
      · exact out (by simp)
      · rw [counts] at ignored
        cases ignored
    simp only [World.set, Function.update_of_ne differ]
    exact h.left j (hj.imp_left fun out mem => out (List.mem_append_left _ mem))
  · rw [more]
    exact h.readings
  · rw [more]
    exact fun k hk => ⟨List.mem_append_left _ (h.counted k hk).1, (h.counted k hk).2⟩
  · rw [more]
    exact h.unasked
  · rw [more]
    intro j hj live
    rcases List.mem_append.mp hj with old | last
    · exact h.covered j old live
    · rw [List.mem_singleton.mp last]
      exact asked
  · rw [more]
    intro place k hk
    refine (h.leads place k hk).frame rfl rfl ?_
    exact Function.update_of_ne (led (List.mem_of_getElem? hk)) _ _
  · rw [more]
    intro j hj live out place k hk same
    by_cases own : j = i
    · subst own
      have given : (diff.read s.1.heap).bytes = shared env w s.1.drained place k :=
        (h.leads place k hk).read (same ▸ found)
      simp only [World.set, Function.update_self]
      rw [← given]
      rfl
    · have old : j ∈ done := by simpa [own] using hj
      simp only [World.set, Function.update_of_ne own]
      exact h.follows j old live out place k hk same

theorem Swept.visit (h : Swept env w done s) (new : i ∉ done) :
    Swept env w (done ++ [i]) (visit env s i) := by
  have item : s.1.heap i = w.heap i := h.left i (.inl new)
  unfold Traffic.visit
  cases ignore : (w.heap i).ignore with
  | true =>
    simp only [item, ignore, if_true]
    exact h.ignored ignore
  | false =>
    rw [item, ignore, if_neg Bool.false_ne_true]
    cases found : s.2.lookup (w.heap i).tag with
    | none =>
      refine h.leader new ignore fun asked => ?_
      obtain ⟨k, hk, same⟩ := List.mem_map.mp asked
      obtain ⟨place, hplace⟩ := List.getElem?_of_mem hk
      have entry := (h.leads place k hplace).entry
      rw [same, found] at entry
      cases entry
    | some diff => exact h.follower new ignore found

/-- The whole sweep. -/
theorem updateAll_swept (env : Environment) {w : World} (distinct : w.items.Nodup) :
    ∃ map, Swept env w w.items (updateAll env w, map) := by
  have general : ∀ rest done s, Swept env w done s → (done ++ rest).Nodup →
      Swept env w (done ++ rest) (rest.foldl (Traffic.visit env) s) := by
    intro rest
    induction rest with
    | nil =>
      intro done s h _
      rwa [List.append_nil]
    | cons i rest ih =>
      intro done s h apart
      have new : i ∉ done := by
        intro mem
        exact (List.nodup_append.mp apart).2.2 i mem i (by simp) rfl
      have next := ih (done ++ [i]) (Traffic.visit env s i) (h.visit new)
      rw [List.append_assoc, List.singleton_append] at next
      exact next apart
  exact ⟨_, general w.items [] (w, []) Swept.start distinct⟩

end

end

/-! ## What a sweep counts -/

/-- A sweep raises every item that counts by what it was given for the tag of the item, and
changes no other one. -/
def Exact (env : Environment) (w : World) : Prop :=
  ∀ i ∈ w.items, if (w.heap i).ignore then (updateAll env w).heap i = w.heap i
    else ((updateAll env w).heap i).bytes = (w.heap i).bytes +
      ((updateAll env w).drained (w.heap i).tag - w.drained (w.heap i).tag)

/-- The first item of every tag that several items count finds that the clock has moved, or
has counted nothing yet. -/
def Moving (env : Environment) (w : World) : Prop :=
  ∀ place i, (leaders w.heap w.items)[place]? = some i →
    (∃ j ∈ w.items, j ≠ i ∧ (w.heap j).ignore = false ∧ (w.heap j).tag = (w.heap i).tag) →
      (w.heap i).lastUpdate < env.clock (w.readings + place) ∨ (w.heap i).bytes = 0

theorem leaders_tags (heap : Nat → TrafficLooperData) (items : List Nat) :
    ((leaders heap items).map fun i => (heap i).tag).Nodup := by
  induction items using List.reverseRecOn with
  | nil => exact List.nodup_nil
  | append_singleton items i ih =>
    rw [leaders_concat]
    split
    · exact ih
    · rename_i first
      rw [not_or] at first
      rw [List.map_append, List.map_singleton, ← List.concat_eq_append]
      exact ih.concat first.2

theorem exact_iff (env : Environment) {w : World} (distinct : w.items.Nodup) :
    Exact env w ↔ Moving env w := by
  obtain ⟨map, swept⟩ := updateAll_swept env distinct
  have only {place i j : Nat} (hi : (leaders w.heap w.items)[place]? = some i)
      (same : (w.heap j).tag = (w.heap i).tag) (hj : j ∈ leaders w.heap w.items) : j = i :=
    List.inj_on_of_nodup_map (leaders_tags w.heap w.items) hj (List.mem_of_getElem? hi) same
  constructor
  · rintro exact place i hi ⟨j, hj, differ, counts, same⟩
    by_cases stale : Stale env w place i
    · have out : j ∉ leaders w.heap w.items := fun mem => differ (only hi same mem)
      have follows := swept.follows j hj counts out place i hi same.symm
      have own := exact j hj
      have undrained := ((swept.leads place i hi).1 stale).2.1
      simp only [counts, Bool.false_eq_true, if_false] at own
      rw [own, same, undrained, sub_self, shared, if_pos stale] at follows
      exact .inr (left_eq_add.mp ((add_zero _).symm.trans follows))
    · unfold Stale at stale
      exact .inl (by omega)
  · intro moving j hj
    by_cases counts : (w.heap j).ignore = true
    · rw [if_pos counts]
      exact swept.left j (.inr counts)
    · rw [if_neg counts]
      have live : (w.heap j).ignore = false := by simpa using counts
      obtain ⟨i, hi, same⟩ := List.mem_map.mp (swept.covered j hj live)
      obtain ⟨place, hplace⟩ := List.getElem?_of_mem hi
      by_cases led : j ∈ leaders w.heap w.items
      · have own := only hplace same.symm led
        subst own
        exact (swept.leads place j hplace).counts
      · have differ : j ≠ i := fun eq => led (eq ▸ hi)
        rw [swept.follows j hj live led place i hplace same, ← same]
        congr 1
        unfold shared
        split
        · rename_i stale
          have nothing := (moving place i hplace ⟨j, hj, differ, live, same.symm⟩).resolve_left
            (by unfold Stale at stale; omega)
          rw [nothing, ((swept.leads place i hplace).1 stale).2.1, sub_self]
        · rfl

theorem visit_items (env : Environment) (s : World × List (String × Diff)) (i : Nat) :
    (visit env s i).1.items = s.1.items := by
  unfold visit updateOne
  split
  · rfl
  · split
    · split <;> rfl
    · rfl

theorem step_items (env : Environment) (w : World) (e : Event) : (step env w e).items = w.items := by
  cases e with
  | updateAll =>
    have fold : ∀ (l : List Nat) (s : World × List (String × Diff)),
        (l.foldl (visit env) s).1.items = s.1.items := by
      intro l
      induction l with
      | nil => exact fun _ => rfl
      | cons i l ih => exact fun s => (ih (visit env s i)).trans (visit_items env s i)
    exact fold w.items (w, [])
  | clearStats ids =>
    change (ids.foldl clearOne w).items = w.items
    induction ids generalizing w with
    | nil => rfl
    | cons id ids ih =>
      rw [List.foldl_cons, ih]
      unfold clearOne
      split <;> rfl
  | selectMain id =>
    change (selectMain w id).items = w.items
    unfold selectMain
    split
    · rfl
    · split <;> rfl

theorem run_items (env : Environment) (w : World) (events : List Event) :
    (run env w events).items = w.items := by
  induction events generalizing w with
  | nil => rfl
  | cons e events ih =>
    change (run env (step env w e) events).items = w.items
    rw [ih, step_items]

/-- Whatever was done before, a sweep counts exactly what it was given unless several items
count a tag whose first item has been updated at the same reading of the clock. -/
theorem run_updateAll_exact_iff (env : Environment) (w : World) (distinct : w.items.Nodup)
    (events : List Event) : Exact env (run env w events) ↔ Moving env (run env w events) :=
  exact_iff env (by rw [run_items]; exact distinct)

/-- Two items that count the same tag. -/
def twoItems : World where
  heap _ := { tag := TAG_PROXY }
  items := [0, 1]
  idMap := []
  tagMap := []
  selectorNowId := -114514
  selectorNowFakeTag := ""
  readings := 0
  drained _ := 0

/-- A hundred bytes before the first reading, and the given clock. -/
def hundredBytes (clock : Nat → Int) : Environment where
  clock := clock
  passed _ _ := (100, 0)

/-- A second sweep at the same reading of the clock counts the bytes of the first one again. -/
theorem equal_readings_count_twice :
    ¬ Exact (hundredBytes fun _ => 5) (run (hundredBytes fun _ => 5) twoItems [.updateAll]) := by
  intro exactly
  have second := exactly 1 (by decide)
  revert second
  decide

theorem moving_clock_counts_once :
    Exact (hundredBytes fun k => 5 + k) (run (hundredBytes fun k => 5 + k) twoItems
      [.updateAll]) := by
  refine (run_updateAll_exact_iff _ twoItems (by decide) [.updateAll]).mpr ?_
  intro place i hi _
  have leader : leaders (run (hundredBytes fun k => 5 + k) twoItems [.updateAll]).heap
    [0, 1] = [0] := by
    decide
  have first : place = 0 ∧ i = 0 := by
    change (leaders _ [0, 1])[place]? = some i at hi
    rw [leader] at hi
    cases place with
    | zero => exact ⟨rfl, (Option.some.inj hi).symm⟩
    | succ place => cases hi
  obtain ⟨rfl, rfl⟩ := first
  exact .inl (by decide)

end QuinMo.Traffic
