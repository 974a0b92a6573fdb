import Mathlib.Algebra.BigOperators.Group.Finset.Basic
import Mathlib.Order.ConditionallyCompleteLattice.Basic
import Mathlib.Data.Int.ConditionallyCompleteOrder
import Mathlib.Tactic.Abel
import QuinMo.Model.Entity
import QuinMo.Traffic.Updater

/-!
# The tables of the looper

An item for every profile of every tag is filed once under the profile and once under the tag.
Only those filed under a profile are updated, and only those filed under a tag are shown. A
profile that several tags have keeps the item of the last one.
-/

namespace QuinMo.Traffic

open Config LinkedMap

variable {B : Type}

/-- The tables while they are filled; `next` is the first reference that is not in use. -/
structure Tables where
  heap : Nat → TrafficLooperData
  next : Nat
  idMap : List (Int × Nat)
  tagMap : List (String × Nat)

def itemBypass : TrafficLooperData := { tag := TAG_BYPASS }

def trafficItem (selectorGroupId : Int) (tag : String) (ent : ProxyEntity B) :
    TrafficLooperData where
  tag := tag
  rx := ent.rx
  tx := ent.tx
  rxBase := ent.rx
  txBase := ent.tx
  ignore := decide (0 ≤ selectorGroupId)

def Tables.add (selectorGroupId : Int) (t : Tables) (tag : String)
    (ent : ProxyEntity B) : Tables where
  heap := Function.update t.heap t.next (trafficItem selectorGroupId tag ent)
  next := t.next + 1
  idMap := put t.idMap ent.id t.next
  tagMap := put t.tagMap tag t.next

def Tables.empty : Tables where
  heap _ := itemBypass
  next := 1
  idMap := [(-1, 0)]
  tagMap := []

/-- The traffic map, in the order in which it is listed. -/
abbrev TrafficMap (B : Type) := List (String × List (ProxyEntity B))

def fillTables (selectorGroupId : Int) (trafficMap : TrafficMap B) : Tables :=
  trafficMap.foldl (fun t e => e.2.foldl (fun t ent => t.add selectorGroupId e.1 ent) t) .empty

/-- The state after the tables were filled. The values of a concurrent map come in any order. -/
def fill (selectorGroupId mainEntId : Int) (trafficMap : TrafficMap B) (values : List Nat)
    (readings : Nat) (drained : String → Bytes) : World :=
  let t := fillTables selectorGroupId trafficMap
  let w : World :=
    { heap := t.heap
      items := values
      idMap := t.idMap
      tagMap := t.tagMap
      selectorNowId := -114514
      selectorNowFakeTag := ""
      readings
      drained }
  if 0 ≤ selectorGroupId then selectMain w mainEntId else w

/-- What is shown as the traffic of the session. -/
def mainBytes (w : World) : Bytes :=
  (w.tagMap.map fun e => (w.heap e.2).bytes - (w.heap e.2).base).sum

/-- The tags and profiles in the order of their items. -/
def pairs (trafficMap : TrafficMap B) : List (String × ProxyEntity B) :=
  trafficMap.flatMap fun e => e.2.map fun ent => (e.1, ent)

/-- The last of a list with this key, and its place. -/
def lastWith {α K : Type} [DecidableEq K] (key : α → K) (l : List α) (k : K) : Option (α × Nat) :=
  l.zipIdx.reverse.find? fun x => key x.1 == k

section
variable {α K : Type} [DecidableEq K] {key : α → K} {l : List α} {a : α} {k : K} {n : Nat}

theorem lastWith_concat (key : α → K) (l : List α) (a : α) (k : K) :
    lastWith key (l ++ [a]) k = if key a = k then some (a, l.length) else lastWith key l k := by
  unfold lastWith
  rw [List.zipIdx_append]
  by_cases own : key a = k
  · simp [own]
  · have other : (key a == k) = false := beq_eq_false_iff_ne.mpr own
    simp [own, other]

theorem lastWith_some (h : lastWith key l k = some (a, n)) : l[n]? = some a ∧ key a = k := by
  have mem := List.mem_reverse.mp (List.mem_of_find?_eq_some h)
  have own := List.find?_some h
  exact ⟨List.mem_zipIdx_iff_getElem?.mp mem, by simpa using own⟩

theorem le_lastWith (h : lastWith key l k = some (a, n)) {m : Nat} {b : α} (place : l[m]? = some b)
    (own : key b = k) : m ≤ n := by
  induction l using List.reverseRecOn generalizing a n with
  | nil => simp at place
  | append_singleton l c ih =>
    have bound : m < (l ++ [c]).length := (List.getElem?_eq_some_iff.mp place).1
    rw [List.length_append, List.length_singleton] at bound
    rw [lastWith_concat] at h
    split at h
    · cases h
      omega
    · rename_i other
      have old : m < l.length := by
        rcases Nat.lt_or_ge m l.length with small | large
        · exact small
        · have last : m = l.length := by omega
          subst last
          rw [List.getElem?_concat_length] at place
          cases place
          exact absurd own other
      rw [List.getElem?_append_left old] at place
      exact ih h place

theorem lastWith_of_mem (key : α → K) (own : a ∈ l) : ∃ x, lastWith key l (key a) = some x := by
  rw [← Option.isSome_iff_exists]
  unfold lastWith
  rw [List.find?_isSome]
  obtain ⟨n, place⟩ := List.getElem?_of_mem own
  exact ⟨(a, n), List.mem_reverse.mpr (List.mem_zipIdx_iff_getElem?.mpr place), beq_self_eq_true _⟩

end

/-- What stands in the tables after the items for `ps` were made. -/
structure Filled (selectorGroupId : Int) (ps : List (String × ProxyEntity B))
    (t : Tables) : Prop where
  next : t.next = ps.length + 1
  bypass : t.heap 0 = itemBypass
  heap : ∀ k p, ps[k]? = some p → t.heap (k + 1) = trafficItem selectorGroupId p.1 p.2
  ids : ∀ id, t.idMap.lookup id =
    ((lastWith (·.2.id) ps id).map (·.2 + 1)).or (if id = -1 then some 0 else none)
  tags : ∀ tag, t.tagMap.lookup tag = (lastWith (·.1) ps tag).map (·.2 + 1)
  idKeys : (t.idMap.map (·.1)).Nodup
  tagKeys : (t.tagMap.map (·.1)).Nodup
  fresh : ∀ j, (t.heap j).lastUpdate = 0

theorem Filled.add {g : Int} {ps : List (String × ProxyEntity B)} {t : Tables} (h : Filled g ps t)
    (tag : String) (ent : ProxyEntity B) : Filled g (ps ++ [(tag, ent)]) (t.add g tag ent) := by
  refine ⟨?_, ?_, ?_, ?_, ?_, put_keys h.idKeys _ _, put_keys h.tagKeys _ _, ?_⟩
  · simp [Tables.add, h.next]
  · have other : 0 ≠ t.next := by rw [h.next]; omega
    simp only [Tables.add, Function.update_of_ne other, h.bypass]
  · intro k p hk
    rcases Nat.lt_or_ge k ps.length with old | last
    · rw [List.getElem?_append_left old] at hk
      have other : k + 1 ≠ t.next := by rw [h.next]; omega
      simp only [Tables.add, Function.update_of_ne other, h.heap k p hk]
    · rw [List.getElem?_append_right last, List.getElem?_singleton] at hk
      split at hk
      · rename_i zero
        cases hk
        have own : k + 1 = t.next := by rw [h.next]; omega
        simp [Tables.add, own]
      · cases hk
  · intro id
    simp only [Tables.add, lookup_put, lastWith_concat, h.ids, h.next]
    by_cases own : id = ent.id
    · simp [own]
    · simp [own, Ne.symm own]
  · intro tag'
    simp only [Tables.add, lookup_put, lastWith_concat, h.tags, h.next]
    by_cases own : tag' = tag
    · simp [own]
    · simp [own, Ne.symm own]
  · intro j
    by_cases own : j = t.next
    · simp [Tables.add, own, trafficItem]
    · simp [Tables.add, own, h.fresh]

theorem fillTables_filled (g : Int) (trafficMap : TrafficMap B) :
    Filled g (pairs trafficMap) (fillTables g trafficMap) := by
  have flat : fillTables g trafficMap =
      (pairs trafficMap).foldl (fun t p => t.add g p.1 p.2) .empty := by
    simp only [fillTables, pairs, List.foldl_flatMap, List.foldl_map]
  rw [flat]
  induction pairs trafficMap using List.reverseRecOn with
  | nil =>
    refine ⟨rfl, rfl, by simp, fun id => ?_, fun _ => rfl, List.nodup_singleton _, List.nodup_nil,
      fun _ => rfl⟩
    by_cases bypass : id = -1
    · simp [Tables.empty, lastWith, bypass]
    · have other : (id == -1) = false := beq_eq_false_iff_ne.mpr bypass
      simp [Tables.empty, lastWith, List.lookup_cons, bypass, other]
  | append_singleton ps p ih =>
    rw [List.foldl_concat]
    exact ih.add p.1 p.2

/-! ## Sweeps -/

/-- The clock is past every item. -/
def Behind (env : Environment) (w : World) : Prop :=
  ∀ j, (w.heap j).lastUpdate < env.clock w.readings

/-- What no sweep changes. -/
structure Kept (w v : World) : Prop where
  items : v.items = w.items
  idMap : v.idMap = w.idMap
  tagMap : v.tagMap = w.tagMap
  tag : ∀ j, (v.heap j).tag = (w.heap j).tag
  ignore : ∀ j, (v.heap j).ignore = (w.heap j).ignore
  base : ∀ j, (v.heap j).base = (w.heap j).base

theorem Kept.refl (w : World) : Kept w w := ⟨rfl, rfl, rfl, fun _ => rfl, fun _ => rfl, fun _ => rfl⟩

variable {w : World}

theorem Kept.trans {u v : World} (h : Kept u v) (k : Kept v w) : Kept u w where
  items := k.items.trans h.items
  idMap := k.idMap.trans h.idMap
  tagMap := k.tagMap.trans h.tagMap
  tag j := (k.tag j).trans (h.tag j)
  ignore j := (k.ignore j).trans (h.ignore j)
  base j := (k.base j).trans (h.base j)

variable {i : Nat}

/-- Writing an item back with other numbers. -/
theorem Kept.of_update {v : World} {d : TrafficLooperData}
    (heap : v.heap = Function.update w.heap i d)
    (tables : v.items = w.items ∧ v.idMap = w.idMap ∧ v.tagMap = w.tagMap)
    (same : d.tag = (w.heap i).tag ∧ d.ignore = (w.heap i).ignore ∧ d.base = (w.heap i).base) :
    Kept w v := by
  have each (j : Nat) : (v.heap j).tag = (w.heap j).tag ∧ (v.heap j).ignore = (w.heap j).ignore ∧
      (v.heap j).base = (w.heap j).base := by
    rw [heap]
    by_cases own : j = i
    · subst own
      rw [Function.update_self]
      exact same
    · rw [Function.update_of_ne own]
      exact ⟨rfl, rfl, rfl⟩
  exact ⟨tables.1, tables.2.1, tables.2.2, fun j => (each j).1, fun j => (each j).2.1,
    fun j => (each j).2.2⟩

section
variable {env : Environment}

theorem updateOne_kept (w : World) (i : Nat) : Kept w (updateOne env w i).1 := by
  unfold updateOne
  split
  · exact .of_update rfl ⟨rfl, rfl, rfl⟩ ⟨rfl, rfl, rfl⟩
  · exact .of_update rfl ⟨rfl, rfl, rfl⟩ ⟨rfl, rfl, rfl⟩

theorem updateOne_behind (later : StrictMono env.clock) (h : Behind env w) (i : Nat) :
    Behind env (updateOne env w i).1 := by
  intro j
  rw [updateOne_readings]
  have next : env.clock w.readings < env.clock (w.readings + 1) := later (Nat.lt_succ_self _)
  by_cases own : j = i
  · have now : ((updateOne env w i).1.heap j).lastUpdate = env.clock w.readings := by
      subst own
      unfold updateOne
      split
      · simp [unmoved]
      · simp [queried]
    rw [now]
    exact next
  · rw [updateOne_heap own]
    exact (h j).trans next

theorem visit_kept (s : World × List (String × Diff)) (i : Nat) : Kept s.1 (visit env s i).1 := by
  unfold visit
  split
  · exact .refl _
  · split
    · exact updateOne_kept s.1 i
    · exact .of_update rfl ⟨rfl, rfl, rfl⟩ ⟨rfl, rfl, rfl⟩

theorem visit_behind (later : StrictMono env.clock) {s : World × List (String × Diff)}
    (h : Behind env s.1) (i : Nat) : Behind env (visit env s i).1 := by
  unfold visit
  split
  · exact h
  · split
    · exact updateOne_behind later h i
    · intro j
      by_cases own : j = i
      · subst own
        simpa [World.set, TrafficLooperData.plus] using h j
      · simpa [World.set, own] using h j

theorem updateAll_kept (w : World) : Kept w (updateAll env w) := by
  have fold : ∀ (l : List Nat) (s : World × List (String × Diff)),
      Kept s.1 (l.foldl (visit env) s).1 := by
    intro l
    induction l with
    | nil => exact fun s => .refl s.1
    | cons i l ih => exact fun s => (visit_kept s i).trans (ih (visit env s i))
  exact fold w.items (w, [])

theorem updateAll_behind (later : StrictMono env.clock) (h : Behind env w) :
    Behind env (updateAll env w) := by
  have fold : ∀ (l : List Nat) (s : World × List (String × Diff)), Behind env s.1 →
      Behind env (l.foldl (visit env) s).1 := by
    intro l
    induction l with
    | nil => exact fun _ behind => behind
    | cons i l ih => exact fun s behind => ih (visit env s i) (visit_behind later behind i)
  exact fold w.items (w, []) h

/-- Sweeps that started in `w`, all of whose items count, and have come to `v`. -/
structure Counting (env : Environment) (w v : World) : Prop where
  kept : Kept w v
  behind : Behind env v
  left : ∀ j, j ∉ w.items → v.heap j = w.heap j
  counted : ∀ j ∈ w.items, (v.heap j).bytes =
    (w.heap j).bytes + (v.drained (w.heap j).tag - w.drained (w.heap j).tag)
  undrained : ∀ tag, (∀ j ∈ w.items, (w.heap j).tag ≠ tag) → v.drained tag = w.drained tag

theorem Counting.start (behind : Behind env w) : Counting env w w where
  kept := .refl w
  behind := behind
  left _ _ := rfl
  counted j _ := by simp
  undrained _ _ := rfl

theorem moving_of_behind (later : StrictMono env.clock) (h : Behind env w) : Moving env w := by
  intro place i _ _
  exact .inl ((h i).trans_le (later.monotone (Nat.le_add_right _ _)))

theorem Counting.sweep (later : StrictMono env.clock) {v : World} (distinct : w.items.Nodup)
    (live : ∀ j ∈ w.items, (w.heap j).ignore = false) (h : Counting env w v) :
    Counting env w (updateAll env v) := by
  have distinct' : v.items.Nodup := by rw [h.kept.items]; exact distinct
  have exactly := (exact_iff env distinct').mpr (moving_of_behind later h.behind)
  obtain ⟨map, swept⟩ := updateAll_swept env distinct'
  refine ⟨h.kept.trans (updateAll_kept v), updateAll_behind later h.behind, ?_, ?_, ?_⟩
  · intro j out
    rw [swept.left j (.inl (by rw [h.kept.items]; exact out)), h.left j out]
  · intro j hj
    have counts : (v.heap j).ignore = false := by rw [h.kept.ignore, live j hj]
    have more := exactly j (by rw [h.kept.items]; exact hj)
    rw [counts, if_neg Bool.false_ne_true, h.kept.tag, h.counted j hj] at more
    rw [more]
    abel
  · intro tag none
    rw [← h.undrained tag none]
    refine (swept.unasked tag fun asked => ?_).2
    obtain ⟨i, hi, own⟩ := List.mem_map.mp asked
    have member := (swept.counted i hi).1
    rw [h.kept.items] at member
    rw [h.kept.tag] at own
    exact none i member own

end

def sweeps (env : Environment) (w : World) (n : Nat) : World :=
    run env w (List.replicate n .updateAll)

theorem sweeps_counting {env : Environment} (later : StrictMono env.clock)
    (distinct : w.items.Nodup) (live : ∀ j ∈ w.items, (w.heap j).ignore = false)
    (behind : Behind env w) (n : Nat) : Counting env w (sweeps env w n) := by
  induction n with
  | zero => exact .start behind
  | succ n ih =>
    unfold sweeps run at ih ⊢
    rw [List.replicate_succ', List.foldl_concat]
    exact ih.sweep later distinct live

/-! ## What the statistics miss -/

/-- The tag whose item a profile keeps: the last one that has the profile. -/
def lastTag (trafficMap : TrafficMap B) (id : Int) : Option String :=
  (lastWith (·.2.id) (pairs trafficMap) id).map (·.1.1)

/-- Either all profiles of a tag keep their item of the tag, or none does. -/
def Undivided (trafficMap : TrafficMap B) : Prop :=
  ∀ e ∈ trafficMap, (∀ ent ∈ e.2, lastTag trafficMap ent.id = some e.1) ∨
    (∀ ent ∈ e.2, lastTag trafficMap ent.id ≠ some e.1)

/-- From `w` to `v`, the session has all bytes drained for the tags of the map, and every
profile has the bytes of every tag that has it. -/
structure Complete (trafficMap : TrafficMap B) (w v : World) : Prop where
  session : mainBytes v = (trafficMap.map fun e => v.drained e.1 - w.drained e.1).sum
  profiles : ∀ e ∈ trafficMap, ∀ ent ∈ e.2, ∃ i, v.idMap.lookup ent.id = some i ∧
    (v.heap i).bytes - (w.heap i).bytes =
      ((trafficMap.filter fun f => f.2.any (·.id == ent.id)).map
        fun f => v.drained f.1 - w.drained f.1).sum

variable {p : String × ProxyEntity B}

theorem mem_pairs {trafficMap : TrafficMap B} :
    p ∈ pairs trafficMap ↔ ∃ e ∈ trafficMap, e.1 = p.1 ∧ p.2 ∈ e.2 := by
  obtain ⟨tag, ent⟩ := p
  simp only [pairs, List.mem_flatMap, List.mem_map, Prod.mk.injEq]
  constructor
  · rintro ⟨e, he, x, hx, rfl, rfl⟩
    exact ⟨e, he, rfl, hx⟩
  · rintro ⟨e, he, rfl, hx⟩
    exact ⟨e, he, ent, hx, rfl, rfl⟩

theorem sum_tags {m : TrafficMap B} (tags : (m.map (·.1)).Nodup) (bytes : String → Bytes) :
    (m.map fun e => bytes e.1).sum = ∑ tag ∈ (m.map (·.1)).toFinset, bytes tag := by
  rw [List.sum_toFinset _ tags, List.map_map]
  rfl

variable {e : String × List (ProxyEntity B)}

/-- The bytes of the tags that have a profile, when only one of them has any. -/
theorem sum_having {m : TrafficMap B} (tags : (m.map (·.1)).Nodup) (bytes : String → Bytes)
    (he : e ∈ m) {id : Int} (has : ∃ ent ∈ e.2, ent.id = id)
    (others : ∀ f ∈ m, f.1 ≠ e.1 → (∃ ent ∈ f.2, ent.id = id) → bytes f.1 = 0) :
    ((m.filter fun f => f.2.any (·.id == id)).map fun f => bytes f.1).sum = bytes e.1 := by
  have having (f : String × List (ProxyEntity B)) :
      f.2.any (·.id == id) = true ↔ ∃ ent ∈ f.2, ent.id = id := by simp
  rw [sum_tags (tags.sublist (List.filter_sublist.map _))]
  refine Finset.sum_eq_single_of_mem e.1 ?_ ?_
  · exact List.mem_toFinset.mpr
      (List.mem_map.mpr ⟨e, List.mem_filter.mpr ⟨he, (having e).mpr has⟩, rfl⟩)
  · intro tag mem other
    obtain ⟨f, hf, rfl⟩ := List.mem_map.mp (List.mem_toFinset.mp mem)
    obtain ⟨hf, has⟩ := List.mem_filter.mp hf
    exact others f hf other ((having f).mp has)

section
variable {g mainEntId : Int} {m : TrafficMap B} {values : List Nat} {readings : Nat}
  {drained : String → Bytes}

theorem fill_plain (plain : g < 0) : fill g mainEntId m values readings drained =
    { heap := (fillTables g m).heap
      items := values
      idMap := (fillTables g m).idMap
      tagMap := (fillTables g m).tagMap
      selectorNowId := -114514
      selectorNowFakeTag := ""
      readings
      drained } := by
  rw [fill, if_neg (by omega)]

theorem filed_last {id : Int} {k : Nat} (last : lastWith (·.2.id) (pairs m) id = some (p, k)) :
    (fillTables g m).idMap.lookup id = some (k + 1) := by
  rw [(fillTables_filled g m).ids, last]
  rfl

/-- What is filed under a profile, or is the item for the bypass. -/
theorem filed {id : Int} (h : (fillTables g m).idMap.lookup id = some i) :
    (∃ p k, i = k + 1 ∧ lastWith (·.2.id) (pairs m) id = some (p, k)) ∨ i = 0 ∧ id = -1 := by
  rw [(fillTables_filled g m).ids] at h
  cases last : lastWith (·.2.id) (pairs m) id with
  | some x =>
    obtain ⟨p, k⟩ := x
    rw [last] at h
    cases h
    exact .inl ⟨p, k, rfl, rfl⟩
  | none =>
    rw [last] at h
    simp only [Option.map_none, Option.none_or] at h
    split at h
    · cases h
      exact .inr ⟨rfl, by assumption⟩
    · cases h

theorem mem_values (order : values.Perm ((fillTables g m).idMap.map (·.2))) :
    i ∈ values ↔ ∃ id, (fillTables g m).idMap.lookup id = some i := by
  rw [order.mem_iff, List.mem_map]
  constructor
  · rintro ⟨⟨id, j⟩, mem, rfl⟩
    exact ⟨id, (mem_iff_lookup (fillTables_filled g m).idKeys).mp mem⟩
  · rintro ⟨id, h⟩
    exact ⟨(id, i), (mem_iff_lookup (fillTables_filled g m).idKeys).mpr h, rfl⟩

theorem values_nodup (order : values.Perm ((fillTables g m).idMap.map (·.2))) : values.Nodup := by
  rw [order.nodup_iff, List.nodup_map_iff_inj_on
    (List.Nodup.of_map _ (fillTables_filled g m).idKeys)]
  rintro ⟨id, i⟩ hi ⟨id', i'⟩ hi' same
  change i = i' at same
  subst same
  have first := filed ((mem_iff_lookup (fillTables_filled g m).idKeys).mp hi)
  have second := filed ((mem_iff_lookup (fillTables_filled g m).idKeys).mp hi')
  rcases first with ⟨p, k, rfl, last⟩ | ⟨rfl, rfl⟩
  · rcases second with ⟨p', k', eq, last'⟩ | ⟨eq, _⟩
    · cases eq
      obtain ⟨place, own⟩ := lastWith_some last
      obtain ⟨place', own'⟩ := lastWith_some last'
      cases place.symm.trans place'
      rw [← own, ← own']
    · cases eq
  · rcases second with ⟨p', k', eq, last'⟩ | ⟨_, rfl⟩
    · cases eq
    · rfl

/-- An updated item is the one its profile keeps, or the one for the bypass. -/
theorem updated_item (order : values.Perm ((fillTables g m).idMap.map (·.2))) (hi : i ∈ values) :
    (∃ p k, i = k + 1 ∧ (fillTables g m).heap i = trafficItem g p.1 p.2 ∧
      lastWith (·.2.id) (pairs m) p.2.id = some (p, k)) ∨
    i = 0 ∧ (fillTables g m).heap i = itemBypass := by
  obtain ⟨id, found⟩ := (mem_values order).mp hi
  rcases filed found with ⟨p, k, rfl, last⟩ | ⟨rfl, _⟩
  · obtain ⟨place, own⟩ := lastWith_some last
    exact .inl ⟨p, k, rfl, (fillTables_filled g m).heap k p place, own ▸ last⟩
  · exact .inr ⟨rfl, (fillTables_filled g m).bypass⟩

theorem fill_counting (plain : g < 0) (order : values.Perm ((fillTables g m).idMap.map (·.2)))
    {env : Environment} (later : StrictMono env.clock)
      (positive : 0 < env.clock readings) (n : Nat) :
    Counting env (fill g mainEntId m values readings drained)
      (sweeps env (fill g mainEntId m values readings drained) n) := by
  rw [fill_plain plain]
  refine sweeps_counting later (values_nodup order) ?_ ?_ n
  · intro j hj
    rcases updated_item order hj with ⟨p, k, rfl, item, _⟩ | ⟨rfl, item⟩
    · simp only [item, trafficItem]
      exact decide_eq_false (by omega)
    · simp only [item, itemBypass]
  · intro j
    simp only [(fillTables_filled g m).fresh j]
    exact positive

section
variable {v : World} {env : Environment}
  (tags : (m.map (·.1)).Nodup) (noBypass : TAG_BYPASS ∉ m.map (·.1)) (plain : g < 0)
  (order : values.Perm ((fillTables g m).idMap.map (·.2)))
  (counting : Counting env (fill g mainEntId m values readings drained) v)

include tags in
theorem entry_unique (he : e ∈ m) (hp : p ∈ pairs m) (same : p.1 = e.1) : p.2 ∈ e.2 := by
  obtain ⟨f, hf, tag, member⟩ := mem_pairs.mp hp
  have own : f = e := List.inj_on_of_nodup_map tags hf he (tag.trans same)
  exact own ▸ member

include tags noBypass plain order counting in
/-- A tag that no profile keeps is never asked for. -/
theorem undrained_tag (he : e ∈ m) (none : ∀ ent ∈ e.2, lastTag m ent.id ≠ some e.1) :
    v.drained e.1 - drained e.1 = 0 := by
  rw [fill_plain plain] at counting
  refine sub_eq_zero.mpr (counting.undrained e.1 fun j hj same => ?_)
  rcases updated_item order hj with ⟨p, k, rfl, item, last⟩ | ⟨rfl, item⟩
  · simp only [item, trafficItem] at same
    have place := (lastWith_some last).1
    have member := entry_unique tags he (List.mem_of_getElem? place) same
    refine none p.2 member ?_
    rw [lastTag, last, ← same]
    rfl
  · simp only [item, itemBypass] at same
    exact noBypass (same ▸ List.mem_map_of_mem he)

include plain order counting in
/-- The item of a pair has counted the bytes of its tag if its profile keeps it. -/
theorem item_growth {k : Nat} (last : lastWith (·.2.id) (pairs m) p.2.id = some (p, k)) :
    (v.heap (k + 1)).bytes - (trafficItem g p.1 p.2).bytes = v.drained p.1 - drained p.1 := by
  have place := (lastWith_some last).1
  have item := (fillTables_filled g m).heap k p place
  rw [fill_plain plain] at counting
  have grown := counting.counted (k + 1) ((mem_values order).mpr ⟨_, filed_last last⟩)
  simp only [item] at grown
  rw [grown]
  simp only [trafficItem]
  abel

include plain order counting in
/-- The item of a pair that its profile does not keep is left as it was. -/
theorem item_left {k : Nat} (place : (pairs m)[k]? = some p)
    (other : lastWith (·.2.id) (pairs m) p.2.id ≠ some (p, k)) :
    v.heap (k + 1) = trafficItem g p.1 p.2 := by
  have item := (fillTables_filled g m).heap k p place
  rw [fill_plain plain] at counting
  refine (counting.left (k + 1) fun mem => ?_).trans item
  rcases updated_item order mem with ⟨q, j, eq, _, last⟩ | ⟨eq, _⟩
  · cases eq
    cases place.symm.trans (lastWith_some last).1
    exact other last
  · cases eq

include tags noBypass plain order counting in
/-- What is shown for a tag is what was drained for it. -/
theorem shown_tag (undivided : Undivided m) {tag : String}
    (shown : (fillTables g m).tagMap.lookup tag = some i) :
    (v.heap i).bytes - (v.heap i).base = v.drained tag - drained tag := by
  rw [(fillTables_filled g m).tags] at shown
  obtain ⟨⟨p, k⟩, last, rfl⟩ := Option.map_eq_some_iff.mp shown
  obtain ⟨place, rfl⟩ := lastWith_some last
  obtain ⟨e, he, tag, member⟩ := mem_pairs.mp (List.mem_of_getElem? place)
  have item := (fillTables_filled g m).heap k p place
  have base : (v.heap (k + 1)).base = (trafficItem g p.1 p.2).bytes := by
    rw [counting.kept.base, fill_plain plain]
    simp only [item]
    rfl
  rw [base]
  by_cases own : lastWith (·.2.id) (pairs m) p.2.id = some (p, k)
  · exact item_growth plain order counting own
  · -- the profile keeps an item of another tag, or a later one of this tag, which there is not
    rw [item_left plain order counting place own, sub_self]
    have elsewhere : lastTag m p.2.id ≠ some e.1 := by
      intro kept
      obtain ⟨⟨q, j⟩, found, same⟩ := Option.map_eq_some_iff.mp kept
      obtain ⟨place', id⟩ := lastWith_some found
      have up : k ≤ j := le_lastWith found place rfl
      have down : j ≤ k := le_lastWith last place' (same.trans tag)
      have eq : k = j := by omega
      subst eq
      cases place.symm.trans place'
      exact own found
    have none := (undivided e he).resolve_left fun all => elsewhere (all p.2 member)
    rw [← tag]
    exact (undrained_tag tags noBypass plain order counting he none).symm

include tags noBypass plain order counting in
theorem session_complete (undivided : Undivided m) :
    mainBytes v = (m.map fun e => v.drained e.1 - drained e.1).sum := by
  have tables : v.tagMap = (fillTables g m).tagMap := by
    rw [counting.kept.tagMap, fill_plain plain]
  have filled := fillTables_filled g m
  have each : mainBytes v =
      (((fillTables g m).tagMap.map (·.1)).map fun tag => v.drained tag - drained tag).sum := by
    rw [mainBytes, tables, List.map_map]
    refine congrArg List.sum (List.map_congr_left fun e he => ?_)
    exact shown_tag tags noBypass plain order counting undivided
      ((mem_iff_lookup filled.tagKeys).mp he)
  rw [each, ← List.sum_toFinset _ filled.tagKeys,
    sum_tags tags fun tag => v.drained tag - drained tag]
  refine Finset.sum_subset ?_ ?_
  · intro tag mem
    obtain ⟨⟨_, i⟩, he, rfl⟩ := List.mem_map.mp (List.mem_toFinset.mp mem)
    have shown := (mem_iff_lookup filled.tagKeys).mp he
    rw [filled.tags] at shown
    obtain ⟨⟨p, k⟩, last, _⟩ := Option.map_eq_some_iff.mp shown
    obtain ⟨place, own⟩ := lastWith_some last
    obtain ⟨e, he, tag, _⟩ := mem_pairs.mp (List.mem_of_getElem? place)
    exact List.mem_toFinset.mpr (List.mem_map.mpr ⟨e, he, tag.trans own⟩)
  · -- a tag without an item has no profile
    intro tag mem out
    obtain ⟨e, he, rfl⟩ := List.mem_map.mp (List.mem_toFinset.mp mem)
    refine undrained_tag tags noBypass plain order counting he fun ent member _ => ?_
    obtain ⟨⟨p, k⟩, last⟩ := lastWith_of_mem (·.1)
      (mem_pairs.mpr ⟨e, he, rfl, member⟩ : (e.1, ent) ∈ pairs m)
    have shown : (fillTables g m).tagMap.lookup e.1 = some (k + 1) := by
      rw [filled.tags, last]
      rfl
    exact out (List.mem_toFinset.mpr
      (List.mem_map.mpr ⟨(e.1, k + 1), (mem_iff_lookup filled.tagKeys).mpr shown, rfl⟩))

include plain order counting in
/-- A profile has the bytes of the tag whose item it keeps. -/
theorem profile_growth (he : e ∈ m) {ent : ProxyEntity B} (member : ent ∈ e.2) :
    ∃ i, ∃ f ∈ m, (∃ x ∈ f.2, x.id = ent.id) ∧
      lastTag m ent.id = some f.1 ∧ v.idMap.lookup ent.id = some i ∧
      (v.heap i).bytes - ((fillTables g m).heap i).bytes = v.drained f.1 - drained f.1 := by
  obtain ⟨⟨p, k⟩, last⟩ := lastWith_of_mem (·.2.id)
    (mem_pairs.mpr ⟨e, he, rfl, member⟩ : (e.1, ent) ∈ pairs m)
  obtain ⟨place, own⟩ := lastWith_some last
  obtain ⟨f, hf, tag, inside⟩ := mem_pairs.mp (List.mem_of_getElem? place)
  have table : v.idMap = (fillTables g m).idMap := by rw [counting.kept.idMap, fill_plain plain]
  have mine : lastWith (·.2.id) (pairs m) p.2.id = some (p, k) := by rw [own]; exact last
  refine ⟨k + 1, f, hf, ⟨p.2, inside, own⟩, ?_, by rw [table, filed_last last], ?_⟩
  · rw [lastTag, last, tag]
    rfl
  · rw [(fillTables_filled g m).heap k p place, item_growth plain order counting mine, tag]

include tags noBypass plain order counting in
theorem profiles_complete (undivided : Undivided m) (he : e ∈ m) {ent : ProxyEntity B}
    (member : ent ∈ e.2) : ∃ i, v.idMap.lookup ent.id = some i ∧
      (v.heap i).bytes - ((fillTables g m).heap i).bytes =
        ((m.filter fun f => f.2.any (·.id == ent.id)).map
          fun f => v.drained f.1 - drained f.1).sum := by
  obtain ⟨i, f, hf, has, kept, found, growth⟩ := profile_growth plain order counting he member
  refine ⟨i, found, growth.trans (Eq.symm ?_)⟩
  apply sum_having tags (fun tag => v.drained tag - drained tag) hf has
  -- the other tags that have the profile are not asked for
  rintro f' hf' other ⟨x, hx, same⟩
  refine undrained_tag tags noBypass plain order counting hf' ?_
  refine (undivided f' hf').resolve_left fun all => other ?_
  have own := all x hx
  rw [same, kept] at own
  exact (Option.some.inj own).symm

end

/-- One byte for one tag, and a clock that moves. -/
def oneByte (tag : String) : Environment where
  clock k := k + 1
  passed _ other := if other = tag then (1, 0) else 0

theorem oneByte_later (tag : String) : StrictMono (oneByte tag).clock := by
  intro j k less
  simp only [oneByte]
  omega

/-- After one sweep, the byte is drained if some item asks for it, and no other one is. -/
theorem oneByte_drained (distinct : w.items.Nodup) {tag : String} (behind : Behind (oneByte tag) w)
    (none : w.drained = 0) :
    (∀ other ≠ tag, (updateAll (oneByte tag) w).drained other = 0) ∧
      ((∃ i ∈ w.items, (w.heap i).ignore = false ∧ (w.heap i).tag = tag) →
        (updateAll (oneByte tag) w).drained tag = (1, 0)) := by
  obtain ⟨map, swept⟩ := updateAll_swept (oneByte tag) distinct
  have asked {i : Nat} (hi : i ∈ leaders w.heap w.items) :
      (updateAll (oneByte tag) w).drained (w.heap i).tag =
        if (w.heap i).tag = tag then (1, 0) else 0 := by
    obtain ⟨place, hplace⟩ := List.getElem?_of_mem hi
    have moved : ¬ Stale (oneByte tag) w place i := by
      have past := behind i
      simp only [Stale, oneByte] at past ⊢
      omega
    obtain ⟨_, _, _, _, drained⟩ := (swept.leads place i hplace).2 moved
    exact drained
  constructor
  · intro other differ
    by_cases mem : other ∈ (leaders w.heap w.items).map fun j => (w.heap j).tag
    · obtain ⟨i, hi, rfl⟩ := List.mem_map.mp mem
      rw [asked hi, if_neg differ]
    · rw [(swept.unasked other mem).2, none]
      rfl
  · rintro ⟨i, hi, counts, rfl⟩
    obtain ⟨j, hj, same⟩ := List.mem_map.mp (swept.covered i hi counts)
    have drained := asked hj
    rw [same, if_pos rfl] at drained
    exact drained

/-- A divided tag gives its bytes to some of its profiles only. -/
theorem divided_incomplete (tags : (m.map (·.1)).Nodup) (plain : g < 0)
    (order : values.Perm ((fillTables g m).idMap.map (·.2))) (he : e ∈ m) {ent ent' : ProxyEntity B}
    (kept : lastTag m ent.id = some e.1) (member' : ent' ∈ e.2)
    (lost : lastTag m ent'.id ≠ some e.1) :
    ¬ Complete m (fill g mainEntId m values 0 0)
      (sweeps (oneByte e.1) (fill g mainEntId m values 0 0) 1) := by
  intro complete
  have positive : 0 < (oneByte e.1).clock 0 := Int.one_pos
  have counting : Counting (oneByte e.1) (fill g mainEntId m values 0 0)
      (sweeps (oneByte e.1) (fill g mainEntId m values 0 0) 1) :=
    fill_counting plain order (oneByte_later e.1) positive 1
  have behind : Behind (oneByte e.1) (fill g mainEntId m values 0 0) := by
    intro j
    rw [fill_plain plain]
    simp only [(fillTables_filled g m).fresh j]
    exact positive
  have drained := oneByte_drained (w := fill g mainEntId m values 0 0)
    (by rw [fill_plain plain]; exact values_nodup order) behind (by rw [fill_plain plain])
  have start : (fill g mainEntId m values 0 0).drained = 0 := by rw [fill_plain plain]
  have heap : (fill g mainEntId m values 0 0).heap = (fillTables g m).heap := by
    rw [fill_plain plain]
  have items : (fill g mainEntId m values 0 0).items = values := by rw [fill_plain plain]
  rw [items, heap] at drained
  have byte : (updateAll (oneByte e.1) (fill g mainEntId m values 0 0)).drained e.1 = (1, 0) := by
    obtain ⟨⟨p, k⟩, last, tag⟩ := Option.map_eq_some_iff.mp kept
    obtain ⟨place, _⟩ := lastWith_some last
    refine drained.2 ⟨k + 1, (mem_values order).mpr ⟨_, filed_last last⟩, ?_⟩
    simp only [(fillTables_filled g m).heap k p place, trafficItem]
    exact ⟨decide_eq_false (by omega), tag⟩
  obtain ⟨i, found, grown⟩ := complete.profiles e he ent' member'
  obtain ⟨j, f, hf, _, kept', found', growth⟩ := profile_growth plain order counting he member'
  cases found.symm.trans found'
  rw [heap, growth, start] at grown
  change (updateAll _ _).drained f.1 - 0 = _ at grown
  -- the profile keeps the item of another tag, which has drained nothing
  rw [drained.1 f.1 fun same => lost (same ▸ kept')] at grown
  have expected := sum_having tags (fun tag =>
      (updateAll (oneByte e.1) (fill g mainEntId m values 0 0)).drained tag - 0) he
    ⟨ent', member', rfl⟩ fun f _ other _ => by rw [drained.1 f.1 other, sub_zero]
  exact absurd (grown.trans (expected.trans (by rw [byte]))) (by decide)

/-- The statistics miss nothing exactly if no tag of the traffic map is divided, that is,
has profiles that a later tag has too beside others that it does not have. -/
theorem statistics_complete_iff (m : TrafficMap B) (tags : (m.map (·.1)).Nodup)
    (noBypass : TAG_BYPASS ∉ m.map (·.1)) {selectorGroupId : Int} (plain : selectorGroupId < 0)
    (mainEntId : Int) :
    (∀ (env : Environment) (values : List Nat) (readings : Nat) (drained : String → Bytes) (n : Nat),
      StrictMono env.clock → 0 < env.clock readings →
      values.Perm ((fillTables selectorGroupId m).idMap.map (·.2)) →
        Complete m (fill selectorGroupId mainEntId m values readings drained)
          (sweeps env (fill selectorGroupId mainEntId m values readings drained) n)) ↔
      Undivided m := by
  constructor
  · intro complete e he
    by_contra divided
    rw [not_or] at divided
    simp only [not_forall, not_not] at divided
    obtain ⟨⟨ent', member', lost⟩, ⟨ent, _, kept⟩⟩ := divided
    refine divided_incomplete tags plain (List.Perm.refl _) he kept member' lost
      (complete _ _ 0 0 1 (oneByte_later e.1) Int.one_pos (List.Perm.refl _))
  · intro undivided env values readings drained n later positive order
    have counting : Counting env (fill selectorGroupId mainEntId m values readings drained)
        (sweeps env (fill selectorGroupId mainEntId m values readings drained) n) :=
      fill_counting plain order later positive n
    have start : (fill selectorGroupId mainEntId m values readings drained).drained = drained := by
      rw [fill_plain plain]
    have heap : (fill selectorGroupId mainEntId m values readings drained).heap =
        (fillTables selectorGroupId m).heap := by rw [fill_plain plain]
    constructor
    · rw [start]
      exact session_complete tags noBypass plain order counting undivided
    · intro e he ent member
      rw [start, heap]
      exact profiles_complete tags noBypass plain order counting undivided he member

end

/-- Two profiles behind the same front proxy, each with a tag of its own. -/
def sharedFront : TrafficMap Unit :=
  [("proxy", [.fresh 1 0 0 (), .fresh 3 0 0 ()]), ("c-2-2", [.fresh 2 0 0 (), .fresh 3 0 0 ()])]

/-- The byte of the first tag is drained, but it is neither shown nor counted for the proxy. -/
theorem shared_front_is_missed :
    ∃ v, v = sweeps (oneByte "proxy") (fill (-1) 1 sharedFront [0, 1, 4, 3] 0 0) 1 ∧
      v.drained "proxy" = (1, 0) ∧ mainBytes v = 0 ∧
      v.idMap.lookup 3 = some 4 ∧ (v.heap 4).bytes = 0 := by
  refine ⟨_, rfl, ?_⟩
  decide

/-- Two profiles with a tag each, the first behind a front proxy of its own. -/
def ownFront : TrafficMap Unit :=
  [("proxy", [.fresh 1 0 0 (), .fresh 3 0 0 ()]), ("c-2-2", [.fresh 2 0 0 ()])]

theorem own_front_is_complete :
    Complete ownFront (fill (-1) 1 ownFront [0, 1, 2, 3] 0 0)
      (sweeps (oneByte "proxy") (fill (-1) 1 ownFront [0, 1, 2, 3] 0 0) 1) := by
  refine (statistics_complete_iff _ (by decide) (by decide) (by decide) 1).mpr ?_
    (oneByte "proxy") [0, 1, 2, 3] 0 0 1 (oneByte_later _) Int.one_pos (by decide)
  unfold Undivided
  decide

end QuinMo.Traffic
