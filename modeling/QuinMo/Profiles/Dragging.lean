import Mathlib.Logic.Function.Basic
import QuinMo.Profiles.Positions

/-!
# Dragging in the list of a group

A drag rotates the positions that the loaded rows hold and writes them to the database; a deletion
renumbers the stored rows only. The displayed order stays the stored one as long as the positions
a drag writes fit between those of the rows around it.
-/

namespace QuinMo.Profiles

open Selection

variable {B : Type}

/-- What a list shows and has loaded. The rows of `updated` are given by their ids, since the
set holds the loaded rows themselves. -/
structure Adapter (B : Type) where
  configurationIdList : List Int
  configurationList : Int → Option (ProxyEntity B)
  updated : List Int

def getProfile (s : Store B) (profileId : Int) : Option (ProxyEntity B) :=
  if profileId = 0 then none else s.getById profileId

/-- A row that was not loaded is read. -/
def getItem (s : Store B) (v : Adapter B) (profileId : Int) : Option (ProxyEntity B) × Adapter B :=
  match v.configurationList profileId with
  | some profile => (some profile, v)
  | none =>
    match getProfile s profileId with
    | some profile =>
      (some profile, { v with
        configurationList := Function.update v.configurationList profileId (some profile) })
    | none => (none, v)

def getItemAt (s : Store B) (v : Adapter B) (index : Nat) : Option (ProxyEntity B) × Adapter B :=
  match v.configurationIdList[index]? with
  | some profileId => getItem s v profileId
  | none => (none, v)

/-- A loaded row gets a position. -/
def Adapter.reposition (v : Adapter B) (profile : ProxyEntity B) (order : Int) (index : Nat) :
    Adapter B where
  configurationIdList := v.configurationIdList.set index profile.id
  configurationList := Function.update v.configurationList profile.id
    (some { profile with userOrder := order })
  updated := profile.id :: v.updated

structure Moving (B : Type) where
  previousOrder : Int
  view : Adapter B

/-- One round of the loop of `move`. -/
def shift (s : Store B) (step : Nat → Nat) (m : Moving B) (i : Nat) : Moving B :=
  match getItemAt s m.view (step i) with
  | (none, view) => { m with view }
  | (some next, view) => ⟨next.userOrder, view.reposition next m.previousOrder i⟩

def rounds (s : Store B) (m : Moving B) (start dest : Nat) : Moving B :=
  if start < dest then (List.range' start (dest - start)).foldl (shift s (· + 1)) m
  else (List.range' (dest + 1) (start - dest)).reverse.foldl (shift s (· - 1)) m

def move (s : Store B) (v : Adapter B) (start dest : Nat) : Adapter B :=
  match getItemAt s v start with
  | (none, v) => v
  | (some first, v) =>
    let m := rounds s ⟨first.userOrder, v⟩ start dest
    m.view.reposition first m.previousOrder dest

/-- Write the positions of the rows that were moved. -/
def commitMove (s : Store B) (v : Adapter B) : Store B × Adapter B :=
  ((v.updated.filterMap v.configurationList).foldl (fun s it => s.updateOrder it.id it.userOrder) s,
    { v with updated := [] })

def onAdd (v : Adapter B) (profile : ProxyEntity B) : Adapter B :=
  { v with
    configurationList := Function.update v.configurationList profile.id (some profile)
    configurationIdList := v.configurationIdList ++ [profile.id] }

def onRemoved (v : Adapter B) (profileId : Int) : Adapter B :=
  if profileId ∈ v.configurationIdList then
    { v with
      configurationIdList := v.configurationIdList.erase profileId
      configurationList := Function.update v.configurationList profileId none }
  else v

/-- The list in the original order, as it is loaded. -/
def reloadProfiles (s : Store B) (groupId : Int) : Adapter B where
  configurationIdList := (s.getByGroup groupId).map (·.id)
  configurationList := fun id => (s.getByGroup groupId).find? (·.id == id)
  updated := []

/-- The stored position of a profile. -/
def position (s : Store B) (id : Int) : Int := ((s.getById id).map (·.userOrder)).getD 0

/-- The ids are those of the group. -/
structure Lists (s : Store B) (groupId : Int) (ids : List Int) : Prop where
  nodup : ids.Nodup
  mem_iff : ∀ id, id ∈ ids ↔ ∃ e ∈ s.proxies.rows, e.groupId = groupId ∧ e.id = id

/-- Reading the group gives this list, with no two equal positions. -/
def Reads (s : Store B) (groupId : Int) (ids : List Int) : Prop :=
  (s.getByGroup groupId).map (·.id) = ids ∧ ((s.getByGroup groupId).map (·.userOrder)).Nodup

instance (s : Store B) (groupId : Int) (ids : List Int) : Decidable (Reads s groupId ids) := by
  unfold Reads
  infer_instance

variable {s : Store B} {ids : List Int} {v : Adapter B} {groupId : Int} {start : Nat}
  {e : ProxyEntity B} {dest i : Nat}

theorem position_row (he : e ∈ s.proxies.rows) : position s e.id = e.userOrder := by
  simp [position, Store.getById_id he]

theorem positions_getByGroup (s : Store B) (groupId : Int) :
    ((s.getByGroup groupId).map (·.id)).map (position s) =
      (s.getByGroup groupId).map (·.userOrder) := by
  rw [List.map_map]
  apply List.map_congr_left
  intro e he
  exact position_row (Store.mem_getByGroup.mp he).1

theorem Reads.lists (h : Reads s groupId ids) : Lists s groupId ids := by
  rw [← h.1]
  refine ⟨getByGroup_ids_nodup s groupId, ?_⟩
  intro id
  simp only [List.mem_map, Store.mem_getByGroup, and_assoc]

/-- A list of the ids of the group is what is read exactly if the positions increase along it. -/
theorem Lists.reads_iff (h : Lists s groupId ids) :
    Reads s groupId ids ↔ (ids.map (position s)).Pairwise (· < ·) := by
  constructor
  · rintro ⟨rfl, apart⟩
    rw [positions_getByGroup]
    have sorted := List.pairwise_map.mpr (s.getByGroup_sorted groupId)
    apply (sorted.and apart).imp
    rintro a b ⟨le, ne⟩
    omega
  · intro increasing
    obtain ⟨rows, found, ids_eq⟩ : ∃ rows : List (ProxyEntity B),
        (∀ e, e ∈ rows ↔ e ∈ s.getByGroup groupId) ∧ rows.map (·.id) = ids := by
      refine ⟨ids.filterMap s.getById, ?_, ?_⟩
      · intro e
        simp only [List.mem_filterMap, Store.getById_eq_some, Store.mem_getByGroup]
        constructor
        · rintro ⟨id, listed, stored, rfl⟩
          obtain ⟨d, hd, group, same⟩ := (h.mem_iff _).mp listed
          exact ⟨stored, s.proxies.key_inj hd stored same ▸ group⟩
        · rintro ⟨stored, group⟩
          exact ⟨e.id, (h.mem_iff _).mpr ⟨e, stored, group, rfl⟩, stored, rfl⟩
      · have each : ∀ id ∈ ids, (s.getById id).map (·.id) = some id := by
          intro id listed
          obtain ⟨e, he, _, rfl⟩ := (h.mem_iff id).mp listed
          rw [Store.getById_id he]
          rfl
        rw [List.map_filterMap, List.filterMap_congr each, List.filterMap_some]
    have orders : rows.map (·.userOrder) = ids.map (position s) := by
      rw [← ids_eq, List.map_map]
      apply List.map_congr_left
      intro e he
      exact (position_row (Store.mem_getByGroup.mp ((found e).mp he)).1).symm
    rw [← orders] at increasing
    have rows_eq := eq_of_sorted (s.getByGroup_nodup groupId) (s.getByGroup_sorted groupId)
      increasing fun e => (found e).symm
    rw [Reads, rows_eq]
    exact ⟨ids_eq, increasing.imp Int.ne_of_lt⟩

/-- The position that a loaded row holds. -/
def held (loaded : Int → Option (ProxyEntity B)) (id : Int) : Int :=
  ((loaded id).map (·.userOrder)).getD 0

/-- The rows of these ids are loaded. -/
def Loaded (loaded : Int → Option (ProxyEntity B)) (ids : List Int) : Prop :=
  ∀ id ∈ ids, ∃ e, loaded id = some e ∧ e.id = id

theorem Loaded.update {loaded : Int → Option (ProxyEntity B)} (h : Loaded loaded ids) :
    Loaded (Function.update loaded e.id (some e)) ids := by
  intro id listed
  by_cases same : id = e.id
  · exact ⟨e, by rw [same, Function.update_self], same.symm⟩
  · rw [Function.update_of_ne same]
    exact h id listed

theorem held_update_of_ne {loaded : Int → Option (ProxyEntity B)} {id j : Int}
    {row : Option (ProxyEntity B)} (other : j ≠ id) :
    held (Function.update loaded id row) j = held loaded j := by
  rw [held, held, Function.update_of_ne other]

/-! ## The loop of a drag -/

theorem getItemAt_loaded (shown : v.configurationIdList[i]? = some e.id)
    (row : v.configurationList e.id = some e) : getItemAt s v i = (some e, v) := by
  simp [getItemAt, getItem, shown, row]

theorem shift_eq {step : Nat → Nat} {m : Moving B}
    (shown : m.view.configurationIdList[step i]? = some e.id)
    (row : m.view.configurationList e.id = some e) :
    shift s step m i = ⟨e.userOrder, m.view.reposition e m.previousOrder i⟩ := by
  simp [shift, getItemAt_loaded shown row]

/-- The places a drag has come past. -/
def Between (start place i : Nat) : Prop := min start place ≤ i ∧ i ≤ max start place

/-- A drag that ends at a place: every place has kept the loaded position that was there, and the
rows of the places in between are marked. -/
structure Dragged (v v' : Adapter B) (start place : Nat) : Prop where
  perm : v'.configurationIdList.Perm v.configurationIdList
  loaded : Loaded v'.configurationList v'.configurationIdList
  orders : ∀ i : Nat, v'.configurationIdList[i]?.map (held v'.configurationList) =
    v.configurationIdList[i]?.map (held v.configurationList)
  others : ∀ i : Nat, ¬ Between start place i → v'.configurationIdList[i]? = v.configurationIdList[i]?
  marks : ∀ (i : Nat) id, v'.configurationIdList[i]? = some id →
    (id ∈ v'.updated ↔ Between start place i)
  once : v'.updated.Nodup
  inside : ∀ id ∈ v'.updated, id ∈ v'.configurationIdList

section
variable {x : ProxyEntity B} {m : Moving B} {place next : Nat}

theorem dragged_start (once : v.configurationIdList.Nodup)
    (rows : Loaded v.configurationList v.configurationIdList) (clean : v.updated = [])
    (shown : v.configurationIdList[start]? = some x.id)
    (row : v.configurationList x.id = some x) :
    Dragged v (v.reposition x x.userOrder start) start start := by
  obtain ⟨inside, same⟩ := List.getElem?_eq_some_iff.mp shown
  have unmoved : v.reposition x x.userOrder start = { v with updated := [x.id] } := by
    have list := List.set_getElem_self inside
    have loaded := Function.update_eq_self x.id v.configurationList
    rw [same] at list
    rw [row] at loaded
    simp [Adapter.reposition, list, loaded, clean]
  rw [unmoved]
  refine ⟨.refl _, rows, fun _ => rfl, fun _ _ => rfl, ?_, List.nodup_singleton _, ?_⟩
  · intro i id found
    dsimp only at found ⊢
    rw [List.mem_singleton, Between]
    constructor
    · rintro rfl
      have := (List.getElem?_inj inside once).mp (shown.trans found.symm)
      omega
    · intro between
      obtain rfl : i = start := by omega
      exact Option.some.inj (found.symm.trans shown)
  · intro id marked
    rw [List.mem_singleton.mp marked]
    exact List.mem_of_getElem? shown

/-- Two rows change places and positions. -/
theorem Dragged.exchange {w : Adapter B} {y : ProxyEntity B} (h : Dragged v w start place)
    (nodup : w.configurationIdList.Nodup) (other : y.id ≠ x.id)
    (at_place : w.configurationIdList[place]? = some x.id)
    (at_next : w.configurationIdList[next]? = some y.id)
    (grows : ∀ i, Between start next i ↔ Between start place i ∨ i = next) (marked : y.id ∉ w.updated)
    {updated : List Int} (marks : updated.Perm (y.id :: w.updated)) :
    Dragged v {
      configurationIdList := (w.configurationIdList.set place y.id).set next x.id
      configurationList := Function.update (Function.update w.configurationList y.id
        (some { y with userOrder := held w.configurationList x.id })) x.id
        (some { x with userOrder := held w.configurationList y.id })
      updated } start next := by
  obtain ⟨lt, here⟩ := List.getElem?_eq_some_iff.mp at_place
  obtain ⟨lt', there⟩ := List.getElem?_eq_some_iff.mp at_next
  have swapped := List.set_set_perm lt lt'
  rw [here, there] at swapped
  have between : Between start place place := by
    unfold Between
    omega
  have place_of {i : Nat} (found : w.configurationIdList[i]? = some x.id) : i = place :=
    ((List.getElem?_inj lt nodup).mp (at_place.trans found.symm)).symm
  have next_of {i : Nat} (found : w.configurationIdList[i]? = some y.id) : i = next :=
    ((List.getElem?_inj lt' nodup).mp (at_next.trans found.symm)).symm
  have list (i : Nat) : ((w.configurationIdList.set place y.id).set next x.id)[i]? =
      if i = next then some x.id else if i = place then some y.id
      else w.configurationIdList[i]? := by
    grind
  refine ⟨swapped.trans h.perm, ?_, ?_, ?_, ?_, ?_, ?_⟩
  · intro id listed
    have exchanged := Loaded.update (e := { x with userOrder := held w.configurationList y.id })
      (Loaded.update (e := { y with userOrder := held w.configurationList x.id }) h.loaded)
    exact exchanged id (swapped.mem_iff.mp listed)
  · intro i
    rw [← h.orders i]
    dsimp only
    rw [list]
    by_cases last : i = next
    · rw [if_pos last, last, at_next]
      simp [held]
    by_cases passed : i = place
    · rw [if_neg last, if_pos passed, passed, at_place]
      simp [held, Function.update_of_ne other]
    rw [if_neg last, if_neg passed]
    cases found : w.configurationIdList[i]? with
    | none => rfl
    | some id =>
      rw [Option.map_some, Option.map_some, held_update_of_ne, held_update_of_ne]
      · exact fun same => last (next_of (same ▸ found))
      · exact fun same => passed (place_of (same ▸ found))
  · intro i outside
    rw [← h.others i (by grind)]
    dsimp only
    rw [list]
    grind
  · intro i id found
    have dragged : x.id ∈ w.updated := (h.marks place x.id at_place).mpr between
    have mark := h.marks i id
    dsimp only at found ⊢
    rw [list] at found
    rw [marks.mem_iff, List.mem_cons, grows]
    grind
  · exact marks.nodup_iff.mpr (List.nodup_cons.mpr ⟨marked, h.once⟩)
  · intro id listed
    rcases List.mem_cons.mp (marks.mem_iff.mp listed) with rfl | listed
    · exact swapped.mem_iff.mpr (List.mem_of_getElem? at_next)
    · exact swapped.mem_iff.mpr (h.inside id listed)

/-- In a round of the loop the dragged row and the next one change places. -/
theorem Dragged.round (step : Nat → Nat)
    (h : Dragged v (m.view.reposition x m.previousOrder place) start place)
    (nodup : v.configurationIdList.Nodup) (reads : step place = next)
    (inside : place < v.configurationIdList.length) (inside' : next < v.configurationIdList.length)
    (fresh : ¬ Between start place next)
    (grows : ∀ i, Between start next i ↔ Between start place i ∨ i = next) :
    Dragged v ((shift s step m place).view.reposition x (shift s step m place).previousOrder next)
      start next := by
  have apart : place ≠ next := by
    rintro rfl
    unfold Between at fresh
    omega
  have nodup' := h.perm.nodup_iff.mpr nodup
  rw [← h.perm.length_eq] at inside inside'
  have at_place : (m.view.reposition x m.previousOrder place).configurationIdList[place]? =
      some x.id := by
    simp only [Adapter.reposition, List.length_set] at inside ⊢
    exact List.getElem?_set_self inside
  obtain ⟨y, row, named⟩ := h.loaded _ (List.getElem_mem inside')
  have at_next : (m.view.reposition x m.previousOrder place).configurationIdList[next]? =
      some y.id := by
    rw [named]
    exact List.getElem?_eq_getElem _
  have other : y.id ≠ x.id := by
    intro same
    rw [same, ← at_place] at at_next
    exact apart ((List.getElem?_inj inside' nodup').mp at_next).symm
  have exchanged := h.exchange nodup' other at_place at_next grows
    (fun marked => fresh ((h.marks next y.id at_next).mp marked))
    (List.Perm.swap y.id x.id m.view.updated)
  have row' : m.view.configurationList y.id = some y := by
    rw [← named] at row
    simpa [Adapter.reposition, Function.update_of_ne other] using row
  have shown : m.view.configurationIdList[step place]? = some y.id := by
    rw [reads, ← at_next]
    exact (List.getElem?_set_ne apart).symm
  rw [shift_eq shown row']
  simpa [Adapter.reposition, held, row', other, Function.update_comm other,
    Function.update_idem] using exchanged

/-- Downwards in the list. -/
theorem Dragged.run_up (nodup : v.configurationIdList.Nodup) (k : Nat)
    (h : Dragged v (m.view.reposition x m.previousOrder place) start place) (up : start ≤ place)
    (inside : place + k < v.configurationIdList.length) :
    Dragged v (((List.range' place k).foldl (shift s (· + 1)) m).view.reposition x
      ((List.range' place k).foldl (shift s (· + 1)) m).previousOrder (place + k))
      start (place + k) := by
  induction k generalizing m place with
  | zero => exact h
  | succ k ih =>
    have moved := h.round (s := s) (· + 1) nodup rfl (by omega) (by omega)
      (by unfold Between; omega) (by unfold Between; omega)
    rw [List.range'_succ, List.foldl_cons, Nat.add_comm k, ← Nat.add_assoc]
    exact ih moved (by omega) (by omega)

/-- Upwards in the list. -/
theorem Dragged.run_down (nodup : v.configurationIdList.Nodup) (k : Nat)
    (h : Dragged v (m.view.reposition x m.previousOrder (dest + k)) start (dest + k))
    (down : dest + k ≤ start) (inside : start < v.configurationIdList.length) :
    Dragged v (((List.range' (dest + 1) k).reverse.foldl (shift s (· - 1)) m).view.reposition x
      ((List.range' (dest + 1) k).reverse.foldl (shift s (· - 1)) m).previousOrder dest)
      start dest := by
  induction k generalizing m with
  | zero => exact h
  | succ k ih =>
    have moved := h.round (s := s) (· - 1) nodup (show dest + (k + 1) - 1 = dest + k from rfl)
      (by omega) (by omega) (by unfold Between; omega) (by unfold Between; omega)
    rw [List.range'_concat, List.reverse_append, List.reverse_singleton, List.singleton_append,
      List.foldl_cons, Nat.one_mul, Nat.add_assoc, Nat.add_comm 1]
    exact ih moved (by omega)

end

theorem move_dragged (once : v.configurationIdList.Nodup)
    (rows : Loaded v.configurationList v.configurationIdList) (clean : v.updated = [])
    (inStart : start < v.configurationIdList.length) (inDest : dest < v.configurationIdList.length) :
    Dragged v (move s v start dest) start dest := by
  obtain ⟨x, row, same⟩ := rows _ (List.getElem_mem inStart)
  have shown : v.configurationIdList[start]? = some x.id := by
    rw [same]
    exact List.getElem?_eq_getElem inStart
  rw [← same] at row
  have begun := dragged_start once rows clean shown row
  unfold move
  rw [getItemAt_loaded shown row]
  dsimp only
  unfold rounds
  by_cases up : start < dest
  · rw [if_pos up]
    obtain ⟨k, rfl⟩ := Nat.exists_eq_add_of_le (Nat.le_of_lt up)
    rw [Nat.add_sub_cancel_left]
    exact Dragged.run_up (m := ⟨x.userOrder, v⟩) once k begun (Nat.le_refl _) inDest
  · rw [if_neg up]
    obtain ⟨k, rfl⟩ := Nat.exists_eq_add_of_le (Nat.le_of_not_lt up)
    rw [Nat.add_sub_cancel_left]
    exact Dragged.run_down (m := ⟨x.userOrder, v⟩) once k begun (Nat.le_refl _) inStart

/-! ## The write -/

theorem updateOrder_writes (s : Store B) (it : ProxyEntity B) (j : Int) :
    (s.updateOrder it.id it.userOrder).getById j = if j = it.id then
      (s.getById j).map (fun x => { x with userOrder := it.userOrder }) else s.getById j :=
  s.getById_modify it.id (fun x => { x with userOrder := it.userOrder }) (fun _ h => h) j

section
variable {v' : Adapter B} (h : Dragged v v' start dest)
  (reads : Reads s groupId v.configurationIdList)

include h

theorem Dragged.entities : (v'.updated.filterMap v'.configurationList).map (·.id) = v'.updated := by
  have each : ∀ id ∈ v'.updated, (v'.configurationList id).map (·.id) = some id := by
    intro id marked
    obtain ⟨e, row, same⟩ := h.loaded id (h.inside id marked)
    rw [row, Option.map_some, same]
  rw [List.map_filterMap, List.filterMap_congr each, List.filterMap_some]

theorem Dragged.commit_other {id : Int} (unmarked : id ∉ v'.updated) :
    (commitMove s v').1.getById id = s.getById id := by
  apply look_foldl_of_not_mem updateOrder_writes
  rw [h.entities]
  exact unmarked

theorem Dragged.commit_marked {id : Int} (marked : id ∈ v'.updated) :
    (commitMove s v').1.getById id =
      (s.getById id).map fun x => { x with userOrder := held v'.configurationList id } := by
  obtain ⟨e, row, rfl⟩ := h.loaded id (h.inside id marked)
  have once : ((v'.updated.filterMap v'.configurationList).map (·.id)).Nodup := by
    rw [h.entities]
    exact h.once
  have written := look_foldl_of_mem updateOrder_writes
    (List.mem_filterMap.mpr ⟨e.id, marked, row⟩) once s
  have own : held v'.configurationList e.id = e.userOrder := by
    rw [held, row]
    rfl
  rw [own]
  exact written

include reads

/-- The write keeps the rows of the group. -/
theorem Dragged.commit_lists : Lists (commitMove s v').1 groupId v'.configurationIdList := by
  refine ⟨h.perm.nodup_iff.mpr reads.lists.nodup, ?_⟩
  intro id
  rw [h.perm.mem_iff, reads.lists.mem_iff]
  have rows (s : Store B) : (∃ e ∈ s.proxies.rows, e.groupId = groupId ∧ e.id = id) ↔
      ∃ e, s.getById id = some e ∧ e.groupId = groupId := by
    constructor
    · rintro ⟨e, he, group, rfl⟩
      exact ⟨e, Store.getById_id he, group⟩
    · rintro ⟨e, row, group⟩
      obtain ⟨he, same⟩ := Store.getById_eq_some.mp row
      exact ⟨e, he, group, same⟩
  rw [rows, rows]
  by_cases marked : id ∈ v'.updated
  · rw [h.commit_marked marked]
    cases s.getById id <;> simp
  · rw [h.commit_other marked]

/-- Along the new list: the loaded positions at the places in between, the stored ones around. -/
theorem Dragged.commit_positions (i : Nat) :
    v'.configurationIdList[i]?.map (position (commitMove s v').1) =
      if min start dest ≤ i ∧ i ≤ max start dest
      then v.configurationIdList[i]?.map (held v.configurationList)
      else v.configurationIdList[i]?.map (position s) := by
  split
  · rename_i between
    rw [← h.orders]
    cases shown : v'.configurationIdList[i]? with
    | none => rfl
    | some id =>
      obtain ⟨e, he, _, rfl⟩ := (reads.lists.mem_iff id).mp
        (h.perm.mem_iff.mp (List.mem_of_getElem? shown))
      have marked := (h.marks i e.id shown).mpr between
      simp [position, h.commit_marked marked, Store.getById_id he]
  · rename_i outside
    rw [← h.others i outside]
    cases shown : v'.configurationIdList[i]? with
    | none => rfl
    | some id =>
      have unmarked : id ∉ v'.updated := fun marked => outside ((h.marks i id shown).mp marked)
      simp [position, h.commit_other unmarked]

end

/-- The loaded positions of the rows between both places increase and fit in between the stored
positions of the rows before and after them. -/
def Fits (s : Store B) (v : Adapter B) (start dest : Nat) : Prop :=
  ((v.configurationIdList.take (min start dest)).map (position s) ++
    ((v.configurationIdList.drop (min start dest)).take
      (max start dest + 1 - min start dest)).map (held v.configurationList) ++
    (v.configurationIdList.drop (max start dest + 1)).map (position s)).Pairwise (· < ·)

instance (s : Store B) (v : Adapter B) (start dest : Nat) : Decidable (Fits s v start dest) := by
  unfold Fits
  infer_instance

theorem getElem?_parts {l : List Int} {a b : Nat} (le : a ≤ b) (lt : b < l.length)
    (f g : Int → Int) (i : Nat) : ((l.take a).map f ++ ((l.drop a).take (b + 1 - a)).map g ++
      (l.drop (b + 1)).map f)[i]? = if a ≤ i ∧ i ≤ b then l[i]?.map g else l[i]?.map f := by
  have before : (l.take a).length = a := by
    rw [List.length_take]
    omega
  have between : ((l.drop a).take (b + 1 - a)).length = b + 1 - a := by
    rw [List.length_take, List.length_drop]
    omega
  simp only [List.getElem?_append, List.getElem?_map, List.length_append, List.length_map,
    List.getElem?_take, List.getElem?_drop, before, between]
  grind

theorem commitMove_reads_iff (reads : Reads s groupId v.configurationIdList)
    (rows : Loaded v.configurationList v.configurationIdList) (clean : v.updated = [])
    (inStart : start < v.configurationIdList.length) (inDest : dest < v.configurationIdList.length) :
    Reads (commitMove s (move s v start dest)).1 groupId
      (commitMove s (move s v start dest)).2.configurationIdList ↔ Fits s v start dest := by
  have dragged := move_dragged (s := s) reads.lists.nodup rows clean inStart inDest
  refine (dragged.commit_lists reads).reads_iff.trans (iff_of_eq (congrArg _ ?_))
  apply List.ext_getElem?
  intro i
  rw [List.getElem?_map, dragged.commit_positions reads, getElem?_parts (by omega) (by omega)]

theorem createProfile_reads (reads : Reads s groupId ids) (bean : B) (core : Int) :
    Reads (createProfile s groupId bean core) groupId
      (ids ++ [(created s groupId bean core).id]) := by
  have old {e : ProxyEntity B} (he : e ∈ s.proxies.rows) :
      e ∈ (createProfile s groupId bean core).proxies.rows := mem_createProfile.mpr (.inl he)
  have new : created s groupId bean core ∈ (createProfile s groupId bean core).proxies.rows :=
    mem_createProfile.mpr (.inr rfl)
  have lists : Lists (createProfile s groupId bean core) groupId
      (ids ++ [(created s groupId bean core).id]) := by
    refine ⟨?_, ?_⟩
    · apply List.Nodup.append reads.lists.nodup (List.nodup_singleton _)
      intro id listed last
      obtain ⟨e, he, _, rfl⟩ := (reads.lists.mem_iff id).mp listed
      have bound := s.proxies.bounded e he
      have : e.id = s.proxies.sequence + 1 := List.mem_singleton.mp last
      omega
    · intro id
      rw [List.mem_append, reads.lists.mem_iff, List.mem_singleton]
      constructor
      · rintro (⟨e, he, group, rfl⟩ | rfl)
        · exact ⟨e, old he, group, rfl⟩
        · exact ⟨_, new, rfl, rfl⟩
      · rintro ⟨e, he, group, rfl⟩
        rcases mem_createProfile.mp he with he | rfl
        · exact .inl ⟨e, he, group, rfl⟩
        · exact .inr rfl
  rw [lists.reads_iff, List.map_append, List.map_singleton, position_row new]
  have same : ids.map (position (createProfile s groupId bean core)) = ids.map (position s) := by
    apply List.map_congr_left
    intro id listed
    obtain ⟨e, he, _, rfl⟩ := (reads.lists.mem_iff id).mp listed
    rw [position_row he, position_row (old he)]
  rw [same, List.pairwise_append]
  refine ⟨reads.lists.reads_iff.mp reads, List.pairwise_singleton _ _, ?_⟩
  intro order listed last lastly
  obtain ⟨id, inside, rfl⟩ := List.mem_map.mp listed
  obtain ⟨e, he, group, rfl⟩ := (reads.lists.mem_iff id).mp inside
  rw [List.mem_singleton.mp lastly, position_row he]
  exact lt_nextOrder he group

theorem Reads.erase {s' : Store B} {id : Int} (reads : Reads s groupId ids)
    (rows : ∀ e, e ∈ s'.proxies.rows ↔ e ∈ s.proxies.rows ∧ e.id ≠ id) :
    Reads s' groupId (ids.erase id) := by
  have lists : Lists s' groupId (ids.erase id) := by
    refine ⟨reads.lists.nodup.erase id, ?_⟩
    intro j
    rw [reads.lists.nodup.mem_erase_iff, reads.lists.mem_iff]
    constructor
    · rintro ⟨other, e, he, group, rfl⟩
      exact ⟨e, (rows e).mpr ⟨he, other⟩, group, rfl⟩
    · rintro ⟨e, he, group, rfl⟩
      obtain ⟨he, other⟩ := (rows e).mp he
      exact ⟨other, e, he, group, rfl⟩
  have same : (ids.erase id).map (position s') = (ids.erase id).map (position s) := by
    apply List.map_congr_left
    intro j listed
    obtain ⟨e, he, _, rfl⟩ := (lists.mem_iff j).mp listed
    rw [position_row he, position_row ((rows e).mp he).1]
  rw [lists.reads_iff, same]
  exact (reads.lists.reads_iff.mp reads).sublist (List.erase_sublist.map _)

theorem mem_deleteProfile2 (a : App B) (profileId : Int) (e : ProxyEntity B) :
    e ∈ (deleteProfile2 a profileId).store.proxies.rows ↔
      e ∈ a.store.proxies.rows ∧ e.id ≠ profileId := by
  unfold deleteProfile2
  split
  · rename_i missing
    refine ⟨fun he => ⟨he, ?_⟩, And.left⟩
    rintro rfl
    rw [Store.getById_id he] at missing
    cases missing
  · simp [Store.deleteById, Store.deleteIds, Numbered.delete, Table.delete]

theorem onRemoved_ids (v : Adapter B) (profileId : Int) :
    (onRemoved v profileId).configurationIdList = v.configurationIdList.erase profileId := by
  unfold onRemoved
  split
  · rfl
  · rename_i missing
    exact (List.erase_of_not_mem missing).symm

theorem deleteProfile2_reads {a : App B} (reads : Reads a.store groupId v.configurationIdList)
    (profileId : Int) : Reads (deleteProfile2 a profileId).store groupId
      (onRemoved v profileId).configurationIdList := by
  rw [onRemoved_ids]
  exact reads.erase (mem_deleteProfile2 a profileId)

/-- Renumbering keeps what is read. -/
theorem rearrange_reads
    (reads : Reads s groupId ids) : Reads (rearrange s groupId) groupId ids := by
  have lists : Lists (rearrange s groupId) groupId ids := by
    refine ⟨reads.lists.nodup, ?_⟩
    intro id
    rw [reads.lists.mem_iff]
    constructor
    · rintro ⟨e, he, group, rfl⟩
      obtain ⟨i, row⟩ := List.mem_iff_getElem?.mp (Store.mem_getByGroup.mpr ⟨he, group⟩)
      exact ⟨_, mem_rearrange.mpr (.inl ⟨i, e, row, rfl⟩), group, rfl⟩
    · rintro ⟨e, he, group, rfl⟩
      rcases mem_rearrange.mp he with ⟨i, e, row, rfl⟩ | ⟨_, outside⟩
      · obtain ⟨stored, group⟩ := Store.mem_getByGroup.mp (List.mem_of_getElem? row)
        exact ⟨e, stored, group, rfl⟩
      · exact absurd group outside
  have numbers : ids.map (position (rearrange s groupId)) =
      (s.getByGroup groupId).zipIdx.map fun e => (e.2 : Int) + 1 := by
    rw [← reads.1, List.map_map, ← List.zipIdx_map_fst 0 (s.getByGroup groupId), List.map_map,
      List.zipIdx_map_fst]
    apply List.map_congr_left
    rintro ⟨e, i⟩ listed
    have row := List.mem_zipIdx_iff_getElem?.mp listed
    simp [position, rearrange_at row]
  rw [lists.reads_iff, numbers, List.pairwise_map, List.pairwise_iff_getElem]
  intro i k _ _ lt
  simp only [List.getElem_zipIdx]
  omega

theorem afterDelete_reads
    (reads : Reads s groupId ids) : Reads (afterDelete s groupId) groupId ids := by
  unfold afterDelete
  dsimp only
  split
  · exact rearrange_reads (s := s.resetDanglingGroupProxies) reads
  · exact reads

/-! ## The shown group over a run -/

/-- The databases and the list of the shown group. -/
structure Screen (B : Type) where
  app : App B
  view : Adapter B

inductive Edit (B : Type) where
  | add (bean : B) (core : Int)
  | deleteProfile (profileId : Int)
  | deleteProfiles (profileIds : List Int)
  | drag (start dest : Nat)

/-- What the user does to the group. Several profiles are deleted as they were read; a drag is
from one index of the list to another and is written at its end. -/
def edit (groupId : Int) (x : Screen B) : Edit B → Option (Screen B)
  | .add bean core => some {
      app := { x.app with store := createProfile x.app.store groupId bean core }
      view := onAdd x.view (created x.app.store groupId bean core) }
  | .deleteProfile profileId => some {
      app := deleteProfile x.app groupId profileId
      view := if (x.app.store.getById profileId).isNone then x.view
        else onRemoved x.view profileId }
  | .deleteProfiles profileIds =>
    let profiles := (x.app.store.getByGroup groupId).filter (·.id ∈ profileIds)
    some {
      app := deleteProfiles x.app profiles
      view := profiles.foldl (fun v profile => onRemoved v profile.id) x.view }
  | .drag start dest =>
    if start < x.view.configurationIdList.length ∧ dest < x.view.configurationIdList.length then
      let (store, view) := commitMove x.app.store (move x.app.store x.view start dest)
      some { app := { x.app with store }, view }
    else none

/-- A drag must find positions that fit. -/
def FitsIn (x : Screen B) : Edit B → Prop
  | .drag start dest => Fits x.app.store x.view start dest
  | _ => True

instance (x : Screen B) : (op : Edit B) → Decidable (FitsIn x op)
  | .drag start dest => inferInstanceAs (Decidable (Fits x.app.store x.view start dest))
  | .add _ _ | .deleteProfile _ | .deleteProfiles _ => inferInstanceAs (Decidable True)

/-- The displayed list is the stored order, with no two equal positions. -/
def InOrder (groupId : Int) (x : Screen B) : Prop :=
  Reads x.app.store groupId x.view.configurationIdList

instance (groupId : Int) (x : Screen B) : Decidable (InOrder groupId x) := by
  unfold InOrder
  infer_instance

/-- All displayed rows are loaded, and no drag waits to be written. -/
def Settled (v : Adapter B) : Prop :=
  Loaded v.configurationList v.configurationIdList ∧ v.updated = []

theorem onAdd_settled (h : Settled v) (profile : ProxyEntity B) : Settled (onAdd v profile) := by
  refine ⟨?_, h.2⟩
  intro id listed
  rcases List.mem_append.mp listed with listed | last
  · exact h.1.update id listed
  · rw [List.mem_singleton.mp last]
    exact ⟨profile, Function.update_self _ _ _, rfl⟩

theorem onRemoved_settled (once : v.configurationIdList.Nodup) (h : Settled v)
    (profileId : Int) : Settled (onRemoved v profileId) := by
  unfold onRemoved
  split
  · refine ⟨?_, h.2⟩
    intro id listed
    obtain ⟨other, listed⟩ := once.mem_erase_iff.mp listed
    dsimp only
    rw [Function.update_of_ne other]
    exact h.1 id listed
  · exact h

theorem commitMove_settled (once : v.configurationIdList.Nodup) (h : Settled v)
    (inStart : start < v.configurationIdList.length) (inDest : dest < v.configurationIdList.length) :
    Settled (commitMove s (move s v start dest)).2 := by
  exact ⟨(move_dragged once h.1 h.2 inStart inDest).loaded, rfl⟩

theorem deleteProfile_inOrder {x : Screen B} (h : InOrder groupId x) (settled : Settled x.view)
    (profileId : Int) : Reads (deleteProfile x.app groupId profileId).store groupId
      (if (x.app.store.getById profileId).isNone then x.view
        else onRemoved x.view profileId).configurationIdList ∧
    Settled (if (x.app.store.getById profileId).isNone then x.view
      else onRemoved x.view profileId) := by
  unfold deleteProfile
  split
  · exact ⟨h, settled⟩
  · exact ⟨afterDelete_reads (deleteProfile2_reads h profileId),
      onRemoved_settled h.lists.nodup settled profileId⟩

theorem deleteProfiles_inOrder {x : Screen B} (h : InOrder groupId x) (settled : Settled x.view)
    (profiles : List (ProxyEntity B)) (group : ∀ profile ∈ profiles, profile.groupId = groupId) :
    Reads (deleteProfiles x.app profiles).store groupId
      (profiles.foldl (fun v profile => onRemoved v profile.id) x.view).configurationIdList ∧
    Settled (profiles.foldl (fun v profile => onRemoved v profile.id) x.view) := by
  have each : ∀ (profiles : List (ProxyEntity B)) (a : App B) (v : Adapter B),
      Reads a.store groupId v.configurationIdList → Settled v →
      Reads (profiles.foldl (fun a profile => deleteProfile2 a profile.id) a).store groupId
        (profiles.foldl (fun v profile => onRemoved v profile.id) v).configurationIdList ∧
      Settled (profiles.foldl (fun v profile => onRemoved v profile.id) v) := by
    intro profiles
    induction profiles with
    | nil => exact fun _ _ reads settled => ⟨reads, settled⟩
    | cons profile profiles ih =>
      intro a v reads settled
      exact ih _ _ (deleteProfile2_reads reads profile.id)
        (onRemoved_settled reads.lists.nodup settled profile.id)
  cases profiles with
  | nil => exact ⟨h, settled⟩
  | cons first rest =>
    obtain ⟨reads, settled⟩ := each (first :: rest) x.app x.view h settled
    refine ⟨?_, settled⟩
    simp only [deleteProfiles, group first List.mem_cons_self]
    exact afterDelete_reads reads

theorem edit_inOrder_iff {x x' : Screen B} {op : Edit B} (settled : Settled x.view)
    (h : InOrder groupId x) (ok : edit groupId x op = some x') :
    (InOrder groupId x' ↔ FitsIn x op) ∧ Settled x'.view := by
  cases op with
  | add bean core =>
    cases ok
    exact ⟨iff_true_intro (createProfile_reads h bean core), onAdd_settled settled _⟩
  | deleteProfile profileId =>
    cases ok
    obtain ⟨reads, settled⟩ := deleteProfile_inOrder h settled profileId
    exact ⟨iff_true_intro reads, settled⟩
  | deleteProfiles profileIds =>
    cases ok
    obtain ⟨reads, settled⟩ := deleteProfiles_inOrder h settled
      ((x.app.store.getByGroup groupId).filter (·.id ∈ profileIds))
      fun profile listed => (Store.mem_getByGroup.mp (List.mem_of_mem_filter listed)).2
    exact ⟨iff_true_intro reads, settled⟩
  | drag start dest =>
    unfold edit at ok
    dsimp only at ok
    split at ok
    · rename_i inside
      cases ok
      exact ⟨commitMove_reads_iff h settled.1 settled.2 inside.1 inside.2,
        commitMove_settled h.lists.nodup settled inside.1 inside.2⟩
    · cases ok

theorem reloadProfiles_settled (s : Store B) (groupId : Int) :
    Settled (reloadProfiles s groupId) := by
  refine ⟨?_, rfl⟩
  intro id listed
  obtain ⟨e, he, rfl⟩ := List.mem_map.mp listed
  obtain ⟨d, found⟩ : ∃ d, (s.getByGroup groupId).find? (·.id == e.id) = some d := by
    apply Option.isSome_iff_exists.mp
    exact List.find?_isSome.mpr ⟨e, he, beq_self_eq_true _⟩
  exact ⟨d, found, by simpa using List.find?_some found⟩

/-- A list that was loaded from distinct positions shows the stored order all along a run
exactly if every drag finds positions that fit. -/
theorem displayed_order_iff {a : App B} {groupId : Int}
    (apart : ((a.store.getByGroup groupId).map (·.userOrder)).Nodup) (ops : List (Edit B)) :
    (∀ x ∈ Run.states (edit groupId) ⟨a, reloadProfiles a.store groupId⟩ ops, InOrder groupId x) ↔
      Run.Along (edit groupId) FitsIn ⟨a, reloadProfiles a.store groupId⟩ ops := by
  apply Run.states_iff fun x => Settled x.view
  · intro x op x' settled h ok
    exact (edit_inOrder_iff settled h ok).1
  · intro x op x' settled h ok _
    exact (edit_inOrder_iff settled h ok).2
  · exact reloadProfiles_settled a.store groupId
  · exact ⟨rfl, apart⟩

/-! Profiles at the positions 1 to 4. After the first one is deleted, a drag of one place gives the
second one the position 3, which the fourth one has by then. -/

def sampleList : App (AbstractBean V2Ray.StandardV2RayBean) where
  store := {
    proxies := {
      rows := [.fresh 1 7 1 (Subscription.sampleBean "a" "a.example"),
        .fresh 2 7 2 (Subscription.sampleBean "b" "b.example"),
        .fresh 3 7 3 (Subscription.sampleBean "c" "c.example"),
        .fresh 4 7 4 (Subscription.sampleBean "d" "d.example")]
      unique := by decide
      sequence := 4
      bounded := by decide }
    groups := sampleApp.store.groups }
  rules := sampleApp.rules
  selectedProxy := 0
  selectedGroup := 7

theorem drag_after_delete : ((sampleList.store.getByGroup 7).map (·.userOrder)).Nodup ∧
    ∃ x ∈ Run.states (edit 7) ⟨sampleList, reloadProfiles sampleList.store 7⟩
      [.deleteProfile 1, .drag 0 1], ¬ InOrder 7 x := by
  decide

theorem drag_in_order : ((sampleList.store.getByGroup 7).map (·.userOrder)).Nodup ∧
    ∀ x ∈ Run.states (edit 7) ⟨sampleList, reloadProfiles sampleList.store 7⟩
      [.drag 3 1, .add (Subscription.sampleBean "e" "e.example") 0, .drag 0 4,
        .deleteProfiles [2, 4]], InOrder 7 x :=
  ⟨by decide, (displayed_order_iff (by decide) _).mpr (by decide)⟩

end QuinMo.Profiles
