import QuinMo.Lib.Run
import QuinMo.Selection.Runs

/-!
# Positions inside a group

A new profile comes after the last one, a deletion renumbers the group, an update numbers its
nodes from 1 on. Moving a profile to another group keeps its number.
-/

namespace QuinMo.Profiles

open Selection

variable {B : Type}

/-- `SELECT MAX(userOrder) + 1 … WHERE groupId = :groupId`. -/
def nextOrder (s : Store B) (groupId : Int) : Option Int :=
  ((s.proxies.rows.filter (·.groupId = groupId)).map (·.userOrder)).max?.map (· + 1)

/-- The bean is given as the row holds it, with its defaults. -/
def createProfile (s : Store B) (groupId : Int) (bean : B) (core : Int) : Store B :=
  s.addProxy
    { ProxyEntity.fresh 0 groupId ((nextOrder s groupId).getD 1) bean with core := core }

/-- `UPDATE proxy_entities SET groupId = :groupId WHERE id = :id`. -/
def updateGroup (s : Store B) (id groupId : Int) : Store B :=
  s.modify id (fun e => { e with groupId := groupId }) fun _ h => h

def moveProfile (s : Store B) (profileId groupId : Int) : Store B :=
  updateGroup s profileId groupId

/-- No two profiles of a group have the same position. -/
def Distinct (s : Store B) : Prop :=
  ∀ e ∈ s.proxies.rows, ∀ d ∈ s.proxies.rows,
    e.groupId = d.groupId → e.userOrder = d.userOrder → e.id = d.id

instance (s : Store B) : Decidable (Distinct s) := by
  unfold Distinct
  infer_instance

variable {s : Store B} {groupId : Int} {a : App B}

/-- Rows that are left as they were, the other columns apart, are in distinct places. -/
theorem Distinct.of_rows {s' : Store B} (h : Distinct s)
    (rows : ∀ e ∈ s'.proxies.rows, ∃ d ∈ s.proxies.rows, d.id = e.id ∧ d.groupId = e.groupId ∧
      d.userOrder = e.userOrder) :
    Distinct s' := by
  intro e he d hd group order
  obtain ⟨e', he', id, groupE, orderE⟩ := rows e he
  obtain ⟨d', hd', id', groupD, orderD⟩ := rows d hd
  rw [← id, ← id']
  apply h e' he' d' hd'
  · rw [groupE, groupD, group]
  · rw [orderE, orderD, order]

theorem deleteIds_distinct (h : Distinct s) (ids : List Int) : Distinct (s.deleteIds ids) := by
  apply h.of_rows
  intro e he
  exact ⟨e, List.mem_of_mem_filter he, rfl, rfl, rfl⟩

theorem resetDanglingGroupProxies_distinct (h : Distinct s) :
    Distinct s.resetDanglingGroupProxies := h

theorem lt_nextOrder {e : ProxyEntity B} (he : e ∈ s.proxies.rows)
    (group : e.groupId = groupId) : e.userOrder < (nextOrder s groupId).getD 1 := by
  have listed : e.userOrder ∈ (s.proxies.rows.filter (·.groupId = groupId)).map (·.userOrder) :=
    List.mem_map_of_mem (List.mem_filter.mpr ⟨he, decide_eq_true group⟩)
  unfold nextOrder
  cases found : ((s.proxies.rows.filter (·.groupId = groupId)).map (·.userOrder)).max? with
  | none =>
    rw [List.max?_eq_none_iff.mp found] at listed
    cases listed
  | some last =>
    have := (List.max?_eq_some_iff.mp found).2 _ listed
    simp only [Option.map_some, Option.getD_some]
    omega

/-- The row of a new profile. -/
def created (s : Store B) (groupId : Int) (bean : B) (core : Int) : ProxyEntity B :=
  { ProxyEntity.fresh (s.proxies.sequence + 1) groupId ((nextOrder s groupId).getD 1) bean with
    core := core }

theorem mem_createProfile {bean : B} {core : Int}
    {e : ProxyEntity B} : e ∈ (createProfile s groupId bean core).proxies.rows ↔
      e ∈ s.proxies.rows ∨ e = created s groupId bean core := by
  simp [createProfile, Store.addProxy, Numbered.place, Table.add, created, ProxyEntity.fresh]

theorem createProfile_distinct (h : Distinct s) (groupId : Int) (bean : B)
    (core : Int) : Distinct (createProfile s groupId bean core) := by
  intro e he d hd group order
  rw [mem_createProfile] at he hd
  rcases he with he | rfl <;> rcases hd with hd | rfl
  · exact h e he d hd group order
  · have : e.userOrder < (nextOrder s groupId).getD 1 := lt_nextOrder he group
    exact absurd order (Int.ne_of_lt this)
  · have : d.userOrder < (nextOrder s groupId).getD 1 := lt_nextOrder hd group.symm
    exact absurd order.symm (Int.ne_of_lt this)
  · rfl

/-- No other profile of the group has the position that the moved profile brings along. -/
def Free (s : Store B) (profileId groupId : Int) : Prop :=
  ∀ e ∈ s.proxies.rows, e.id = profileId → ∀ d ∈ s.proxies.rows,
    d.groupId = groupId → d.userOrder = e.userOrder → d.id = profileId

instance (s : Store B) (profileId groupId : Int) : Decidable (Free s profileId groupId) := by
  unfold Free
  infer_instance

theorem mem_moveProfile {profileId : Int} {r : ProxyEntity B} :
    r ∈ (moveProfile s profileId groupId).proxies.rows ↔ ∃ e ∈ s.proxies.rows,
      (if e.id = profileId then { e with groupId := groupId } else e) = r := by
  simp [moveProfile, updateGroup, Store.modify, Numbered.modify, Table.modify]

theorem moveProfile_distinct_iff (h : Distinct s) (profileId groupId : Int) :
    Distinct (moveProfile s profileId groupId) ↔ Free s profileId groupId := by
  constructor
  · rintro distinct e he rfl d hd group order
    by_contra other
    have moved : { e with groupId := groupId } ∈ (moveProfile s e.id groupId).proxies.rows :=
      mem_moveProfile.mpr ⟨e, he, if_pos rfl⟩
    have stays : d ∈ (moveProfile s e.id groupId).proxies.rows :=
      mem_moveProfile.mpr ⟨d, hd, if_neg other⟩
    exact other (distinct d stays { e with groupId := groupId } moved group order)
  · intro free e he d hd group order
    obtain ⟨e, rowE, rfl⟩ := mem_moveProfile.mp he
    obtain ⟨d, rowD, rfl⟩ := mem_moveProfile.mp hd
    by_cases movedE : e.id = profileId <;> by_cases movedD : d.id = profileId
    · rw [if_pos movedE, if_pos movedD]
      exact movedE.trans movedD.symm
    · rw [if_pos movedE, if_neg movedD] at group order
      exact absurd (free e rowE movedE d rowD group.symm order.symm) movedD
    · rw [if_neg movedE, if_pos movedD] at group order
      exact absurd (free d rowD movedD e rowE group order) movedE
    · rw [if_neg movedE, if_neg movedD] at group order ⊢
      exact h e rowE d rowD group order

theorem getByGroup_ids_nodup (s : Store B) (groupId : Int) :
    ((s.getByGroup groupId).map (·.id)).Nodup := by
  have perm := List.perm_insertionSort (fun a b : ProxyEntity B => a.userOrder ≤ b.userOrder)
    (s.proxies.rows.filter (·.groupId = groupId))
  apply (perm.map (·.id)).nodup_iff.mpr
  exact s.proxies.unique.sublist (List.filter_sublist.map _)

theorem rearrange_writes (s : Store B) (e : ProxyEntity B × Nat) (j : Int) :
    (s.updateOrder e.1.id (e.2 + 1)).getById j = if j = e.1.id then
      (s.getById j).map (fun x => { x with userOrder := (e.2 : Int) + 1 }) else s.getById j :=
  s.getById_modify e.1.id (fun x => { x with userOrder := e.2 + 1 }) (fun _ h => h) j

theorem zipIdx_ids (rows : List (ProxyEntity B)) :
    rows.zipIdx.map (fun e : ProxyEntity B × Nat => e.1.id) = rows.map (·.id) := by
  have both : (fun e : ProxyEntity B × Nat => e.1.id) = (fun e : ProxyEntity B => e.id) ∘ Prod.fst :=
    rfl
  rw [both, ← List.map_map, List.zipIdx_map_fst]

theorem rearrange_at {i : Nat} {e : ProxyEntity B} (row : (s.getByGroup groupId)[i]? = some e) :
    (rearrange s groupId).getById e.id = some { e with userOrder := i + 1 } := by
  have listed : (e, i) ∈ (s.getByGroup groupId).zipIdx := List.mem_zipIdx_iff_getElem?.mpr row
  have once := getByGroup_ids_nodup s groupId
  rw [← zipIdx_ids] at once
  have written := look_foldl_of_mem rearrange_writes listed once s
  have stored := (Store.mem_getByGroup.mp (List.mem_of_getElem? row)).1
  rw [Store.getById_id stored] at written
  exact written

theorem rearrange_other {j : Int} (other : j ∉ (s.getByGroup groupId).map (·.id)) :
    (rearrange s groupId).getById j = s.getById j := by
  rw [← zipIdx_ids] at other
  exact look_foldl_of_not_mem rearrange_writes other s

/-- The rows of the group are numbered from 1 on, the others are as they were. -/
theorem mem_rearrange {r : ProxyEntity B} : r ∈ (rearrange s groupId).proxies.rows ↔
      (∃ (i : Nat) (e : ProxyEntity B), (s.getByGroup groupId)[i]? = some e ∧
        { e with userOrder := (i : Int) + 1 } = r) ∨
      r ∈ s.proxies.rows ∧ r.groupId ≠ groupId := by
  constructor
  · intro mem
    have found := Store.getById_id mem
    by_cases inside : r.id ∈ (s.getByGroup groupId).map (·.id)
    · obtain ⟨e, he, same⟩ := List.mem_map.mp inside
      obtain ⟨i, row⟩ := List.mem_iff_getElem?.mp he
      rw [← same, rearrange_at row] at found
      exact .inl ⟨i, e, row, Option.some.inj found⟩
    · rw [rearrange_other inside] at found
      have stored := (Store.getById_eq_some.mp found).1
      refine .inr ⟨stored, ?_⟩
      intro group
      exact inside (List.mem_map_of_mem (Store.mem_getByGroup.mpr ⟨stored, group⟩))
  · rintro (⟨i, e, row, rfl⟩ | ⟨stored, group⟩)
    · exact (Store.getById_eq_some.mp (rearrange_at row)).1
    · have outside : r.id ∉ (s.getByGroup groupId).map (·.id) := by
        intro inside
        obtain ⟨e, he, same⟩ := List.mem_map.mp inside
        obtain ⟨storedE, groupE⟩ := Store.mem_getByGroup.mp he
        exact group (s.proxies.key_inj storedE stored same ▸ groupE)
      have found := rearrange_other outside
      rw [Store.getById_id stored] at found
      exact (Store.getById_eq_some.mp found).1

theorem rearrange_distinct (h : Distinct s) (groupId : Int) : Distinct (rearrange s groupId) := by
  have inGroup (i : Nat) (e : ProxyEntity B) (row : (s.getByGroup groupId)[i]? = some e) :
      e.groupId = groupId := (Store.mem_getByGroup.mp (List.mem_of_getElem? row)).2
  intro e he d hd group order
  rcases mem_rearrange.mp he with ⟨i, e, row, rfl⟩ | ⟨he, outside⟩ <;>
    rcases mem_rearrange.mp hd with ⟨k, d, row', rfl⟩ | ⟨hd, outside'⟩
  · have : i = k := by
      dsimp only at order
      omega
    rw [this, row'] at row
    rw [Option.some.inj row]
  · exact absurd (group.symm.trans (inGroup i e row)) outside'
  · exact absurd (group.trans (inGroup k d row')) outside
  · exact h e he d hd group order

theorem afterDelete_distinct (h : Distinct s) (groupId : Int) :
    Distinct (afterDelete s groupId) := by
  unfold afterDelete
  dsimp only
  split
  · exact rearrange_distinct (resetDanglingGroupProxies_distinct h) groupId
  · exact resetDanglingGroupProxies_distinct h

theorem deleteProfile2_distinct (h : Distinct a.store) (profileId : Int) :
    Distinct (deleteProfile2 a profileId).store := by
  unfold deleteProfile2
  split
  · exact h
  · exact deleteIds_distinct h [profileId]

theorem deleteProfile_distinct (h : Distinct a.store) (groupId profileId : Int) :
    Distinct (deleteProfile a groupId profileId).store := by
  unfold deleteProfile
  split
  · exact h
  · exact afterDelete_distinct (deleteProfile2_distinct h profileId) groupId

theorem deleteProfiles_distinct (h : Distinct a.store)
    (profiles : List (ProxyEntity B)) : Distinct (deleteProfiles a profiles).store := by
  have each : ∀ (rest : List (ProxyEntity B)) (a : App B), Distinct a.store →
      Distinct (rest.foldl (fun a profile => deleteProfile2 a profile.id) a).store := by
    intro rest
    induction rest with
    | nil => exact fun _ h => h
    | cons profile rest ih => exact fun a h => ih _ (deleteProfile2_distinct h profile.id)
  cases profiles with
  | nil => exact h
  | cons first rest => exact afterDelete_distinct (each (first :: rest) a h) first.groupId

theorem clearGroup_distinct (h : Distinct a.store) (groupId : Int) :
    Distinct (clearGroup a groupId).store := by
  have same := (unselectIn_frame a [groupId]).1
  apply resetDanglingGroupProxies_distinct
  apply deleteIds_distinct
  rw [same]
  exact h

section
open Subscription

variable {C : Type} (F : BeanClass C)

theorem doUpdate_distinct {s s' : Store (AbstractBean C)} (h : Distinct s) {groupId : Int}
    {sub : Settings C} {parsed : List (AbstractBean C)} {report : Report}
    (ok : doUpdate F groupId sub parsed s = .ok (s', report)) : Distinct s' := by
  obtain ⟨_, _, ok', _, finished⟩ := doUpdate_finished F groupId sub parsed (doUpdate_present F ok)
  rw [ok] at ok'
  cases ok'
  have inGroup {r : Row C} (listed : r ∈ target F groupId s.proxies.sequence
      (updateTasks F groupId (finalNodes F sub parsed).1 s)) : r.groupId = groupId :=
    (Store.mem_getByGroup.mp (finished.mem_getByGroup.mpr listed)).2
  have orders := finished.ordered
  rw [← target_order F groupId s.proxies.sequence] at orders
  have apart := orders.imp Int.ne_of_lt
  intro e he d hd group order
  rcases finished.row_cases he with listed | ⟨he, outside⟩ <;>
    rcases finished.row_cases hd with listed' | ⟨hd, outside'⟩
  · exact congrArg _ (List.inj_on_of_nodup_map apart listed listed' order)
  · exact absurd (group.symm.trans (inGroup listed)) outside'
  · exact absurd (group.trans (inGroup listed')) outside
  · exact h e he d hd group order

/-! ## Runs -/

inductive Op (C : Type) where
  | createProfile (groupId : Int) (bean : AbstractBean C) (core : Int)
  | moveProfile (profileId groupId : Int)
  | deleteProfile (groupId profileId : Int)
  | deleteProfiles (profiles : List (Row C))
  | clearGroup (groupId : Int)
  | rearrange (groupId : Int)
  | doUpdate (groupId : Int) (sub : Settings C) (parsed : List (AbstractBean C))

/-- An operation that is carried out; an update is if it succeeds. -/
def step (a : App (AbstractBean C)) : Op C → Option (App (AbstractBean C))
  | .createProfile groupId bean core =>
    some { a with store := createProfile a.store groupId bean core }
  | .moveProfile profileId groupId => some { a with store := moveProfile a.store profileId groupId }
  | .deleteProfile groupId profileId => some (deleteProfile a groupId profileId)
  | .deleteProfiles profiles => some (deleteProfiles a profiles)
  | .clearGroup groupId => some (clearGroup a groupId)
  | .rearrange groupId => some { a with store := rearrange a.store groupId }
  | .doUpdate groupId sub parsed =>
    match doUpdate F groupId sub parsed a.store with
    | .ok (store, _) => some { a with store }
    | .error _ => none

/-- A moved profile must find its position free. -/
def FreeAt (a : App (AbstractBean C)) : Op C → Prop
  | .moveProfile profileId groupId => Free a.store profileId groupId
  | _ => True

instance (a : App (AbstractBean C)) : (op : Op C) → Decidable (FreeAt a op)
  | .moveProfile profileId groupId => inferInstanceAs (Decidable (Free a.store profileId groupId))
  | .createProfile _ _ _ | .deleteProfile _ _ | .deleteProfiles _ | .clearGroup _ | .rearrange _
  | .doUpdate _ _ _ => inferInstanceAs (Decidable True)

theorem step_distinct_iff {a a' : App (AbstractBean C)} {op : Op C} (h : Distinct a.store)
    (ok : step F a op = some a') : Distinct a'.store ↔ FreeAt a op := by
  cases op with
  | createProfile groupId bean core =>
    cases ok
    exact iff_true_intro (createProfile_distinct h groupId bean core)
  | moveProfile profileId groupId =>
    cases ok
    exact moveProfile_distinct_iff h profileId groupId
  | deleteProfile groupId profileId =>
    cases ok
    exact iff_true_intro (deleteProfile_distinct h groupId profileId)
  | deleteProfiles profiles =>
    cases ok
    exact iff_true_intro (deleteProfiles_distinct h profiles)
  | clearGroup groupId =>
    cases ok
    exact iff_true_intro (clearGroup_distinct h groupId)
  | rearrange groupId =>
    cases ok
    exact iff_true_intro (rearrange_distinct h groupId)
  | doUpdate groupId sub parsed =>
    simp only [step] at ok
    cases updated : doUpdate F groupId sub parsed a.store with
    | error message => simp [updated] at ok
    | ok result =>
      simp only [updated] at ok
      cases ok
      exact iff_true_intro (doUpdate_distinct F h updated)

/-- From distinct positions, the positions are distinct all along a run exactly if every
profile that is moved finds its position free in the other group. -/
theorem positions_distinct_iff {a : App (AbstractBean C)} (h : Distinct a.store)
    (ops : List (Op C)) :
    (∀ a' ∈ Run.states (step F) a ops, Distinct a'.store) ↔ Run.Along (step F) FreeAt a ops := by
  apply Run.states_iff fun _ => True
  · intro a op a' _ distinct ok
    exact step_distinct_iff F distinct ok
  · exact fun _ _ _ _ _ _ _ => trivial
  · trivial
  · exact h

/-! A second profile is created in group 8. Its position 2 is taken in group 7, the position 1
of the first one is not. -/

def sampleNew : Op V2Ray.StandardV2RayBean := .createProfile 8 (sampleBean "new" "h.example") 0

theorem moved_onto_taken : Distinct sampleApp.store ∧
    ∃ a' ∈ Run.states (step (V2Ray.beanClass .ascii)) sampleApp [sampleNew, .moveProfile 4 7],
      ¬ Distinct a'.store := by
  decide

theorem moved_onto_free : Distinct sampleApp.store ∧
    ∀ a' ∈ Run.states (step (V2Ray.beanClass .ascii)) sampleApp
      [sampleNew, .moveProfile 3 7, .deleteProfile 7 1, .rearrange 8, .clearGroup 8,
        .doUpdate 7 ⟨false, none, none⟩ [sampleBean "two" "d.example"]],
      Distinct a'.store :=
  ⟨by decide, (positions_distinct_iff (V2Ray.beanClass .ascii) (by decide) _).mpr (by decide)⟩

end

end QuinMo.Profiles
