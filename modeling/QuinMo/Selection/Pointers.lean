import QuinMo.Selection.Operations

/-!
# Selections that name an existing row

Deleting whole groups keeps this unless the selected profile is in one of them under a negative
id, which no check takes for a selection.
-/

namespace QuinMo.Selection

variable {B : Type}

def ProxySound (a : App B) : Prop := a.selectedProxy = 0 ∨ (a.store.getById a.selectedProxy).isSome

def GroupSound (a : App B) : Prop :=
  a.selectedGroup ≤ 0 ∨ (a.store.groups.get a.selectedGroup).isSome

/-- Neither selection dangles. -/
def Sound (a : App B) : Prop := ProxySound a ∧ GroupSound a

instance (a : App B) : Decidable (Sound a) := by
  unfold Sound ProxySound GroupSound
  infer_instance

theorem rearrange_isSome (s : Store B) (groupId j : Int) :
    ((rearrange s groupId).getById j).isSome = (s.getById j).isSome :=
  look_foldl_isSome (fun s (e : ProxyEntity B × Nat) j =>
    s.getById_modify e.1.id (fun x => { x with userOrder := e.2 + 1 }) (fun _ h => h) j) _ s j

theorem rearrange_groups (s : Store B) (groupId : Int) :
    (rearrange s groupId).groups = s.groups := by
  unfold rearrange
  generalize (s.getByGroup groupId).zipIdx = rows
  induction rows generalizing s with
  | nil => rfl
  | cons e rows ih =>
    rw [List.foldl_cons, ih]
    rfl

theorem afterDelete_isSome (s : Store B) (groupId j : Int) :
    ((afterDelete s groupId).getById j).isSome = (s.getById j).isSome := by
  unfold afterDelete
  dsimp only
  split
  · exact rearrange_isSome _ groupId j
  · rfl

theorem afterDelete_group (s : Store B) (groupId j : Int) :
    ((afterDelete s groupId).groups.get j).isSome = (s.groups.get j).isSome := by
  unfold afterDelete
  dsimp only
  split
  · rw [rearrange_groups]
    exact s.mapGroups_get _ _ j
  · exact s.mapGroups_get _ _ j

variable {a : App B}

theorem afterDelete_sound (h : Sound a) (groupId : Int) :
    Sound { a with store := afterDelete a.store groupId } := by
  refine ⟨?_, ?_⟩
  · unfold ProxySound
    rw [afterDelete_isSome]
    exact h.1
  · unfold GroupSound
    rw [afterDelete_group]
    exact h.2

theorem deleteProfile2_sound (h : Sound a) (profileId : Int) :
    Sound (deleteProfile2 a profileId) := by
  unfold deleteProfile2
  split
  · exact h
  · refine ⟨?_, h.2⟩
    unfold ProxySound
    by_cases same : a.selectedProxy = profileId
    · simp [same]
    · have other : a.selectedProxy ∉ [profileId] := by simpa using same
      simp only [if_neg same, Store.deleteById, Store.getById_deleteIds, if_neg other]
      exact h.1

theorem deleteProfile_sound (h : Sound a) (groupId profileId : Int) :
    Sound (deleteProfile a groupId profileId) := by
  unfold deleteProfile
  split
  · exact h
  · exact afterDelete_sound (deleteProfile2_sound h profileId) groupId

theorem deleteProfiles_sound (h : Sound a) (profiles : List (ProxyEntity B)) :
    Sound (deleteProfiles a profiles) := by
  have loop : ∀ (es : List (ProxyEntity B)) {a : App B}, Sound a →
      Sound (es.foldl (fun a profile => deleteProfile2 a profile.id) a) := by
    intro es
    induction es with
    | nil => intro a h; exact h
    | cons e es ih =>
      intro a h
      exact ih (deleteProfile2_sound h e.id)
  unfold deleteProfiles
  split
  · exact h
  · exact afterDelete_sound (loop _ h) _

/-- Nothing that concerns the selected profile differs. -/
structure SameProfiles (a b : App B) : Prop where
  selected : b.selectedProxy = a.selectedProxy
  proxies : b.store.proxies = a.store.proxies

theorem SameProfiles.refl (a : App B) : SameProfiles a a := ⟨rfl, rfl⟩

theorem SameProfiles.trans {b c : App B} (h : SameProfiles a b) (g : SameProfiles b c) :
    SameProfiles a c :=
  ⟨g.selected.trans h.selected, g.proxies.trans h.proxies⟩

theorem SameProfiles.proxySound_iff {b : App B} (h : SameProfiles a b) :
    ProxySound b ↔ ProxySound a := by
  simp only [ProxySound, Store.getById, h.selected, h.proxies]

theorem firstGroupId_stored {s : Store B} {id : Int} (h : firstGroupId s = some id) :
    (s.groups.get id).isSome := by
  obtain ⟨g, first, rfl⟩ := Option.map_eq_some_iff.mp h
  have mem : g ∈ s.groups.rows := (List.mem_insertionSort _).mp (List.mem_of_mem_head? first)
  rw [Table.get_key mem]
  rfl

theorem resetSelectedGroup_groupSound (a : App B) : GroupSound (resetSelectedGroup a) := by
  unfold GroupSound resetSelectedGroup
  cases first : firstGroupId a.store with
  | none => exact .inl (by simp)
  | some id => exact .inr (firstGroupId_stored first)

theorem currentGroupId_same (a : App B) : SameProfiles a (currentGroupId a).2 := by
  unfold currentGroupId
  split
  · exact .refl a
  · split <;> exact ⟨rfl, rfl⟩

theorem currentGroupId_selected (a : App B) :
    (currentGroupId a).1 = (currentGroupId a).2.selectedGroup := by
  unfold currentGroupId
  split
  · rfl
  · split <;> rfl

theorem currentGroupId_groupSound (h : GroupSound a) : GroupSound (currentGroupId a).2 := by
  unfold currentGroupId
  split
  · exact h
  · split
    · rename_i id first
      exact .inr (firstGroupId_stored first)
    · right
      exact (Numbered.get_isSome _ _).mpr (by simp [Numbered.place, Table.add, ungroupedGroup])

theorem anySelected_same (ids : List Int) (a : App B) : SameProfiles a (anySelected a ids).2 := by
  induction ids generalizing a with
  | nil => exact .refl a
  | cons id ids ih =>
    simp only [anySelected]
    split
    · exact currentGroupId_same a
    · exact (currentGroupId_same a).trans (ih _)

theorem anySelected_groupSound (ids : List Int) (h : GroupSound a) :
    GroupSound (anySelected a ids).2 := by
  induction ids generalizing a with
  | nil => exact h
  | cons id ids ih =>
    simp only [anySelected]
    split
    · exact currentGroupId_groupSound h
    · exact ih (currentGroupId_groupSound h)

theorem anySelected_of_mem {ids : List Int} (positive : 0 < a.selectedGroup)
    (mem : a.selectedGroup ∈ ids) : (anySelected a ids).1 = true := by
  have current : currentGroupId a = (a.selectedGroup, a) := if_pos positive
  induction ids with
  | nil => cases mem
  | cons id ids ih =>
    simp only [anySelected, current]
    split
    · rfl
    · rename_i other
      rcases List.mem_cons.mp mem with same | mem
      · exact absurd same.symm other
      · exact ih mem

/-- A selected profile with a negative id is in none of the groups. -/
def NoNegativeIn (a : App B) (groupIds : List Int) : Prop :=
  a.selectedProxy < 0 → ∀ e ∈ a.store.getById a.selectedProxy, e.groupId ∉ groupIds

instance (a : App B) (groupIds : List Int) : Decidable (NoNegativeIn a groupIds) := by
  unfold NoNegativeIn
  infer_instance

theorem deleteByGroup_getById {s : Store B} {e : ProxyEntity B} {j : Int}
    (row : s.getById j = some e) (ids : List Int) :
    (s.deleteByGroup ids).getById j = if e.groupId ∈ ids then none else some e := by
  obtain ⟨mem, rfl⟩ := Store.getById_eq_some.mp row
  have listed : e.id ∈ (s.proxies.rows.filter (·.groupId ∈ ids)).map (·.id) ↔ e.groupId ∈ ids := by
    constructor
    · intro h
      obtain ⟨d, hd, same⟩ := List.mem_map.mp h
      obtain ⟨memD, inGroup⟩ := List.mem_filter.mp hd
      rw [← s.proxies.key_inj memD mem same]
      exact of_decide_eq_true inGroup
    · intro h
      exact List.mem_map.mpr ⟨e, List.mem_filter.mpr ⟨mem, decide_eq_true h⟩, rfl⟩
  rw [Store.deleteByGroup, Store.deleteProxy, Store.getById_deleteIds, row]
  simp only [listed]

theorem unselectIn_eq {e : ProxyEntity B} (ids : List Int)
    (row : a.store.getById a.selectedProxy = some e) : unselectIn a ids =
      if 0 < a.selectedProxy ∧ e.groupId ∈ ids then { a with selectedProxy := 0 } else a := by
  simp [unselectIn, row]

theorem unselectIn_frame (a : App B) (ids : List Int) :
    (unselectIn a ids).store = a.store ∧ (unselectIn a ids).selectedGroup = a.selectedGroup := by
  unfold unselectIn
  dsimp only
  split <;> exact ⟨rfl, rfl⟩

theorem unselectIn_proxySound_iff (h : ProxySound a) (ids : List Int) :
    ProxySound { unselectIn a ids with store := a.store.deleteByGroup ids } ↔
      NoNegativeIn a ids := by
  rcases h with unselected | found
  · have unchanged : unselectIn a ids = a := by simp [unselectIn, unselected]
    simp [ProxySound, NoNegativeIn, unchanged, unselected]
  · obtain ⟨e, row⟩ := Option.isSome_iff_exists.mp found
    have condition : NoNegativeIn a ids ↔ (a.selectedProxy < 0 → e.groupId ∉ ids) := by
      simp [NoNegativeIn, row]
    rw [unselectIn_eq ids row, condition]
    by_cases inGroups : e.groupId ∈ ids
    · by_cases positive : 0 < a.selectedProxy
      · simp [ProxySound, inGroups, positive, Int.not_lt.mpr (Int.le_of_lt positive)]
      · have dropped := deleteByGroup_getById row ids
        rw [if_pos inGroups] at dropped
        simp only [ProxySound, positive, inGroups, dropped, false_and, if_false, not_true_eq_false,
          Option.isSome_none, Bool.false_eq_true, or_false, imp_false]
        omega
    · have kept := deleteByGroup_getById row ids
      rw [if_neg inGroups] at kept
      simp [ProxySound, inGroups, kept]

theorem clearGroup_sound_iff (h : Sound a) (groupId : Int) :
    Sound (clearGroup a groupId) ↔ NoNegativeIn a [groupId] := by
  obtain ⟨store, selectedGroup⟩ := unselectIn_frame a [groupId]
  have profiles : SameProfiles
      { unselectIn a [groupId] with store := a.store.deleteByGroup [groupId] }
      (clearGroup a groupId) := ⟨rfl, by rw [← store]; rfl⟩
  have group : GroupSound (clearGroup a groupId) := by
    unfold GroupSound clearGroup
    dsimp only
    rw [Store.resetDanglingGroupProxies, Store.mapGroups_get, store, selectedGroup]
    exact h.2
  rw [Sound, profiles.proxySound_iff, unselectIn_proxySound_iff h.1]
  exact and_iff_left group

theorem removeGroups_group (s : Store B) (ids : List Int) (j : Int) :
    ((removeGroups s ids).groups.get j).isSome ↔ j ∉ ids ∧ (s.groups.get j).isSome := by
  unfold removeGroups
  rw [Store.resetDanglingGroupProxies, Store.mapGroups_get]
  have row := s.groups.toTable.get_delete (decide <| · ∈ ids) j
  change ((s.groups.toTable.delete _).get j).isSome ↔ _
  rw [row]
  by_cases listed : j ∈ ids <;> simp [listed]

/-- The end of both ways to delete groups. -/
def reselect (a : App B) (ids : List Int) : App B :=
  let (found, a) := anySelected a ids
  if found then resetSelectedGroup a else a

/-- Both ways to delete groups, once the ids are known. -/
def deleteGroupIds (a : App B) (ids : List Int) : App B :=
  let a := unselectIn a ids
  reselect { a with store := removeGroups a.store ids } ids

theorem deleteGroup_eq (a : App B) (groupId : Int) :
    deleteGroup a groupId = deleteGroupIds a [groupId] := by
  simp only [deleteGroup, deleteGroupIds, reselect, anySelected, eq_comm]
  split <;> rfl

theorem deleteGroups_eq (a : App B) (group : List ProxyGroup) :
    deleteGroups a group = deleteGroupIds a (group.map (·.id)) := rfl

theorem reselect_same (a : App B) (ids : List Int) : SameProfiles a (reselect a ids) := by
  unfold reselect
  dsimp only
  split
  · exact (anySelected_same ids a).trans ⟨rfl, rfl⟩
  · exact anySelected_same ids a

theorem reselect_groupSound {ids : List Int}
    (h : a.selectedGroup ∉ ids → GroupSound a) : GroupSound (reselect a ids) := by
  unfold reselect
  dsimp only
  split
  · exact resetSelectedGroup_groupSound _
  · rename_i unfound
    apply anySelected_groupSound
    by_cases positive : 0 < a.selectedGroup
    · exact h fun mem => unfound (anySelected_of_mem positive mem)
    · exact .inl (Int.not_lt.mp positive)

theorem deleteGroupIds_sound_iff (h : Sound a) (ids : List Int) :
    Sound (deleteGroupIds a ids) ↔ NoNegativeIn a ids := by
  obtain ⟨store, selectedGroup⟩ := unselectIn_frame a ids
  have removed : SameProfiles { unselectIn a ids with store := a.store.deleteByGroup ids }
      { unselectIn a ids with store := removeGroups (unselectIn a ids).store ids } :=
    ⟨rfl, by rw [store]; rfl⟩
  have group : GroupSound (deleteGroupIds a ids) := by
    apply reselect_groupSound
    intro other
    unfold GroupSound
    dsimp only at other ⊢
    rw [removeGroups_group, store, selectedGroup]
    rw [selectedGroup] at other
    exact h.2.imp id fun stored => ⟨other, stored⟩
  rw [Sound, deleteGroupIds, (removed.trans (reselect_same _ ids)).proxySound_iff,
    unselectIn_proxySound_iff h.1]
  exact and_iff_left group

end QuinMo.Selection
