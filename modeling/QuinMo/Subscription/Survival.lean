import QuinMo.Lib.Run
import QuinMo.Subscription.Reconcile

/-!
# Profiles over runs of updates

An update keeps the row of a name that it lists and deletes the others of its group. Any number of
groups are updated in any order, and an update of a group that is gone fails.
-/

namespace QuinMo.Subscription

open Text AbstractBean

variable {C : Type}

/-- An update whose nodes have names of their own. -/
structure Update (F : BeanClass C) where
  groupId : Int
  sub : Settings C
  parsed : List (AbstractBean C)
  named : ∀ n ∈ (finalNodes F sub parsed).1, isBlank n.name = false

variable {F : BeanClass C} {s s' : Store (AbstractBean C)} {u : Update F} {e : Row C}

def Update.step (s : Store (AbstractBean C)) (u : Update F) : Option (Store (AbstractBean C)) :=
  match doUpdate F u.groupId u.sub u.parsed s with
  | .ok (s', _) => some s'
  | .error _ => none

/-- The update is of another group, or lists the name of the row. -/
def Update.Lists (e : Row C) (u : Update F) : Prop :=
  u.groupId = e.groupId → rowName F e ∈ (finalNodes F u.sub u.parsed).1.map (displayName F)

variable (F) in
/-- The row is there with its id, its statistics and its custom JSON, as the only one of its
name. -/
structure Lives (e : Row C) (s : Store (AbstractBean C)) : Prop where
  row : ∃ row ∈ s.getByGroup e.groupId, rowName F row = rowName F e ∧
    row = { e with userOrder := row.userOrder, bean := row.bean } ∧
    row.bean.customOutboundJson = e.bean.customOutboundJson ∧
    row.bean.customConfigJson = e.bean.customConfigJson
  only : ∀ d ∈ s.getByGroup e.groupId, rowName F d = rowName F e → d.id = e.id

theorem namesStored_of_named {groupId : Int} {nodes : List (AbstractBean C)}
    (named : ∀ n ∈ nodes, isBlank n.name = false) : NamesStored F groupId nodes s := by
  intro n listed
  have name : (stored F (mergedNode F groupId s n)).name = n.name := by
    rw [stored_eq, mergedNode]
    split <;> rfl
  rw [displayName_named F n (named n listed), displayName_named, name]
  rw [name]
  exact named n listed

theorem Lives.first (lives : Lives F e s) {row : Row C} (there : row ∈ s.getByGroup e.groupId)
    (name : rowName F row = rowName F e) :
    firstNamed F (s.getByGroup e.groupId) (rowName F e) = some row := by
  cases found : firstNamed F (s.getByGroup e.groupId) (rowName F e) with
  | none => exact absurd name (by simpa using List.find?_eq_none.mp found row there)
  | some d =>
    obtain ⟨mem, name'⟩ := firstNamed_some F found
    have same := (lives.only d mem name').trans (lives.only row there name).symm
    rw [List.inj_on_of_nodup_map s.proxies.unique (Store.mem_getByGroup.mp mem).1
      (Store.mem_getByGroup.mp there).1 same]

/-- What an update that succeeds leaves: a row for every node, and the rows of other groups. -/
theorem Update.step_rows (next : u.step s = some s') :
    List.Forall₂ (RowOf F u.groupId s) (s'.getByGroup u.groupId) (finalNodes F u.sub u.parsed).1 ∧
      ∀ e : Row C, e.groupId ≠ u.groupId → (e ∈ s'.proxies.rows ↔ e ∈ s.proxies.rows) := by
  obtain ⟨report, ok⟩ : ∃ report, doUpdate F u.groupId u.sub u.parsed s = .ok (s', report) := by
    unfold Update.step at next
    split at next <;> cases next
    exact ⟨_, ‹_›⟩
  obtain ⟨_, _, ok', -, finished⟩ := doUpdate_finished F u.groupId u.sub u.parsed
    (doUpdate_present F ok)
  cases ok.symm.trans ok'
  refine ⟨finished.rowOf fun n listed => .inr (namesStored_of_named u.named n listed), ?_⟩
  intro e other
  constructor
  · intro mem
    rcases finished.row_cases mem with inTarget | old
    · exact absurd (Store.mem_getByGroup.mp (finished.mem_getByGroup.mpr inTarget)).2 other
    · exact old.1
  · intro mem
    exact (Store.getById_eq_some.mp (finished.getById_other mem other)).1

/-- One update lets the profile live exactly if it lists it. -/
theorem Update.step_lives (lives : Lives F e s) (next : u.step s = some s') :
    Lives F e s' ↔ u.Lists e := by
  obtain ⟨rows, others⟩ := u.step_rows next
  by_cases own : u.groupId = e.groupId
  · rw [own] at rows
    have names := rowOf_names rows
    constructor
    · rintro ⟨⟨row, mem, name, -⟩, -⟩ -
      rw [← names, ← name]
      exact List.mem_map_of_mem mem
    · intro lists
      have listed := lists own
      rw [← names] at listed
      obtain ⟨row, mem, name⟩ := List.mem_map.mp listed
      obtain ⟨old, there, oldName, kept, outbound, config⟩ := lives.row
      obtain ⟨i, inside, rfl⟩ := List.getElem_of_mem mem
      have rowOf := rows.get inside (rows.length_eq ▸ inside)
      have first := lives.first there oldName
      rw [← name] at first
      obtain ⟨whole, outbound', config'⟩ := rowOf.kept old (rowOf.name ▸ first)
      have own : (s'.getByGroup e.groupId)[i] = { e with userOrder := _, bean := _ } :=
        whole.trans (by rw [kept])
      refine ⟨⟨_, mem, name, own, outbound'.trans outbound, config'.trans config⟩, ?_⟩
      intro d mem' name'
      have distinct : ((s'.getByGroup e.groupId).map (rowName F)).Nodup :=
        names ▸ finalNodes_distinct F u.sub u.parsed
      rw [List.inj_on_of_nodup_map distinct mem' mem (name'.trans name.symm), own]
  · have same : ∀ d : Row C, d ∈ s'.getByGroup e.groupId ↔ d ∈ s.getByGroup e.groupId := by
      intro d
      rw [Store.mem_getByGroup, Store.mem_getByGroup]
      apply and_congr_left
      intro inGroup
      exact others d fun same => own (same.symm.trans inGroup)
    apply iff_of_true
    · obtain ⟨⟨row, mem, found⟩, only⟩ := lives
      exact ⟨⟨row, (same row).mpr mem, found⟩, fun d mem => only d ((same d).mp mem)⟩
    · exact fun same => absurd same own

/-- All along a run of updates the profile lives exactly if every update of its group that
succeeds lists its name. -/
theorem lives_along_iff (lives : Lives F e s) (updates : List (Update F)) :
    (∀ s' ∈ Run.states Update.step s updates, Lives F e s') ↔
      Run.Along Update.step (fun _ u => u.Lists e) s updates :=
  Run.states_iff (fun _ => True) (fun _ _ _ _ lives next => Update.step_lives lives next)
    (fun _ _ _ _ _ _ _ => trivial) trivial lives updates

/-- The only profile of group 8, and an update with a node of its name. -/
def third : Row V2Ray.StandardV2RayBean := .fresh 3 8 1 (sampleBean "one" "c.example")

def renewed : Update (V2Ray.beanClass .ascii) :=
  ⟨8, ⟨false, none, none⟩, [sampleBean "one" "e.example"], by decide⟩

theorem third_lives : Lives (V2Ray.beanClass .ascii) third sampleStore ∧
    ∀ s' ∈ Run.states Update.step sampleStore [renewed],
      Lives (V2Ray.beanClass .ascii) third s' := by
  have lives : Lives (V2Ray.beanClass .ascii) third sampleStore :=
    ⟨⟨third, by decide, rfl, rfl, rfl, rfl⟩, by decide⟩
  refine ⟨lives, (lives_along_iff lives _).mpr ?_⟩
  unfold Run.Along
  split
  · exact ⟨fun _ => by decide, trivial⟩
  · trivial

end QuinMo.Subscription
