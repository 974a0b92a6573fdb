import QuinMo.Selection.Restore
import QuinMo.Subscription.Reconcile

/-!
# Selections over runs of operations

An update of a subscription deletes the selected profile if it is no longer listed.
-/

namespace QuinMo.Selection

open Subscription AbstractBean

variable {C : Type} (F : BeanClass C)

/-- A selected profile of the group is the first row of a name that is still listed. -/
def StillListed (a : App (AbstractBean C)) (groupId : Int) (sub : Settings C)
    (parsed : List (AbstractBean C)) : Prop :=
  a.selectedProxy = 0 ∨ ∀ e ∈ a.store.getById a.selectedProxy, e.groupId = groupId →
    ∃ n ∈ (finalNodes F sub parsed).1,
      firstNamed F (a.store.getByGroup groupId) (displayName F n) = some e

instance [DecidableEq C] (a : App (AbstractBean C)) (groupId : Int) (sub : Settings C)
    (parsed : List (AbstractBean C)) : Decidable (StillListed F a groupId sub parsed) := by
  unfold StillListed
  infer_instance

/-- A row of the group survives an update if it is the first row of a listed name. -/
theorem doUpdate_keeps_iff {groupId : Int} {sub : Settings C} {parsed : List (AbstractBean C)}
    {s s' : Store (AbstractBean C)} {report : Report}
    (ok : doUpdate F groupId sub parsed s = .ok (s', report)) {id : Int} {e : Row C}
    (row : s.getById id = some e) : (s'.getById id).isSome ↔ (e.groupId = groupId →
      ∃ n ∈ (finalNodes F sub parsed).1,
        firstNamed F (s.getByGroup groupId) (displayName F n) = some e) := by
  obtain ⟨_, _, ok', _, finished⟩ := doUpdate_finished F groupId sub parsed (doUpdate_present F ok)
  rw [ok] at ok'
  cases ok'
  obtain ⟨mem, rfl⟩ := Store.getById_eq_some.mp row
  constructor
  · intro found inGroup
    -- A row without a task would be gone.
    by_contra unlisted
    have gone := finished.gone e (Store.mem_getByGroup.mpr ⟨mem, inGroup⟩) fun t ht old =>
      unlisted ⟨t.node, updateTasks_node F ht, updateTasks_old F ht ▸ old⟩
    rw [gone] at found
    cases found
  · intro listed
    by_cases inGroup : e.groupId = groupId
    · obtain ⟨n, hn, first⟩ := listed inGroup
      obtain ⟨t, ht, rfl⟩ := exists_task F groupId s hn
      rw [finished.getById_kept ht ((updateTasks_old F ht).trans first)]
      rfl
    · rw [finished.getById_other mem inGroup]
      rfl

theorem doUpdate_sound_iff {a : App (AbstractBean C)} (h : Sound a) {groupId : Int}
    {sub : Settings C} {parsed : List (AbstractBean C)} {s' : Store (AbstractBean C)}
    {report : Report} (ok : doUpdate F groupId sub parsed a.store = .ok (s', report)) :
    Sound { a with store := s' } ↔ StillListed F a groupId sub parsed := by
  have group : GroupSound { a with store := s' } := by
    unfold GroupSound
    rw [commit_group F (doUpdate_ok F ok)]
    exact h.2
  rw [Sound, and_iff_left group]
  unfold ProxySound StillListed
  dsimp only
  rcases h.1 with unselected | found
  · simp [unselected]
  · obtain ⟨e, row⟩ := Option.isSome_iff_exists.mp found
    rw [doUpdate_keeps_iff F ok row]
    simp only [row, Option.mem_def, Option.some.injEq, forall_eq']

inductive Op (C : Type) where
  | deleteProfile (groupId profileId : Int)
  | deleteProfiles (profiles : List (Row C))
  | clearGroup (groupId : Int)
  | deleteGroup (groupId : Int)
  | deleteGroups (group : List ProxyGroup)
  | doUpdate (groupId : Int) (sub : Settings C) (parsed : List (AbstractBean C))
  | finishImport (content : Backup (AbstractBean C)) (profile rule setting : Bool)

def step (a : App (AbstractBean C)) : Op C → Except String (App (AbstractBean C))
  | .deleteProfile groupId profileId => .ok (deleteProfile a groupId profileId)
  | .deleteProfiles profiles => .ok (deleteProfiles a profiles)
  | .clearGroup groupId => .ok (clearGroup a groupId)
  | .deleteGroup groupId => .ok (deleteGroup a groupId)
  | .deleteGroups group => .ok (deleteGroups a group)
  | .doUpdate groupId sub parsed => do
    let (store, _) ← doUpdate F groupId sub parsed a.store
    return { a with store }
  | .finishImport content profile rule setting => do
    let (a, _) ← finishImport a content profile rule setting
    return a

/-- The states after the operations that succeed; the others change nothing. -/
def states (a : App (AbstractBean C)) : List (Op C) → List (App (AbstractBean C))
  | [] => []
  | op :: ops =>
    match step F a op with
    | .ok a' => a' :: states a' ops
    | .error _ => states a ops

/-- What an operation needs of the state it is run in. -/
def Keeps (a : App (AbstractBean C)) : Op C → Prop
  | .deleteProfile _ _ => True
  | .deleteProfiles _ => True
  | .clearGroup groupId => NoNegativeIn a [groupId]
  | .deleteGroup groupId => NoNegativeIn a [groupId]
  | .deleteGroups group => NoNegativeIn a (group.map (·.id))
  | .doUpdate groupId sub parsed => StillListed F a groupId sub parsed
  | .finishImport content profile _ setting => Restorable a content profile setting

instance [DecidableEq C] (a : App (AbstractBean C)) : (op : Op C) → Decidable (Keeps F a op)
  | .deleteProfile _ _ => inferInstanceAs (Decidable True)
  | .deleteProfiles _ => inferInstanceAs (Decidable True)
  | .clearGroup groupId => inferInstanceAs (Decidable (NoNegativeIn a [groupId]))
  | .deleteGroup groupId => inferInstanceAs (Decidable (NoNegativeIn a [groupId]))
  | .deleteGroups group => inferInstanceAs (Decidable (NoNegativeIn a (group.map (·.id))))
  | .doUpdate groupId sub parsed =>
    inferInstanceAs (Decidable (StillListed F a groupId sub parsed))
  | .finishImport content profile _ setting =>
    inferInstanceAs (Decidable (Restorable a content profile setting))

/-- Every operation that succeeds has what it needs. -/
def KeepsAlong (a : App (AbstractBean C)) : List (Op C) → Prop
  | [] => True
  | op :: ops =>
    match step F a op with
    | .ok a' => Keeps F a op ∧ KeepsAlong a' ops
    | .error _ => KeepsAlong a ops

instance KeepsAlong.decidable [DecidableEq C] (a : App (AbstractBean C)) :
    (ops : List (Op C)) → Decidable (KeepsAlong F a ops)
  | [] => inferInstanceAs (Decidable True)
  | op :: ops => by
    unfold KeepsAlong
    have := fun a' => KeepsAlong.decidable a' ops
    split <;> infer_instance

theorem step_sound_iff {a a' : App (AbstractBean C)} {op : Op C} (h : Sound a)
    (ok : step F a op = .ok a') : Sound a' ↔ Keeps F a op := by
  cases op with
  | deleteProfile groupId profileId =>
    cases ok
    exact iff_true_intro (deleteProfile_sound h groupId profileId)
  | deleteProfiles profiles =>
    cases ok
    exact iff_true_intro (deleteProfiles_sound h profiles)
  | clearGroup groupId =>
    cases ok
    exact clearGroup_sound_iff h groupId
  | deleteGroup groupId =>
    cases ok
    rw [deleteGroup_eq]
    exact deleteGroupIds_sound_iff h [groupId]
  | deleteGroups group =>
    cases ok
    rw [deleteGroups_eq, deleteGroupIds_sound_iff h, Keeps]
  | doUpdate groupId sub parsed =>
    obtain ⟨⟨s', report⟩, updated, done⟩ := Outcome.bind_ok.mp ok
    cases done
    exact doUpdate_sound_iff F h updated
  | finishImport content profile rule setting =>
    obtain ⟨⟨b, skipped⟩, imported, done⟩ := Outcome.bind_ok.mp ok
    cases done
    exact import_sound_iff imported

/-- From a sound state, all states of a run are sound exactly if every operation has what
it needs. -/
theorem states_sound_iff {a : App (AbstractBean C)} (h : Sound a) (ops : List (Op C)) :
    (∀ a' ∈ states F a ops, Sound a') ↔ KeepsAlong F a ops := by
  induction ops generalizing a with
  | nil => simp [states, KeepsAlong]
  | cons op ops ih =>
    simp only [states, KeepsAlong]
    cases next : step F a op with
    | error message => exact ih h
    | ok a' =>
      dsimp only
      rw [List.forall_mem_cons, ← step_sound_iff F h next]
      exact and_congr_right fun sound => ih sound

/-! A subscription that does not list the name of the selected profile deletes it, one that does
not. -/

def sampleApp : App (AbstractBean V2Ray.StandardV2RayBean) where
  store := sampleStore
  rules := .empty
  selectedProxy := 1
  selectedGroup := 7

def sampleUpdate (name : String) : Op V2Ray.StandardV2RayBean :=
  .doUpdate 7 ⟨false, none, none⟩ [sampleBean name "d.example"]

theorem update_drops_selected : Sound sampleApp ∧
    ∃ a' ∈ states (V2Ray.beanClass .ascii) sampleApp [sampleUpdate "two"], ¬ Sound a' := by
  decide

/-- A backup of one profile, which is selected, with its group. -/
def sampleBackup : Backup (AbstractBean V2Ray.StandardV2RayBean) where
  profiles := some [.record (.fresh 5 9 1 (sampleBean "three" "g.example"))]
  groups := some [.broken, .record (sampleGroup 9)]
  rules := none
  settings := some [.record ⟨PROFILE_ID, .long 5⟩, .record ⟨PROFILE_GROUP, .long 4⟩]

theorem kept_run_sound : Sound sampleApp ∧ ∀ a' ∈ states (V2Ray.beanClass .ascii) sampleApp
    [sampleUpdate "one", .deleteProfile 7 1, .deleteGroup 7,
      .finishImport sampleBackup true true true,
      .clearGroup 9], Sound a' :=
  ⟨by decide, (states_sound_iff (V2Ray.beanClass .ascii) (by decide) _).mpr (by decide)⟩

end QuinMo.Selection
