import QuinMo.Selection.Editor

/-!
# Front and landing proxies that exist

Every path that deletes profiles unsets those that are gone. The editor writes back what it took
over when it was opened, and an import writes what the backup says.
-/

namespace QuinMo.Selection

open Subscription AbstractBean

variable {B : Type}

/-- A reference to no profile, or to one that exists. -/
def ValidRef (s : Store B) (id : Int) : Prop := id ≤ 0 ∨ (s.getById id).isSome

def ValidRefs (s : Store B) (g : ProxyGroup) : Prop :=
  ValidRef s g.frontProxy ∧ ValidRef s g.landingProxy

def RefsValid (s : Store B) : Prop := ∀ g ∈ s.groups.rows, ValidRefs s g

instance (s : Store B) (id : Int) : Decidable (ValidRef s id) := by
  unfold ValidRef
  infer_instance

instance (s : Store B) : Decidable (RefsValid s) := by
  unfold RefsValid ValidRefs
  infer_instance

/-- Every row of `s` has a row in `s'`. -/
def Keeping (s s' : Store B) : Prop := ∀ id, (s.getById id).isSome → (s'.getById id).isSome

variable {s : Store B} {a : App B} {s' : Store B}

theorem ValidRef.mono (keeping : Keeping s s') {id : Int} (h : ValidRef s id) : ValidRef s' id :=
  h.imp_right (keeping id)

theorem ValidRefs.mono (keeping : Keeping s s') {g : ProxyGroup}
    (h : ValidRefs s g) : ValidRefs s' g :=
  ⟨h.1.mono keeping, h.2.mono keeping⟩

/-- Groups may be changed in other columns, and profiles added. -/
theorem RefsValid.mono (h : RefsValid s) (keeping : Keeping s s')
    (groups : ∀ g' ∈ s'.groups.rows, ValidRefs s' g' ∨ ∃ g ∈ s.groups.rows, g'.frontProxy =
      g.frontProxy ∧ g'.landingProxy = g.landingProxy) :
    RefsValid s' := by
  intro g' mem
  rcases groups g' mem with valid | ⟨g, mem, front, landing⟩
  · exact valid
  · have valid := (h g mem).mono keeping
    unfold ValidRefs at valid ⊢
    rw [front, landing]
    exact valid

theorem resetDangling_valid (s : Store B) (id : Int) : ValidRef s (s.resetDangling id) := by
  unfold Store.resetDangling
  split
  · exact .inl (by decide)
  · rename_i kept
    by_cases positive : 0 < id
    · right
      by_contra missing
      exact kept ⟨positive, by simpa using missing⟩
    · exact .inl (Int.not_lt.mp positive)

/-- After the cleanup no reference dangles, whatever was there before. -/
theorem resetDanglingGroupProxies_valid (s : Store B) : RefsValid s.resetDanglingGroupProxies := by
  intro g' mem
  obtain ⟨g, _, rfl⟩ := List.mem_map.mp mem
  exact ⟨resetDangling_valid s g.frontProxy, resetDangling_valid s g.landingProxy⟩

theorem rearrange_valid (h : RefsValid s) (groupId : Int) : RefsValid (rearrange s groupId) := by
  apply h.mono
  · intro id found
    rw [rearrange_isSome]
    exact found
  · intro g mem
    rw [rearrange_groups] at mem
    exact .inr ⟨g, mem, rfl, rfl⟩

theorem afterDelete_valid (s : Store B) (groupId : Int) : RefsValid (afterDelete s groupId) := by
  unfold afterDelete
  dsimp only
  split
  · exact rearrange_valid (resetDanglingGroupProxies_valid s) groupId
  · exact resetDanglingGroupProxies_valid s

theorem deleteProfile_valid (h : RefsValid a.store) (groupId profileId : Int) :
    RefsValid (deleteProfile a groupId profileId).store := by
  unfold deleteProfile
  split
  · exact h
  · exact afterDelete_valid _ groupId

theorem deleteProfiles_valid (h : RefsValid a.store)
    (profiles : List (ProxyEntity B)) : RefsValid (deleteProfiles a profiles).store := by
  unfold deleteProfiles
  split
  · exact h
  · exact afterDelete_valid _ _

theorem clearGroup_valid (a : App B) (groupId : Int) : RefsValid (clearGroup a groupId).store :=
  resetDanglingGroupProxies_valid _

/-- Reading the selected group at most adds a group without references. -/
theorem currentGroupId_valid_iff (a : App B) :
    RefsValid (currentGroupId a).2.store ↔ RefsValid a.store := by
  unfold currentGroupId
  split
  · rfl
  · split
    · rfl
    · constructor
      · intro h g mem
        exact h g (List.mem_append_left _ mem)
      · intro h
        apply h.mono
        · exact fun id found => found
        · intro g mem
          rcases List.mem_append.mp mem with mem | mem
          · exact .inr ⟨g, mem, rfl, rfl⟩
          · rw [List.mem_singleton.mp mem]
            exact .inl ⟨.inl (by simp [ungroupedGroup]), .inl (by simp [ungroupedGroup])⟩

theorem anySelected_valid (ids : List Int) (h : RefsValid a.store) :
    RefsValid (anySelected a ids).2.store := by
  induction ids generalizing a with
  | nil => exact h
  | cons id ids ih =>
    simp only [anySelected]
    split
    · exact (currentGroupId_valid_iff a).mpr h
    · exact ih ((currentGroupId_valid_iff a).mpr h)

theorem deleteGroupIds_valid (a : App B) (ids : List Int) :
    RefsValid (deleteGroupIds a ids).store := by
  have removed := anySelected_valid ids
    (a := { unselectIn a ids with store := removeGroups (unselectIn a ids).store ids })
    (resetDanglingGroupProxies_valid _)
  unfold deleteGroupIds reselect
  dsimp only
  split
  · exact removed
  · exact removed

section
variable {C : Type} (F : BeanClass C)

theorem insertRow_keeping (s : Store (AbstractBean C)) (e : Row C) :
    Keeping s (insertRow F s e) := by
  intro id found
  obtain ⟨row, stored⟩ := Option.isSome_iff_exists.mp found
  obtain ⟨mem, rfl⟩ := Store.getById_eq_some.mp stored
  have kept : row ∈ (insertRow F s e).proxies.rows := List.mem_append_left _ mem
  rw [Store.getById_id kept]
  rfl

theorem Keeping.trans {s t u : Store B} (h : Keeping s t) (g : Keeping t u) : Keeping s u :=
  fun id found => g id (h id found)

theorem foldl_keeping {A : Type} {step : Store B → A → Store B} (each : ∀ s a, Keeping s (step s a))
    (as : List A) (s : Store B) : Keeping s (as.foldl step s) := by
  induction as generalizing s with
  | nil => exact fun _ found => found
  | cons a as ih => exact (each s a).trans (ih (step s a))

theorem rewriteRow_keeping (s : Store (AbstractBean C)) (e : Row C) :
    Keeping s (rewriteRow F s e) := by
  intro id found
  rw [rewriteRow_getById]
  split
  · rwa [Option.isSome_map]
  · exact found

theorem reorderRow_keeping (s : Store (AbstractBean C)) (e : Row C) :
    Keeping s (reorderRow s e) := by
  intro id found
  rw [reorderRow_getById]
  split
  · rwa [Option.isSome_map]
  · exact found

theorem writeNameserver_valid {s : Store (AbstractBean C)} (h : RefsValid s) (groupId : Int)
    (nameserver : Option String) : RefsValid (writeNameserver s groupId nameserver) := by
  unfold writeNameserver
  split
  · exact h
  · apply h.mono
    · exact fun _ found => found
    · intro g' mem
      obtain ⟨g, stored, rfl⟩ := List.mem_map.mp mem
      refine .inr ⟨g, stored, ?_⟩
      split <;> exact ⟨rfl, rfl⟩

/-- An update cleans up if it deletes anything, and else all profiles stay. -/
theorem commit_valid {groupId : Int} {nameserver : Option String} {toDelete : List (Row C)}
    {c : Changes C} {s s' : Store (AbstractBean C)} (h : RefsValid s)
    (ok : commit F groupId nameserver toDelete c s = .ok s') : RefsValid s' := by
  unfold commit at ok
  split at ok
  · cases ok
  · simp only [Except.ok.injEq] at ok
    rw [← ok]
    apply writeNameserver_valid
    split
    · rename_i nothing
      rw [List.isEmpty_iff.mp nothing]
      apply h.mono
      · intro id found
        have kept := ((foldl_keeping (insertRow_keeping F) c.toInsert s).trans
          (foldl_keeping (rewriteRow_keeping F) c.toUpdate _)).trans
          (foldl_keeping reorderRow_keeping c.toReorder _) id found
        rw [Store.deleteProxy, Store.getById_deleteIds, List.map_nil, if_neg List.not_mem_nil]
        exact kept
      · intro g mem
        refine .inr ⟨g, ?_, rfl, rfl⟩
        change g ∈ (List.foldl reorderRow _ c.toReorder).groups.rows at mem
        rwa [foldl_groups reorderRow (fun _ _ => rfl), foldl_groups _ (rewriteRow_groups F),
          foldl_groups (insertRow F) (fun _ _ => rfl)] at mem
    · exact resetDanglingGroupProxies_valid _

end

/-- Every reference of an imported group is to an imported profile. -/
def RefsImported (a : App B) (content : Backup B) (profile : Bool) : Prop :=
  match imported profile content.profiles with
  | none => True
  | some profiles =>
    let ids := Numbered.givenKeys a.store.proxies.sequence (profiles.map (·.id))
    ∀ g ∈ records (content.groups.getD []),
      (g.frontProxy ≤ 0 ∨ g.frontProxy ∈ ids) ∧ (g.landingProxy ≤ 0 ∨ g.landingProxy ∈ ids)

theorem refsImported_iff (a : App B) (content : Backup B) (profile : Bool) :
    (∀ profiles ∈ imported profile content.profiles, ∀ g ∈ records (content.groups.getD []),
      (g.frontProxy ≤ 0 ∨
        g.frontProxy ∈ Numbered.givenKeys a.store.proxies.sequence (profiles.map (·.id))) ∧
      (g.landingProxy ≤ 0 ∨
        g.landingProxy ∈ Numbered.givenKeys a.store.proxies.sequence (profiles.map (·.id)))) ↔
      RefsImported a content profile := by
  unfold RefsImported
  cases imported profile content.profiles <;> simp

instance (a : App B) (content : Backup B) (profile : Bool) :
    Decidable (RefsImported a content profile) :=
  decidable_of_iff _ (refsImported_iff a content profile)

theorem replaceProfiles_valid_iff {profiles : List (ProxyEntity B)}
    {groups : List ProxyGroup} (ok : replaceProfiles s profiles groups = .ok s') :
    RefsValid s' ↔ ∀ g ∈ groups, ValidRefs s' g := by
  obtain ⟨proxies, _, rest⟩ := Outcome.bind_ok.mp ok
  obtain ⟨groups', groupsOk, done⟩ := Outcome.bind_ok.mp rest
  cases done
  have given : (Numbered.givenRows (·.id) (fun (g : ProxyGroup) id => { g with id })
      (s.groups.delete fun _ => true).sequence groups).map
        (fun g => (g.frontProxy, g.landingProxy)) =
        groups.map fun g => (g.frontProxy, g.landingProxy) := by
    apply Numbered.givenRows_map
    exact fun _ _ => rfl
  have refs : groups'.rows.map (fun g => (g.frontProxy, g.landingProxy)) =
      groups.map fun g => (g.frontProxy, g.landingProxy) := by
    rw [Numbered.insertAll_rows groupsOk, List.map_append, given]
    simp [Numbered.delete, Table.delete]
  have pairs (l : List ProxyGroup) (s : Store B) : (∀ g ∈ l, ValidRefs s g) ↔
      ∀ p ∈ l.map fun g => (g.frontProxy, g.landingProxy), ValidRef s p.1 ∧ ValidRef s p.2 := by
    simp [ValidRefs]
  unfold RefsValid
  rw [pairs, pairs, refs]

theorem settle_valid_iff (a : App B) : RefsValid (settle a).store ↔ RefsValid a.store := by
  unfold settle
  dsimp only
  split
  · have read := (currentGroupId_valid_iff (currentGroupId a).2).trans (currentGroupId_valid_iff a)
    split
    · exact read
    · exact read
  · exact currentGroupId_valid_iff a

theorem replaceSettings_valid_iff {a' : App B} {settings : List KeyValuePair}
    (ok : replaceSettings a settings = .ok a') : RefsValid a'.store ↔ RefsValid a.store := by
  obtain ⟨_, _, rfl⟩ := replaceSettings_ok ok
  exact settle_valid_iff _

theorem import_valid_iff {a' : App B} (h : RefsValid a.store) {content : Backup B}
    {profile rule setting : Bool} {skipped : Nat}
    (ok : finishImport a content profile rule setting = .ok (a', skipped)) :
    RefsValid a'.store ↔ RefsImported a content profile := by
  obtain ⟨sections, decoded, ok⟩ := Outcome.bind_ok.mp ok
  obtain ⟨replaced, replacedOk, done⟩ := Outcome.bind_ok.mp ok
  cases done
  obtain ⟨profiles, _⟩ := decodeBackup_records decoded
  obtain ⟨store, stored, rest⟩ := Outcome.bind_ok.mp replacedOk
  obtain ⟨rules, _, final⟩ := Outcome.bind_ok.mp rest
  have settings : RefsValid a'.store ↔ RefsValid store := by
    cases written : sections.settings with
    | none =>
      rw [written] at final
      cases final
      rfl
    | some records =>
      rw [written] at final
      exact replaceSettings_valid_iff final
  rw [settings]
  rw [profiles, profilesOf] at stored
  unfold RefsImported
  cases importing : imported profile content.profiles with
  | none =>
    rw [importing] at stored
    cases stored
    exact iff_true_intro h
  | some records' =>
    rw [importing] at stored
    have rows := replaceProfiles_stored stored
    have valid := replaceProfiles_valid_iff stored
    simp only [ValidRefs, ValidRef, (rows _).1] at valid
    exact valid

/-- What the editor would write can be written: it does not save, or its copy refers to
profiles that exist. -/
def Savable (s : Session B) : Prop :=
  ∀ ed ∈ s.editor, ed.editingId = 0 ∨
      (ed.dirty = true ∧ (s.app.store.groups.get ed.editingId).isSome) →
    ValidRef s.app.store ed.front ∧ ValidRef s.app.store ed.landing

instance (s : Session B) : Decidable (Savable s) := by
  unfold Savable
  infer_instance

theorem createGroup_valid_iff (h : RefsValid s) (group : ProxyGroup) :
    RefsValid (createGroup s group) ↔ ValidRefs s group := by
  constructor
  · intro valid
    have saved := valid _ (List.mem_append_right _ (List.mem_singleton_self _))
    exact saved
  · intro valid g mem
    rcases List.mem_append.mp mem with mem | mem
    · exact h g mem
    · rw [List.mem_singleton.mp mem]
      exact valid

theorem updateGroup_valid_iff (h : RefsValid s) (group : ProxyGroup)
    {entity : ProxyGroup} (stored : s.groups.get group.id = some entity) :
    RefsValid (updateGroup s group) ↔ ValidRefs s group := by
  obtain ⟨mem, id⟩ := Table.get_eq_some.mp stored
  constructor
  · intro valid
    have saved := valid _ (List.mem_map_of_mem mem)
    rw [if_pos id] at saved
    exact saved
  · intro valid g' mem'
    obtain ⟨g, old, rfl⟩ := List.mem_map.mp mem'
    by_cases written : g.id = group.id
    · rw [if_pos written]
      exact valid
    · rw [if_neg written]
      exact h g old

theorem saveAndExit_valid_iff {s : Session B} (h : RefsValid s.app.store) :
    RefsValid (saveAndExit s).app.store ↔ Savable s := by
  unfold saveAndExit Savable
  cases s.editor with
  | none => simpa using h
  | some ed =>
    simp only [Option.mem_def, Option.some.injEq, forall_eq']
    by_cases new : ed.editingId = 0
    · simp only [new, if_true, true_or, forall_const]
      exact createGroup_valid_iff h _
    · simp only [new, if_false, false_or]
      cases dirty : ed.dirty with
      | false => simpa using h
      | true =>
        cases stored : s.app.store.groups.get ed.editingId with
        | none => simpa using h
        | some entity =>
          have id : entity.id = ed.editingId := (Table.get_eq_some.mp stored).2
          simp only [if_true, Option.isSome_some, and_self, forall_const]
          exact updateGroup_valid_iff h (ed.serialize entity) (id ▸ stored)

/-! ## Runs -/

variable {C : Type} (F : BeanClass C)

/-- What an action needs of the state it is taken in. -/
def KeepsRefs (s : Session (AbstractBean C)) : Action C → Prop
  | .op (.finishImport content profile _ _) => RefsImported s.app content profile
  | .saveAndExit => Savable s
  | _ => True

instance (s : Session (AbstractBean C)) (a : Action C) : Decidable (KeepsRefs s a) := by
  unfold KeepsRefs
  split <;> infer_instance

/-- Every action that succeeds has what it needs. -/
def KeepsRefsAlong (s : Session (AbstractBean C)) : List (Action C) → Prop
  | [] => True
  | a :: as =>
    match act F s a with
    | .ok s' => KeepsRefs s a ∧ KeepsRefsAlong s' as
    | .error _ => KeepsRefsAlong s as

instance KeepsRefsAlong.decidable (s : Session (AbstractBean C)) :
    (as : List (Action C)) → Decidable (KeepsRefsAlong F s as)
  | [] => inferInstanceAs (Decidable True)
  | a :: as => by
    unfold KeepsRefsAlong
    have := fun s' => KeepsRefsAlong.decidable s' as
    split <;> infer_instance

theorem step_valid_iff {a a' : App (AbstractBean C)} {op : Op C} (h : RefsValid a.store)
    (ok : step F a op = .ok a') (editor : Option Editor) :
    RefsValid a'.store ↔ KeepsRefs { app := a, editor } (.op op) := by
  cases op with
  | deleteProfile groupId profileId =>
    cases ok
    exact iff_true_intro (deleteProfile_valid h groupId profileId)
  | deleteProfiles profiles =>
    cases ok
    exact iff_true_intro (deleteProfiles_valid h profiles)
  | clearGroup groupId =>
    cases ok
    exact iff_true_intro (clearGroup_valid a groupId)
  | deleteGroup groupId =>
    cases ok
    rw [deleteGroup_eq]
    exact iff_true_intro (deleteGroupIds_valid a [groupId])
  | deleteGroups group =>
    cases ok
    rw [deleteGroups_eq]
    exact iff_true_intro (deleteGroupIds_valid a _)
  | doUpdate groupId sub parsed =>
    obtain ⟨⟨s', report⟩, updated, done⟩ := Outcome.bind_ok.mp ok
    cases done
    exact iff_true_intro (commit_valid F h (doUpdate_ok F updated))
  | finishImport content profile rule setting =>
    obtain ⟨⟨b, skipped⟩, imported, done⟩ := Outcome.bind_ok.mp ok
    cases done
    exact import_valid_iff h imported

theorem openEditor_app (s : Session B) (groupId : Int) : (openEditor s groupId).app = s.app := by
  unfold openEditor
  repeat' split
  all_goals rfl

theorem pickProfile_app (s : Session B) (profileId : Int) (choose : Editor → Editor) :
    (pickProfile s profileId choose).app = s.app := by
  unfold pickProfile
  split <;> rfl

theorem act_valid_iff {s s' : Session (AbstractBean C)} {a : Action C} (h : RefsValid s.app.store)
    (ok : act F s a = .ok s') : RefsValid s'.app.store ↔ KeepsRefs s a := by
  cases a with
  | op op =>
    obtain ⟨app, stepped, done⟩ := Outcome.bind_ok.mp ok
    cases done
    exact step_valid_iff F h stepped s.editor
  | openEditor groupId =>
    cases ok
    rw [openEditor_app]
    exact iff_true_intro h
  | pickFront id =>
    cases ok
    rw [pickProfile_app]
    exact iff_true_intro h
  | pickLanding id =>
    cases ok
    rw [pickProfile_app]
    exact iff_true_intro h
  | unsetFront =>
    cases ok
    exact iff_true_intro h
  | unsetLanding =>
    cases ok
    exact iff_true_intro h
  | edit type isSelector proxyServerNameserver =>
    cases ok
    exact iff_true_intro h
  | saveAndExit =>
    cases ok
    exact saveAndExit_valid_iff h

/-- All states of a run have valid references exactly if every save and every import of
the run writes only references that are valid where it is run. -/
theorem sessions_valid_iff {s : Session (AbstractBean C)} (h : RefsValid s.app.store)
    (as : List (Action C)) :
    (∀ s' ∈ sessions F s as, RefsValid s'.app.store) ↔ KeepsRefsAlong F s as := by
  induction as generalizing s with
  | nil => simp [sessions, KeepsRefsAlong]
  | cons a as ih =>
    simp only [sessions, KeepsRefsAlong]
    cases next : act F s a with
    | error message => exact ih h
    | ok s' =>
      dsimp only
      rw [List.forall_mem_cons, ← act_valid_iff F h next]
      exact and_congr_right fun valid => ih valid

/-! The front proxy of group 8 is picked in the editor, deleted, and written back. -/

def sampleSession : Session (AbstractBean V2Ray.StandardV2RayBean) := ⟨sampleApp, none⟩

theorem stale_editor_dangles : RefsValid sampleSession.app.store ∧
    ∃ s' ∈ sessions (V2Ray.beanClass .ascii) sampleSession
      [.openEditor 8, .pickFront 1, .op (.deleteProfile 7 1), .saveAndExit],
      ¬ RefsValid s'.app.store := by
  decide

theorem fresh_editor_valid : RefsValid sampleSession.app.store ∧
    ∀ s' ∈ sessions (V2Ray.beanClass .ascii) sampleSession
      [.openEditor 8, .op (.deleteProfile 7 1), .pickFront 2, .saveAndExit, .op (.clearGroup 7),
        .op (.finishImport sampleBackup true true true)], RefsValid s'.app.store :=
  ⟨by decide, (sessions_valid_iff (V2Ray.beanClass .ascii) (by decide) _).mpr (by decide)⟩

end QuinMo.Selection
