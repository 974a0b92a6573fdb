import QuinMo.Selection.Pointers

/-!
# Selections after the import of a backup

An import looks at the selected group where it imports settings, and nowhere at the selected
profile.
-/

namespace QuinMo.Selection

variable {B : Type}

def records {T : Type} (array : List (Encoded T)) : List T :=
  array.filterMap fun
    | .record value => some value
    | _ => none

/-- The records of a section that is imported. -/
def imported {T : Type} (wanted : Bool) (array : Option (List (Encoded T))) : Option (List T) :=
  if wanted then array.map records else none

/-- The selected profile after an import: the imported setting, or the old one. -/
def selectionAfter (a : App B) (content : Backup B) (setting : Bool) : Int :=
  match imported setting content.settings with
  | some settings => (settingLong settings PROFILE_ID).getD 0
  | none => a.selectedProxy

/-- The id is that of an imported profile, or of a stored one where none are imported. -/
def ProfileAfter (a : App B) (content : Backup B) (profile : Bool) (id : Int) : Prop :=
  match imported profile content.profiles with
  | some profiles => id ∈ Numbered.givenKeys a.store.proxies.sequence (profiles.map (·.id))
  | none => (a.store.getById id).isSome

/-- The same for a group; groups are imported with the profiles. -/
def GroupAfter (a : App B) (content : Backup B) (profile : Bool) (id : Int) : Prop :=
  if (imported profile content.profiles).isSome then
    id ∈ Numbered.givenKeys a.store.groups.sequence ((records (content.groups.getD [])).map (·.id))
  else (a.store.groups.get id).isSome

/-- The backup has the profile that will be selected and, unless it also brings settings,
the group that is selected. -/
structure Restorable (a : App B) (content : Backup B) (profile setting : Bool) : Prop where
  proxy : selectionAfter a content setting = 0 ∨
    ProfileAfter a content profile (selectionAfter a content setting)
  group : imported setting content.settings = none →
    a.selectedGroup ≤ 0 ∨ GroupAfter a content profile a.selectedGroup

variable {content : Backup B} {skipped : Nat} {a : App B} {profile : Bool}

theorem restorable_iff {setting : Bool} : Restorable a content profile setting ↔
      (selectionAfter a content setting = 0 ∨
        ProfileAfter a content profile (selectionAfter a content setting)) ∧
      (imported setting content.settings = none →
        a.selectedGroup ≤ 0 ∨ GroupAfter a content profile a.selectedGroup) :=
  ⟨fun h => ⟨h.proxy, h.group⟩, fun h => ⟨h.1, h.2⟩⟩

instance (a : App B) (content : Backup B) (profile : Bool) (id : Int) :
    Decidable (ProfileAfter a content profile id) := by
  unfold ProfileAfter
  split <;> infer_instance

instance (a : App B) (content : Backup B) (profile : Bool) (id : Int) :
    Decidable (GroupAfter a content profile id) := by
  unfold GroupAfter
  infer_instance

instance (a : App B) (content : Backup B) (profile setting : Bool) :
    Decidable (Restorable a content profile setting) :=
  have : Decidable (imported setting content.settings = none) :=
    decidable_of_iff _ Option.isNone_iff_eq_none
  decidable_of_iff _ restorable_iff.symm

theorem decodeFrom_records {T : Type} {key : String} {i : Nat} {array : List (Encoded T)}
    {result : List T} (ok : decodeFrom key i array = .ok (result, skipped)) :
    result = records array := by
  induction array generalizing i result skipped with
  | nil =>
    cases ok
    rfl
  | cons entry rest ih =>
    cases entry with
    | notText => cases ok
    | broken =>
      obtain ⟨⟨result', skipped'⟩, decoded, done⟩ := Outcome.bind_ok.mp ok
      cases done
      exact ih decoded
    | record value =>
      obtain ⟨⟨result', skipped'⟩, decoded, done⟩ := Outcome.bind_ok.mp ok
      cases done
      exact congrArg (value :: ·) (ih decoded)

theorem decodeArray_records {T : Type} {key : String} {array : Option (List (Encoded T))}
    {result : List T} (ok : decodeArray key array = .ok (result, skipped)) :
    array.map records = some result := by
  cases array with
  | none => cases ok
  | some array =>
    obtain ⟨⟨result', skipped'⟩, decoded, done⟩ := Outcome.bind_ok.mp ok
    dsimp only at done
    split at done
    · cases done
    · cases done
      exact congrArg some (decodeFrom_records decoded).symm

theorem decodeSection_records {T : Type} {wanted : Bool} {key : String}
    {array : Option (List (Encoded T))} {result : Option (List T)}
    (ok : decodeSection wanted key array = .ok (result, skipped)) :
    result = imported wanted array := by
  unfold decodeSection at ok
  cases wanted with
  | false =>
    cases ok
    rfl
  | true =>
    cases array with
    | none =>
      cases ok
      rfl
    | some array =>
      obtain ⟨⟨result', skipped'⟩, decoded, done⟩ := Outcome.bind_ok.mp ok
      cases done
      exact (decodeArray_records decoded).symm

/-- Profiles are imported, with all groups, or neither are. -/
def profilesOf (content : Backup B) (wanted : Bool) :
    Option (List (ProxyEntity B) × List ProxyGroup) :=
  (imported wanted content.profiles).map (·, records (content.groups.getD []))

theorem decodeProfiles_records {wanted : Bool}
    {result : Option (List (ProxyEntity B) × List ProxyGroup)}
    (ok : decodeProfiles wanted content = .ok (result, skipped)) :
    result = profilesOf content wanted := by
  obtain ⟨⟨profiles, skippedProfiles⟩, decoded, done⟩ := Outcome.bind_ok.mp ok
  rw [profilesOf, ← decodeSection_records decoded]
  cases profiles with
  | none =>
    cases done
    rfl
  | some profiles =>
    obtain ⟨⟨groups, skippedGroups⟩, groupsDecoded, done⟩ := Outcome.bind_ok.mp done
    cases done
    obtain ⟨array, present, rfl⟩ := Option.map_eq_some_iff.mp (decodeArray_records groupsDecoded)
    rw [present]
    rfl

theorem decodeBackup_records {rule setting : Bool}
    {sections : Sections B} (ok : decodeBackup content profile rule setting = .ok sections) :
    sections.profiles = profilesOf content profile ∧
      sections.rules = imported rule content.rules ∧
      sections.settings = imported setting content.settings := by
  obtain ⟨⟨profiles, skippedProfiles⟩, profilesDecoded, ok⟩ := Outcome.bind_ok.mp ok
  obtain ⟨⟨rules, skippedRules⟩, rulesDecoded, ok⟩ := Outcome.bind_ok.mp ok
  obtain ⟨⟨settings, skippedSettings⟩, settingsDecoded, done⟩ := Outcome.bind_ok.mp ok
  cases done
  exact ⟨decodeProfiles_records profilesDecoded, decodeSection_records rulesDecoded,
    decodeSection_records settingsDecoded⟩

/-! ## Replacing the rows and the settings -/

theorem delete_insertAll_isSome {R : Type} {key : R → Int} {t t' : Numbered R key}
    {setKey : R → Int → R} {sets : ∀ r k, key (setKey r k) = k} {rs : List R}
    (ok : (t.delete fun _ => true).insertAll setKey sets rs = .ok t') (k : Int) :
    (t'.get k).isSome ↔ k ∈ Numbered.givenKeys t.sequence (rs.map key) := by
  rw [Numbered.get_isSome, Numbered.insertAll_keys ok]
  simp [Numbered.delete, Table.delete]

theorem replaceProfiles_stored {s s' : Store B} {profiles : List (ProxyEntity B)}
    {groups : List ProxyGroup} (ok : replaceProfiles s profiles groups = .ok s') (id : Int) :
    ((s'.getById id).isSome ↔ id ∈ Numbered.givenKeys s.proxies.sequence (profiles.map (·.id))) ∧
      ((s'.groups.get id).isSome ↔
        id ∈ Numbered.givenKeys s.groups.sequence (groups.map (·.id))) := by
  obtain ⟨proxies, proxiesOk, ok⟩ := Outcome.bind_ok.mp ok
  obtain ⟨groups', groupsOk, done⟩ := Outcome.bind_ok.mp ok
  cases done
  exact ⟨delete_insertAll_isSome proxiesOk id, delete_insertAll_isSome groupsOk id⟩

theorem settle_eq (a : App B) : settle a =
    if 0 < (currentGroupId a).1 ∧ ((currentGroupId a).2.store.groups.get (currentGroupId a).1).isNone
    then resetSelectedGroup (currentGroupId a).2 else (currentGroupId a).2 := by
  unfold settle
  dsimp only
  by_cases positive : 0 < (currentGroupId a).1
  · have again : currentGroupId (currentGroupId a).2 = currentGroupId a := by
      rw [currentGroupId_selected] at positive
      exact (if_pos positive).trans (Prod.ext (currentGroupId_selected a).symm rfl)
    simp only [positive, again, if_true, true_and]
  · simp only [positive, if_false, false_and]

theorem settle_spec (a : App B) : SameProfiles a (settle a) ∧ GroupSound (settle a) := by
  have read := currentGroupId_same a
  rw [settle_eq, currentGroupId_selected a]
  split
  · exact ⟨read.trans ⟨rfl, rfl⟩, resetSelectedGroup_groupSound _⟩
  · rename_i known
    refine ⟨read, or_iff_not_imp_left.mpr fun positive => ?_⟩
    simpa [Int.not_le.mp positive, Option.isSome_iff_ne_none] using known

/-- If neither the selected group nor the number of groups changes, a group was selected. -/
theorem selected_of_settle (ids : ∀ g ∈ a.store.groups.rows, 0 < g.id)
    (same : (settle a).selectedGroup = a.selectedGroup)
    (count : (settle a).store.groups.rows.length = a.store.groups.rows.length) :
    0 < a.selectedGroup := by
  by_contra unselected
  cases first : firstGroupId a.store with
  | none =>
    have created : (settle a).store = (currentGroupId a).2.store := by
      rw [settle_eq]
      split <;> rfl
    rw [created] at count
    simp [currentGroupId, unselected, first, Numbered.place, Table.add] at count
  | some id =>
    obtain ⟨g, listed, rfl⟩ := List.mem_map.mp ((a.store.groups.get_isSome id).mp
      (firstGroupId_stored first))
    have current : currentGroupId a = (g.id, { a with selectedGroup := g.id }) := by
      rw [currentGroupId, if_neg unselected, first]
    have chosen : (settle a).selectedGroup = g.id := by
      rw [settle_eq, current]
      split
      · simp [resetSelectedGroup, first]
      · rfl
    have := ids g listed
    omega

theorem replaceSettings_ok {a' : App B} {settings : List KeyValuePair}
    (ok : replaceSettings a settings = .ok a') :
    ∃ group, getLong settings PROFILE_GROUP = .ok group ∧ a' = settle { a with
      selectedProxy := (settingLong settings PROFILE_ID).getD 0
      selectedGroup := group.getD (-1) } := by
  unfold replaceSettings at ok
  split at ok
  · obtain ⟨group, read, done⟩ := Outcome.bind_ok.mp ok
    cases done
    exact ⟨group, read, rfl⟩
  · cases ok

/-- The selected group is checked, the selected profile is taken as it comes. -/
theorem replaceSettings_spec {a' : App B} {settings : List KeyValuePair}
    (ok : replaceSettings a settings = .ok a') :
    SameProfiles { a with selectedProxy := (settingLong settings PROFILE_ID).getD 0 } a' ∧
      GroupSound a' := by
  obtain ⟨group, _, rfl⟩ := replaceSettings_ok ok
  obtain ⟨same, sound⟩ := settle_spec { a with
    selectedProxy := (settingLong settings PROFILE_ID).getD 0
    selectedGroup := group.getD (-1) }
  exact ⟨⟨same.selected, same.proxies⟩, sound⟩

/-- The state with the imported rows, before the settings are written. -/
structure RowsImported (a : App B) (content : Backup B) (profile : Bool) (b : App B) : Prop where
  selectedProxy : b.selectedProxy = a.selectedProxy
  selectedGroup : b.selectedGroup = a.selectedGroup
  proxies : ∀ id, (b.store.getById id).isSome ↔ ProfileAfter a content profile id
  groups : ∀ id, (b.store.groups.get id).isSome ↔ GroupAfter a content profile id

theorem replaceSections_rows {a' : App B}
    {sections : Sections B} (profiles : sections.profiles = profilesOf content profile)
    (ok : replaceSections a sections = .ok a') : ∃ b, RowsImported a content profile b ∧
      replaceWith replaceSettings b sections.settings = .ok a' := by
  obtain ⟨store, stored, ok⟩ := Outcome.bind_ok.mp ok
  obtain ⟨rules, -, done⟩ := Outcome.bind_ok.mp ok
  refine ⟨{ a with store, rules }, ?_, done⟩
  rw [profiles, profilesOf] at stored
  cases importing : imported profile content.profiles with
  | none =>
    rw [importing] at stored
    cases stored
    exact ⟨rfl, rfl, by simp [ProfileAfter, importing], by simp [GroupAfter, importing]⟩
  | some records =>
    rw [importing] at stored
    have rows := replaceProfiles_stored stored
    exact ⟨rfl, rfl, by simpa [ProfileAfter, importing] using fun id => (rows id).1,
      by simpa [GroupAfter, importing] using fun id => (rows id).2⟩

/-- A successful import leaves both selections sound exactly if the backup has what they
name. -/
theorem import_sound_iff {a' : App B} {rule setting : Bool}
    (ok : finishImport a content profile rule setting = .ok (a', skipped)) :
    Sound a' ↔ Restorable a content profile setting := by
  obtain ⟨sections, decoded, ok⟩ := Outcome.bind_ok.mp ok
  obtain ⟨replaced, replacedOk, done⟩ := Outcome.bind_ok.mp ok
  cases done
  obtain ⟨profiles, _, settings⟩ := decodeBackup_records decoded
  obtain ⟨b, rows, final⟩ := replaceSections_rows profiles replacedOk
  rw [settings] at final
  rw [restorable_iff, Sound]
  cases importing : imported setting content.settings with
  | none =>
    rw [importing] at final
    cases final
    simp only [ProxySound, GroupSound, selectionAfter, importing, rows.selectedProxy,
      rows.selectedGroup, rows.proxies, rows.groups, true_implies]
  | some records =>
    rw [importing] at final
    obtain ⟨same, group⟩ := replaceSettings_spec final
    rw [same.proxySound_iff]
    simp only [ProxySound, selectionAfter, importing, rows.proxies, group, reduceCtorEq,
      false_implies, and_true]

end QuinMo.Selection
