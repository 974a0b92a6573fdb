import QuinMo.Selection.SettingsWrite

/-!
# The selections are what the settings say

`Selection` has the two selections as numbers beside the tables. Here they are read from the table
of settings, and an import in which nothing throws from outside does the same to both: it fails
with the same exception, or leaves the same rows and the same selections.
-/

namespace QuinMo.Import

open Fault Fault.Run Selection

variable {B : Type} {d : Databases B}

/-- Both databases with the settings taken for the selections. -/
def app (d : Databases B) : App B where
  store := d.store
  rules := d.rules
  selectedProxy := (settingLong d.settings PROFILE_ID).getD 0
  selectedGroup := (settingLong d.settings PROFILE_GROUP).getD (-1)

theorem app_selectedGroup {group : Option Int}
    (readable : getLong d.settings PROFILE_GROUP = .ok group) :
    (app d).selectedGroup = group.getD (-1) := by
  simp [app, settingLong, readable, Except.toOption]

theorem getLong_of_selected (positive : 0 < (app d).selectedGroup) :
    getLong d.settings PROFILE_GROUP = .ok (some (app d).selectedGroup) := by
  unfold app settingLong at positive ⊢
  cases read : getLong d.settings PROFILE_GROUP with
  | error e => simp [read, Except.toOption] at positive
  | ok group =>
    cases group with
    | none => simp [read, Except.toOption] at positive
    | some id => rfl

theorem app_select (d : Databases B) (id : Int) :
    app (select d id) = { app d with selectedGroup := id } := by
  have proxy := getLong_putLong_of_ne d.settings id (by decide : PROFILE_ID ≠ PROFILE_GROUP)
  simp [app, select, settingLong, getLong_putLong, proxy, Except.toOption]

theorem read_none {point : Point} {α : Type} {f : Databases B → Except String α} {a : α}
    (found : f d = .ok a) : read none point f d = (.ok a, d) :=
  read_ok.mpr ⟨by simp, found, rfl⟩

theorem read_value (point : Point) {α : Type} (f : Databases B → α) :
    read none point (fun d => .ok (f d)) d = (.ok (f d), d) :=
  read_none rfl

theorem write_none (point : Point) (f : Databases B → Databases B) :
    write none point f d = (.ok (), f d) :=
  write_ok.mpr ⟨by simp, rfl⟩

/-- A read of the selected group that nothing interrupts. -/
theorem selectedGroup_of_chosen {d' : Databases B} {v : Int} (again : Bool) (h : Chosen d v d') :
    selectedGroup none again d = (.ok v, d') := by
  suffices current : currentGroupId none again d = (.ok v, d') by
    refine (bind_of_ok current).trans ((bind_of_ok (read_none h.getLong)).trans ?_)
    rfl
  cases h with
  | stored positive found =>
    refine (bind_of_ok (read_none found)).trans ?_
    rw [Option.getD_some, if_pos positive]
    rfl
  | first unselected first =>
    obtain ⟨w, found, nothing⟩ := unselected
    refine (bind_of_ok (read_none found)).trans ?_
    rw [if_neg (Int.not_lt.mpr nothing)]
    refine (bind_of_ok (read_value _ _)).trans ?_
    rw [first]
    exact bind_of_ok (write_none _ _)
  | created unselected none =>
    obtain ⟨w, found, nothing⟩ := unselected
    refine (bind_of_ok (read_none found)).trans ?_
    rw [if_neg (Int.not_lt.mpr nothing)]
    refine (bind_of_ok (read_value _ _)).trans ?_
    rw [none]
    refine (bind_of_ok (statement_ok.mpr ⟨by simp, rfl⟩)).trans ?_
    exact bind_of_ok (write_none _ _)

/-- The same group is chosen by both. -/
theorem chosen_app {group : Option Int} (readable : getLong d.settings PROFILE_GROUP = .ok group) :
    ∃ d', Chosen d (Selection.currentGroupId (app d)).1 d' ∧
      app d' = (Selection.currentGroupId (app d)).2 := by
  have selected := app_selectedGroup readable
  unfold Selection.currentGroupId
  by_cases positive : 0 < (app d).selectedGroup
  · rw [if_pos positive]
    rw [selected] at positive
    cases group with
    | none => cases positive
    | some v =>
      refine ⟨d, ?_, rfl⟩
      rw [selected]
      exact .stored positive readable
  · rw [if_neg positive]
    have unselected : Unselected d.settings := ⟨group, readable, by omega⟩
    cases first : firstGroupId (app d).store with
    | some id => exact ⟨select d id, .first unselected first, app_select d id⟩
    | none => exact ⟨_, .created unselected first, app_select (withGroup d) _⟩

theorem repairSelected_app {group : Option Int}
    (readable : getLong d.settings PROFILE_GROUP = .ok group) :
    ∃ d', repairSelected none d = (.ok (), d') ∧
      app d' = if ((Selection.currentGroupId (app d)).2.store.groups.get
          (Selection.currentGroupId (app d)).1).isNone
        then resetSelectedGroup (Selection.currentGroupId (app d)).2
        else (Selection.currentGroupId (app d)).2 := by
  obtain ⟨d₁, chosen, same⟩ := chosen_app readable
  rw [← same]
  have looked : repairSelected none d = runIf
      ((d₁.store.groups.get (Selection.currentGroupId (app d)).1).isSome = false)
        (selectFirst none) d₁ :=
    (bind_of_ok (selectedGroup_of_chosen true chosen)).trans (bind_of_ok (read_value _ _))
  rw [looked, runIf]
  cases stored : d₁.store.groups.get (Selection.currentGroupId (app d)).1 with
  | some g =>
    rw [show (app d₁).store.groups.get _ = _ from stored]
    exact ⟨d₁, rfl, rfl⟩
  | none =>
    rw [show (app d₁).store.groups.get _ = _ from stored]
    refine ⟨select d₁ ((firstGroupId d₁.store).getD (-1)), ?_, app_select d₁ _⟩
    refine (bind_of_ok (read_value _ _)).trans ?_
    exact write_none _ _

theorem settle_app {group : Option Int} (readable : getLong d.settings PROFILE_GROUP = .ok group) :
    ∃ d', settle none d = (.ok (), d') ∧ app d' = Selection.settle (app d) := by
  obtain ⟨d₁, chosen, same⟩ := chosen_app readable
  unfold Selection.settle
  dsimp only
  rw [← same]
  by_cases positive : 0 < (Selection.currentGroupId (app d)).1
  · obtain ⟨d₂, repaired, same'⟩ := repairSelected_app chosen.getLong
    rw [if_pos positive]
    refine ⟨d₂, (bind_of_ok (selectedGroup_of_chosen false chosen)).trans ?_, same'⟩
    rw [runIf, if_pos positive]
    exact (bind_of_ok repaired).trans (write_none _ _)
  · rw [if_neg positive]
    refine ⟨d₁, (bind_of_ok (selectedGroup_of_chosen false chosen)).trans ?_, rfl⟩
    rw [runIf, if_neg positive]
    exact write_none .commitSettings id

/-! ## The transactions -/

/-- The rows and selections that a computation leaves. -/
def leaves (run : Except String Unit × Databases B) : Except String (App B) :=
  (outcome run).map fun r => app r.2

theorem replaceProfiles_outcome
    (profiles : Option (List (ProxyEntity B) × List ProxyGroup)) (d : Databases B) :
    outcome (replaceProfiles none profiles d) =
      (replaceWith (fun s (profiles, groups) => Selection.replaceProfiles s profiles groups) d.store
        profiles).map fun store => ((), { d with store }) := by
  match profiles with
  | none => rfl
  | some (profiles, groups) =>
    unfold replaceProfiles
    simp only [outcome_bind, outcome_statement, write, replaceWith, Selection.replaceProfiles,
      insertProxies, insertGroups]
    simp only [Bind.bind, Except.bind, Pure.pure, Except.pure]
    cases (d.store.proxies.delete fun _ => true).insertAll (fun e id => { e with id })
      ProxyEntity.id_given profiles with
    | error e => rfl
    | ok proxies =>
      dsimp only
      cases (d.store.groups.delete fun _ => true).insertAll (fun g id => { g with id })
        ProxyGroup.id_given groups with
      | error e => rfl
      | ok groups => rfl

theorem replaceRules_outcome (rules : Option (List RuleEntity)) (d : Databases B) :
    outcome (replaceRules none rules d) =
      (replaceWith Selection.replaceRules d.rules rules).map fun rules => ((), { d with rules }) := by
  match rules with
  | none => rfl
  | some rules =>
    unfold replaceRules
    simp only [outcome_bind, outcome_statement, write, replaceWith, Selection.replaceRules,
      insertRules]
    simp only [Bind.bind, Except.bind]
    cases (d.rules.delete fun _ => true).insertAll (fun r id => { r with id })
      RuleEntity.id_given rules with
    | error e => rfl
    | ok rules => rfl

theorem replaceSettings_outcome (settings : List KeyValuePair) (d : Databases B) :
    outcome (replaceSettings none (some settings) d) =
      if (settings.map (·.key)).Nodup then outcome (settle none { d with settings })
      else .error "UNIQUE constraint failed" := by
  unfold replaceSettings
  simp only [outcome_transaction, outcome_bind, outcome_statement, write, insertSettings]
  split
  · rfl
  · rfl

theorem settle_leaves (d : Databases B) : leaves (settle none d) =
    (getLong d.settings PROFILE_GROUP).map fun _ => Selection.settle (app d) := by
  cases readable : getLong d.settings PROFILE_GROUP with
  | error e =>
    have failed : settle none d = (.error e, d) := by
      refine bind_of_error (bind_of_error (bind_of_error ?_))
      simp [read, statement, readable, Except.map]
    rw [failed]
    rfl
  | ok group =>
    obtain ⟨d', settled, same⟩ := settle_app readable
    rw [settled]
    exact congrArg Except.ok same

theorem settle_app_of_ok {d' : Databases B} (h : settle none d = (.ok (), d')) :
    app d' = Selection.settle (app d) := by
  have left := settle_leaves d
  rw [h] at left
  cases readable : getLong d.settings PROFILE_GROUP with
  | error e =>
    rw [readable] at left
    cases left
  | ok group =>
    rw [readable] at left
    exact Except.ok.inj left

theorem replaceSettings_leaves (settings : Option (List KeyValuePair)) (d : Databases B) :
    leaves (replaceSettings none settings d) =
      replaceWith Selection.replaceSettings (app d) settings := by
  match settings with
  | none => rfl
  | some settings =>
    unfold leaves
    rw [replaceSettings_outcome, replaceWith, Selection.replaceSettings]
    split
    · have settled := settle_leaves { d with settings }
      rw [leaves] at settled
      rw [settled]
      cases readable : getLong settings PROFILE_GROUP with
      | error e => rfl
      | ok group =>
        have before : app { d with settings := settings } = { app d with
            selectedProxy := (settingLong settings PROFILE_ID).getD 0
            selectedGroup := group.getD (-1) } := by
          simp [app, settingLong, readable, Except.toOption]
        exact congrArg (fun a => Except.ok (Selection.settle a)) before
    · rfl

/-- The first transaction, which is left out where there is nothing to write. -/
theorem sagerStage_outcome (sections : Sections B) (d : Databases B) :
    outcome (runIf (sections.profiles.isSome ∨ sections.rules.isSome)
      (replaceSagerData none sections.profiles sections.rules) d) = (do
        let store ← replaceWith
          (fun s (profiles, groups) => Selection.replaceProfiles s profiles groups) d.store
          sections.profiles
        let rules ← replaceWith Selection.replaceRules d.rules sections.rules
        return ((), { d with store, rules })) := by
  rw [outcome_runIf]
  split
  · unfold replaceSagerData
    simp only [outcome_transaction, outcome_bind, replaceProfiles_outcome, write, outcome_statement]
    cases replaceWith (fun s (profiles, groups) => Selection.replaceProfiles s profiles groups)
      d.store sections.profiles with
    | error e => rfl
    | ok store =>
      change (outcome (replaceRules none sections.rules { d with store }) >>= _) = _
      rw [replaceRules_outcome]
      dsimp only
      cases replaceWith Selection.replaceRules d.rules sections.rules with
      | error e => rfl
      | ok rules => rfl
  · rename_i unwanted
    obtain ⟨profiles, rules⟩ := not_or.mp unwanted
    rw [Option.not_isSome_iff_eq_none] at profiles rules
    rw [profiles, rules]
    rfl

theorem writeSettings_outcome (sections : Sections B)
    (profiles : Option (List (ProxyEntity B) × List ProxyGroup)) (rules : Option (List RuleEntity))
    (d : Databases B) :
    outcome (writeSettings none sections profiles rules d) =
      outcome (replaceSettings none sections.settings d) := by
  unfold writeSettings
  split
  · rw [outcome_rescue]
  · rfl

/-- The old rows are read and nothing is written. -/
theorem oldRows_outcome (sections : Sections B) (d : Databases B) :
    (∃ profiles, outcome (oldProfiles none sections d) = .ok (profiles, d)) ∧
      ∃ rules, outcome (oldRules none sections d) = .ok (rules, d) := by
  unfold oldProfiles oldRules
  refine ⟨?_, ?_⟩
  · split
    · exact ⟨_, rfl⟩
    · exact ⟨_, rfl⟩
  · split
    · exact ⟨_, rfl⟩
    · exact ⟨_, rfl⟩

/-- An import that nothing interrupts: the records are decoded, and both databases are written. -/
theorem finishImport_outcome {content : Backup B} {profile rule setting : Bool}
    {sections : Sections B} (decoded : decodeBackup content profile rule setting = .ok sections)
    (d : Databases B) :
    outcome (finishImport none content profile rule setting d) = (do
      let written ← outcome (runIf (sections.profiles.isSome ∨ sections.rules.isSome)
        (replaceSagerData none sections.profiles sections.rules) d)
      let written ← outcome (replaceSettings none sections.settings written.2)
      return (sections.skippedRecords, written.2)) := by
  obtain ⟨⟨profiles, readProfiles⟩, rules, readRules⟩ := oldRows_outcome sections d
  unfold finishImport
  rw [outcome_bind, read, outcome_statement, decoded]
  change outcome ((oldProfiles none sections >>= _) d) = _
  rw [outcome_bind, readProfiles]
  change outcome ((oldRules none sections >>= _) d) = _
  rw [outcome_bind, readRules]
  change outcome ((runIf _ _ >>= _) d) = _
  rw [outcome_bind]
  congr 1
  funext written
  rw [outcome_bind, writeSettings_outcome]
  rfl

/-- An import of both databases that nothing interrupts is the import that `Selection` follows. -/
theorem finishImport_refines (content : Backup B) (profile rule setting : Bool) (d : Databases B) :
    (outcome (finishImport none content profile rule setting d)).map (fun r => (app r.2, r.1)) =
      Selection.finishImport (app d) content profile rule setting := by
  unfold Selection.finishImport
  cases decoded : decodeBackup content profile rule setting with
  | error e =>
    unfold finishImport
    rw [outcome_bind, read, outcome_statement, decoded]
    rfl
  | ok sections =>
    rw [finishImport_outcome decoded, sagerStage_outcome]
    change _ = replaceSections _ _ >>= _
    unfold replaceSections
    change _ = (replaceWith _ d.store _ >>= _) >>= _
    cases replaceWith (fun s (profiles, groups) => Selection.replaceProfiles s profiles groups)
      d.store sections.profiles with
    | error e => rfl
    | ok store =>
      change _ = (replaceWith _ d.rules _ >>= _) >>= _
      cases replaceWith Selection.replaceRules d.rules sections.rules with
      | error e => rfl
      | ok rules =>
        have written := replaceSettings_leaves sections.settings { d with store, rules }
        change _ = replaceWith Selection.replaceSettings (app { d with store, rules }) _ >>= _
        rw [← written, leaves]
        change (outcome (replaceSettings none sections.settings { d with store, rules }) >>= _).map _
          = _
        cases outcome (replaceSettings none sections.settings { d with store, rules }) with
        | error e => rfl
        | ok r => rfl

end QuinMo.Import
