import QuinMo.Selection.SettingsWrite

/-!
# An import writes everything or nothing

A group created while the settings were written may stay after a failure.
-/

namespace QuinMo.Import

open Fault Fault.Run Selection

variable {B : Type} {fault : Option Point} {d d' : Databases B}

section Sager
variable {profiles : Option (List (ProxyEntity B) × List ProxyGroup)}
  {rules : Option (List RuleEntity)}

section
variable {u : Unit}

theorem insertProxies_ok {ps : List (ProxyEntity B)} : insertProxies d ps = .ok (u, d') ↔ ∃ proxies,
      d.store.proxies.insertAll (fun e id => { e with id }) ProxyEntity.id_given ps = .ok proxies ∧
        d' = { d with store := { d.store with proxies } } := by
  unfold insertProxies
  rw [Outcome.bind_pure_ok, and_iff_right rfl]

theorem insertGroups_ok {gs : List ProxyGroup} : insertGroups d gs = .ok (u, d') ↔ ∃ groups,
      d.store.groups.insertAll (fun g id => { g with id }) ProxyGroup.id_given gs = .ok groups ∧
        d' = { d with store := { d.store with groups } } := by
  unfold insertGroups
  rw [Outcome.bind_pure_ok, and_iff_right rfl]

theorem insertRules_ok {rs : List RuleEntity} : insertRules d rs = .ok (u, d') ↔ ∃ rules,
      d.rules.insertAll (fun r id => { r with id }) RuleEntity.id_given rs = .ok rules ∧
        d' = { d with rules } := by
  unfold insertRules
  rw [Outcome.bind_pure_ok, and_iff_right rfl]

end

/-- What a finished transaction has put in place of the profiles and groups. -/
def ProfilesReplaced (profiles : Option (List (ProxyEntity B) × List ProxyGroup))
    (s s' : Store B) : Prop :=
  match profiles with
  | none => s' = s
  | some (ps, gs) =>
    s'.proxies.rows = Numbered.givenRows (·.id) (fun e id => { e with id }) s.proxies.sequence ps ∧
      s'.groups.rows = Numbered.givenRows (·.id) (fun g id => { g with id }) s.groups.sequence gs

def RulesReplaced (rules : Option (List RuleEntity)) (t t' : Numbered RuleEntity (·.id)) : Prop :=
  match rules with
  | none => t' = t
  | some rs => t'.rows = Numbered.givenRows (·.id) (fun r id => { r with id }) t.sequence rs

/-- No row has the id 0, which stands for a record that has no id yet. -/
structure WellNumbered (d : Databases B) : Prop where
  proxies : d.store.proxies.Assigned
  groups : d.store.groups.Assigned
  rules : d.rules.Assigned

/-- The rule records have distinct ids. -/
def Insertable (d : Databases B) (rs : List RuleEntity) : Prop :=
  ∃ t, (d.rules.delete fun _ => true).insertAll (fun r id => { r with id })
    RuleEntity.id_given rs = .ok t

/-- All records can be written. -/
structure AllInsertable (profiles : Option (List (ProxyEntity B) × List ProxyGroup))
    (rules : Option (List RuleEntity)) (d : Databases B) : Prop where
  proxies : ∀ s ∈ profiles, ∃ t, (d.store.proxies.delete fun _ => true).insertAll
    (fun e id => { e with id }) ProxyEntity.id_given s.1 = .ok t
  groups : ∀ s ∈ profiles, ∃ t, (d.store.groups.delete fun _ => true).insertAll
    (fun g id => { g with id }) ProxyGroup.id_given s.2 = .ok t
  rules : ∀ rs ∈ rules, Insertable d rs

/-- What the first transaction has done. -/
structure SagerReplaced (profiles : Option (List (ProxyEntity B) × List ProxyGroup))
    (rules : Option (List RuleEntity)) (d d' : Databases B) : Prop where
  profiles : ProfilesReplaced profiles d.store d'.store
  insertable : ∀ rs ∈ rules, Insertable d rs
  rules : RulesReplaced rules d.rules d'.rules
  settings : d'.settings = d.settings
  sequence : d.store.groups.sequence ≤ d'.store.groups.sequence
  numbered : WellNumbered d → WellNumbered d'

theorem SagerReplaced.nothing (d : Databases B) : SagerReplaced none none d d :=
  ⟨rfl, by simp, rfl, rfl, Int.le_refl _, fun h => h⟩

/-- Nothing throws in the first transaction. -/
def Elsewhere (fault : Option Point) : Prop := fault = none ∨ Late fault

instance (fault : Option Point) : Decidable (Elsewhere fault) :=
  inferInstanceAs (Decidable (_ ∨ _))

theorem Elsewhere.ne (elsewhere : Elsewhere fault) {point : Point}
    (early : ¬ Elsewhere (some point)) : fault ≠ some point := by
  rintro rfl
  exact early elsewhere

theorem replaceProfiles_ends (rules : Option (List RuleEntity)) :
    Ends (replaceProfiles fault profiles) d
      (fun _ d' => SagerReplaced profiles none d d' ∧ d'.rules = d.rules)
      (fun d' => d'.settings = d.settings ∧
        (Elsewhere fault → ¬ AllInsertable profiles rules d)) := by
  match profiles with
  | none => exact .pure ⟨.nothing d, rfl⟩
  | some (ps, gs) =>
    refine write_bind (fun thrown => ⟨rfl, fun later => ?_⟩) fun _ => ?_
    · exact absurd thrown (later.ne (by decide))
    refine .statement_bind (fun thrown => ⟨rfl, fun later => ?_⟩)
      (fun e failed => ⟨rfl, fun _ all => ?_⟩) fun _ d₁ ok _ => ?_
    · exact absurd thrown (later.ne (by decide))
    · obtain ⟨t, ok⟩ := all.proxies _ rfl
      rw [insertProxies, show Numbered.insertAll _ _ _ ps = .ok t from ok] at failed
      cases failed
    obtain ⟨proxies, proxiesOk, rfl⟩ := insertProxies_ok.mp ok
    refine write_bind (fun thrown => ⟨rfl, fun later => ?_⟩) fun _ => ?_
    · exact absurd thrown (later.ne (by decide))
    refine .statement (fun thrown => ⟨rfl, fun later => ?_⟩)
      (fun e failed => ⟨rfl, fun _ all => ?_⟩) fun _ d₂ ok _ => ?_
    · exact absurd thrown (later.ne (by decide))
    · obtain ⟨t, ok⟩ := all.groups _ rfl
      rw [insertGroups, show Numbered.insertAll _ _ _ gs = .ok t from ok] at failed
      cases failed
    obtain ⟨groups, groupsOk, rfl⟩ := insertGroups_ok.mp ok
    obtain ⟨rows, sequence⟩ := Numbered.delete_insertAll_rows groupsOk
    refine ⟨⟨⟨(Numbered.delete_insertAll_rows proxiesOk).1, rows⟩, by simp, rfl, rfl, sequence,
      fun h => ?_⟩, rfl⟩
    exact ⟨(h.proxies.delete _).insertAll proxiesOk, (h.groups.delete _).insertAll groupsOk, h.rules⟩

theorem replaceRules_ends : Ends (replaceRules fault rules) d
    (fun _ d' => SagerReplaced none rules d d')
    (fun d' => d'.settings = d.settings ∧
      (Elsewhere fault → ¬ ∀ rs ∈ rules, Insertable d rs)) := by
  match rules with
  | none => exact .pure (.nothing d)
  | some rs =>
    refine write_bind (fun thrown => ⟨rfl, fun later => ?_⟩) fun _ => ?_
    · exact absurd thrown (later.ne (by decide))
    refine .statement (fun thrown => ⟨rfl, fun later => ?_⟩)
      (fun e failed => ⟨rfl, fun _ all => ?_⟩) fun _ d₁ ok _ => ?_
    · exact absurd thrown (later.ne (by decide))
    · obtain ⟨t, ok⟩ := all _ rfl
      rw [insertRules, show Numbered.insertAll _ _ _ rs = .ok t from ok] at failed
      cases failed
    obtain ⟨rules, rulesOk, rfl⟩ := insertRules_ok.mp ok
    refine ⟨rfl, ?_, (Numbered.delete_insertAll_rows rulesOk).1, rfl, Int.le_refl _, fun h => ?_⟩
    · rintro _ ⟨⟩
      exact ⟨rules, rulesOk⟩
    · exact ⟨h.proxies, h.groups, (h.rules.delete _).insertAll rulesOk⟩

/-- A failed transaction leaves both databases as they were. -/
theorem replaceSagerData_ends : Ends (replaceSagerData fault profiles rules) d
    (fun _ d' => SagerReplaced profiles rules d d')
    (fun d' => d' = d ∧ (Elsewhere fault → ¬ AllInsertable profiles rules d)) := by
  have restored {t : Databases B} (same : t.settings = d.settings) : restoreSager d t = d := by
    unfold restoreSager
    rw [same]
  refine .transaction (Ends.bind ((replaceProfiles_ends rules).weaken (fun _ _ h => h) ?_) ?_)
  · rintro t ⟨same, cause⟩
    exact ⟨restored same, cause⟩
  rintro _ d₁ ⟨first, kept⟩
  have insertable {rs : List RuleEntity} : Insertable d₁ rs ↔ Insertable d rs := by
    rw [Insertable, Insertable, kept]
  refine Ends.bind (replaceRules_ends.weaken (fun _ _ h => h) ?_) ?_
  · rintro t ⟨same, cause⟩
    refine ⟨restored (same.trans first.settings), fun later all => cause later fun rs wanted => ?_⟩
    exact insertable.mpr (all.rules rs wanted)
  intro _ d₂ second
  have settings := second.settings.trans first.settings
  have store : d₂.store = d₁.store := second.profiles
  refine write_ends (fun thrown => ⟨restored settings, fun later => ?_⟩) fun _ => ?_
  · exact absurd thrown (later.ne (by decide))
  · exact ⟨store ▸ first.profiles, fun rs wanted => insertable.mp (second.insertable rs wanted),
      kept ▸ second.rules, settings, store ▸ first.sequence,
      fun h => second.numbered (first.numbered h)⟩

/-- All records have ids of their own. -/
structure Own (profiles : Option (List (ProxyEntity B) × List ProxyGroup))
    (rules : Option (List RuleEntity)) : Prop where
  proxies : ∀ s ∈ profiles, (∀ e ∈ s.1, e.id ≠ 0) ∧ (s.1.map (·.id)).Nodup
  groups : ∀ s ∈ profiles, (∀ g ∈ s.2, g.id ≠ 0) ∧ (s.2.map (·.id)).Nodup
  rules : ∀ rs ∈ rules, (∀ r ∈ rs, r.id ≠ 0) ∧ (rs.map (·.id)).Nodup

theorem Own.insertable (own : Own profiles rules) (d : Databases B) :
    AllInsertable profiles rules d := by
  refine ⟨fun s wanted => ?_, fun s wanted => ?_, fun rs wanted => ?_⟩
  · obtain ⟨own, distinct⟩ := own.proxies s wanted
    obtain ⟨t, ok, _⟩ := d.store.proxies.delete_insertAll_own (fun e id => { e with id })
      ProxyEntity.id_given own distinct
    exact ⟨t, ok⟩
  · obtain ⟨own, distinct⟩ := own.groups s wanted
    obtain ⟨t, ok, _⟩ := d.store.groups.delete_insertAll_own (fun g id => { g with id })
      ProxyGroup.id_given own distinct
    exact ⟨t, ok⟩
  · obtain ⟨own, distinct⟩ := own.rules rs wanted
    obtain ⟨t, ok, _⟩ := d.rules.delete_insertAll_own (fun r id => { r with id })
      RuleEntity.id_given own distinct
    exact ⟨t, ok⟩

theorem replaceSagerData_own (own : Own profiles rules) (d : Databases B) :
    ∃ d', replaceSagerData none profiles rules d = (.ok (), d') ∧
      SagerReplaced profiles rules d d' := by
  have ends : Ends (replaceSagerData none profiles rules) d _ _ := replaceSagerData_ends
  rcases run : replaceSagerData none profiles rules d with ⟨e | u, d'⟩
  · exact absurd (own.insertable d) ((ends.error run).2 (.inl rfl))
  · exact ⟨d', rfl, ends.ok run⟩

end Sager

/-- The rows that are kept for the compensation. -/
def keptProfiles (d : Databases B) (s : Sections B) :
    Option (List (ProxyEntity B) × List ProxyGroup) :=
  if s.profiles.isSome then some (d.store.proxies.rows, d.store.allGroups) else none

def keptRules (d : Databases B) (s : Sections B) : Option (List RuleEntity) :=
  if s.rules.isSome then some (d.rules.rows.insertionSort (·.userOrder ≤ ·.userOrder)) else none

theorem oldProfiles_ends (s : Sections B) : Ends (oldProfiles fault s) d
    (fun v d' => v = keptProfiles d s ∧ d' = d) (fun d' => d' = d ∧ s.profiles.isSome) := by
  unfold oldProfiles keptProfiles
  split
  · exact value_bind (fun _ => ⟨rfl, ‹_›⟩) fun _ => value_bind (fun _ => ⟨rfl, ‹_›⟩) fun _ =>
      .pure ⟨rfl, rfl⟩
  · exact .pure ⟨rfl, rfl⟩

theorem oldRules_ends (s : Sections B) : Ends (oldRules fault s) d
    (fun v d' => v = keptRules d s ∧ d' = d) (fun d' => d' = d ∧ fault = some .oldRules) := by
  unfold oldRules keptRules
  split
  · exact value_bind (fun thrown => ⟨rfl, thrown⟩) fun _ => .pure ⟨rfl, rfl⟩
  · exact .pure ⟨rfl, rfl⟩

/-! ## The result of an import -/

/-- Every table of both databases has the rows it had. -/
structure SameRows (d d' : Databases B) : Prop where
  proxies : d'.store.proxies.rows.Perm d.store.proxies.rows
  groups : d'.store.groups.rows.Perm d.store.groups.rows
  rules : d'.rules.rows.Perm d.rules.rows
  settings : d'.settings.Perm d.settings

theorem SameRows.refl (d : Databases B) : SameRows d d :=
  ⟨.refl _, .refl _, .refl _, .refl _⟩

section
variable (content : Backup B) (profile rule setting : Bool)

def wantedProfiles (d : Databases B) : List (ProxyEntity B) :=
  match imported profile content.profiles with
  | none => d.store.proxies.rows
  | some profiles =>
    Numbered.givenRows (·.id) (fun e id => { e with id }) d.store.proxies.sequence profiles

/-- Groups are imported with the profiles. -/
def wantedGroups (d : Databases B) : List ProxyGroup :=
  match imported profile content.profiles with
  | none => d.store.groups.rows
  | some _ => Numbered.givenRows (·.id) (fun g id => { g with id }) d.store.groups.sequence
      (records (content.groups.getD []))

def wantedRules (d : Databases B) : List RuleEntity :=
  match imported rule content.rules with
  | none => d.rules.rows
  | some rules => Numbered.givenRows (·.id) (fun r id => { r with id }) d.rules.sequence rules

def wantedSettings (d : Databases B) : List KeyValuePair :=
  (imported setting content.settings).getD d.settings

/-- The wanted sections are replaced and the others are as before. Only with settings is
the selected group repaired, and a group created where there would be none. -/
structure Replaced (d d' : Databases B) : Prop where
  proxies : d'.store.proxies.rows = wantedProfiles content profile d
  groups : d'.store.groups.rows = wantedGroups content profile d ∨
    (imported setting content.settings).isSome ∧ wantedGroups content profile d = [] ∧
      ∃ id, d'.store.groups.rows = [ungroupedGroup id]
  rules : d'.rules.rows = wantedRules content rule d
  others : others d'.settings = others (wantedSettings content setting d)
  selection : selection d'.settings = selection (wantedSettings content setting d) ∨
    (imported setting content.settings).isSome ∧ SelectsFirst d'

/-- The import from `d` either replaces the wanted sections or throws and changes no row. -/
def AllOrNothing (d : Databases B) : Except String Nat × Databases B → Prop
  | (.ok _, d') => Replaced content profile rule setting d d'
  | (.error _, d') => SameRows d d'

/-- Settings are imported that create a group, profiles are not, and the import gets past
the creation before it throws. -/
structure LeavesGroup (fault : Option Point) (d : Databases B) : Prop where
  late : Late fault
  decodes : ∃ s, decodeBackup content profile rule setting = .ok s
  profiles : imported profile content.profiles = none
  rules : ∀ rs ∈ imported rule content.rules, Insertable d rs
  creates : ∃ pairs ∈ imported setting content.settings, Creates d pairs

end

section Stages
variable {s : Sections B} {content : Backup B} {profile rule setting : Bool}

/-- The first transaction, which is left out where there is nothing to write. -/
theorem sagerStage_ends : Ends
    (runIf (s.profiles.isSome ∨ s.rules.isSome) (replaceSagerData fault s.profiles s.rules)) d
    (fun _ d' => SagerReplaced s.profiles s.rules d d')
    (fun d' => d' = d ∧ (Elsewhere fault → ¬ AllInsertable s.profiles s.rules d)) := by
  refine .runIf (fun _ => replaceSagerData_ends) fun unwanted => ?_
  obtain ⟨profiles, rules⟩ := not_or.mp unwanted
  rw [Option.not_isSome_iff_eq_none] at profiles rules
  rw [profiles, rules]
  exact .nothing d

variable {d₁ : Databases B}

theorem ProfilesReplaced.wanted (decoded : decodeBackup content profile rule setting = .ok s)
    (h : ProfilesReplaced s.profiles d.store d₁.store) :
    d₁.store.proxies.rows = wantedProfiles content profile d ∧
      d₁.store.groups.rows = wantedGroups content profile d := by
  rw [(decodeBackup_records decoded).1, profilesOf] at h
  unfold wantedProfiles wantedGroups
  cases importing : imported profile content.profiles with
  | none =>
    rw [importing] at h
    rw [show d₁.store = d.store from h]
    exact ⟨rfl, rfl⟩
  | some ps =>
    rw [importing] at h
    exact h

theorem RulesReplaced.wanted (decoded : decodeBackup content profile rule setting = .ok s)
    (h : RulesReplaced s.rules d.rules d₁.rules) :
    d₁.rules.rows = wantedRules content rule d := by
  rw [(decodeBackup_records decoded).2.1] at h
  unfold wantedRules
  cases importing : imported rule content.rules with
  | none =>
    rw [importing] at h
    rw [show d₁.rules = d.rules from h]
  | some rs =>
    rw [importing] at h
    exact h

theorem allGroups_perm (s : Store B) : s.allGroups.Perm s.groups.rows :=
  List.perm_insertionSort _ _

theorem sorted_perm (rules : List RuleEntity) :
    (rules.insertionSort (·.userOrder ≤ ·.userOrder)).Perm rules :=
  List.perm_insertionSort _ _

theorem kept_own (numbered : WellNumbered d) (s : Sections B) :
    Own (keptProfiles d s) (keptRules d s) := by
  unfold keptProfiles keptRules
  constructor
  · intro kept present
    obtain ⟨_, same⟩ := Option.ite_none_right_eq_some.mp present
    cases same
    exact ⟨numbered.proxies.keys, d.store.proxies.unique⟩
  · intro kept present
    obtain ⟨_, same⟩ := Option.ite_none_right_eq_some.mp present
    cases same
    have perm := allGroups_perm d.store
    exact ⟨fun g hg => numbered.groups.keys g (perm.mem_iff.mp hg),
      (perm.map _).nodup_iff.mpr d.store.groups.unique⟩
  · intro kept present
    obtain ⟨_, same⟩ := Option.ite_none_right_eq_some.mp present
    cases same
    have perm := sorted_perm d.rules.rows
    exact ⟨fun r hr => numbered.rules.keys r (perm.mem_iff.mp hr),
      (perm.map _).nodup_iff.mpr d.rules.unique⟩

/-- After a failure in the second transaction the rows that were kept are written again. -/
theorem writeSettings_ends (numbered : WellNumbered d) {post : Unit → Databases B → Prop}
    {thrown : Databases B → Prop} (h : Ends (replaceSettings fault s.settings) d₁ post fun u =>
      ∀ d', SagerReplaced (keptProfiles d s) (keptRules d s) u d' → thrown d') :
    Ends (writeSettings fault s (keptProfiles d s) (keptRules d s)) d₁ post thrown := by
  unfold writeSettings
  split
  · refine .rescue (h.weaken (fun _ _ done => done) fun u restores => ?_)
    obtain ⟨d', restored, replaced⟩ := replaceSagerData_own (kept_own numbered s) u
    rw [restored]
    exact restores d' replaced
  · rename_i unwanted
    obtain ⟨profiles, rules⟩ := not_or.mp unwanted
    refine h.weaken (fun _ _ done => done) fun u restores => restores u ?_
    rw [keptProfiles, keptRules, if_neg profiles, if_neg rules]
    exact .nothing u

theorem rules_restored (numbered : WellNumbered d) {u : Databases B}
    (written : RulesReplaced s.rules d.rules d₁.rules) (same : u.rules = d₁.rules)
    (restored : RulesReplaced (keptRules d s) u.rules d'.rules) :
    d'.rules.rows.Perm d.rules.rows := by
  unfold keptRules at restored
  cases wanted : s.rules with
  | none =>
    rw [wanted] at written restored
    have back : d'.rules = d.rules := (Eq.trans restored same).trans written
    rw [back]
  | some rs =>
    rw [wanted] at restored
    have perm := sorted_perm d.rules.rows
    have back := (show d'.rules.rows = _ from restored).trans
      (Numbered.givenRows_own (fun r hr => numbered.rules.keys r (perm.mem_iff.mp hr))
        u.rules.sequence)
    rw [back]
    exact perm

theorem profiles_restored (numbered : WellNumbered d) {u : Databases B}
    (wanted : s.profiles.isSome) (restored : ProfilesReplaced (keptProfiles d s) u.store d'.store) :
    d'.store.proxies.rows.Perm d.store.proxies.rows ∧
      d'.store.groups.rows.Perm d.store.groups.rows := by
  rw [keptProfiles, if_pos wanted] at restored
  obtain ⟨proxies, groups⟩ := restored
  have perm := allGroups_perm d.store
  have own : ∀ g ∈ d.store.allGroups, g.id ≠ 0 :=
    fun g hg => numbered.groups.keys g (perm.mem_iff.mp hg)
  rw [proxies, groups, Numbered.givenRows_own numbered.proxies.keys, Numbered.givenRows_own own]
  exact ⟨.refl _, perm⟩

theorem withGroup_store (same : d₁.store = d.store) :
    (withGroup d₁).store = (withGroup d).store := by
  cases d₁
  cases d
  cases same
  rfl

/-- Nothing but a group is written where the settings are. -/
theorem WellNumbered.kept (h : WellNumbered d) (rules : d'.rules = d.rules)
    (store : d'.store = d.store ∨ d'.store = (withGroup d).store) : WellNumbered d' := by
  have sequence := h.groups.sequence
  constructor
  · rcases store with same | created
    · exact same ▸ h.proxies
    · exact created ▸ h.proxies
  · rcases store with same | created
    · exact same ▸ h.groups
    · refine created ▸ h.groups.place _ ?_
      change d.store.groups.sequence + 1 ≠ 0
      omega
  · exact rules ▸ h.rules

theorem settingsStage_ends (numbered : WellNumbered d)
    (replaced : SagerReplaced s.profiles s.rules d d₁)
    (decoded : decodeBackup content profile rule setting = .ok s) :
    Ends (writeSettings fault s (keptProfiles d s) (keptRules d s)) d₁
      (fun _ d' => (Replaced content profile rule setting d d' ∧
        ¬ LeavesGroup content profile rule setting fault d) ∧ WellNumbered d')
      (fun d' => (SameRows d d' ∧ ¬ LeavesGroup content profile rule setting fault d ∨
        LeavesGroup content profile rule setting fault d ∧ d'.store = (withGroup d).store) ∧
          WellNumbered d') := by
  obtain ⟨profilesDecoded, rulesDecoded, settingsDecoded⟩ := decodeBackup_records decoded
  obtain ⟨proxiesWanted, groupsWanted⟩ := replaced.profiles.wanted decoded
  have rulesWanted := replaced.rules.wanted decoded
  have numbered₁ := replaced.numbered numbered
  -- without profiles in the backup the groups are those from before
  have creates_iff {pairs : List KeyValuePair}
      (unwanted : imported profile content.profiles = none) :
      d₁.store = d.store ∧ (Creates d₁ pairs ↔ Creates d pairs) := by
    have same := replaced.profiles
    rw [profilesDecoded, profilesOf, unwanted] at same
    have same : d₁.store = d.store := same
    refine ⟨same, ?_, ?_⟩ <;> rintro ⟨distinct, unselected, none⟩
    · exact ⟨distinct, unselected, same ▸ none⟩
    · exact ⟨distinct, unselected, same ▸ none⟩
  apply writeSettings_ends numbered
  rw [settingsDecoded]
  cases importing : imported setting content.settings with
  | none =>
    refine .pure ⟨⟨⟨proxiesWanted, .inl groupsWanted, rulesWanted, ?_, .inl ?_⟩, ?_⟩, numbered₁⟩
    · rw [wantedSettings, importing, replaced.settings]
      rfl
    · rw [wantedSettings, importing, replaced.settings]
      rfl
    · rintro ⟨_, _, _, _, pairs, present, _⟩
      rw [importing] at present
      cases present
  | some pairs =>
    refine (replaceSettings_ends pairs numbered₁.groups.sequence).weaken ?_ ?_
    · rintro _ d' ⟨mends, stored⟩
      refine ⟨⟨⟨mends.proxies ▸ proxiesWanted, ?_, mends.rules ▸ rulesWanted, ?_, ?_⟩, ?_⟩, ?_⟩
      · rcases stored with ⟨creates, _, created⟩ | ⟨_, same⟩
        · refine .inr ⟨by rw [importing]; rfl, groupsWanted.symm.trans creates.none,
            d₁.store.groups.sequence + 1, ?_⟩
          rw [created]
          exact withGroup_rows creates.none
        · exact .inl (same ▸ groupsWanted)
      · rw [wantedSettings, importing]
        exact mends.others
      · rw [wantedSettings, importing]
        exact mends.selection.imp_right fun first => ⟨rfl, first⟩
      · rintro ⟨late, _, unwanted, _, pairs', present, creates⟩
        cases importing.symm.trans present
        rcases stored with ⟨_, early, _⟩ | ⟨settled, _⟩
        · exact early late
        · exact settled ((creates_iff unwanted).2.mpr creates)
      · exact numbered₁.kept mends.rules (stored.symm.imp (fun h => h.2) fun h => h.2.2)
    · rintro u ⟨settings, rules, stored⟩ d' restored
      have numbered' : WellNumbered d' := restored.numbered
        (numbered₁.kept rules (stored.symm.imp (fun h => h.2) fun h => h.2.2))
      refine ⟨?_, numbered'⟩
      have settingsBack : d'.settings = d.settings :=
        (restored.settings.trans settings).trans replaced.settings
      have rulesBack := rules_restored numbered replaced.rules rules restored.rules
      cases wanted : imported profile content.profiles with
      | some ps =>
        obtain ⟨proxies, groups⟩ := profiles_restored numbered (s := s)
          (by rw [profilesDecoded, profilesOf, wanted]; rfl) restored.profiles
        exact .inl ⟨⟨proxies, groups, rulesBack, settingsBack ▸ .refl _⟩,
          fun leaves => by cases wanted.symm.trans leaves.profiles⟩
      | none =>
        obtain ⟨before, creates_iff⟩ := creates_iff wanted
        have after := restored.profiles
        rw [keptProfiles, profilesDecoded, profilesOf, wanted] at after
        have after : d'.store = u.store := after
        rw [creates_iff] at stored
        rcases stored with ⟨creates, late, created⟩ | ⟨settled, same⟩
        · refine .inr ⟨⟨late, ⟨s, decoded⟩, wanted, ?_, pairs, importing, creates⟩, ?_⟩
          · rw [← rulesDecoded]
            exact replaced.insertable
          · rw [after, created, withGroup_store before]
        · have storeBack : d'.store = d.store := (after.trans same).trans before
          refine .inl ⟨⟨storeBack ▸ .refl _, storeBack ▸ .refl _, rulesBack,
            settingsBack ▸ .refl _⟩, fun leaves => ?_⟩
          obtain ⟨pairs', present, creates⟩ := leaves.creates
          cases importing.symm.trans present
          exact settled ⟨creates, leaves.late⟩

/-- What an import leaves, and what it leaves when it throws. -/
theorem finishImport_ends (numbered : WellNumbered d) :
    Ends (finishImport fault content profile rule setting) d
      (fun _ d' => (Replaced content profile rule setting d d' ∧
        ¬ LeavesGroup content profile rule setting fault d) ∧ WellNumbered d')
      (fun d' => (SameRows d d' ∧ ¬ LeavesGroup content profile rule setting fault d ∨
        LeavesGroup content profile rule setting fault d ∧ d'.store = (withGroup d).store) ∧
          WellNumbered d') := by
  have early (harmless : ¬ LeavesGroup content profile rule setting fault d) :
      (SameRows d d ∧ ¬ LeavesGroup content profile rule setting fault d ∨
        LeavesGroup content profile rule setting fault d ∧ d.store = (withGroup d).store) ∧
          WellNumbered d := ⟨.inl ⟨.refl d, harmless⟩, numbered⟩
  refine read_bind (fun thrown => early fun leaves => ?_)
    (fun e failed => early fun leaves => ?_) fun s decoded _ => ?_
  · exact absurd (thrown ▸ leaves.late) (by decide)
  · obtain ⟨s, decoded⟩ := leaves.decodes
    cases failed.symm.trans decoded
  obtain ⟨profilesDecoded, rulesDecoded, _⟩ := decodeBackup_records decoded
  have unwanted (leaves : LeavesGroup content profile rule setting fault d) :
      s.profiles = none := by
    rw [profilesDecoded, profilesOf, leaves.profiles]
    rfl
  refine Ends.bind ((oldProfiles_ends s).weaken (fun _ _ h => h) ?_) ?_
  · rintro _ ⟨rfl, wanted⟩
    refine early fun leaves => ?_
    rw [unwanted leaves] at wanted
    cases wanted
  rintro _ _ ⟨rfl, rfl⟩
  refine Ends.bind ((oldRules_ends s).weaken (fun _ _ h => h) ?_) ?_
  · rintro _ ⟨rfl, thrown⟩
    exact early fun leaves => absurd (thrown ▸ leaves.late) (by decide)
  rintro _ d₀ ⟨rfl, rfl⟩
  refine Ends.bind (sagerStage_ends.weaken (fun _ _ h => h) ?_) fun _ d₁ replaced => ?_
  · rintro _ ⟨rfl, refused⟩
    refine early fun leaves => refused (.inr leaves.late) ⟨?_, ?_, ?_⟩
    · simp [unwanted leaves]
    · simp [unwanted leaves]
    · rw [rulesDecoded]
      exact leaves.rules
  exact (settingsStage_ends numbered replaced decoded).bind fun _ d₂ done => .pure done

end Stages

/-- Ids stay assigned, wherever the import throws. -/
theorem finishImport_wellNumbered (numbered : WellNumbered d) (fault : Option Point)
    (content : Backup B) (profile rule setting : Bool) :
    WellNumbered (finishImport fault content profile rule setting d).2 :=
  (finishImport_ends numbered).final (fun _ _ h => h.2) fun _ h => h.2

/-- A profile in a group that is selected. -/
def oneProfile : Databases Unit where
  store := {
    proxies := ⟨⟨[.fresh 1 1 1 ()], by decide⟩, 1, by decide⟩
    groups := ⟨⟨[ungroupedGroup 1], by decide⟩, 1, by decide⟩ }
  rules := .empty
  settings := [⟨PROFILE_GROUP, .long 1⟩]

theorem oneProfile_wellNumbered : WellNumbered oneProfile :=
  ⟨⟨by decide, by decide⟩, ⟨by decide, by decide⟩, ⟨by decide, by decide⟩⟩

/-- A backup of another profile and its group, with a record that cannot be read. -/
def otherBackup : Backup Unit where
  profiles := some [.record (.fresh 5 3 1 ()), .broken]
  groups := some [.record (ungroupedGroup 3)]
  rules := none
  settings := some [.record ⟨PROFILE_GROUP, .long 3⟩]

theorem interrupted_import_wellNumbered : WellNumbered oneProfile ∧
    WellNumbered
      (finishImport (some .commitSettings) otherBackup true true true oneProfile).2 :=
  ⟨oneProfile_wellNumbered, finishImport_wellNumbered oneProfile_wellNumbered _ _ _ _ _⟩

/-! ## All or nothing -/

/-- An import is all or nothing except where it leaves a group behind. -/
theorem finishImport_allOrNothing_iff (numbered : WellNumbered d) (fault : Option Point)
    (content : Backup B) (profile rule setting : Bool) :
    AllOrNothing content profile rule setting d
        (finishImport fault content profile rule setting d) ↔
      ¬ LeavesGroup content profile rule setting fault d := by
  have ends : Ends (finishImport fault content profile rule setting) d _ _ :=
    finishImport_ends numbered
  rcases run : finishImport fault content profile rule setting d with ⟨e | n, d'⟩
  · rcases (ends.error run).1 with ⟨same, harmless⟩ | ⟨leaves, created⟩
    · exact iff_of_true same harmless
    · refine iff_of_false (fun same : SameRows d d' => ?_) (not_not_intro leaves)
      obtain ⟨_, _, creates⟩ := leaves.creates
      have groups := same.groups
      rw [created, withGroup_rows creates.none, creates.none] at groups
      exact absurd groups.length_eq (by simp)
  · obtain ⟨replaced, harmless⟩ := (ends.ok run).1
    exact iff_of_true replaced harmless

/-- The commit of the settings throws after both transactions have written, and the old rows are
written again. -/
theorem interrupted_import_restores : WellNumbered oneProfile ∧
    (finishImport (some .commitSettings) otherBackup true true true oneProfile).1 =
        .error "fault" ∧
      AllOrNothing otherBackup true true true oneProfile
        (finishImport (some .commitSettings) otherBackup true true true oneProfile) :=
  ⟨oneProfile_wellNumbered, rfl,
    (finishImport_allOrNothing_iff oneProfile_wellNumbered _ otherBackup true true true).mpr
      fun leaves => absurd leaves.profiles (by decide)⟩

/-- The databases of a new installation, before a group was selected. -/
def newInstallation : Databases Unit where
  store := ⟨.empty, .empty⟩
  rules := .empty
  settings := []

def themeBackup : Backup Unit where
  profiles := none
  groups := none
  rules := none
  settings := some [.record ⟨"appTheme", .long 1⟩]

/-- The settings are back, the group that reading the selected group created is not. -/
theorem failed_import_leaves_group : WellNumbered newInstallation ∧
    (finishImport (some .commitSettings) themeBackup false false true newInstallation).1 =
        .error "fault" ∧
      ¬ AllOrNothing themeBackup false false true newInstallation
        (finishImport (some .commitSettings) themeBackup false false true newInstallation) := by
  refine ⟨⟨⟨by decide, by decide⟩, ⟨by decide, by decide⟩, ⟨by decide, by decide⟩⟩, rfl,
    fun same : SameRows _ _ => ?_⟩
  exact absurd same.groups.length_eq (by decide)

end QuinMo.Import
