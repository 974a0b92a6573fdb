import QuinMo.Backup.Records
import QuinMo.Selection.AllOrNothing
import QuinMo.Selection.Refinement

/-!
# Writing a backup and importing it

`doBackup` writes every row into one JSON text. The import of that text, into whatever tables,
puts the rows in their place, if the last step of `finishImport` has nothing to do: it looks at the
selected group and selects one where none is.
-/

namespace QuinMo.Backup

open Fault Fault.Run Import Links Selection Text

/-- The arrays of a backup; an entry is a text or something else. -/
structure Document where
  version : Int
  profiles : Option (List (Option String))
  groups : Option (List (Option String))
  rules : Option (List (Option String))
  settings : Option (List (Option String))
  deriving DecidableEq

/-- Documents as texts. -/
structure JSONTexts where
  toStringPretty : Document → String
  parse : String → Option Document

/-- The text of this document is read as the document. -/
def JSONTexts.RoundTrips (D : JSONTexts) (content : Document) : Prop :=
  D.parse (D.toStringPretty content) = some content

section
variable {L : LowerCase} {J : JSONObjects} (E P : Encoding) (D : JSONTexts)

abbrev Tables (L : LowerCase) (J : JSONObjects) := Databases (FullBean (beanLayout L J))

/-- The base64 of the parcel that the values are put into. -/
def toBase64Str (values : List Token) : Option String :=
  some (String.ofList (Base64.encode true false (P.write values)))

def unmarshal {T : Type} (create : Reader P.Input T) : Option String → Encoded T
  | none => .notText
  | some b64 =>
    match b64Decode b64 with
    | .error _ => .broken
    | .ok data =>
      match P.read create data with
      | some (item, _) => .record item
      | none => .broken

/-- `Serializable.writeToParcel`. -/
def writeToParcel (values : List Token) : List Token := [.block (E.write values)]

/-- `Serializable.CREATOR`. Bytes that end too early are taken for no record; the app keeps what
it could read of them. -/
def createFromParcel {T : Type} (deserialize : Reader E.Input T) : Reader P.Input T := do
  let bytes ← readBlock
  match E.read deserialize bytes with
  | some (item, _) => pure item
  | none => failure

def allRules (d : Tables L J) : List RuleEntity :=
  d.rules.rows.insertionSort (·.userOrder ≤ ·.userOrder)

/-- The sections that are wanted. -/
def document (d : Tables L J) (profile rule setting : Bool) : Document where
  version := 1
  profiles := if profile then
    some (d.store.proxies.rows.map fun e => toBase64Str P (writeToParcel E (serializeEntity E e)))
    else none
  groups := if profile then
    some (d.store.allGroups.map fun g => toBase64Str P (writeToParcel E g.serializeToBuffer))
    else none
  rules := if rule then some ((allRules d).map fun r => toBase64Str P r.writeToParcel) else none
  settings := if setting then some (d.settings.map fun p => toBase64Str P p.writeToParcel) else none

def doBackup (d : Tables L J) (profile rule setting : Bool) : String :=
  D.toStringPretty (document E P d profile rule setting)

/-- The records of a document. -/
def contentOf (content : Document) : Selection.Backup (FullBean (beanLayout L J)) where
  profiles := content.profiles.map
    (·.map (unmarshal P (createFromParcel E P (deserializeEntity E))))
  groups := content.groups.map
    (·.map (unmarshal P (createFromParcel E P ProxyGroup.deserializeFromBuffer)))
  rules := content.rules.map (·.map (unmarshal P RuleEntity.createFromParcel))
  settings := content.settings.map (·.map (unmarshal P KeyValuePair.createFromParcel))

/-- The file must be a document of version 1. Nothing throws while it is imported, unless a record
or a row itself is the reason. -/
def startImport (text : String) (profile rule setting : Bool) : Run (Tables L J) Nat :=
  match D.parse text with
  | none => fail "invalid backup file"
  | some content =>
    if content.version < 1 ∨ 1 < content.version then fail "invalid backup file"
    else finishImport none (contentOf E P content) profile rule setting

/-- The values fit their types, and their bytes fit an array. -/
def Fitting (values : List Token) : Prop :=
  (∀ t ∈ values, t.Fits) ∧ ∀ t ∈ writeToParcel E values, t.Fits

instance (values : List Token) : Decidable (Fitting E values) := inferInstanceAs (Decidable (_ ∧ _))

/-- Rows as the app stores them: ids are positive, the defaults of beans are applied, a key has one
setting, and every column is a value of its type. -/
structure Stored (d : Tables L J) : Prop where
  proxies : ∀ e ∈ d.store.proxies.rows,
    0 < e.id ∧ e.bean.Initialized ∧ e.bean.Fits ∧ Fitting E (serializeEntity E e)
  groups : ∀ g ∈ d.store.groups.rows, 0 < g.id ∧ Fitting E g.serializeToBuffer
  rules : ∀ r ∈ d.rules.rows, 0 < r.id ∧ ∀ t ∈ r.writeToParcel, t.Fits
  keys : (d.settings.map (·.key)).Nodup
  settings : ∀ p ∈ d.settings, p.value.Fits ∧ ∀ t ∈ p.writeToParcel, t.Fits

/-- The tables have the same rows. -/
structure SameRows (d d' : Tables L J) : Prop where
  proxies : (d'.store.proxies.rows.map (columns E)).Perm (d.store.proxies.rows.map (columns E))
  groups : d'.store.groups.rows.Perm d.store.groups.rows
  rules : d'.rules.rows.Perm d.rules.rows
  settings : d'.settings.Perm d.settings

/-- The setting `PROFILE_GROUP` is the id of a stored group. -/
def SelectsGroup (d : Tables L J) : Prop :=
  ∃ g ∈ d.store.groups.rows, 0 < g.id ∧ getLong d.settings PROFILE_GROUP = .ok (some g.id)

end

theorem decodeFrom_whole {T : Type} (key : String) (i : Nat) (records : List T) :
    decodeFrom key i (records.map Encoded.record) = .ok (records, 0) := by
  induction records generalizing i with
  | nil => rfl
  | cons r records ih =>
    rw [List.map_cons, decodeFrom, ih]
    rfl

theorem decodeArray_whole {T : Type} (key : String) (records : List T) :
    decodeArray key (some (records.map Encoded.record)) = .ok (records, 0) := by
  rw [decodeArray, decodeFrom_whole]
  cases records <;> rfl

theorem decodeSection_whole {T : Type} (key : String) (records : List T) :
    decodeSection true key (some (records.map Encoded.record)) = .ok (some records, 0) := by
  rw [decodeSection, decodeArray_whole]
  rfl

section
variable {E P : Encoding}

theorem unmarshal_toBase64Str {T : Type} {create : Reader P.Input T} {values : List Token} {item : T}
    (reads : Reads create values item) (fits : ∀ t ∈ values, t.Fits) :
    unmarshal P create (toBase64Str P values) = .record item := by
  simp only [unmarshal, toBase64Str, b64Decode_encode, Encoding.read_write reads fits]

theorem createFromParcel_reads {T : Type} {deserialize : Reader E.Input T} {values : List Token}
    {item : T} (reads : Reads deserialize values item) (fits : ∀ t ∈ values, t.Fits) :
    Reads (createFromParcel E P deserialize) (writeToParcel E values) item := by
  intro held rest
  rw [createFromParcel, writeToParcel, pushAll_cons, pushAll_nil,
    run_readBlock rest _ (held _ List.mem_cons_self), Encoding.read_write reads fits]
  rfl

/-- Records of which each is read as `restored` makes it. -/
theorem unmarshal_all {T : Type} {create : Reader P.Input T} (write : T → List Token)
    (restored : T → T) (records : List T)
    (read : ∀ r ∈ records, Reads create (write r) (restored r) ∧ ∀ t ∈ write r, t.Fits) :
    (records.map fun r => toBase64Str P (write r)).map (unmarshal P create) =
      (records.map restored).map Encoded.record := by
  induction records with
  | nil => rfl
  | cons r records ih =>
    obtain ⟨⟨reads, fits⟩, others⟩ := List.forall_mem_cons.mp read
    rw [List.map_cons, List.map_cons, List.map_cons, List.map_cons, unmarshal_toBase64Str reads fits,
      ih others]

variable {L : LowerCase} {J : JSONObjects} {d : Tables L J}

/-- Profiles come back with their columns. -/
theorem unmarshal_profiles {rows : List (ProxyRow L J)}
    (stored : ∀ e ∈ rows, e.bean.Initialized ∧ e.bean.Fits ∧ Fitting E (serializeEntity E e)) :
    ∃ restored : List (ProxyRow L J),
      (rows.map fun e => toBase64Str P (writeToParcel E (serializeEntity E e))).map
          (unmarshal P (createFromParcel E P (deserializeEntity E))) =
        restored.map Encoded.record ∧
      restored.map (columns E) = rows.map (columns E) := by
  induction rows with
  | nil => exact ⟨[], rfl, rfl⟩
  | cons e rows ih =>
    obtain ⟨⟨initialized, fits, fitting⟩, others⟩ := List.forall_mem_cons.mp stored
    obtain ⟨restored, records, same⟩ := ih others
    obtain ⟨e', reads, sameRow⟩ :=
      deserializeEntity_reads (E := E) (I := E.Input) fits initialized
    refine ⟨e' :: restored, ?_, ?_⟩
    · rw [List.map_cons, List.map_cons, records, List.map_cons,
        unmarshal_toBase64Str (createFromParcel_reads reads fitting.1) fitting.2]
    · rw [List.map_cons, List.map_cons, same, sameRow]

theorem mem_allRules {r : RuleEntity} : r ∈ allRules d ↔ r ∈ d.rules.rows :=
  (List.perm_insertionSort _ _).mem_iff

theorem mem_allGroups {g : ProxyGroup} : g ∈ d.store.allGroups ↔ g ∈ d.store.groups.rows :=
  (List.perm_insertionSort _ _).mem_iff

/-- No record of a backup is skipped. -/
theorem decodeBackup_document (stored : Stored E d) : ∃ profiles : List (ProxyRow L J),
    profiles.map (columns E) = d.store.proxies.rows.map (columns E) ∧
      decodeBackup (contentOf E P (document E P d true true true)) true true true =
        .ok ⟨some (profiles, d.store.allGroups.map ProxyGroup.restored), some (allRules d),
          some d.settings, 0⟩ := by
  obtain ⟨profiles, records, same⟩ := unmarshal_profiles (P := P) fun e listed =>
    (stored.proxies e listed).2
  have groups := unmarshal_all (P := P) (fun g => writeToParcel E g.serializeToBuffer)
    ProxyGroup.restored d.store.allGroups fun g listed =>
      have fitting := (stored.groups g (mem_allGroups.mp listed)).2
      ⟨createFromParcel_reads g.deserializeFromBuffer_reads fitting.1, fitting.2⟩
  have rules := unmarshal_all (P := P) RuleEntity.writeToParcel id (allRules d) fun r listed =>
    ⟨r.createFromParcel_reads, (stored.rules r (mem_allRules.mp listed)).2⟩
  have settings := unmarshal_all (P := P) KeyValuePair.writeToParcel id d.settings fun p listed =>
    ⟨KeyValuePair.createFromParcel_reads (stored.settings p listed).1, (stored.settings p listed).2⟩
  rw [List.map_id] at rules settings
  refine ⟨profiles, same, ?_⟩
  simp only [decodeBackup, decodeProfiles, contentOf, document, if_true, Option.map_some, records,
    groups, rules, settings, decodeSection_whole, decodeArray_whole]
  rfl

/-! ## Looking at the selected group -/

variable {u d' : Tables L J}

theorem SelectsGroup.get {id : Int} (selects : SelectsGroup u)
    (found : getLong u.settings PROFILE_GROUP = .ok (some id)) :
    0 < id ∧ (u.store.groups.get id).isSome := by
  obtain ⟨g, listed, positive, setting⟩ := selects
  rw [setting] at found
  cases found
  exact ⟨positive, (u.store.groups.get_isSome g.id).mpr (List.mem_map_of_mem listed)⟩

theorem repairSelected_selects (selects : SelectsGroup u) :
    repairSelected none u = (.ok (), u) := by
  obtain ⟨g, listed, positive, setting⟩ := selects
  have stored := (SelectsGroup.get ⟨g, listed, positive, setting⟩ setting).2
  refine (bind_of_ok (selectedGroup_of_chosen true (.stored positive setting))).trans ?_
  refine (bind_of_ok (read_value _ _)).trans ?_
  rw [runIf, stored]
  rfl

/-- Where a stored group is selected there is nothing to do. -/
theorem settle_selects (selects : SelectsGroup u) : settle none u = (.ok (), u) := by
  have repaired := repairSelected_selects selects
  obtain ⟨g, listed, positive, setting⟩ := selects
  refine (bind_of_ok (selectedGroup_of_chosen false (.stored positive setting))).trans ?_
  rw [runIf, if_pos positive]
  exact (bind_of_ok repaired).trans (write_none _ _)

/-! ## Backup and restore -/

variable {D : JSONTexts} {into : Tables L J}

/-- The tables into which the records were put, before the selected group is looked at. -/
structure Imported (d u : Tables L J) : Prop where
  proxies : u.store.proxies.rows.map (columns E) = d.store.proxies.rows.map (columns E)
  groups : u.store.groups.rows.Perm (d.store.groups.rows.map ProxyGroup.restored)
  rules : u.rules.rows.Perm d.rules.rows
  settings : u.settings = d.settings

theorem restored_ids (gs : List ProxyGroup) : (gs.map ProxyGroup.restored).map (·.id) =
    gs.map (·.id) := by
  rw [List.map_map]
  rfl

/-- The records of a backup have ids of their own. -/
theorem own_records (stored : Stored E d) {profiles : List (ProxyRow L J)}
    (same : profiles.map (columns E) = d.store.proxies.rows.map (columns E)) :
    Own (some (profiles, d.store.allGroups.map ProxyGroup.restored)) (some (allRules d)) := by
  have ids : profiles.map (·.id) = d.store.proxies.rows.map (·.id) := by
    have projected := congrArg (List.map ProxyEntity.id) same
    rwa [List.map_map, List.map_map] at projected
  have nonzero {T : Type} {key : T → Int} {rows : List T} (positive : ∀ r ∈ rows, 0 < key r)
      {records : List T} (keys : (records.map key).Perm (rows.map key)) :
      ∀ r ∈ records, key r ≠ 0 := by
    intro r listed
    obtain ⟨r', listed', same⟩ := List.mem_map.mp (keys.mem_iff.mp (List.mem_map_of_mem listed))
    have := positive r' listed'
    omega
  have groups : ((d.store.allGroups.map ProxyGroup.restored).map (·.id)).Perm
      (d.store.groups.rows.map (·.id)) := by
    rw [restored_ids]
    exact (allGroups_perm d.store).map _
  have rules : ((allRules d).map (·.id)).Perm (d.rules.rows.map (·.id)) := (sorted_perm _).map _
  constructor
  · rintro _ ⟨⟩
    exact ⟨nonzero (fun e listed => (stored.proxies e listed).1) (ids ▸ .refl _),
      ids ▸ d.store.proxies.unique⟩
  · rintro _ ⟨⟩
    exact ⟨nonzero (fun g listed => (stored.groups g listed).1) groups,
      groups.nodup_iff.mpr d.store.groups.unique⟩
  · rintro _ ⟨⟩
    exact ⟨nonzero (fun r listed => (stored.rules r listed).1) rules,
      rules.nodup_iff.mpr d.rules.unique⟩

/-- The import of a backup, into whatever tables, skips nothing and puts the rows in their place;
what is left is the look at the selected group. -/
theorem startImport_own (stored : Stored E d)
    (texts : D.RoundTrips (document E P d true true true)) (into : Tables L J) :
    ∃ u, Imported (E := E) d u ∧
      outcome (startImport E P D (doBackup E P D d true true true) true true true into) =
        (outcome (settle none u)).map fun r => (0, r.2) := by
  obtain ⟨profiles, same, decoded⟩ := decodeBackup_document (P := P) stored
  have own := own_records stored same
  obtain ⟨d₁, run, replaced⟩ := replaceSagerData_own own into
  obtain ⟨proxyRows, groupRows⟩ := replaced.profiles
  rw [Numbered.givenRows_own (own.proxies _ rfl).1] at proxyRows
  rw [Numbered.givenRows_own (own.groups _ rfl).1] at groupRows
  have ruleRows : d₁.rules.rows = allRules d :=
    replaced.rules.trans (Numbered.givenRows_own (own.rules _ rfl).1 _)
  refine ⟨{ d₁ with settings := d.settings }, ⟨?_, ?_, ?_, rfl⟩, ?_⟩
  · rw [proxyRows, same]
  · rw [groupRows]
    exact (allGroups_perm d.store).map _
  · rw [ruleRows]
    exact sorted_perm _
  · have version : ¬ ((document E P d true true true).version < 1 ∨
        1 < (document E P d true true true).version) :=
      (by decide : ¬ ((1 : Int) < 1 ∨ (1 : Int) < 1))
    have opened : startImport E P D (doBackup E P D d true true true) true true true =
        finishImport none (contentOf (L := L) (J := J) E P (document E P d true true true)) true true
          true := by
      rw [startImport, show D.parse (doBackup E P D d true true true) = _ from texts]
      exact if_neg version
    rw [opened, finishImport_outcome decoded, runIf, if_pos (.inl rfl), run]
    change (outcome (replaceSettings none (some d.settings) d₁) >>= _) = _
    rw [replaceSettings_outcome, if_pos stored.keys]
    cases outcome (settle none { d₁ with settings := d.settings }) with
    | error e => rfl
    | ok r => rfl

/-- An import that leaves the rows of the backup has found a stored group selected, and groups with
a subscription exactly if they are for one. -/
theorem conditions_of_restored (stored : Stored E d)
    (texts : D.RoundTrips (document E P d true true true))
    (ok : startImport E P D (doBackup E P D d true true true) true true true into = (.ok 0, d'))
    (same : SameRows E d d') :
    SelectsGroup d ∧ ∀ g ∈ d.store.groups.rows, g.WellTyped := by
  obtain ⟨u, imported, result⟩ := startImport_own stored texts into
  rw [ok] at result
  obtain ⟨⟨⟨⟩, d''⟩, settled, last⟩ : ∃ r, outcome (settle none u) = .ok r ∧ (0, r.2) = (0, d') := by
    cases run : outcome (settle none u) with
    | error e =>
      rw [run] at result
      cases result
    | ok r =>
      rw [run] at result
      exact ⟨r, rfl, (Except.ok.inj result).symm⟩
  cases last
  have settled := outcome_ok.mp settled
  have ids : ∀ g ∈ u.store.groups.rows, 0 < g.id := by
    intro g listed
    obtain ⟨g', listed', rfl⟩ := List.mem_map.mp (imported.groups.mem_iff.mp listed)
    exact (stored.groups g' listed').1
  -- whichever group the import has left selected was selected before
  have selects : SelectsGroup d := by
    have setting := getLong_perm stored.keys same.settings PROFILE_GROUP
    have unchanged : (app d'').selectedGroup = (app u).selectedGroup := by
      simp only [app, settingLong, imported.settings, setting]
    have count : (app d'').store.groups.rows.length = (app u).store.groups.rows.length :=
      same.groups.length_eq.trans (imported.groups.length_eq.trans (List.length_map _)).symm
    have after := settle_app_of_ok settled
    have sound := (settle_spec (app u)).2
    have positive : 0 < (app d'').selectedGroup := by
      rw [unchanged]
      exact selected_of_settle ids (after ▸ unchanged) (after ▸ count)
    rw [← after] at sound
    obtain ⟨g, listed, named⟩ := List.mem_map.mp ((d''.store.groups.get_isSome _).mp
      (sound.resolve_left (Int.not_le.mpr positive)))
    refine ⟨g, same.groups.mem_iff.mp listed, named ▸ positive, ?_⟩
    rw [← setting, getLong_of_selected positive, named]
  refine ⟨selects, ?_⟩
  -- so nothing was done about it, and the groups are those that were read
  obtain ⟨g₀, listed₀, positive₀, selected₀⟩ := selects
  have kept : settle none u = (.ok (), u) := by
    apply settle_selects
    have inside := imported.groups.mem_iff.mpr (List.mem_map_of_mem listed₀)
    exact ⟨g₀.restored, inside, positive₀, imported.settings ▸ selected₀⟩
  rw [kept] at settled
  cases settled
  intro g listed
  have read := imported.groups.mem_iff.mp (same.groups.mem_iff.mpr listed)
  obtain ⟨g', _, rfl⟩ := List.mem_map.mp read
  exact g'.restored_wellTyped

theorem restored_of_conditions (stored : Stored E d)
    (texts : D.RoundTrips (document E P d true true true)) (selects : SelectsGroup d)
    (typed : ∀ g ∈ d.store.groups.rows, g.WellTyped) (into : Tables L J) :
    ∃ d', startImport E P D (doBackup E P D d true true true) true true true into = (.ok 0, d') ∧
      SameRows E d d' := by
  obtain ⟨u, imported, result⟩ := startImport_own stored texts into
  have whole : d.store.groups.rows.map ProxyGroup.restored = d.store.groups.rows :=
    (List.map_congr_left fun g listed => g.restored_iff.mpr (typed g listed)).trans (List.map_id _)
  have groups := imported.groups
  rw [whole] at groups
  have selects : SelectsGroup u := by
    obtain ⟨g, listed, positive, selected⟩ := selects
    exact ⟨g, groups.mem_iff.mpr listed, positive, imported.settings ▸ selected⟩
  rw [settle_selects selects] at result
  refine ⟨u, outcome_ok.mp result, ?_, groups, imported.rules, ?_⟩
  · rw [imported.proxies]
  · rw [imported.settings]

/-- The import of a backup, into whatever tables, skips no record and leaves the rows that were
backed up exactly if a stored group is selected in them and their groups have a subscription
exactly if they are for one. -/
theorem backup_restore_iff (stored : Stored E d)
    (texts : D.RoundTrips (document E P d true true true)) (into : Tables L J) :
    (∃ d', startImport E P D (doBackup E P D d true true true) true true true into = (.ok 0, d') ∧
      SameRows E d d') ↔
      SelectsGroup d ∧ ∀ g ∈ d.store.groups.rows, g.WellTyped := by
  constructor
  · rintro ⟨d', ok, same⟩
    exact conditions_of_restored stored texts ok same
  · rintro ⟨selects, typed⟩
    exact restored_of_conditions stored texts selects typed into

end

/-- A profile in a group of a subscription, a rule for it, and these settings. -/
def subscribedTables (settings : List KeyValuePair) : Tables .ascii emptyObjects where
  store := {
    proxies := ⟨⟨[⟨1, 1, 1, 2048, 1024, 1, 80, "", none, 1, keyNode⟩], by decide⟩, 1, by decide⟩
    groups := ⟨⟨[{
      id := 1, userOrder := 1, type := 1, isSelector := true, landingProxy := 1,
      name := some "group",
      subscription := some { Model.SubscriptionBean.default with
        link := "https://example.com", bytesUsed := 3072 } }], by decide⟩, 1, by decide⟩ }
  rules := ⟨⟨[{
    id := 1, userOrder := 1, enabled := true, port := "443", outbound := 1,
    packages := ["org.example"], name := "rule" }], by decide⟩, 1, by decide⟩
  settings := settings

theorem subscribedTables_stored {settings : List KeyValuePair}
    (distinct : (settings.map (·.key)).Nodup)
    (fits : ∀ p ∈ settings, p.value.Fits ∧ ∀ t ∈ p.writeToParcel, t.Fits) :
    Stored Binary.kryo (subscribedTables settings) where
  proxies e listed := by
    rw [List.mem_singleton.mp listed]
    exact ⟨by decide, rfl, by decide, by decide⟩
  groups g listed := by
    rw [List.mem_singleton.mp listed]
    decide
  rules r listed := by
    rw [List.mem_singleton.mp listed]
    decide
  keys := distinct
  settings := fits

/-- The text of a backup of `subscribedTables`, with these lines for the settings. -/
def backupText (settings : String) : String :=
  "\x7b\n  \"version\": 1,\n  \"profiles\": [\n    \"" ++
    "cAAAAAEAAAABAAAAAAAAAAEAAAAAAAAAEQAAAAEAAAAAAAAAAAgAAAAAAAAABAAAAAAAAAEAAABQAAAAgYAw" ++
    "AAAAAG5vZGUuZXhhbXBs5RYAAAByb2_0AgAAAGtl-XBocmFz5YEBAAAAbm9k5YGBAAEAAAA" ++
    "\"\n  ],\n  \"groups\": [\n    \"" ++
    "cQAAAAIAAAABAAAAAAAAAAEAAAAAAAAAAGdyb3XwAQAAAAIAAAAAAAAAaHR0cHM6Ly9leGFtcGxlLmNv7QAA" ++
    "AIEAoAUAAAAAAACAAAwAAAAAAAAAAAAAAAAAAAAAAAAAAAAAgQH__________wEAAAAAAAAAAAAA" ++
    "\"\n  ],\n  \"rules\": [\n    \"" ++
    "AQAAAAAAAAAEAAAAcgB1AGwAZQAAAAAAAAAAAAAAAAABAAAAAAAAAAEAAAAAAAAAAAAAAAAAAAAAAAAAAwAA" ++
    "ADQANAAzAAAAAAAAAAAAAAAAAAAAAAAAAAAAAAAAAAAAAAAAAAAAAAABAAAAAAAAAAEAAAALAAAAbwByAGcA" ++
    "LgBlAHgAYQBtAHAAbABlAAAA" ++
    "\"\n  ],\n  \"settings\": [" ++ settings ++ "]\n\x7d"

/-- The texts of one document, as they were taken from the library. -/
def sampleTexts (content : Document) (text : String) : JSONTexts where
  toStringPretty d := if d = content then text else ""
  parse t := if t = text then some content else none

theorem sampleTexts_roundTrips (content : Document) (text : String) :
    (sampleTexts content text).RoundTrips content := by
  simp [JSONTexts.RoundTrips, sampleTexts]

def selectedTables : Tables .ascii emptyObjects := subscribedTables [⟨PROFILE_GROUP, .long 1⟩]

def selectedTexts : JSONTexts :=
  sampleTexts (document Binary.kryo Binary.parcel selectedTables true true true) (backupText
    "\n    \"DAAAAHAAcgBvAGYAaQBsAGUARwByAG8AdQBwAAAAAAAEAAAACAAAAAAAAAAAAAAB\"\n  ")

/-- Tables with a profile, a group and a setting of their own. -/
def otherTables : Tables .ascii emptyObjects where
  store := {
    proxies := ⟨⟨[.fresh 7 3 1 keyNode], by decide⟩, 7, by decide⟩
    groups := ⟨⟨[ungroupedGroup 3], by decide⟩, 4, by decide⟩ }
  rules := .empty
  settings := [⟨"appTheme", .long 3⟩]

theorem selected_group_restored :
    ∃ d', startImport Binary.kryo Binary.parcel selectedTexts
        (doBackup Binary.kryo Binary.parcel selectedTexts selectedTables true true true) true true
          true otherTables = (.ok 0, d') ∧
      SameRows Binary.kryo selectedTables d' :=
  (backup_restore_iff (subscribedTables_stored (by decide) (by decide))
    (sampleTexts_roundTrips _ _) otherTables).mpr
      ⟨⟨_, List.mem_singleton.mpr rfl, by decide, rfl⟩, by decide⟩

def resetTexts : JSONTexts :=
  sampleTexts (document Binary.kryo Binary.parcel (subscribedTables []) true true true)
    (backupText "")

/-- After a reset of the settings no group is selected, and the import selects one. -/
theorem reset_settings_not_restored :
    Stored Binary.kryo (subscribedTables []) ∧
    ¬ ∃ d', startImport Binary.kryo Binary.parcel resetTexts
        (doBackup Binary.kryo Binary.parcel resetTexts (subscribedTables []) true true true) true
          true true (subscribedTables []) = (.ok 0, d') ∧
      SameRows Binary.kryo (subscribedTables []) d' := by
  have stored : Stored Binary.kryo (subscribedTables []) :=
    subscribedTables_stored (by decide) (by decide)
  refine ⟨stored, ?_⟩
  rintro ⟨d', ok, same⟩
  obtain ⟨⟨g, _, _, selected⟩, _⟩ :=
    conditions_of_restored stored (sampleTexts_roundTrips _ _) ok same
  cases selected

end QuinMo.Backup
