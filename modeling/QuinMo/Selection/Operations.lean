import QuinMo.Model.Settings
import QuinMo.Subscription.Update

/-!
# Operations that remove or replace rows

The selected profile and the selected group are settings, which live in a database of their own.
-/

namespace QuinMo.Selection

variable {B : Type}

/-- Both databases, of the settings only the two selections. A selection that was never
made reads as profile 0 and as group -1. -/
structure App (B : Type) where
  store : Store B
  rules : Numbered RuleEntity (·.id)
  selectedProxy : Int
  selectedGroup : Int

/-- `ProxyGroup(ungrouped = true)`. -/
def ungroupedGroup (id : Int) : ProxyGroup where
  id := id
  userOrder := 0
  ungrouped := true

def firstGroupId (s : Store B) : Option Int := s.allGroups.head?.map (·.id)

/-- Reading the selected group selects one, and creates one, if there is none. -/
def currentGroupId (a : App B) : Int × App B :=
  if 0 < a.selectedGroup then (a.selectedGroup, a)
  else match firstGroupId a.store with
    | some id => (id, { a with selectedGroup := id })
    | none =>
      let id := a.store.groups.sequence + 1
      let groups := a.store.groups.place (ungroupedGroup id) a.store.groups.next_new
      (id, { a with store := { a.store with groups }, selectedGroup := id })

def resetSelectedGroup (a : App B) : App B :=
  { a with selectedGroup := (firstGroupId a.store).getD (-1) }

/-- Whether one of the groups is selected; the selection is read for each of them. -/
def anySelected (a : App B) : List Int → Bool × App B
  | [] => (false, a)
  | id :: ids =>
    let (selected, a) := currentGroupId a
    if id = selected then (true, a) else anySelected a ids

def rearrange (s : Store B) (groupId : Int) : Store B :=
  (s.getByGroup groupId).zipIdx.foldl (fun s e => s.updateOrder e.1.id (e.2 + 1)) s

/-- The fixups after profiles were deleted. -/
def afterDelete (s : Store B) (groupId : Int) : Store B :=
  let s := s.resetDanglingGroupProxies
  if 1 < s.countByGroup groupId then rearrange s groupId else s

def deleteProfile2 (a : App B) (profileId : Int) : App B :=
  if (a.store.getById profileId).isNone then a
  else { a with
    store := a.store.deleteById profileId
    selectedProxy := if a.selectedProxy = profileId then 0 else a.selectedProxy }

def deleteProfiles (a : App B) (profiles : List (ProxyEntity B)) : App B :=
  match profiles with
  | [] => a
  | first :: _ =>
    let a := profiles.foldl (fun a profile => deleteProfile2 a profile.id) a
    { a with store := afterDelete a.store first.groupId }

def deleteProfile (a : App B) (groupId profileId : Int) : App B :=
  if (a.store.getById profileId).isNone then a
  else
    let a := deleteProfile2 a profileId
    { a with store := afterDelete a.store groupId }

/-- Unselect a profile of these groups; only positive ids are taken for a selection. -/
def unselectIn (a : App B) (groupIds : List Int) : App B :=
  let selected := a.selectedProxy
  if 0 < selected ∧ ((a.store.getById selected).map (·.groupId)).any (· ∈ groupIds) then
    { a with selectedProxy := 0 }
  else a

def clearGroup (a : App B) (groupId : Int) : App B :=
  let a := unselectIn a [groupId]
  { a with store := (a.store.deleteByGroup [groupId]).resetDanglingGroupProxies }

/-- The transaction that deletes groups with their profiles. -/
def removeGroups (s : Store B) (groupIds : List Int) : Store B :=
  ((s.deleteGroups groupIds).deleteByGroup groupIds).resetDanglingGroupProxies

def deleteGroup (a : App B) (groupId : Int) : App B :=
  let a := unselectIn a [groupId]
  let a := { a with store := removeGroups a.store [groupId] }
  let (selected, a) := currentGroupId a
  if selected = groupId then resetSelectedGroup a else a

def deleteGroups (a : App B) (group : List ProxyGroup) : App B :=
  let ids := group.map (·.id)
  let a := unselectIn a ids
  let a := { a with store := removeGroups a.store ids }
  let (found, a) := anySelected a ids
  if found then resetSelectedGroup a else a

/-! ## Backups -/

/-- An entry of an array of a backup: no text, a text that is no record, or a record. -/
inductive Encoded (T : Type) where
  | notText
  | broken
  | record (value : T)

structure Backup (B : Type) where
  profiles : Option (List (Encoded (ProxyEntity B)))
  groups : Option (List (Encoded ProxyGroup))
  rules : Option (List (Encoded RuleEntity))
  settings : Option (List (Encoded KeyValuePair))

/-- The records, and how many texts were skipped. -/
def decodeFrom {T : Type} (key : String) : Nat → List (Encoded T) → Except String (List T × Nat)
  | _, [] => .ok ([], 0)
  | i, .notText :: _ => .error (key ++ "[" ++ toString i ++ "] is not an encoded record")
  | i, .broken :: rest => do
    let (result, skipped) ← decodeFrom key (i + 1) rest
    return (result, skipped + 1)
  | i, .record value :: rest => do
    let (result, skipped) ← decodeFrom key (i + 1) rest
    return (value :: result, skipped)

def decodeArray {T : Type} (key : String) (array : Option (List (Encoded T))) :
    Except String (List T × Nat) :=
  match array with
  | none => .error ("No value for " ++ key)
  | some array => do
    let (result, skipped) ← decodeFrom key 0 array
    if !array.isEmpty && result.isEmpty then .error (key ++ " contains no valid records")
    else return (result, skipped)

/-- A section that is wanted and in the backup. -/
def decodeSection {T : Type} (wanted : Bool) (key : String) (array : Option (List (Encoded T))) :
    Except String (Option (List T) × Nat) :=
  if wanted && array.isSome then do
    let (result, skipped) ← decodeArray key array
    return (some result, skipped)
  else return (none, 0)

def replaceProfiles (s : Store B) (profiles : List (ProxyEntity B)) (groups : List ProxyGroup) :
    Except String (Store B) := do
  let proxies ← (s.proxies.delete fun _ => true).insertAll (fun e id => { e with id })
    (fun _ _ => rfl) profiles
  let groups ← (s.groups.delete fun _ => true).insertAll (fun g id => { g with id })
    (fun _ _ => rfl) groups
  return { proxies, groups }

def replaceRules (rules : Numbered RuleEntity (·.id)) (records : List RuleEntity) :
    Except String (Numbered RuleEntity (·.id)) :=
  (rules.delete fun _ => true).insertAll (fun r id => { r with id }) (fun _ _ => rfl) records

/-- A setting as a selection; one that cannot be read selects nothing. -/
def settingLong (settings : List KeyValuePair) (key : String) : Option Int :=
  (getLong settings key).toOption.join

/-- The selected group is looked at. One that does not exist is not left selected. -/
def settle (a : App B) : App B :=
  let (selected, a) := currentGroupId a
  if 0 < selected then
    let (again, a) := currentGroupId a
    if (a.store.groups.get again).isNone then resetSelectedGroup a else a
  else a

/-- Replace the settings. The selected group is read, and has to be readable. -/
def replaceSettings (a : App B) (settings : List KeyValuePair) : Except String (App B) :=
  if (settings.map (·.key)).Nodup then do
    let group ← getLong settings PROFILE_GROUP
    return settle { a with
      selectedProxy := (settingLong settings PROFILE_ID).getD 0
      selectedGroup := group.getD (-1) }
  else .error "UNIQUE constraint failed"

/-- The decoded sections of a backup; profiles come with their groups. -/
structure Sections (B : Type) where
  profiles : Option (List (ProxyEntity B) × List ProxyGroup)
  rules : Option (List RuleEntity)
  settings : Option (List KeyValuePair)
  skippedRecords : Nat

def decodeProfiles (wanted : Bool) (content : Backup B) :
    Except String (Option (List (ProxyEntity B) × List ProxyGroup) × Nat) := do
  let (profiles, skipped) ← decodeSection wanted "profiles" content.profiles
  match profiles with
  | none => return (none, skipped)
  | some profiles =>
    let (groups, skippedGroups) ← decodeArray "groups" content.groups
    return (some (profiles, groups), skipped + skippedGroups)

def decodeBackup (content : Backup B) (profile rule setting : Bool) :
    Except String (Sections B) := do
  let (profiles, skippedProfiles) ← decodeProfiles profile content
  let (rules, skippedRules) ← decodeSection rule "rules" content.rules
  let (settings, skippedSettings) ← decodeSection setting "settings" content.settings
  return ⟨profiles, rules, settings, skippedProfiles + skippedRules + skippedSettings⟩

/-- Write a section that was decoded. -/
def replaceWith {S T : Type} (replace : S → T → Except String S) (s : S) : Option T → Except String S
  | some decoded => replace s decoded
  | none => .ok s

def replaceSections (a : App B) (sections : Sections B) : Except String (App B) := do
  let store ← replaceWith (fun s (profiles, groups) => replaceProfiles s profiles groups) a.store
    sections.profiles
  let rules ← replaceWith replaceRules a.rules sections.rules
  replaceWith replaceSettings { a with store, rules } sections.settings

/-- The wanted sections are all decoded before anything is written. Nothing changes when
the import fails. -/
def finishImport (a : App B) (content : Backup B) (profile rule setting : Bool) :
    Except String (App B × Nat) := do
  let sections ← decodeBackup content profile rule setting
  let a ← replaceSections a sections
  return (a, sections.skippedRecords)

end QuinMo.Selection
