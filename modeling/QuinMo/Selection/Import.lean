import QuinMo.Lib.Fault
import QuinMo.Selection.Restore

/-!
# The import of a backup, statement by statement

Settings are in a database of their own, with a transaction of its own. When that throws, the rows
of the first transaction are undone by writing the old rows again.
-/

namespace QuinMo.Import

open Fault Fault.Run Selection

variable {B : Type}

structure Databases (B : Type) where
  store : Store B
  rules : Numbered RuleEntity (·.id)
  settings : List KeyValuePair

theorem Databases.next_group {B : Type} (d : Databases B) :
    d.store.groups.sequence + 1 ∉ d.store.groups.rows.map (·.id) :=
  d.store.groups.next_new

/-- The statements of a read of `DataStore.selectedGroup`. -/
inductive Stage where
  | stored
  | allGroups
  | createGroup
  | put
  | value
  deriving DecidableEq, Repr

inductive Point where
  | decode
  | oldProfiles
  | oldGroups
  | oldRules
  | resetProxies
  | insertProxies
  | resetGroups
  | insertGroups
  | resetRules
  | insertRules
  | commitSager
  | resetSettings
  | insertSettings
  /-- In the first or the second read of the selected group. -/
  | selected (again : Bool) (stage : Stage)
  | getById
  | firstGroup
  | putSelected
  | commitSettings
  deriving DecidableEq, Repr

section
variable (fault : Option Point)

/-- A statement that does not fail by itself. -/
def write (point : Point) (f : Databases B → Databases B) : Run (Databases B) Unit :=
  statement fault point fun d => .ok ((), f d)

def read {α : Type} (point : Point) (f : Databases B → Except String α) : Run (Databases B) α :=
  statement fault point fun d => (f d).map (·, d)

def putSelectedGroup (point : Point) (id : Int) : Run (Databases B) Unit :=
  write fault point fun d => { d with settings := putLong d.settings PROFILE_GROUP id }

/-- `createGroup(ProxyGroup(ungrouped = true))`, in the other database. -/
def createUngrouped (point : Point) : Run (Databases B) Int :=
  statement fault point fun d =>
    let id := d.store.groups.sequence + 1
    let groups := d.store.groups.place (ungroupedGroup id) d.next_group
    .ok (id, { d with store := { d.store with groups } })

/-- The group to select when none is: the first one, or a new one. -/
def chooseGroup (again : Bool) : Option Int → Run (Databases B) Int
  | some id => do
    putSelectedGroup fault (.selected again .put) id
    return id
  | none => do
    let id ← createUngrouped fault (.selected again .createGroup)
    putSelectedGroup fault (.selected again .put) id
    return id

def currentGroupId (again : Bool) : Run (Databases B) Int := do
  let current ← read fault (.selected again .stored) fun d => getLong d.settings PROFILE_GROUP
  if 0 < current.getD (-1) then return current.getD (-1)
  else
    let first ← read fault (.selected again .allGroups) fun d => .ok (firstGroupId d.store)
    chooseGroup fault again first

def selectedGroup (again : Bool) : Run (Databases B) Int := do
  let defaultValue ← currentGroupId fault again
  let value ← read fault (.selected again .value) fun d => getLong d.settings PROFILE_GROUP
  return value.getD defaultValue

/-! ## The transactions -/

def restoreSager (old new : Databases B) : Databases B :=
  { new with store := old.store, rules := old.rules }

def restoreSettings (old new : Databases B) : Databases B := { new with settings := old.settings }

def insertProxies (d : Databases B) (profiles : List (ProxyEntity B)) :
    Except String (Unit × Databases B) := do
  let proxies ← d.store.proxies.insertAll (fun e id => { e with id }) ProxyEntity.id_given profiles
  return ((), { d with store := { d.store with proxies } })

def insertGroups (d : Databases B) (groups : List ProxyGroup) :
    Except String (Unit × Databases B) := do
  let groups ← d.store.groups.insertAll (fun g id => { g with id }) ProxyGroup.id_given groups
  return ((), { d with store := { d.store with groups } })

def insertRules (d : Databases B) (rules : List RuleEntity) :
    Except String (Unit × Databases B) := do
  let rules ← d.rules.insertAll (fun r id => { r with id }) RuleEntity.id_given rules
  return ((), { d with rules })

def replaceProfiles : Option (List (ProxyEntity B) × List ProxyGroup) → Run (Databases B) Unit
  | none => return ()
  | some (profiles, groups) => do
    write fault .resetProxies fun d =>
      { d with store := { d.store with proxies := d.store.proxies.delete fun _ => true } }
    statement fault .insertProxies (insertProxies · profiles)
    write fault .resetGroups fun d =>
      { d with store := { d.store with groups := d.store.groups.delete fun _ => true } }
    statement fault .insertGroups (insertGroups · groups)

def replaceRules : Option (List RuleEntity) → Run (Databases B) Unit
  | none => return ()
  | some rules => do
    write fault .resetRules fun d => { d with rules := d.rules.delete fun _ => true }
    statement fault .insertRules (insertRules · rules)

def replaceSagerData (profiles : Option (List (ProxyEntity B) × List ProxyGroup))
    (rules : Option (List RuleEntity)) : Run (Databases B) Unit :=
  transaction restoreSager do
    replaceProfiles fault profiles
    replaceRules fault rules
    write fault .commitSager id

def selectFirst : Run (Databases B) Unit := do
  let first ← read fault .firstGroup fun d => .ok (firstGroupId d.store)
  putSelectedGroup fault .putSelected (first.getD (-1))

/-- A selected group that does not exist is replaced by the first one. -/
def repairSelected : Run (Databases B) Unit := do
  let again ← selectedGroup fault true
  let stored ← read fault .getById fun d => .ok (d.store.groups.get again).isSome
  runIf (stored = false) (selectFirst fault)

def insertSettings (d : Databases B) (settings : List KeyValuePair) :
    Except String (Unit × Databases B) :=
  if (settings.map (·.key)).Nodup then .ok ((), { d with settings := d.settings ++ settings })
  else .error "UNIQUE constraint failed"

/-- The second half of the transaction: the selected group is looked at and the
transaction is committed. -/
def settle : Run (Databases B) Unit := do
  let selected ← selectedGroup fault false
  runIf (0 < selected) (repairSelected fault)
  write fault .commitSettings id

def replaceSettings : Option (List KeyValuePair) → Run (Databases B) Unit
  | none => return ()
  | some settings => transaction restoreSettings do
    write fault .resetSettings fun d => { d with settings := [] }
    statement fault .insertSettings (insertSettings · settings)
    settle fault

/-- The rows that the import is about to replace. -/
def oldProfiles (s : Sections B) :
    Run (Databases B) (Option (List (ProxyEntity B) × List ProxyGroup)) :=
  if s.profiles.isSome then do
    let profiles ← read fault .oldProfiles fun d => .ok d.store.proxies.rows
    let groups ← read fault .oldGroups fun d => .ok d.store.allGroups
    return some (profiles, groups)
  else return none

def oldRules (s : Sections B) : Run (Databases B) (Option (List RuleEntity)) :=
  if s.rules.isSome then do
    let rules ← read fault .oldRules fun d =>
      .ok (d.rules.rows.insertionSort (·.userOrder ≤ ·.userOrder))
    return some rules
  else return none

/-- The second transaction, and the compensation of the first one when it fails. The
compensation is taken to succeed. -/
def writeSettings (s : Sections B) (profiles : Option (List (ProxyEntity B) × List ProxyGroup))
    (rules : Option (List RuleEntity)) : Run (Databases B) Unit :=
  if s.profiles.isSome ∨ s.rules.isSome then
    rescue (replaceSettings fault s.settings) (replaceSagerData none profiles rules)
  else replaceSettings fault s.settings

def finishImport (content : Backup B) (profile rule setting : Bool) : Run (Databases B) Nat := do
  let s ← read fault .decode fun _ => decodeBackup content profile rule setting
  let profiles ← oldProfiles fault s
  let rules ← oldRules fault s
  runIf (s.profiles.isSome ∨ s.rules.isSome) (replaceSagerData fault s.profiles s.rules)
  writeSettings fault s profiles rules
  return s.skippedRecords

end

end QuinMo.Import
