import QuinMo.Database.Store
import QuinMo.Lib.Fresh
import QuinMo.Lib.LinkedMap
import QuinMo.Model.Stored

/-!
# Updating a subscription group

`doUpdate` after the download. Rows are matched with the nodes by name; the changes are collected
first and then written in one transaction.
-/

namespace QuinMo.Subscription

open Text LinkedMap AbstractBean

variable {C : Type} (F : BeanClass C)

abbrev Row (C : Type) := ProxyEntity (AbstractBean C)

def rowName (e : Row C) : String := displayName F e.bean

/-- The name after `index` rounds of the loop in `uniquifyNames`. -/
def renamed (name : String) : Nat → String
  | 0 => name
  | index + 1 =>
    replace (renamed name index) (" (" ++ toString index ++ ")") "" ++
      (" (" ++ toString (index + 1) ++ ")")

/-- The bean under the first name that is not in the map. -/
def uniquified (proxiesMap : List (String × AbstractBean C)) (proxy : AbstractBean C) :
    AbstractBean C :=
  let name := displayName F proxy
  match Fresh.search (containsKey proxiesMap) (renamed name) (proxiesMap.length + 1) 0 with
  | 0 => proxy
  | index + 1 => { proxy with name := renamed name (index + 1) }

def uniquifyRound (proxiesMap : List (String × AbstractBean C)) (proxy : AbstractBean C) :
    List (String × AbstractBean C) :=
  let proxy := uniquified F proxiesMap proxy
  put proxiesMap (displayName F proxy) proxy

def uniquifyNames (list : List (AbstractBean C)) : List (AbstractBean C) :=
  (list.foldl (uniquifyRound F) []).map (·.2)

structure Deduplication (C : Type) where
  uniqueProxies : List (AbstractBean C)
  droppedCounts : List (String × Nat)
  duplicate : List String

def deduplicationRound (d : Deduplication C) (proxy : AbstractBean C) : Deduplication C :=
  let hash := F.hash proxy.content
  if d.uniqueProxies.any (F.hash ·.content == hash) then
    let index := ((d.droppedCounts.lookup hash).getD 0) + 1
    { d with
      droppedCounts := put d.droppedCounts hash index
      duplicate := d.duplicate ++ [displayName F proxy ++ " (" ++ toString index ++ ")"] }
  else { d with uniqueProxies := d.uniqueProxies ++ [proxy] }

def deduplicate (proxies : List (AbstractBean C)) : Deduplication C :=
  proxies.foldl (deduplicationRound F) ⟨[], [], []⟩

/-- The settings of a subscription, and what the download and the lookups gave. -/
structure Settings (C : Type) where
  deduplication : Bool
  /-- With `forceResolve`: the nodes after their addresses were looked up. -/
  forceResolve : Option (List (AbstractBean C) → List (AbstractBean C))
  /-- The nameserver entry to write to the group, if there is one to write. -/
  proxyServerNameserver : Option String

/-- The nodes to store, and the names of dropped ones. -/
def finalNodes (sub : Settings C) (parsed : List (AbstractBean C)) :
    List (AbstractBean C) × List String :=
  let proxies := uniquifyNames F parsed
  let d := if sub.deduplication then deduplicate F proxies else ⟨proxies, [], []⟩
  match sub.forceResolve with
  | none => (d.uniqueProxies, d.duplicate)
  | some resolve => (uniquifyNames F (resolve d.uniqueProxies), d.duplicate)

structure Matching (C : Type) where
  toReplace : List (String × Row C)
  toDelete : List (Row C)

def matchRound (nameMap : List (String × AbstractBean C)) (m : Matching C) (entity : Row C) :
    Matching C :=
  let name := rowName F entity
  if containsKey nameMap name && !containsKey m.toReplace name then
    { m with toReplace := put m.toReplace name entity }
  else { m with toDelete := m.toDelete ++ [entity] }

def matchExisting (nameMap : List (String × AbstractBean C)) (existing : List (Row C)) :
    Matching C :=
  existing.foldl (matchRound F nameMap) ⟨[], []⟩

structure Changes (C : Type) where
  userOrder : Int
  changed : Nat
  toInsert : List (Row C)
  toUpdate : List (Row C)
  toReorder : List (Row C)
  added : List String
  updated : List (String × String)

def changeRound (groupId : Int) (toReplace : List (String × Row C)) (c : Changes C)
    (entry : String × AbstractBean C) : Changes C :=
  let (name, bean) := entry
  let next := { c with userOrder := c.userOrder + 1 }
  match toReplace.lookup name with
  | some entity =>
    let bean := bean.withCustoms entity.bean
    let entity' := { entity with userOrder := c.userOrder }
    if !equals F entity.bean bean then
      { next with
        changed := c.changed + 1
        toUpdate := c.toUpdate ++ [{ entity' with bean }]
        updated := put c.updated (rowName F entity) name }
    else if entity.userOrder ≠ c.userOrder then
      { next with changed := c.changed + 1, toReorder := c.toReorder ++ [entity'] }
    else next
  | none =>
    { next with
      changed := c.changed + 1
      toInsert := c.toInsert ++ [ProxyEntity.fresh 0 groupId c.userOrder bean]
      added := c.added ++ [name] }

def collectChanges (groupId : Int) (nameMap : List (String × AbstractBean C)) (m : Matching C) :
    Changes C :=
  nameMap.foldl (changeRound F groupId m.toReplace) ⟨1, m.toDelete.length, [], [], [], [], []⟩

/-- Order and content of a row that is still there. -/
def rewriteRow (s : Store (AbstractBean C)) (entity : Row C) : Store (AbstractBean C) :=
  match s.getById entity.id with
  | none => s
  | some current =>
    s.updateProxy { current with userOrder := entity.userOrder, bean := stored F entity.bean }

def reorderRow (s : Store (AbstractBean C)) (entity : Row C) : Store (AbstractBean C) :=
  s.updateOrder entity.id entity.userOrder

def insertRow (s : Store (AbstractBean C)) (entity : Row C) : Store (AbstractBean C) :=
  s.addProxy { entity with bean := stored F entity.bean }

def writeNameserver (s : Store (AbstractBean C)) (groupId : Int) (nameserver : Option String) :
    Store (AbstractBean C) :=
  match nameserver with
  | none => s
  | some text => s.mapGroups
    (fun g => if g.id = groupId then { g with proxyServerNameserver := text } else g)
    fun g => by split <;> rfl

def commit (groupId : Int) (nameserver : Option String) (toDelete : List (Row C)) (c : Changes C)
    (s : Store (AbstractBean C)) : Except String (Store (AbstractBean C)) :=
  if (s.groups.get groupId).isNone then
    .error ("Group " ++ toString groupId ++ " was deleted during the update")
  else
    let s := c.toInsert.foldl (insertRow F) s
    let s := c.toUpdate.foldl (rewriteRow F) s
    let s := c.toReorder.foldl reorderRow s
    let s := s.deleteProxy toDelete
    let s := if toDelete.isEmpty then s else s.resetDanglingGroupProxies
    .ok (writeNameserver s groupId nameserver)

/-- What `onUpdateSuccess` is told. -/
structure Report where
  changed : Nat
  added : List String
  updated : List (String × String)
  deleted : List String
  duplicate : List String
  deriving DecidableEq, Repr

/-- The rows that the update means to delete and to write. -/
def planUpdate (groupId : Int) (nodes : List (AbstractBean C)) (s : Store (AbstractBean C)) :
    List (Row C) × Changes C :=
  let nameMap := associateBy (displayName F) nodes
  let m := matchExisting F nameMap (s.getByGroup groupId)
  (m.toDelete, collectChanges F groupId nameMap m)

/-- An update that no other writer disturbs: rows are read and written in one state. -/
def doUpdate (groupId : Int) (sub : Settings C) (parsed : List (AbstractBean C))
    (s : Store (AbstractBean C)) : Except String (Store (AbstractBean C) × Report) := do
  let (nodes, duplicate) := finalNodes F sub parsed
  let (toDelete, c) := planUpdate F groupId nodes s
  let s ← commit F groupId sub.proxyServerNameserver toDelete c s
  return (s, ⟨c.changed, c.added, c.updated, toDelete.map (rowName F), duplicate⟩)

end QuinMo.Subscription
