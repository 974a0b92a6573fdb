import QuinMo.Selection.Runs

/-!
# The group editor

The editor writes its copy of a group back, whatever happened in between. The name, the order and
the subscription in its form are followed in `Subscription.GroupEditing`, not here.
-/

namespace QuinMo.Selection

open Subscription

/-- The edit state in `profileCacheStore`. The value 3 of a `Tmp` field says that a
profile is chosen. -/
structure Editor where
  editingId : Int
  type : Int
  isSelector : Bool
  frontProxy : Int
  landingProxy : Int
  frontProxyTmp : Int
  landingProxyTmp : Int
  proxyServerNameserver : String
  dirty : Bool
  deriving DecidableEq, Repr

namespace Editor

/-- `ProxyGroup.init`. -/
def init (editingId : Int) (g : ProxyGroup) : Editor where
  editingId := editingId
  type := g.type
  isSelector := g.isSelector
  frontProxy := g.frontProxy
  landingProxy := g.landingProxy
  frontProxyTmp := if 0 ≤ g.frontProxy then 3 else 0
  landingProxyTmp := if 0 ≤ g.landingProxy then 3 else 0
  proxyServerNameserver := g.proxyServerNameserver
  dirty := false

def front (ed : Editor) : Int := if ed.frontProxyTmp = 3 then ed.frontProxy else -1

def landing (ed : Editor) : Int := if ed.landingProxyTmp = 3 then ed.landingProxy else -1

/-- `ProxyGroup.serialize`. -/
def serialize (ed : Editor) (g : ProxyGroup) : ProxyGroup :=
  { g with
    type := ed.type
    isSelector := ed.isSelector
    frontProxy := ed.front
    landingProxy := ed.landing
    proxyServerNameserver := Text.trim ed.proxyServerNameserver }

end Editor

/-- `ProxyGroup()`. -/
def newGroup : ProxyGroup := { ungroupedGroup 0 with ungrouped := false }

variable {B : Type}

/-- `SELECT MAX(userOrder) + 1`. -/
def nextOrder (s : Store B) : Option Int :=
  (s.groups.rows.map (·.userOrder)).max?.map (· + 1)

def createGroup (s : Store B) (group : ProxyGroup) : Store B :=
  let row := { group with
    id := s.groups.sequence + 1
    userOrder := (nextOrder s).getD 1 }
  { s with groups := s.groups.place row s.groups.next_new }

/-- The list position and the ungrouped mark stay those of the stored row. -/
def updateGroup (s : Store B) (group : ProxyGroup) : Store B :=
  let saved (current : ProxyGroup) : ProxyGroup :=
    { group with userOrder := current.userOrder, ungrouped := current.ungrouped }
  { s with groups := s.groups.modify group.id saved fun _ _ => rfl }

/-- Both databases and the editor, if one is open. -/
structure Session (B : Type) where
  app : App B
  editor : Option Editor

/-- Opening does nothing for a group that is gone; the id 0 is for a new group. -/
def openEditor (s : Session B) (groupId : Int) : Session B :=
  if groupId = 0 then { s with editor := some (.init 0 newGroup) }
  else match s.app.store.groups.get groupId with
    | none => s
    | some g => { s with editor := some (.init groupId g) }

/-- The result of the profile picker counts if the profile exists. -/
def pickProfile (s : Session B) (profileId : Int) (choose : Editor → Editor) : Session B :=
  if profileId = 0 ∨ (s.app.store.getById profileId).isNone then s
  else { s with editor := s.editor.map fun ed => { choose ed with dirty := true } }

def saveAndExit (s : Session B) : Session B :=
  match s.editor with
  | none => s
  | some ed =>
    let store := s.app.store
    let saved :=
      if ed.editingId = 0 then createGroup store (ed.serialize newGroup)
      else if ed.dirty then
        match store.groups.get ed.editingId with
        | none => store
        | some entity => updateGroup store (ed.serialize entity)
      else store
    { app := { s.app with store := saved }, editor := none }

variable {C : Type} (F : BeanClass C)

inductive Action (C : Type) where
  | op (op : Op C)
  | openEditor (groupId : Int)
  | pickFront (profileId : Int)
  | pickLanding (profileId : Int)
  | unsetFront
  | unsetLanding
  /-- Another preference of the editor is changed. -/
  | edit (type : Int) (isSelector : Bool) (proxyServerNameserver : String)
  | saveAndExit

def change (s : Session B) (f : Editor → Editor) : Session B :=
  { s with editor := s.editor.map fun ed => { f ed with dirty := true } }

def act (s : Session (AbstractBean C)) : Action C → Except String (Session (AbstractBean C))
  | .op op => do
    let app ← step F s.app op
    return { s with app }
  | .openEditor groupId => .ok (openEditor s groupId)
  | .pickFront id =>
    .ok (pickProfile s id fun ed => { ed with frontProxy := id, frontProxyTmp := 3 })
  | .pickLanding id =>
    .ok (pickProfile s id fun ed => { ed with landingProxy := id, landingProxyTmp := 3 })
  | .unsetFront => .ok (change s fun ed => { ed with frontProxyTmp := 0 })
  | .unsetLanding => .ok (change s fun ed => { ed with landingProxyTmp := 0 })
  | .edit type isSelector proxyServerNameserver =>
    .ok (change s fun ed => { ed with type, isSelector, proxyServerNameserver })
  | .saveAndExit => .ok (saveAndExit s)

/-- The states after the actions that succeed; the others change nothing. -/
def sessions (s : Session (AbstractBean C)) : List (Action C) → List (Session (AbstractBean C))
  | [] => []
  | a :: as =>
    match act F s a with
    | .ok s' => s' :: sessions s' as
    | .error _ => sessions s as

end QuinMo.Selection
