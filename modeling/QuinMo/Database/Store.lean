import QuinMo.Model.Entity

/-!
# The profile database

The tables of profiles and groups and the queries of their DAOs.
-/

namespace QuinMo

structure Store (B : Type) where
  proxies : Numbered (ProxyEntity B) (·.id)
  groups : Numbered ProxyGroup (·.id)

namespace Store

variable {B : Type}

def getById (s : Store B) (proxyId : Int) : Option (ProxyEntity B) := s.proxies.get proxyId

/-- `SELECT … WHERE groupId = :groupId ORDER BY userOrder`. -/
def getByGroup (s : Store B) (groupId : Int) : List (ProxyEntity B) :=
  (s.proxies.rows.filter (·.groupId = groupId)).insertionSort (·.userOrder ≤ ·.userOrder)

def countByGroup (s : Store B) (groupId : Int) : Nat :=
  (s.proxies.rows.filter (·.groupId = groupId)).length

/-- `SELECT * FROM proxy_groups ORDER BY userOrder`. -/
def allGroups (s : Store B) : List ProxyGroup :=
  s.groups.rows.insertionSort (·.userOrder ≤ ·.userOrder)

theorem mem_getByGroup {s : Store B} {groupId : Int} {e : ProxyEntity B} :
    e ∈ s.getByGroup groupId ↔ e ∈ s.proxies.rows ∧ e.groupId = groupId := by
  simp [getByGroup, List.mem_insertionSort]

theorem getByGroup_nodup (s : Store B) (groupId : Int) : (s.getByGroup groupId).Nodup :=
  (List.perm_insertionSort _ _).nodup_iff.mpr (s.proxies.rows_nodup.filter _)

theorem getByGroup_sorted (s : Store B) (groupId : Int) :
    (s.getByGroup groupId).Pairwise (·.userOrder ≤ ·.userOrder) := by
  have total : Std.Total fun a b : ProxyEntity B => a.userOrder ≤ b.userOrder :=
    ⟨fun a b => Int.le_total _ _⟩
  have trans : IsTrans (ProxyEntity B) fun a b => a.userOrder ≤ b.userOrder :=
    ⟨fun _ _ _ => Int.le_trans⟩
  exact List.pairwise_insertionSort _ _

/-- Insert a row that has no id yet. -/
def addProxy (s : Store B) (e : ProxyEntity B) : Store B :=
  { s with proxies := s.proxies.place { e with id := s.proxies.sequence + 1 } s.proxies.next_new }

/-- Change the row of an id. -/
def modify (s : Store B) (id : Int) (f : ProxyEntity B → ProxyEntity B)
    (keeps : ∀ e, e.id = id → (f e).id = id) : Store B :=
  { s with proxies := s.proxies.modify id f keeps }

/-- `@Update`: the row with the same id becomes the given one. -/
def updateProxy (s : Store B) (row : ProxyEntity B) : Store B :=
  s.modify row.id (fun _ => row) fun _ _ => rfl

def updateOrder (s : Store B) (id order : Int) : Store B :=
  s.modify id (fun e => { e with userOrder := order }) fun _ h => h

/-- Delete the profiles whose id is listed. -/
def deleteIds (s : Store B) (ids : List Int) : Store B :=
  { s with proxies := s.proxies.delete (decide <| · ∈ ids) }

def deleteProxy (s : Store B) (es : List (ProxyEntity B)) : Store B := s.deleteIds (es.map (·.id))

def deleteById (s : Store B) (id : Int) : Store B := s.deleteIds [id]

/-- `DELETE … WHERE groupId in (:groupIds)`. -/
def deleteByGroup (s : Store B) (groupIds : List Int) : Store B :=
  s.deleteProxy (s.proxies.rows.filter (·.groupId ∈ groupIds))

def mapGroups (s : Store B) (f : ProxyGroup → ProxyGroup) (keeps : ∀ g, (f g).id = g.id) : Store B :=
  { s with groups := s.groups.map f keeps }

def deleteGroups (s : Store B) (ids : List Int) : Store B :=
  { s with groups := s.groups.delete (decide <| · ∈ ids) }

/-- A front or landing proxy that no longer exists is unset. -/
def resetDangling (s : Store B) (proxy : Int) : Int :=
  if 0 < proxy ∧ (s.getById proxy).isNone then -1 else proxy

def resetDanglingGroupProxies (s : Store B) : Store B :=
  s.mapGroups
    (fun g => { g with
      frontProxy := s.resetDangling g.frontProxy, landingProxy := s.resetDangling g.landingProxy })
    fun _ => rfl

theorem mapGroups_get (s : Store B) (f : ProxyGroup → ProxyGroup) (keeps : ∀ g, (f g).id = g.id)
    (id : Int) : ((s.mapGroups f keeps).groups.get id).isSome = (s.groups.get id).isSome := by
  have row : (s.mapGroups f keeps).groups.get id = (s.groups.get id).map f :=
    s.groups.toTable.get_map f keeps id
  rw [row, Option.isSome_map]

theorem getById_modify (s : Store B) (id : Int) (f : ProxyEntity B → ProxyEntity B)
    (keeps : ∀ e, e.id = id → (f e).id = id) (j : Int) :
    (s.modify id f keeps).getById j = if j = id then (s.getById j).map f else s.getById j :=
  s.proxies.toTable.get_modify id f keeps j

theorem getById_deleteIds (s : Store B) (ids : List Int) (j : Int) :
    (s.deleteIds ids).getById j = if j ∈ ids then none else s.getById j := by
  have row := s.proxies.toTable.get_delete (decide <| · ∈ ids) j
  simp only [decide_eq_true_eq] at row
  exact row

theorem getById_eq_some {s : Store B} {j : Int} {e : ProxyEntity B} :
    s.getById j = some e ↔ e ∈ s.proxies.rows ∧ e.id = j := Table.get_eq_some

theorem getById_id {s : Store B} {e : ProxyEntity B} (he : e ∈ s.proxies.rows) :
    s.getById e.id = some e := Table.get_key he

end Store

end QuinMo
