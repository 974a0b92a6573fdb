import Mathlib.Data.List.Sort
import QuinMo.Lib.Table
import QuinMo.Model.Bean

/-!
# Rows of the profile database

`proxy_entities`, `proxy_groups` and `rules` as the builder and the updater read them. Which of
the bean columns is set is given by the bean's class.
-/

namespace QuinMo

structure ProxyEntity (B : Type) where
  id : Int
  groupId : Int
  userOrder : Int
  tx : Int
  rx : Int
  status : Int
  ping : Int
  uuid : String
  error : Option String
  core : Int
  bean : B
  deriving DecidableEq, Repr

/-- A row with the columns the constructor fills in. -/
def ProxyEntity.fresh {B : Type} (id groupId userOrder : Int) (bean : B) : ProxyEntity B where
  id := id
  groupId := groupId
  userOrder := userOrder
  tx := 0
  rx := 0
  status := 0
  ping := 0
  uuid := ""
  error := none
  core := 0
  bean := bean

abbrev Profile := ProxyEntity Bean

namespace ProxyEntity

/-- 0 = auto (by protocol), 1 = sing-box, 2 = xray, 3 = mihomo. -/
def resolvedCore (e : Profile) : Int :=
  if e.core ≠ 0 then e.core
  else match e.bean.kind with
    | .vmess v => if v.isVLESS && !v.xrayLacksTransport then 2 else 1
    | .anyTLS => 3
    | _ => 1

def needExternal (e : Profile) : Bool :=
  match e.bean.kind with
  | .trojanGo | .mieru | .naive _ | .neko => true
  | .vmess _ => e.resolvedCore == 2
  | .hysteria _ protocol _ => protocol != 0
  | .anyTLS => e.resolvedCore == 3
  | _ => false

/-- The profile's core dials through an inbound of the generated config. -/
def needMapping (e : Profile) : Bool := e.needExternal && e.bean.canMapping

/-- The multiplexing a profile asks for; a vision flow cannot be multiplexed. -/
def singMux (e : Profile) : Option Mux :=
  match e.bean.kind with
  | .vmess v => if v.isVisionFlow then none else some v.mux
  | .trojan mux => some mux
  | _ => none

end ProxyEntity

/-- The columns of a subscription. What an editor and an update do to them is the subject of
`Subscription.GroupEditing`; here they are only stored. -/
structure Model.SubscriptionBean where
  type : Int
  link : String
  forceResolve : Bool
  deduplication : Bool
  updateWhenConnectedOnly : Bool
  customUserAgent : String
  autoUpdate : Bool
  autoUpdateDelay : Int
  lastUpdated : Int
  subscriptionUserinfo : Option String
  bytesUsed : Int
  bytesRemaining : Int
  expiryDate : Int
  deriving DecidableEq, Repr

/-- The defaults of this row and of the next are those of their constructors. -/
structure ProxyGroup where
  id : Int
  userOrder : Int
  ungrouped : Bool := false
  type : Int := 0
  isSelector : Bool := false
  frontProxy : Int := -1
  landingProxy : Int := -1
  proxyServerNameserver : String := ""
  name : Option String := none
  subscription : Option Model.SubscriptionBean := none
  order : Int := 0
  deriving DecidableEq, Repr

structure RuleEntity where
  id : Int
  name : String := ""
  config : String := ""
  userOrder : Int
  enabled : Bool := false
  domains : String := ""
  ip : String := ""
  port : String := ""
  sourcePort : String := ""
  network : String := ""
  source : String := ""
  protocol : String := ""
  outbound : Int := 0
  packages : List String := []
  deriving DecidableEq, Repr

theorem ProxyEntity.id_given {B : Type} (e : ProxyEntity B) (id : Int) : { e with id }.id = id := rfl

theorem ProxyGroup.id_given (g : ProxyGroup) (id : Int) : { g with id }.id = id := rfl

theorem RuleEntity.id_given (r : RuleEntity) (id : Int) : { r with id }.id = id := rfl

/-- The tables a config build reads. -/
structure Database where
  proxies : Table Profile (·.id)
  groups : Table ProxyGroup (·.id)
  rules : List RuleEntity

namespace Database

/-- `SELECT … WHERE groupId = :groupId ORDER BY userOrder`. -/
def getByGroup (db : Database) (groupId : Int) : List Profile :=
  (db.proxies.rows.filter (·.groupId = groupId)).insertionSort (·.userOrder ≤ ·.userOrder)

/-- `SELECT … WHERE id in (:proxyIds)`. -/
def getEntities (db : Database) (proxyIds : List Int) : List Profile :=
  db.proxies.rows.filter (·.id ∈ proxyIds)

def enabledRules (db : Database) : List RuleEntity :=
  (db.rules.filter (·.enabled)).insertionSort (·.userOrder ≤ ·.userOrder)

theorem mem_getByGroup {db : Database} {groupId : Int} {e : Profile} :
    e ∈ db.getByGroup groupId ↔ e ∈ db.proxies.rows ∧ e.groupId = groupId := by
  simp [getByGroup, List.mem_insertionSort]

theorem mem_getEntities {db : Database} {ids : List Int} {e : Profile} :
    e ∈ db.getEntities ids ↔ e ∈ db.proxies.rows ∧ e.id ∈ ids := by
  simp [getEntities]

end Database

end QuinMo
