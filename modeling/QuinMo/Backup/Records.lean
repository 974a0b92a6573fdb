import Mathlib.Tactic.Common
import QuinMo.Links.Universal
import QuinMo.Model.Entity
import QuinMo.Model.Settings

/-!
# The records of a backup

One text for every row of the four tables: the base64 of a parcel. Profiles and groups are one
block of bytes in it, which Kryo wrote; rules and settings are put into it value by value.
-/

namespace QuinMo

/-- `GroupType.SUBSCRIPTION`. -/
def SUBSCRIPTION : Int := 1

namespace Model.SubscriptionBean

/-- `SubscriptionBean().applyDefaultValues()`. -/
def default : SubscriptionBean where
  type := 0
  link := ""
  forceResolve := false
  deduplication := false
  updateWhenConnectedOnly := false
  customUserAgent := ""
  autoUpdate := false
  autoUpdateDelay := 1440
  lastUpdated := 0
  subscriptionUserinfo := none
  bytesUsed := 0
  bytesRemaining := 0
  expiryDate := 0

variable {I : Type}

def serializeToBuffer (s : SubscriptionBean) : List Token := [
  .int 2, .int s.type, .string s.link, .boolean s.forceResolve, .boolean s.deduplication,
  .boolean s.updateWhenConnectedOnly, .string s.customUserAgent, .boolean s.autoUpdate,
  .int s.autoUpdateDelay, .int s.lastUpdated, .string s.subscriptionUserinfo, .long s.bytesUsed,
  .long s.bytesRemaining, .int s.expiryDate]

/-- The numbers that version 2 added. -/
def readUsage [Source I] : Reader I (Int × Int × Int) := do
  let bytesUsed ← readLong
  let bytesRemaining ← readLong
  let expiryDate ← readInt
  return (bytesUsed, bytesRemaining, expiryDate)

/-- `deserializeFromBuffer` and the defaults for what is then still null. -/
def deserializeFromBuffer [Source I] : Reader I SubscriptionBean := do
  let version ← readInt
  let type ← readInt
  let link ← readString
  let forceResolve ← readBoolean
  let deduplication ← readBoolean
  let updateWhenConnectedOnly ← readBoolean
  let customUserAgent ← readString
  let autoUpdate ← readBoolean
  let autoUpdateDelay ← readInt
  let lastUpdated ← readInt
  let subscriptionUserinfo ← readString
  let usage ← readIf (2 ≤ version) readUsage
  return {
    type, link := link.getD "", forceResolve, deduplication, updateWhenConnectedOnly,
    customUserAgent := customUserAgent.getD "", autoUpdate, autoUpdateDelay, lastUpdated,
    subscriptionUserinfo, bytesUsed := (usage.map (·.1)).getD 0,
    bytesRemaining := (usage.map (·.2.1)).getD 0, expiryDate := (usage.map (·.2.2)).getD 0 }

theorem deserializeFromBuffer_reads [Stream I] (s : SubscriptionBean) :
    Reads (I := I) deserializeFromBuffer s.serializeToBuffer s := by
  intro held rest
  simp only [serializeToBuffer, List.forall_mem_cons] at held
  simp [-StateT.run_bind, deserializeFromBuffer, serializeToBuffer, readIf, readUsage, held]

end Model.SubscriptionBean

namespace ProxyGroup

variable {I : Type}

/-- Groups of subscriptions have one, and no others. -/
def WellTyped (g : ProxyGroup) : Prop := g.type = SUBSCRIPTION ↔ g.subscription.isSome

instance (g : ProxyGroup) : Decidable g.WellTyped := inferInstanceAs (Decidable (_ ↔ _))

/-- A group as it is read back: a subscription is written, the default where there is none, exactly
for a group of that type. -/
def restored (g : ProxyGroup) : ProxyGroup :=
  { g with subscription :=
      if g.type = SUBSCRIPTION then some (g.subscription.getD .default) else none }

theorem restored_iff (g : ProxyGroup) : g.restored = g ↔ g.WellTyped := by
  obtain ⟨_, _, _, type, _, _, _, _, _, subscription, _⟩ := g
  unfold restored WellTyped
  by_cases subscribed : type = SUBSCRIPTION
  · cases subscription <;> simp [subscribed]
  · cases subscription <;> simp [subscribed]

theorem restored_wellTyped (g : ProxyGroup) : g.restored.WellTyped := by
  unfold restored WellTyped
  by_cases subscribed : g.type = SUBSCRIPTION <;> simp [subscribed]

def writeSubscription (g : ProxyGroup) : List Token :=
  if g.type = SUBSCRIPTION then (g.subscription.getD .default).serializeToBuffer else []

def serializeToBuffer (g : ProxyGroup) : List Token :=
  [.int 2, .long g.id, .long g.userOrder, .boolean g.ungrouped, .string g.name, .int g.type] ++
    (g.writeSubscription ++ [.int g.order, .string g.proxyServerNameserver, .boolean g.isSelector,
      .long g.frontProxy, .long g.landingProxy])

/-- The settings that version 2 added. -/
def readProxies [Source I] : Reader I (Bool × Int × Int) := do
  let isSelector ← readBoolean
  let frontProxy ← readLong
  let landingProxy ← readLong
  return (isSelector, frontProxy, landingProxy)

def deserializeFromBuffer [Source I] : Reader I ProxyGroup := do
  let version ← readInt
  let id ← readLong
  let userOrder ← readLong
  let ungrouped ← readBoolean
  let name ← readString
  let type ← readInt
  let subscription ← readIf (type = SUBSCRIPTION) Model.SubscriptionBean.deserializeFromBuffer
  let order ← readInt
  let proxyServerNameserver ← readIf (1 ≤ version) readText
  let proxies ← readIf (2 ≤ version) readProxies
  return {
    id, userOrder, ungrouped, name, type, subscription, order,
    proxyServerNameserver := proxyServerNameserver.getD "",
    isSelector := (proxies.map (·.1)).getD false,
    frontProxy := (proxies.map (·.2.1)).getD (-1),
    landingProxy := (proxies.map (·.2.2)).getD (-1) }

theorem readSubscription_reads [Stream I] (g : ProxyGroup) :
    Reads (I := I) (readIf (g.type = SUBSCRIPTION) Model.SubscriptionBean.deserializeFromBuffer)
      g.writeSubscription g.restored.subscription := by
  intro held rest
  unfold readIf restored
  unfold writeSubscription at held ⊢
  by_cases subscribed : g.type = SUBSCRIPTION
  · rw [if_pos subscribed] at held
    rw [if_pos subscribed, if_pos subscribed, if_pos subscribed, StateT.run_map,
      Model.SubscriptionBean.deserializeFromBuffer_reads _ held rest]
    rfl
  · rw [if_neg subscribed, if_neg subscribed, if_neg subscribed]
    rfl

theorem deserializeFromBuffer_reads [Stream I] (g : ProxyGroup) :
    Reads (I := I) deserializeFromBuffer g.serializeToBuffer g.restored := by
  intro held rest
  have subscription := readSubscription_reads (I := I) g
  simp only [serializeToBuffer, List.forall_mem_append, List.forall_mem_cons] at held
  obtain ⟨⟨version, id, userOrder, ungrouped, name, type, _⟩, written, last⟩ := held
  simp only [deserializeFromBuffer, serializeToBuffer, pushAll_append, pushAll_cons, pushAll_nil,
    run_readInt, run_readLong, run_readBoolean, run_readString, version, id, userOrder, ungrouped,
    name, type]
  rw [StateT.run_bind, subscription written]
  simp [readIf, readProxies, last]
  rfl

end ProxyGroup

namespace Backup

open Links Text

abbrev ProxyRow (L : LowerCase) (J : JSONObjects) := ProxyEntity (FullBean (beanLayout L J))

section
variable {L : LowerCase} {J : JSONObjects} (E : Encoding)

/-- The type of a stored profile is that of its bean. -/
def rowType (e : ProxyRow L J) : Int := (putBeanType e.bean.javaClass).getD 0

/-- A row that was read from the table is not `dirty`. -/
def serializeEntity (e : ProxyRow L J) : List Token := [
  .int 1, .long e.id, .long e.groupId, .int (rowType e), .long e.userOrder, .long e.tx, .long e.rx,
  .int e.status, .int e.ping, .string (some e.uuid), .string e.error, .block (e.bean.bytes E),
  .boolean false, .int e.core]

/-- `putByteArray` and `requireBean`. -/
def putByteArray {I : Type} (type : Int) (bytes : List UInt8) :
    Reader I (FullBean (beanLayout L J)) :=
  match beanOf E type bytes with
  | .ok bean => pure bean
  | .error _ => failure

def deserializeEntity {I : Type} [Source I] : Reader I (ProxyRow L J) := do
  let version ← readInt
  let id ← readLong
  let groupId ← readLong
  let type ← readInt
  let userOrder ← readLong
  let tx ← readLong
  let rx ← readLong
  let status ← readInt
  let ping ← readInt
  let uuid ← readText
  let error ← readString
  let bytes ← readBlock
  let bean ← putByteArray E type bytes
  let _dirty ← readBoolean
  let core ← readIf (1 ≤ version) readInt
  return {
    id, groupId, userOrder, tx, rx, status, ping, uuid, error, core := core.getD 0, bean }

/-- The columns of a row; a bean is stored as its bytes, in the column of its class. -/
def columns (e : ProxyRow L J) : ProxyEntity (String × List UInt8) where
  id := e.id
  groupId := e.groupId
  userOrder := e.userOrder
  tx := e.tx
  rx := e.rx
  status := e.status
  ping := e.ping
  uuid := e.uuid
  error := e.error
  core := e.core
  bean := (e.bean.javaClass, e.bean.bytes E)

/-- Every class of beans has a type, by which it is found again. -/
theorem class_found {k : BeanKind} {javaClass : String} (listed : javaClass ∈ k.classes) :
    ∃ type, putBeanType javaClass = some type ∧
      beanTypes.find? (·.1 == type) = some (type, k, javaClass) := by
  have all : ∀ javaClass ∈ k.classes, ∃ entry ∈ beanTypes, putBeanType javaClass = some entry.1 ∧
      beanTypes.find? (·.1 == entry.1) = some (entry.1, k, javaClass) := by
    cases k <;> decide
  obtain ⟨entry, _, put, found⟩ := all javaClass listed
  exact ⟨entry.1, put, found⟩

variable {E}

theorem bytes_ne_nil {b : FullBean (beanLayout L J)} (fits : b.Fits) : b.bytes E ≠ [] := by
  intro empty
  have values := Encoding.length_le_write (E := E) fits
  change _ ≤ (b.bytes E).length at values
  rw [empty, FullBean.serializeToBuffer, List.length_append] at values
  simp at values

theorem beanOf_bytes {b : FullBean (beanLayout L J)} (fits : b.Fits) (initialized : b.Initialized) :
    ∃ c : FullBean (beanLayout L J),
      beanOf E ((putBeanType b.javaClass).getD 0) (b.bytes E) = .ok c ∧
        c.javaClass = b.javaClass ∧ c.bytes E = b.bytes E := by
  obtain ⟨type, put, found⟩ := class_found (javaClass_mem b)
  obtain ⟨raw, read, _, javaClass, bytes⟩ := FullBean.bytes_read_back (E := E) fits initialized
  refine ⟨FullBean.initializeDefaultValues raw, ?_, javaClass, bytes⟩
  rw [put, Option.getD_some]
  unfold beanOf
  simp only [found, if_neg (bytes_ne_nil fits), read]

/-- A profile is read back with all its columns. -/
theorem deserializeEntity_reads {I : Type} [Stream I] {e : ProxyRow L J} (fits : e.bean.Fits)
    (initialized : e.bean.Initialized) :
    ∃ e' : ProxyRow L J, Reads (I := I) (deserializeEntity E) (serializeEntity E e) e' ∧
      columns E e' = columns E e := by
  obtain ⟨bean, restored, javaClass, bytes⟩ := beanOf_bytes (E := E) fits initialized
  refine ⟨{ e with bean }, ?_, ?_⟩
  · intro held rest
    have put : putByteArray (I := I) E (rowType e) (e.bean.bytes E) = pure bean := by
      rw [putByteArray, rowType, restored]
    simp only [serializeEntity, List.forall_mem_cons] at held
    simp [-StateT.run_bind, deserializeEntity, serializeEntity, put, readIf, held]
  · simp only [columns, javaClass, bytes]

end

end Backup

namespace RuleEntity

def writeToParcel (r : RuleEntity) : List Token :=
  [.long r.id, .string r.name, .string r.config, .long r.userOrder, .boolean r.enabled,
    .string r.domains, .string r.ip, .string r.port, .string r.sourcePort, .string r.network,
    .string r.source, .string r.protocol, .long r.outbound, .int r.packages.length] ++
      r.packages.map fun p => .string (some p)

def createFromParcel {I : Type} [Source I] : Reader I RuleEntity := do
  let id ← readLong
  let name ← readText
  let config ← readText
  let userOrder ← readLong
  let enabled ← readBoolean
  let domains ← readText
  let ip ← readText
  let port ← readText
  let sourcePort ← readText
  let network ← readText
  let source ← readText
  let protocol ← readText
  let outbound ← readLong
  let size ← readInt
  let packages ← readTimes readText size.toNat
  return {
    id, name, config, userOrder, enabled, domains, ip, port, sourcePort, network, source, protocol,
    outbound, packages }

theorem createFromParcel_reads {I : Type} [Stream I] (r : RuleEntity) :
    Reads (I := I) createFromParcel r.writeToParcel r := by
  intro held rest
  have packages := readTimes_reads (I := I) (fun p => .string (some p))
    (fun p held rest => readText_push rest (held _ List.mem_cons_self)) r.packages
  simp only [writeToParcel, List.forall_mem_append, List.forall_mem_cons] at held
  obtain ⟨own, texts⟩ := held
  simp only [createFromParcel, writeToParcel, pushAll_append, pushAll_cons, pushAll_nil,
    run_readInt, run_readLong, run_readBoolean, run_readText, Int.toNat_natCast, own]
  rw [StateT.run_bind, packages texts]
  rfl

end RuleEntity

namespace KeyValuePair

def writeToParcel (p : KeyValuePair) : List Token :=
  [.string p.key, .int p.value.valueType, .block p.value.array]

def createFromParcel {I : Type} [Source I] : Reader I KeyValuePair := do
  let key ← readText
  let valueType ← readInt
  let value ← readBlock
  return { key, value := .ofColumns valueType value }

theorem createFromParcel_reads {I : Type} [Stream I] {p : KeyValuePair} (fits : p.value.Fits) :
    Reads (I := I) createFromParcel p.writeToParcel p := by
  intro held rest
  simp only [writeToParcel, List.forall_mem_cons] at held
  simp [-StateT.run_bind, createFromParcel, writeToParcel, held, SettingValue.ofColumns_columns fits]

end KeyValuePair

end QuinMo
