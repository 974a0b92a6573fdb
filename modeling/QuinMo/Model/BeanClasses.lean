import QuinMo.Lib.Binary
import QuinMo.Model.ServerBeans
import QuinMo.Model.TunnelBeans
import QuinMo.Model.V2RayForm

/-!
# All bean classes

The three classes without a server of their own, and the theorems about bytes for all
seventeen classes together.
-/

namespace QuinMo

open Text V2Ray

namespace ChainBean

structure Raw where
  serverAddress : Option String := none
  serverPort : Option Int := none
  proxies : Option (List Int) := none
  deriving DecidableEq, Repr

structure Fields where
  serverAddress : String
  serverPort : Int
  proxies : List Int
  deriving DecidableEq, Repr

def Fields.raw (b : Fields) : Raw := ⟨b.serverAddress, b.serverPort, b.proxies⟩

def initializeDefaultValues (r : Raw) : Fields where
  serverAddress := defaultAddress r.serverAddress
  serverPort := r.serverPort.getD 1080
  proxies := r.proxies.getD []

def Fields.serialize (b : Fields) : List Token :=
  .int 1 :: .int b.proxies.length :: b.proxies.map .long

def deserialize {I : Type} [Source I] : Reader I Raw := do
  let version ← readInt
  if version < 1 then
    let _ ← readString
    let _ ← readInt
  let length ← readInt
  let proxies ← readTimes readLong length.toNat
  return { proxies }

/-- A chain does not write the address that it has from `AbstractBean`. -/
def Fields.written (b : Fields) : Raw := { proxies := b.proxies }

theorem deserialize_reads {I : Type} [Stream I] (b : Fields) :
    Reads (I := I) deserialize b.serialize b.written := by
  intro fits rest
  simp only [Fields.serialize, List.forall_mem_cons] at fits
  have longs : Reads (I := I) (readTimes readLong b.proxies.length)
    (b.proxies.map .long) b.proxies :=
    readTimes_reads _ (fun n fits rest => readLong_push rest (List.forall_mem_singleton.mp fits))
      b.proxies
  simp [deserialize, Fields.serialize, Fields.written, longs fits.2.2 rest, fits.1, fits.2.1]

theorem Fields.written_inj {a b : Fields} (h : a.written = b.written) : a.proxies = b.proxies :=
  Option.some.inj (congrArg Raw.proxies h)

def layout : Layout where
  Raw := Raw
  Fields := Fields
  javaClass _ := "class io.nekohasekai.sagernet.fmt.internal.ChainBean"
  raw := Fields.raw
  initializeDefaultValues := initializeDefaultValues
  serialize := Fields.serialize
  written := Fields.written
  deserialize _ := deserialize
  reads := deserialize_reads
  serialize_congr h := by simp only [Fields.serialize, Fields.written_inj h]
  javaClass_again _ _ := rfl
  written_again _ _ := rfl

end ChainBean

namespace ConfigBean

structure Raw where
  serverAddress : Option String := none
  serverPort : Option Int := none
  type : Option Int := none
  config : Option String := none
  deriving DecidableEq, Repr

structure Fields where
  serverAddress : String
  serverPort : Int
  type : Int
  config : String
  deriving DecidableEq, Repr

def Fields.raw (b : Fields) : Raw := ⟨b.serverAddress, b.serverPort, b.type, b.config⟩

def initializeDefaultValues (r : Raw) : Fields where
  serverAddress := defaultAddress r.serverAddress
  serverPort := r.serverPort.getD 1080
  type := r.type.getD 0
  config := r.config.getD ""

def Fields.serialize (b : Fields) : List Token :=
  [.int 0, .string b.serverAddress, .int b.serverPort, .int b.type, .string b.config]

def deserialize {I : Type} [Source I] : Reader I Raw := do
  let _version ← readInt
  let serverAddress ← readString
  let serverPort ← readInt
  let type ← readInt
  let config ← readString
  return { serverAddress, serverPort, type, config }

theorem Fields.raw_inj {a b : Fields} (h : a.raw = b.raw) : a = b := by
  cases a
  cases b
  simpa [Fields.raw] using h

theorem deserialize_reads {I : Type} [Stream I] (b : Fields) :
    Reads (I := I) deserialize b.serialize b.raw := by
  intro fits rest
  simp only [Fields.serialize, List.forall_mem_cons] at fits
  simp [deserialize, Fields.serialize, Fields.raw, fits]

def layout : Layout :=
  .whole "class moe.matsuri.nb4a.proxy.config.ConfigBean" Fields.raw Fields.raw_inj
    initializeDefaultValues Fields.serialize deserialize deserialize_reads

end ConfigBean

/-- The JSON objects of `org.json`, which parses what it prints. -/
structure JSONObjects where
  JSONObject : Type
  empty : JSONObject
  toText : JSONObject → String
  parse : String → Option JSONObject
  parse_toText : ∀ o, parse (toText o) = some o

namespace NekoBean

variable (J : JSONObjects)

structure Raw where
  serverAddress : Option String := none
  serverPort : Option Int := none
  plgId : Option String := none
  protocolId : Option String := none
  sharedStorage : J.JSONObject := J.empty

structure Fields where
  serverAddress : String
  serverPort : Int
  plgId : String
  protocolId : String
  sharedStorage : J.JSONObject

variable {J}

def Fields.raw (b : Fields J) : Raw J :=
  ⟨b.serverAddress, b.serverPort, b.plgId, b.protocolId, b.sharedStorage⟩

def initializeDefaultValues (r : Raw J) : Fields J where
  serverAddress := defaultAddress r.serverAddress
  serverPort := r.serverPort.getD 1080
  plgId := r.plgId.getD "moe.matsuri.plugin.donotexist"
  protocolId := r.protocolId.getD ""
  sharedStorage := r.sharedStorage

def Fields.serialize (b : Fields J) : List Token :=
  [.int 0, .string b.serverAddress, .int b.serverPort, .string b.plgId, .string b.protocolId,
    .string (J.toText b.sharedStorage)]

def tryParseJSON (input : Option String) : J.JSONObject := (input.bind J.parse).getD J.empty

def deserialize {I : Type} [Source I] : Reader I (Raw J) := do
  let _version ← readInt
  let serverAddress ← readString
  let serverPort ← readInt
  let plgId ← readString
  let protocolId ← readString
  let sharedStorage := tryParseJSON (← readString)
  return { serverAddress, serverPort, plgId, protocolId, sharedStorage }

theorem Fields.raw_inj {a b : Fields J} (h : a.raw = b.raw) : a = b := by
  cases a
  cases b
  simpa [Fields.raw] using h

theorem deserialize_reads {I : Type} [Stream I] (b : Fields J) :
    Reads (I := I) deserialize b.serialize b.raw := by
  intro fits rest
  simp only [Fields.serialize, List.forall_mem_cons] at fits
  simp [deserialize, Fields.serialize, Fields.raw, tryParseJSON, J.parse_toText, fits]

variable (J) in
def layout : Layout :=
  .whole "class moe.matsuri.nb4a.proxy.neko.NekoBean" (Fields.raw (J := J)) Fields.raw_inj
    initializeDefaultValues Fields.serialize deserialize deserialize_reads

end NekoBean

namespace V2Ray

def StandardV2RayBean.raw (b : StandardV2RayBean) : Raw where
  ofClass := b.ofClass.raw
  serverAddress := b.serverAddress
  serverPort := b.serverPort
  uuid := b.uuid
  encryption := b.encryption
  type := b.type
  host := b.host
  path := b.path
  wsMaxEarlyData := b.wsMaxEarlyData
  earlyDataHeaderName := b.earlyDataHeaderName
  security := b.security
  sni := b.sni
  alpn := b.alpn
  certificates := b.certificates
  allowInsecure := b.allowInsecure
  utlsFingerprint := b.utlsFingerprint
  realityPubKey := b.realityPubKey
  realityShortId := b.realityShortId
  enableECH := b.enableECH
  echConfig := b.echConfig
  packetEncoding := b.packetEncoding
  enableMux := b.enableMux
  muxPadding := b.muxPadding
  muxType := b.muxType
  muxConcurrency := b.muxConcurrency
  realityMldsa65Verify := b.realityMldsa65Verify

variable {L : LowerCase} {a b : StandardV2RayBean}

theorem writeTransport_congr (h : a.written = b.written) : a.writeTransport = b.writeTransport := by
  have type : a.type = b.type := Option.some.inj (congrArg Raw.type h)
  have host := congrArg Raw.host h
  have path := congrArg Raw.path h
  have early := congrArg Raw.wsMaxEarlyData h
  have header := congrArg Raw.earlyDataHeaderName h
  simp only [StandardV2RayBean.written, StandardV2RayBean.writtenAs, StandardV2RayBean.noteTls,
    StandardV2RayBean.noteTransport, type] at host path early header
  unfold StandardV2RayBean.writeTransport
  rw [type]
  split
  · rename_i ws
    simp_all
  · split
    · rename_i http
      simp_all
    · split
      · rename_i grpc
        simp_all
      · rfl

theorem writeTls_congr (h : a.written = b.written) : a.writeTls = b.writeTls := by
  have security : a.security = b.security := Option.some.inj (congrArg Raw.security h)
  unfold StandardV2RayBean.writeTls
  rw [security]
  split
  · rename_i tls
    simp only [StandardV2RayBean.written, StandardV2RayBean.writtenAs, StandardV2RayBean.noteTls,
      StandardV2RayBean.noteTransport, Raw.mk.injEq, security, tls] at h
    simp_all
  · rfl

theorem raw_ofClass_inj {c d : Class} (h : c.raw = d.raw) : c = d := by
  cases c <;> cases d <;> simp_all [Class.raw]

/-- What is written depends on the written fields only. -/
theorem serialize_congr (h : a.written = b.written) : a.serialize = b.serialize := by
  have ofClass : a.ofClass = b.ofClass := raw_ofClass_inj (congrArg Raw.ofClass h)
  have alterId : a.writeAlterId = b.writeAlterId := by
    simp only [StandardV2RayBean.writeAlterId, ofClass]
  have transport := writeTransport_congr h
  have tls := writeTls_congr h
  have standard : a.serializeStandard = b.serializeStandard := by
    simp only [StandardV2RayBean.written, StandardV2RayBean.writtenAs, StandardV2RayBean.noteTls,
      StandardV2RayBean.noteTransport, Raw.mk.injEq, Option.some.injEq] at h
    simp only [StandardV2RayBean.serializeStandard, alterId, transport, tls, h]
  simp only [StandardV2RayBean.serialize, ofClass, standard]

section
variable (h : initializeDefaultValues L b.raw = b)

include h

theorem type_of_initialized : b.type ≠ "h2" := by
  intro h2
  have type : defaultType L (some b.type) = b.type := congrArg StandardV2RayBean.type h
  rw [h2, defaultType_h2] at type
  obtain ⟨t, same, _, other⟩ := type
  cases same
  exact other rfl

theorem address_of_initialized : isBlank b.serverAddress = false := by
  cases blank : isBlank b.serverAddress with
  | false => rfl
  | true =>
    have address : defaultAddress (some b.serverAddress) = b.serverAddress :=
      congrArg StandardV2RayBean.serverAddress h
    simp only [defaultAddress, blank, if_true] at address
    rw [← address] at blank
    exact absurd blank (by decide)

theorem normal_of_initialized : Normal L b := by
  rw [← h]
  exact initializeDefaultValues_normal L b.raw

theorem written_again : (initializeDefaultValues L b.written).written = b.written := by
  refine written_eq_of_serialize ?_ (restored_serialize (normal_of_initialized h)
    (type_of_initialized h) (address_of_initialized h))
  rw [StandardV2RayBean.javaClass, restored_ofClass, ← StandardV2RayBean.javaClass]

end

def layout (L : LowerCase) : Layout where
  Raw := Raw
  Fields := StandardV2RayBean
  javaClass := StandardV2RayBean.javaClass
  raw := StandardV2RayBean.raw
  initializeDefaultValues := initializeDefaultValues L
  serialize := StandardV2RayBean.serialize
  written := StandardV2RayBean.written
  deserialize := deserializeClass
  reads := StandardV2RayBean.deserializeClass_reads
  serialize_congr := serialize_congr
  javaClass_again b _ := by
    rw [StandardV2RayBean.javaClass, restored_ofClass, ← StandardV2RayBean.javaClass]
  written_again _ := written_again

end V2Ray

/-! ## All classes -/

/-- The classes of beans; those of `StandardV2RayBean` go together. -/
inductive BeanKind where
  | standardV2Ray
  | socks
  | shadowsocks
  | trojanGo
  | mieru
  | naive
  | hysteria
  | ssh
  | wireGuard
  | tuic
  | anyTls
  | neko
  | chain
  | config
  deriving DecidableEq, Repr

def beanLayout (L : LowerCase) (J : JSONObjects) : BeanKind → Layout
  | .standardV2Ray => V2Ray.layout L
  | .socks => SOCKSBean.layout
  | .shadowsocks => ShadowsocksBean.layout
  | .trojanGo => TrojanGoBean.layout
  | .mieru => MieruBean.layout
  | .naive => NaiveBean.layout
  | .hysteria => HysteriaBean.layout
  | .ssh => SSHBean.layout
  | .wireGuard => WireGuardBean.layout
  | .tuic => TuicBean.layout
  | .anyTls => AnyTLSBean.layout
  | .neko => NekoBean.layout J
  | .chain => ChainBean.layout
  | .config => ConfigBean.layout

/-- The names of the classes of a kind. -/
def BeanKind.classes : BeanKind → List String
  | .standardV2Ray =>
    ["class io.nekohasekai.sagernet.fmt.v2ray.VMessBean",
      "class io.nekohasekai.sagernet.fmt.trojan.TrojanBean",
      "class io.nekohasekai.sagernet.fmt.http.HttpBean",
      "class moe.matsuri.nb4a.proxy.shadowtls.ShadowTLSBean"]
  | .socks => ["class io.nekohasekai.sagernet.fmt.socks.SOCKSBean"]
  | .shadowsocks => ["class io.nekohasekai.sagernet.fmt.shadowsocks.ShadowsocksBean"]
  | .trojanGo => ["class io.nekohasekai.sagernet.fmt.trojan_go.TrojanGoBean"]
  | .mieru => ["class io.nekohasekai.sagernet.fmt.mieru.MieruBean"]
  | .naive => ["class io.nekohasekai.sagernet.fmt.naive.NaiveBean"]
  | .hysteria => ["class io.nekohasekai.sagernet.fmt.hysteria.HysteriaBean"]
  | .ssh => ["class io.nekohasekai.sagernet.fmt.ssh.SSHBean"]
  | .wireGuard => ["class io.nekohasekai.sagernet.fmt.wireguard.WireGuardBean"]
  | .tuic => ["class io.nekohasekai.sagernet.fmt.tuic.TuicBean"]
  | .anyTls => ["class moe.matsuri.nb4a.proxy.anytls.AnyTLSBean"]
  | .neko => ["class moe.matsuri.nb4a.proxy.neko.NekoBean"]
  | .chain => ["class io.nekohasekai.sagernet.fmt.internal.ChainBean"]
  | .config => ["class moe.matsuri.nb4a.proxy.config.ConfigBean"]

variable {L : LowerCase} {J : JSONObjects}

theorem javaClass_mem (b : FullBean (beanLayout L J)) : b.javaClass ∈ b.kind.classes := by
  obtain ⟨kind, fields, _, _, _⟩ := b
  cases kind with
  | standardV2Ray =>
    change StandardV2RayBean.javaClass fields ∈ _
    unfold StandardV2RayBean.javaClass
    split <;> simp [BeanKind.classes]
  | _ => exact List.mem_singleton.mpr rfl

theorem classes_disjoint {k k' : BeanKind} {name : String} (h : name ∈ k.classes)
    (h' : name ∈ k'.classes) : k = k' := by
  revert name
  cases k <;> cases k' <;> decide

theorem classesApart : FullBean.ClassesApart (beanLayout L J) := by
  intro a b same
  exact classes_disjoint (javaClass_mem a) (same ▸ javaClass_mem b)

/-- The bean is read back from its bytes, with nothing left over, to a bean of the same class
that agrees on the name, the custom JSON and every field that is written, and that has the
same bytes. -/
def ReadsBack (E : Encoding) (b : FullBean (beanLayout L J)) : Prop :=
  ∃ r : RawBean (beanLayout L J),
    E.read (FullBean.deserializeFromBuffer b.kind b.javaClass) (b.bytes E) = some (r, []) ∧
      (FullBean.initializeDefaultValues r).javaClass = b.javaClass ∧
      (FullBean.initializeDefaultValues r).name = b.name ∧
      (FullBean.initializeDefaultValues r).customOutboundJson = b.customOutboundJson ∧
      (FullBean.initializeDefaultValues r).customConfigJson = b.customConfigJson ∧
      (FullBean.initializeDefaultValues r).written = b.written ∧
      (FullBean.initializeDefaultValues r).bytes E = b.bytes E

/-- Every bean whose fields fit their types, and that `initializeDefaultValues` leaves as it is,
reads back. -/
theorem stored_bean_reads_back (E : Encoding) (b : FullBean (beanLayout L J)) (fits : b.Fits)
    (initialized : FullBean.initializeDefaultValues b.raw = b) : ReadsBack E b := by
  obtain ⟨r, read, written, javaClass, bytes⟩ :=
    FullBean.bytes_read_back fits (b.initialized_iff.mpr initialized)
  refine ⟨r, read, javaClass, ?_, ?_, ?_, written, bytes⟩
  · exact Option.some.inj (congrArg RawBean.name written)
  · exact Option.some.inj (congrArg RawBean.customOutboundJson written)
  · exact Option.some.inj (congrArg RawBean.customConfigJson written)

/-- JSON objects without members. -/
def emptyObjects : JSONObjects where
  JSONObject := Unit
  empty := ()
  toText _ := "\x7b\x7d"
  parse s := if s = "\x7b\x7d" then some () else none
  parse_toText _ := rfl

def keyNode : FullBean (beanLayout .ascii emptyObjects) where
  kind := .ssh
  fields := (⟨"node.example", 22, "root", SSHBean.AUTH_TYPE_PRIVATE_KEY, "", "key", "phrase", ""⟩ :
    SSHBean.Fields)
  name := "node"
  customOutboundJson := ""
  customConfigJson := ""

theorem keyNode_reads_back : FullBean.initializeDefaultValues keyNode.raw = keyNode ∧
    ReadsBack Binary.kryo keyNode :=
  ⟨rfl, stored_bean_reads_back Binary.kryo keyNode (by decide) rfl⟩

/-- Equality of beans is agreement on class, fields and custom JSON as they are written, for beans
whose fields fit their types. -/
theorem bean_equals_iff (E : Encoding) :
    (∀ a b : FullBean (beanLayout L J), a.Fits → b.Fits →
      (a.equals E b = true ↔ FullBean.SameConfiguration a b)) ∧
    Equivalence (fun a b : FullBean (beanLayout L J) => a.equals E b = true) ∧
    ∀ a b : FullBean (beanLayout L J), a.equals E b = true → a.hashCode E = b.hashCode E := by
  refine ⟨?_, FullBean.equals_equivalence E, fun a b => FullBean.hashCode_of_equals⟩
  intro a b fits fits'
  exact FullBean.equals_iff_same classesApart fits fits'

/-- Another name makes no difference, another key does. -/
theorem keyNode_equals :
    keyNode.equals Binary.kryo { keyNode with name := "other" } = true ∧
      keyNode.equals Binary.kryo { keyNode with
        fields := (⟨"node.example", 22, "root", SSHBean.AUTH_TYPE_PRIVATE_KEY, "", "kez", "phrase",
          ""⟩ : SSHBean.Fields) } = false := by
  constructor
  · exact ((bean_equals_iff Binary.kryo).1 _ _ (by decide) (by decide)).mpr ⟨rfl, rfl⟩
  · decide

end QuinMo
