import QuinMo.Model.Net
import QuinMo.Model.Stored

/-!
# VMess, VLESS, Trojan, HTTP and ShadowTLS beans

The fields of the transport and of TLS are written only for the transports and the security that
have them.
-/

namespace QuinMo.V2Ray

open Text Net

/-- The fields of the class, null where nothing was set. A VLESS node is a `VMessBean` with
the alter id -1. -/
inductive RawClass where
  | vmess (alterId : Option Int)
  | trojan (password : Option String)
  | http (username password : Option String)
  | shadowTls (version : Option Int) (password : Option String)
  deriving DecidableEq, Repr

/-- The fields as a parser or the deserialization leaves them. -/
structure Raw where
  ofClass : RawClass
  serverAddress : Option String := none
  serverPort : Option Int := none
  uuid : Option String := none
  encryption : Option String := none
  type : Option String := none
  host : Option String := none
  path : Option String := none
  wsMaxEarlyData : Option Int := none
  earlyDataHeaderName : Option String := none
  security : Option String := none
  sni : Option String := none
  alpn : Option String := none
  certificates : Option String := none
  allowInsecure : Option Bool := none
  utlsFingerprint : Option String := none
  realityPubKey : Option String := none
  realityShortId : Option String := none
  enableECH : Option Bool := none
  echConfig : Option String := none
  packetEncoding : Option Int := none
  enableMux : Option Bool := none
  muxPadding : Option Bool := none
  muxType : Option Int := none
  muxConcurrency : Option Int := none
  realityMldsa65Verify : Option String := none
  deriving DecidableEq, Repr

inductive Class where
  | vmess (alterId : Int)
  | trojan (password : String)
  | http (username password : String)
  | shadowTls (version : Int) (password : String)
  deriving DecidableEq, Repr

/-- The fields after `initializeDefaultValues`; only the encryption may be null still. -/
structure StandardV2RayBean where
  ofClass : Class
  serverAddress : String
  serverPort : Int
  uuid : String
  encryption : Option String
  type : String
  host : String
  path : String
  wsMaxEarlyData : Int
  earlyDataHeaderName : String
  security : String
  sni : String
  alpn : String
  certificates : String
  allowInsecure : Bool
  utlsFingerprint : String
  realityPubKey : String
  realityShortId : String
  enableECH : Bool
  echConfig : String
  packetEncoding : Int
  enableMux : Bool
  muxPadding : Bool
  muxType : Int
  muxConcurrency : Int
  realityMldsa65Verify : String
  deriving DecidableEq, Repr

/-- A default for what is null or blank. -/
def ifNullOrBlank (s : Option String) (missing : String) : String :=
  match s with
  | none => missing
  | some s => if isBlank s then missing else s

def defaultAddress (serverAddress : Option String) : String :=
  match serverAddress with
  | none => "127.0.0.1"
  | some a =>
    if isBlank a then "127.0.0.1"
    else if startsWith a "[" && endsWith a "]" then unwrapIPV6Host a
    else a

def defaultType (L : LowerCase) (type : Option String) : String :=
  L.lower <| match type with
  | none => "tcp"
  | some t => if isBlank t then "tcp" else if t = "h2" then "http" else t

def defaultClass : RawClass → Class
  | .vmess alterId => .vmess (alterId.getD 0)
  | .trojan password => .trojan (password.getD "")
  | .http username password => .http (username.getD "") (password.getD "")
  | .shadowTls version password => .shadowTls (version.getD 3) (password.getD "")

/-- Only `VMessBean` has a default for the encryption, which holds the flow of a VLESS node. -/
def defaultEncryption (ofClass : Class) (encryption : Option String) : Option String :=
  match ofClass with
  | .vmess alterId => some (ifNullOrBlank encryption (if alterId = -1 then "" else "auto"))
  | _ => encryption

def defaultSecurity (ofClass : Class) (security : Option String) : String :=
  match ofClass with
  | .vmess _ | .http _ _ => ifNullOrBlank security "none"
  | .trojan _ => ifNullOrBlank security "tls"
  | .shadowTls _ _ => "tls"

def initializeDefaultValues (L : LowerCase) (r : Raw) : StandardV2RayBean :=
  let ofClass := defaultClass r.ofClass
  { ofClass
    serverAddress := defaultAddress r.serverAddress
    serverPort := r.serverPort.getD 1080
    uuid := ifNullOrBlank r.uuid ""
    encryption := defaultEncryption ofClass r.encryption
    type := defaultType L r.type
    host := ifNullOrBlank r.host ""
    path := ifNullOrBlank r.path ""
    wsMaxEarlyData := r.wsMaxEarlyData.getD 0
    earlyDataHeaderName := ifNullOrBlank r.earlyDataHeaderName ""
    security := defaultSecurity ofClass r.security
    sni := ifNullOrBlank r.sni ""
    alpn := ifNullOrBlank r.alpn ""
    certificates := ifNullOrBlank r.certificates ""
    allowInsecure := r.allowInsecure.getD false
    utlsFingerprint := ifNullOrBlank r.utlsFingerprint ""
    realityPubKey := r.realityPubKey.getD ""
    realityShortId := r.realityShortId.getD ""
    enableECH := r.enableECH.getD false
    echConfig := ifNullOrBlank r.echConfig ""
    packetEncoding := r.packetEncoding.getD 0
    enableMux := r.enableMux.getD false
    muxPadding := r.muxPadding.getD false
    muxType := r.muxType.getD 0
    muxConcurrency := r.muxConcurrency.getD 1
    realityMldsa65Verify := r.realityMldsa65Verify.getD "" }

namespace StandardV2RayBean

def writeTransport (b : StandardV2RayBean) : List Token :=
  if b.type = "ws" then
    [.string b.host, .string b.path, .int b.wsMaxEarlyData, .string b.earlyDataHeaderName]
  else if b.type = "http" ∨ b.type = "httpupgrade" then [.string b.host, .string b.path]
  else if b.type = "grpc" then [.string b.path]
  else []

def writeTls (b : StandardV2RayBean) : List Token :=
  if b.security = "tls" then
    [.string b.sni, .string b.alpn, .string b.certificates, .boolean b.allowInsecure,
      .string b.utlsFingerprint, .string b.realityPubKey, .string b.realityShortId]
  else []

def writeAlterId (b : StandardV2RayBean) : List Token :=
  match b.ofClass with
  | .vmess alterId => [.int alterId]
  | _ => []

def serializeStandard (b : StandardV2RayBean) : List Token :=
  [.int 5, .string b.serverAddress, .int b.serverPort, .string b.uuid, .string b.encryption] ++
    (b.writeAlterId ++ (.string b.type :: (b.writeTransport ++ (.string b.security :: (b.writeTls ++
      [.boolean b.enableECH, .string b.echConfig, .int b.packetEncoding, .boolean b.enableMux,
        .boolean b.muxPadding, .int b.muxType, .int b.muxConcurrency,
        .string b.realityMldsa65Verify])))))

def serialize (b : StandardV2RayBean) : List Token :=
  match b.ofClass with
  | .vmess _ => b.serializeStandard
  | .trojan password => .int 2 :: (b.serializeStandard ++ [.string password])
  | .http username password =>
    .int 0 :: (b.serializeStandard ++ [.string username, .string password])
  | .shadowTls version password =>
    .int 0 :: (b.serializeStandard ++ [.int version, .string password])

def javaClass (b : StandardV2RayBean) : String :=
  match b.ofClass with
  | .vmess _ => "class io.nekohasekai.sagernet.fmt.v2ray.VMessBean"
  | .trojan _ => "class io.nekohasekai.sagernet.fmt.trojan.TrojanBean"
  | .http _ _ => "class io.nekohasekai.sagernet.fmt.http.HttpBean"
  | .shadowTls _ _ => "class moe.matsuri.nb4a.proxy.shadowtls.ShadowTLSBean"

def hash (b : StandardV2RayBean) : String :=
  b.serverAddress ++ ":" ++ toString b.serverPort ++ ":" ++ b.javaClass

def displayAddress (b : StandardV2RayBean) : String :=
  wrapIPV6Host b.serverAddress ++ ":" ++ toString b.serverPort

end StandardV2RayBean

/-! ## Reading -/

section
variable {I : Type} [Source I]

def readAlterId : RawClass → Reader I RawClass
  | .vmess _ => do return .vmess (← readInt)
  | ofClass => return ofClass

def readTransport (version : Int) (type : String) (r : Raw) : Reader I Raw :=
  if type = "ws" then do
    let host ← readString
    let path ← readString
    let wsMaxEarlyData ← readInt
    let earlyDataHeaderName ← readString
    return { r with host, path, wsMaxEarlyData, earlyDataHeaderName }
  else if type = "http" ∨ type = "httpupgrade" then do
    let host ← readString
    let path ← readString
    return { r with host, path }
  else if type = "grpc" then do
    let path ← readString
    if version < 4 then
      let _ ← readString
      let _ ← readString
    return { r with path }
  else return r

def readTls (security : Option String) (r : Raw) : Reader I Raw :=
  if security = some "tls" then do
    let sni ← readString
    let alpn ← readString
    let certificates ← readString
    let allowInsecure ← readBoolean
    let utlsFingerprint ← readString
    let realityPubKey ← readString
    let realityShortId ← readString
    return { r with
      sni, alpn, certificates, allowInsecure, utlsFingerprint, realityPubKey, realityShortId }
  else return r

/-- The ECH entry before version 3 is longer when it is on. -/
def readOldECH (r : Raw) (enableECH : Bool) : Reader I Raw :=
  if enableECH then do
    let _ ← readBoolean
    let _ ← readBoolean
    return { r with enableECH, echConfig := ← readString }
  else return { r with enableECH }

/-- A row of version 0 may lack the entry, which shows in the number behind it. -/
def readFirstECH (r : Raw) : Reader I Raw := do
  let position ← get
  let tmpEnableECH ← readBoolean
  let tmpPacketEncoding ← readInt
  set position
  if tmpPacketEncoding ≠ 1 ∧ tmpPacketEncoding ≠ 2 then readOldECH r tmpEnableECH else return r

def readECH (version : Int) (r : Raw) : Reader I Raw :=
  if 1 ≤ version then do
    let enableECH ← readBoolean
    if 3 ≤ version then
      return { r with enableECH, echConfig := ← readString }
    else readOldECH r enableECH
  else if version = 0 then readFirstECH r
  else return r

def readMux (version : Int) (r : Raw) : Reader I Raw := do
  if 2 ≤ version then
    let enableMux ← readBoolean
    let muxPadding ← readBoolean
    let muxType ← readInt
    let muxConcurrency ← readInt
    return { r with enableMux, muxPadding, muxType, muxConcurrency }
  else return r

def deserializeStandard (ofClass : RawClass) : Reader I Raw := do
  let version ← readInt
  let serverAddress ← readString
  let serverPort ← readInt
  let uuid ← readString
  let encryption ← readString
  let ofClass ← readAlterId ofClass
  let some type ← readString | failure
  let r : Raw := { ofClass, serverAddress, serverPort, uuid, encryption, type }
  let r ← readTransport version type r
  let security ← readString
  let r ← readTls security { r with security }
  let r ← readECH version r
  let packetEncoding ← readInt
  let r ← readMux version { r with packetEncoding }
  if 5 ≤ version then
    return { r with realityMldsa65Verify := ← readString }
  else return r

/-- A Trojan bean before version 2 has a layout of its own. -/
def deserializeTrojan : Reader I Raw := do
  let version ← readInt
  if 2 ≤ version then
    let r ← deserializeStandard (.trojan none)
    return { r with ofClass := .trojan (← readString) }
  else
    let serverAddress ← readString
    let serverPort ← readInt
    let password ← readString
    let security ← readString
    let sni ← readString
    let alpn ← readString
    let r : Raw := { ofClass := .trojan password, serverAddress, serverPort, security, sni, alpn }
    if version = 1 then
      return { r with allowInsecure := ← readBoolean }
    else return r

def deserializeHttp : Reader I Raw := do
  let _version ← readInt
  let r ← deserializeStandard (.http none none)
  return { r with ofClass := .http (← readString) (← readString) }

def deserializeShadowTls : Reader I Raw := do
  let _version ← readInt
  let r ← deserializeStandard (.shadowTls none none)
  return { r with ofClass := .shadowTls (← readInt) (← readString) }

/-- The reader of a class. -/
def deserializeClass (javaClass : String) : Reader I Raw :=
  if javaClass = "class io.nekohasekai.sagernet.fmt.trojan.TrojanBean" then deserializeTrojan
  else if javaClass = "class io.nekohasekai.sagernet.fmt.http.HttpBean" then deserializeHttp
  else if javaClass = "class moe.matsuri.nb4a.proxy.shadowtls.ShadowTLSBean" then
    deserializeShadowTls
  else deserializeStandard (.vmess none)

end

def deserialize (L : LowerCase) (javaClass : String) (input : List Token) :
    Option (StandardV2RayBean × List Token) := do
  let (r, rest) ← (deserializeClass javaClass).run input
  return (initializeDefaultValues L r, rest)

namespace StandardV2RayBean

/-- The fields with those that are written for the bean's transport. -/
def noteTransport (b : StandardV2RayBean) (r : Raw) : Raw :=
  let withHost := b.type = "ws" ∨ b.type = "http" ∨ b.type = "httpupgrade"
  { r with
    host := if withHost then b.host else r.host
    path := if withHost ∨ b.type = "grpc" then b.path else r.path
    wsMaxEarlyData := if b.type = "ws" then b.wsMaxEarlyData else r.wsMaxEarlyData
    earlyDataHeaderName := if b.type = "ws" then b.earlyDataHeaderName else r.earlyDataHeaderName }

def noteTls (b : StandardV2RayBean) (r : Raw) : Raw :=
  let tls := b.security = "tls"
  { r with
    sni := if tls then b.sni else r.sni
    alpn := if tls then b.alpn else r.alpn
    certificates := if tls then b.certificates else r.certificates
    allowInsecure := if tls then b.allowInsecure else r.allowInsecure
    utlsFingerprint := if tls then b.utlsFingerprint else r.utlsFingerprint
    realityPubKey := if tls then b.realityPubKey else r.realityPubKey
    realityShortId := if tls then b.realityShortId else r.realityShortId }

/-- The fields that the bean's serialization has. -/
def writtenAs (b : StandardV2RayBean) (ofClass : RawClass) : Raw :=
  let r : Raw :=
    { ofClass, serverAddress := b.serverAddress, serverPort := b.serverPort, uuid := b.uuid,
      encryption := b.encryption, type := b.type, security := b.security, enableECH := b.enableECH,
      echConfig := b.echConfig, packetEncoding := b.packetEncoding, enableMux := b.enableMux,
      muxPadding := b.muxPadding, muxType := b.muxType, muxConcurrency := b.muxConcurrency,
      realityMldsa65Verify := b.realityMldsa65Verify }
  b.noteTls (b.noteTransport r)

end StandardV2RayBean

/-- The fields of the class, all set. -/
def Class.raw : Class → RawClass
  | .vmess alterId => .vmess alterId
  | .trojan password => .trojan password
  | .http username password => .http username password
  | .shadowTls version password => .shadowTls version password

namespace StandardV2RayBean

def written (b : StandardV2RayBean) : Raw := b.writtenAs b.ofClass.raw

variable {I : Type} [Stream I]

theorem readTransport_reads (b : StandardV2RayBean) (r : Raw) :
    Reads (I := I) (readTransport 5 b.type r) b.writeTransport (b.noteTransport r) := by
  intro fits rest
  unfold writeTransport at fits
  unfold readTransport writeTransport noteTransport
  split
  · rename_i ws
    simp only [ws, if_true, List.forall_mem_cons] at fits
    simp [ws, fits]
  · split
    · rename_i http
      rcases http with http | http <;> simp [http] at fits <;> simp [http, fits]
    · split
      · rename_i grpc
        simp [grpc] at fits
        simp [grpc, fits]
      · simp_all

theorem readTls_reads (b : StandardV2RayBean) (r : Raw) :
    Reads (I := I) (readTls b.security r) b.writeTls (b.noteTls r) := by
  intro fits rest
  unfold writeTls at fits
  unfold readTls writeTls noteTls
  by_cases tls : b.security = "tls"
  · simp only [tls, if_true, List.forall_mem_cons] at fits
    simp [tls, fits]
  · simp [tls]

theorem deserializeStandard_reads (b : StandardV2RayBean) (before after : RawClass)
    (alterId : Reads (I := I) (readAlterId before) b.writeAlterId after) :
    Reads (I := I) (deserializeStandard before) b.serializeStandard (b.writtenAs after) := by
  intro fits rest
  simp only [serializeStandard, List.cons_append, List.nil_append, List.forall_mem_cons,
    List.forall_mem_append] at fits
  have transport (r : Raw) := readTransport_reads (I := I) b r (by tauto)
  have tls (r : Raw) := readTls_reads (I := I) b r (by tauto)
  have alterId := alterId (by tauto)
  simp only [deserializeStandard, serializeStandard, List.cons_append, List.nil_append,
    pushAll_append, pushAll_cons, pushAll_nil, StateT.run_bind, readInt_push, readString_push,
    alterId, transport, tls, Option.bind_eq_bind, Option.bind_some, readECH, readMux, fits]
  simp [writtenAs, noteTls, noteTransport, fits]

/-- The reader of a bean's class takes what the bean has written. -/
theorem deserializeClass_reads (b : StandardV2RayBean) :
    Reads (I := I) (deserializeClass b.javaClass) b.serialize b.written := by
  have other (before : RawClass) (unread : (readAlterId before : Reader I RawClass) = pure before)
      (unwritten : b.writeAlterId = []) :
      Reads (I := I) (deserializeStandard before) b.serializeStandard (b.writtenAs before) :=
    b.deserializeStandard_reads before before (by rw [unread, unwritten]; exact fun _ _ => rfl)
  intro fits rest
  unfold serialize at fits
  cases hc : b.ofClass with
  | vmess alterId =>
    rw [hc] at fits
    have read := b.deserializeStandard_reads (I := I) (.vmess none) (.vmess alterId)
      (fun fits rest => by
        simp only [writeAlterId, hc, List.forall_mem_cons] at fits
        simp [readAlterId, writeAlterId, hc, fits]) fits rest
    simp [deserializeClass, javaClass, serialize, written, Class.raw, hc, read]
  | trojan password =>
    simp only [hc, List.forall_mem_cons, List.forall_mem_append] at fits
    have read := other (.trojan none) rfl (by rw [writeAlterId, hc]) (by tauto)
    simp [deserializeClass, deserializeTrojan, javaClass, serialize, written, Class.raw, hc, read,
      fits]
    rfl
  | http username password =>
    simp only [hc, List.forall_mem_cons, List.forall_mem_append] at fits
    have read := other (.http none none) rfl (by rw [writeAlterId, hc]) (by tauto)
    simp [deserializeClass, deserializeHttp, javaClass, serialize, written, Class.raw, hc, read, fits]
    rfl
  | shadowTls version password =>
    simp only [hc, List.forall_mem_cons, List.forall_mem_append] at fits
    have read := other (.shadowTls none none) rfl (by rw [writeAlterId, hc]) (by tauto)
    simp [deserializeClass, deserializeShadowTls, javaClass, serialize, written, Class.raw, hc, read,
      fits]
    rfl

theorem deserialize_serialize (L : LowerCase) (b : StandardV2RayBean) (rest : List Token) :
    deserialize L b.javaClass (b.serialize ++ rest) =
      some (initializeDefaultValues L b.written, rest) := by
  rw [deserialize, b.deserializeClass_reads.run_append]
  rfl

end StandardV2RayBean

/-- VMess, VLESS, Trojan, HTTP and ShadowTLS beans in the database. -/
def beanClass (L : LowerCase) : BeanClass StandardV2RayBean where
  javaClass := StandardV2RayBean.javaClass
  unnamed b := b.content.displayAddress
  hash := StandardV2RayBean.hash
  serialize := StandardV2RayBean.serialize
  deserialize := deserialize L
  restored b := initializeDefaultValues L b.written
  deserialize_serialize := StandardV2RayBean.deserialize_serialize L

end QuinMo.V2Ray
