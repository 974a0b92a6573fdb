import QuinMo.Model.Layout
import QuinMo.Model.V2Ray

/-!
# Hysteria, SSH, WireGuard, TUIC and AnyTLS beans

The fields of each class, its defaults, and what it writes and reads.
-/

namespace QuinMo

open Text V2Ray

namespace HysteriaBean

structure Raw where
  serverAddress : Option String := none
  serverPort : Option Int := none
  protocolVersion : Option Int := none
  serverPorts : Option String := none
  authPayload : Option String := none
  obfuscation : Option String := none
  sni : Option String := none
  caText : Option String := none
  uploadMbps : Option Int := none
  downloadMbps : Option Int := none
  allowInsecure : Option Bool := none
  streamReceiveWindow : Option Int := none
  connectionReceiveWindow : Option Int := none
  disableMtuDiscovery : Option Bool := none
  hopInterval : Option Int := none
  alpn : Option String := none
  authPayloadType : Option Int := none
  protocol : Option Int := none
  deriving DecidableEq, Repr

structure Fields where
  serverAddress : String
  serverPort : Int
  protocolVersion : Int
  serverPorts : String
  authPayload : String
  obfuscation : String
  sni : String
  caText : String
  uploadMbps : Int
  downloadMbps : Int
  allowInsecure : Bool
  streamReceiveWindow : Int
  connectionReceiveWindow : Int
  disableMtuDiscovery : Bool
  hopInterval : Int
  alpn : String
  authPayloadType : Int
  protocol : Int
  deriving DecidableEq, Repr

def TYPE_NONE : Int := 0

def TYPE_STRING : Int := 1

def TYPE_BASE64 : Int := 2

def PROTOCOL_UDP : Int := 0

def Fields.raw (b : Fields) : Raw :=
  ⟨b.serverAddress, b.serverPort, b.protocolVersion, b.serverPorts, b.authPayload, b.obfuscation,
    b.sni, b.caText, b.uploadMbps, b.downloadMbps, b.allowInsecure, b.streamReceiveWindow,
    b.connectionReceiveWindow, b.disableMtuDiscovery, b.hopInterval, b.alpn, b.authPayloadType,
    b.protocol⟩

def initializeDefaultValues (r : Raw) : Fields where
  serverAddress := defaultAddress r.serverAddress
  serverPort := r.serverPort.getD 1080
  protocolVersion := r.protocolVersion.getD 2
  serverPorts := r.serverPorts.getD "443"
  authPayload := r.authPayload.getD ""
  obfuscation := r.obfuscation.getD ""
  sni := r.sni.getD ""
  caText := r.caText.getD ""
  uploadMbps := r.uploadMbps.getD (if r.protocolVersion = some 1 then 10 else 0)
  downloadMbps := r.downloadMbps.getD (if r.protocolVersion = some 1 then 50 else 0)
  allowInsecure := r.allowInsecure.getD false
  streamReceiveWindow := r.streamReceiveWindow.getD 0
  connectionReceiveWindow := r.connectionReceiveWindow.getD 0
  disableMtuDiscovery := r.disableMtuDiscovery.getD false
  hopInterval := r.hopInterval.getD 10
  alpn := r.alpn.getD ""
  authPayloadType := r.authPayloadType.getD TYPE_NONE
  protocol := r.protocol.getD PROTOCOL_UDP

def Fields.serialize (b : Fields) : List Token :=
  [.int 7, .string b.serverAddress, .int b.serverPort, .int b.protocolVersion,
    .int b.authPayloadType, .string b.authPayload, .int b.protocol, .string b.obfuscation,
    .string b.sni, .string b.alpn, .int b.uploadMbps, .int b.downloadMbps, .boolean b.allowInsecure,
    .string b.caText, .int b.streamReceiveWindow, .int b.connectionReceiveWindow,
    .boolean b.disableMtuDiscovery, .int b.hopInterval, .string b.serverPorts]

def isMultiPort (hyAddr : String) : Bool :=
  if !contains hyAddr ":" then false
  else
    let p := substringAfterLast hyAddr ':' hyAddr
    contains p "-" || contains p ","

/-- Before version 6 a list of ports was part of the address. -/
def readPorts {I : Type} [Source I] (version : Int) (serverAddress : Option String)
    (serverPort : Int) : Reader I (Option String × Option String) :=
  if 6 ≤ version then do
    return (serverAddress, ← readString)
  else match serverAddress with
    | none => failure
    | some address =>
      if isMultiPort address then
        return (some (substringBeforeLast address ':' address),
          some (substringAfterLast address ':' address))
      else return (some address, some (toString serverPort))

def deserialize {I : Type} [Source I] : Reader I Raw := do
  let version ← readInt
  let serverAddress ← readString
  let serverPort ← readInt
  let protocolVersion := (← readIf (7 ≤ version) readInt).getD 1
  let authPayloadType ← readInt
  let authPayload ← readString
  let protocol ← readIf (3 ≤ version) readInt
  let obfuscation ← readString
  let sni ← readString
  let alpn := (← readIf (2 ≤ version) readString).join
  let uploadMbps ← readInt
  let downloadMbps ← readInt
  let allowInsecure ← readBoolean
  let caText := (← readIf (1 ≤ version) readString).join
  let streamReceiveWindow ← readIf (1 ≤ version) readInt
  let connectionReceiveWindow ← readIf (1 ≤ version) readInt
  let disableMtuDiscovery ← readIf (1 ≤ version ∧ version ≠ 4) readBoolean
  let hopInterval ← readIf (5 ≤ version) readInt
  let (serverAddress, serverPorts) ← readPorts version serverAddress serverPort
  return ⟨serverAddress, serverPort, protocolVersion, serverPorts, authPayload, obfuscation, sni,
    caText, uploadMbps, downloadMbps, allowInsecure, streamReceiveWindow, connectionReceiveWindow,
    disableMtuDiscovery, hopInterval, alpn, authPayloadType, protocol⟩

theorem Fields.raw_inj {a b : Fields} (h : a.raw = b.raw) : a = b := by
  cases a
  cases b
  simpa [Fields.raw] using h

theorem deserialize_reads {I : Type} [Stream I] (b : Fields) :
    Reads (I := I) deserialize b.serialize b.raw := by
  intro fits rest
  simp only [Fields.serialize, List.forall_mem_cons] at fits
  simp [-StateT.run_bind, deserialize, Fields.serialize, Fields.raw, readIf, readPorts, fits]

def layout : Layout :=
  .whole "class io.nekohasekai.sagernet.fmt.hysteria.HysteriaBean" Fields.raw Fields.raw_inj
    initializeDefaultValues Fields.serialize deserialize deserialize_reads

end HysteriaBean

namespace WireGuardBean

structure Raw where
  serverAddress : Option String := none
  serverPort : Option Int := none
  localAddress : Option String := none
  privateKey : Option String := none
  peerPublicKey : Option String := none
  peerPreSharedKey : Option String := none
  mtu : Option Int := none
  reserved : Option String := none
  deriving DecidableEq, Repr

structure Fields where
  serverAddress : String
  serverPort : Int
  localAddress : String
  privateKey : String
  peerPublicKey : String
  peerPreSharedKey : String
  mtu : Int
  reserved : String
  deriving DecidableEq, Repr

def Fields.raw (b : Fields) : Raw :=
  ⟨b.serverAddress, b.serverPort, b.localAddress, b.privateKey, b.peerPublicKey, b.peerPreSharedKey,
    b.mtu, b.reserved⟩

def initializeDefaultValues (r : Raw) : Fields where
  serverAddress := defaultAddress r.serverAddress
  serverPort := r.serverPort.getD 1080
  localAddress := r.localAddress.getD ""
  privateKey := r.privateKey.getD ""
  peerPublicKey := r.peerPublicKey.getD ""
  peerPreSharedKey := r.peerPreSharedKey.getD ""
  mtu := r.mtu.getD 1420
  reserved := r.reserved.getD ""

def Fields.serialize (b : Fields) : List Token :=
  [.int 2, .string b.serverAddress, .int b.serverPort, .string b.localAddress, .string b.privateKey,
    .string b.peerPublicKey, .string b.peerPreSharedKey, .int b.mtu, .string b.reserved]

def deserialize {I : Type} [Source I] : Reader I Raw := do
  let version ← readInt
  let serverAddress ← readString
  let serverPort ← readInt
  let localAddress ← readString
  let privateKey ← readString
  let peerPublicKey ← readString
  let peerPreSharedKey ← readString
  let mtu ← readIf (1 ≤ version) readInt
  let reserved := (← readIf (2 ≤ version) readString).join
  return ⟨serverAddress, serverPort, localAddress, privateKey, peerPublicKey, peerPreSharedKey, mtu,
    reserved⟩

theorem Fields.raw_inj {a b : Fields} (h : a.raw = b.raw) : a = b := by
  cases a
  cases b
  simpa [Fields.raw] using h

theorem deserialize_reads {I : Type} [Stream I] (b : Fields) :
    Reads (I := I) deserialize b.serialize b.raw := by
  intro fits rest
  simp only [Fields.serialize, List.forall_mem_cons] at fits
  simp [-StateT.run_bind, deserialize, Fields.serialize, Fields.raw, readIf, fits]

def layout : Layout :=
  .whole "class io.nekohasekai.sagernet.fmt.wireguard.WireGuardBean" Fields.raw Fields.raw_inj
    initializeDefaultValues Fields.serialize deserialize deserialize_reads

end WireGuardBean

namespace TuicBean

structure Raw where
  serverAddress : Option String := none
  serverPort : Option Int := none
  token : Option String := none
  caText : Option String := none
  udpRelayMode : Option String := none
  congestionController : Option String := none
  alpn : Option String := none
  disableSNI : Option Bool := none
  reduceRTT : Option Bool := none
  mtu : Option Int := none
  sni : Option String := none
  fastConnect : Option Bool := none
  allowInsecure : Option Bool := none
  customJSON : Option String := none
  protocolVersion : Option Int := none
  uuid : Option String := none
  deriving DecidableEq, Repr

structure Fields where
  serverAddress : String
  serverPort : Int
  token : String
  caText : String
  udpRelayMode : String
  congestionController : String
  alpn : String
  disableSNI : Bool
  reduceRTT : Bool
  mtu : Int
  sni : String
  fastConnect : Bool
  allowInsecure : Bool
  customJSON : String
  protocolVersion : Int
  uuid : String
  deriving DecidableEq, Repr

def Fields.raw (b : Fields) : Raw :=
  ⟨b.serverAddress, b.serverPort, b.token, b.caText, b.udpRelayMode, b.congestionController, b.alpn,
    b.disableSNI, b.reduceRTT, b.mtu, b.sni, b.fastConnect, b.allowInsecure, b.customJSON,
    b.protocolVersion, b.uuid⟩

def initializeDefaultValues (r : Raw) : Fields where
  serverAddress := defaultAddress r.serverAddress
  serverPort := r.serverPort.getD 1080
  token := r.token.getD ""
  caText := r.caText.getD ""
  udpRelayMode := r.udpRelayMode.getD "native"
  congestionController := r.congestionController.getD "cubic"
  alpn := r.alpn.getD ""
  disableSNI := r.disableSNI.getD false
  reduceRTT := r.reduceRTT.getD false
  mtu := r.mtu.getD 1400
  sni := r.sni.getD ""
  fastConnect := r.fastConnect.getD false
  allowInsecure := r.allowInsecure.getD false
  customJSON := r.customJSON.getD ""
  protocolVersion := r.protocolVersion.getD 5
  uuid := r.uuid.getD ""

def Fields.serialize (b : Fields) : List Token :=
  [.int 2, .string b.serverAddress, .int b.serverPort, .string b.token, .string b.caText,
    .string b.udpRelayMode, .string b.congestionController, .string b.alpn, .boolean b.disableSNI,
    .boolean b.reduceRTT, .int b.mtu, .string b.sni, .boolean b.fastConnect,
    .boolean b.allowInsecure, .string b.customJSON, .int b.protocolVersion, .string b.uuid]

def deserialize {I : Type} [Source I] : Reader I Raw := do
  let version ← readInt
  let serverAddress ← readString
  let serverPort ← readInt
  let token ← readString
  let caText ← readString
  let udpRelayMode ← readString
  let congestionController ← readString
  let alpn ← readString
  let disableSNI ← readBoolean
  let reduceRTT ← readBoolean
  let mtu ← readInt
  let sni ← readString
  let fastConnect ← readIf (1 ≤ version) readBoolean
  let allowInsecure ← readIf (1 ≤ version) readBoolean
  let customJSON := (← readIf (2 ≤ version) readString).join
  let protocolVersion := (← readIf (2 ≤ version) readInt).getD 4
  let uuid := (← readIf (2 ≤ version) readString).join
  return ⟨serverAddress, serverPort, token, caText, udpRelayMode, congestionController, alpn,
    disableSNI, reduceRTT, mtu, sni, fastConnect, allowInsecure, customJSON, protocolVersion, uuid⟩

theorem Fields.raw_inj {a b : Fields} (h : a.raw = b.raw) : a = b := by
  cases a
  cases b
  simpa [Fields.raw] using h

theorem deserialize_reads {I : Type} [Stream I] (b : Fields) :
    Reads (I := I) deserialize b.serialize b.raw := by
  intro fits rest
  simp only [Fields.serialize, List.forall_mem_cons] at fits
  simp [-StateT.run_bind, deserialize, Fields.serialize, Fields.raw, readIf, fits]

def layout : Layout :=
  .whole "class io.nekohasekai.sagernet.fmt.tuic.TuicBean" Fields.raw Fields.raw_inj
    initializeDefaultValues Fields.serialize deserialize deserialize_reads

end TuicBean

namespace AnyTLSBean

structure Raw where
  serverAddress : Option String := none
  serverPort : Option Int := none
  password : Option String := none
  sni : Option String := none
  alpn : Option String := none
  certificates : Option String := none
  certificateFingerprint : Option String := none
  utlsFingerprint : Option String := none
  allowInsecure : Option Bool := none
  echConfig : Option String := none
  deriving DecidableEq, Repr

structure Fields where
  serverAddress : String
  serverPort : Int
  password : String
  sni : String
  alpn : String
  certificates : String
  certificateFingerprint : String
  utlsFingerprint : String
  allowInsecure : Bool
  echConfig : String
  deriving DecidableEq, Repr

def Fields.raw (b : Fields) : Raw :=
  ⟨b.serverAddress, b.serverPort, b.password, b.sni, b.alpn, b.certificates,
    b.certificateFingerprint, b.utlsFingerprint, b.allowInsecure, b.echConfig⟩

def initializeDefaultValues (r : Raw) : Fields where
  serverAddress := defaultAddress r.serverAddress
  serverPort := r.serverPort.getD 1080
  password := r.password.getD ""
  sni := r.sni.getD ""
  alpn := r.alpn.getD ""
  certificates := r.certificates.getD ""
  certificateFingerprint := r.certificateFingerprint.getD ""
  utlsFingerprint := r.utlsFingerprint.getD ""
  allowInsecure := r.allowInsecure.getD false
  echConfig := r.echConfig.getD ""

def Fields.serialize (b : Fields) : List Token :=
  [.int 1, .string b.serverAddress, .int b.serverPort, .string b.password, .string b.sni,
    .string b.alpn, .string b.certificates, .string b.utlsFingerprint, .boolean b.allowInsecure,
    .string b.echConfig, .string b.certificateFingerprint]

def deserialize {I : Type} [Source I] : Reader I Raw := do
  let version ← readInt
  let serverAddress ← readString
  let serverPort ← readInt
  let password ← readString
  let sni ← readString
  let alpn ← readString
  let certificates ← readString
  let utlsFingerprint ← readString
  let allowInsecure ← readBoolean
  let echConfig ← readString
  let certificateFingerprint := (← readIf (1 ≤ version) readString).join
  return ⟨serverAddress, serverPort, password, sni, alpn, certificates, certificateFingerprint,
    utlsFingerprint, allowInsecure, echConfig⟩

theorem Fields.raw_inj {a b : Fields} (h : a.raw = b.raw) : a = b := by
  cases a
  cases b
  simpa [Fields.raw] using h

theorem deserialize_reads {I : Type} [Stream I] (b : Fields) :
    Reads (I := I) deserialize b.serialize b.raw := by
  intro fits rest
  simp only [Fields.serialize, List.forall_mem_cons] at fits
  simp [-StateT.run_bind, deserialize, Fields.serialize, Fields.raw, readIf, fits]

def layout : Layout :=
  .whole "class moe.matsuri.nb4a.proxy.anytls.AnyTLSBean" Fields.raw Fields.raw_inj
    initializeDefaultValues Fields.serialize deserialize deserialize_reads

end AnyTLSBean

namespace SSHBean

structure Raw where
  serverAddress : Option String := none
  serverPort : Option Int := none
  username : Option String := none
  authType : Option Int := none
  password : Option String := none
  privateKey : Option String := none
  privateKeyPassphrase : Option String := none
  publicKey : Option String := none
  deriving DecidableEq, Repr

structure Fields where
  serverAddress : String
  serverPort : Int
  username : String
  authType : Int
  password : String
  privateKey : String
  privateKeyPassphrase : String
  publicKey : String
  deriving DecidableEq, Repr

def AUTH_TYPE_PASSWORD : Int := 1

def AUTH_TYPE_PRIVATE_KEY : Int := 2

def Fields.raw (b : Fields) : Raw :=
  ⟨b.serverAddress, b.serverPort, b.username, b.authType, b.password, b.privateKey,
    b.privateKeyPassphrase, b.publicKey⟩

def initializeDefaultValues (r : Raw) : Fields where
  serverAddress := defaultAddress r.serverAddress
  serverPort := r.serverPort.getD 22
  username := r.username.getD "root"
  authType := r.authType.getD AUTH_TYPE_PASSWORD
  password := r.password.getD ""
  privateKey := r.privateKey.getD ""
  privateKeyPassphrase := r.privateKeyPassphrase.getD ""
  publicKey := r.publicKey.getD ""

def Fields.writeAuth (b : Fields) : List Token :=
  if b.authType = AUTH_TYPE_PASSWORD then [.string b.password]
  else if b.authType = AUTH_TYPE_PRIVATE_KEY then
    [.string b.privateKey, .string b.privateKeyPassphrase]
  else []

def Fields.serialize (b : Fields) : List Token :=
  [.int 0, .string b.serverAddress, .int b.serverPort, .string b.username, .int b.authType] ++
    (b.writeAuth ++ [.string b.publicKey])

def readAuth {I : Type} [Source I] (authType : Int) (r : Raw) : Reader I Raw :=
  if authType = AUTH_TYPE_PASSWORD then do
    let password ← readString
    return { r with password }
  else if authType = AUTH_TYPE_PRIVATE_KEY then do
    let privateKey ← readString
    let privateKeyPassphrase ← readString
    return { r with privateKey, privateKeyPassphrase }
  else return r

def deserialize {I : Type} [Source I] : Reader I Raw := do
  let _version ← readInt
  let serverAddress ← readString
  let serverPort ← readInt
  let username ← readString
  let authType ← readInt
  let r ← readAuth authType { serverAddress, serverPort, username, authType }
  let publicKey ← readString
  return { r with publicKey }

/-- Of the credentials those of the authentication type are written. -/
def Fields.written (b : Fields) : Raw :=
  { b.raw with
    password := if b.authType = AUTH_TYPE_PASSWORD then b.password else none
    privateKey := if b.authType = AUTH_TYPE_PRIVATE_KEY then b.privateKey else none
    privateKeyPassphrase :=
      if b.authType = AUTH_TYPE_PRIVATE_KEY then b.privateKeyPassphrase else none }

theorem deserialize_reads {I : Type} [Stream I] (b : Fields) :
    Reads (I := I) deserialize b.serialize b.written := by
  intro fits rest
  simp only [Fields.serialize, Fields.writeAuth, List.forall_mem_cons,
    List.forall_mem_append] at fits
  by_cases password : b.authType = AUTH_TYPE_PASSWORD
  · simp only [password, if_true, List.forall_mem_cons] at fits
    simp [-StateT.run_bind, deserialize, Fields.serialize, Fields.writeAuth, readAuth,
      Fields.written, Fields.raw, password, fits]
    simp [AUTH_TYPE_PASSWORD, AUTH_TYPE_PRIVATE_KEY]
  · by_cases key : b.authType = AUTH_TYPE_PRIVATE_KEY
    · have other : AUTH_TYPE_PRIVATE_KEY ≠ AUTH_TYPE_PASSWORD := by decide
      simp only [key, if_neg other, if_true, List.forall_mem_cons] at fits
      simp [-StateT.run_bind, deserialize, Fields.serialize, Fields.writeAuth, readAuth,
        Fields.written, Fields.raw, key, other, fits]
    · simp [-StateT.run_bind, deserialize, Fields.serialize, Fields.writeAuth, readAuth,
        Fields.written, Fields.raw, password, key, fits]

theorem serialize_congr {a b : Fields} (h : a.written = b.written) : a.serialize = b.serialize := by
  simp only [Fields.written, Fields.raw, Raw.mk.injEq, Option.some.injEq] at h
  obtain ⟨address, port, username, authType, password, privateKey, passphrase, publicKey⟩ := h
  have auth : a.writeAuth = b.writeAuth := by
    unfold Fields.writeAuth
    rw [authType] at password privateKey passphrase ⊢
    split
    · rename_i byPassword
      simp only [byPassword, if_true, Option.some.injEq] at password
      rw [password]
    · split
      · rename_i byKey
        simp only [byKey, if_true, Option.some.injEq] at privateKey passphrase
        rw [privateKey, passphrase]
      · rfl
  rw [Fields.serialize, address, port, username, authType, auth, publicKey, Fields.serialize]

theorem written_again {b : Fields} (h : initializeDefaultValues b.raw = b) :
    (initializeDefaultValues b.written).written = b.written := by
  have fields : initializeDefaultValues b.written =
      { initializeDefaultValues b.raw with
        password := (if b.authType = AUTH_TYPE_PASSWORD then some b.password else none).getD ""
        privateKey := (if b.authType = AUTH_TYPE_PRIVATE_KEY then some
          b.privateKey else none).getD ""
        privateKeyPassphrase :=
          (if b.authType = AUTH_TYPE_PRIVATE_KEY then some
            b.privateKeyPassphrase else none).getD "" } :=
    rfl
  rw [fields, h]
  by_cases password : b.authType = AUTH_TYPE_PASSWORD
  · simp [Fields.written, Fields.raw, password, AUTH_TYPE_PASSWORD, AUTH_TYPE_PRIVATE_KEY]
  · by_cases key : b.authType = AUTH_TYPE_PRIVATE_KEY
    · simp [Fields.written, Fields.raw, key, AUTH_TYPE_PASSWORD, AUTH_TYPE_PRIVATE_KEY]
    · simp [Fields.written, Fields.raw, password, key]

def layout : Layout where
  Raw := Raw
  Fields := Fields
  javaClass _ := "class io.nekohasekai.sagernet.fmt.ssh.SSHBean"
  raw := Fields.raw
  initializeDefaultValues := initializeDefaultValues
  serialize := Fields.serialize
  written := Fields.written
  deserialize _ := deserialize
  reads := deserialize_reads
  serialize_congr := serialize_congr
  javaClass_again _ _ := rfl
  written_again _ := written_again

end SSHBean

end QuinMo
