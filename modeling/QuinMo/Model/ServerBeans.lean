import QuinMo.Model.Layout
import QuinMo.Model.V2Ray

/-!
# SOCKS, Shadowsocks, Trojan-Go, Mieru and Naive beans

A field that an older layout does not have is null until the defaults are filled in.
-/

namespace QuinMo

open Text V2Ray

namespace SOCKSBean

structure Raw where
  serverAddress : Option String := none
  serverPort : Option Int := none
  protocol : Option Int := none
  username : Option String := none
  password : Option String := none
  sUoT : Option Bool := none
  deriving DecidableEq, Repr

structure Fields where
  serverAddress : String
  serverPort : Int
  protocol : Int
  username : String
  password : String
  sUoT : Bool
  deriving DecidableEq, Repr

def PROTOCOL_SOCKS5 : Int := 2

def Fields.raw (b : Fields) : Raw :=
  ⟨b.serverAddress, b.serverPort, b.protocol, b.username, b.password, b.sUoT⟩

def initializeDefaultValues (r : Raw) : Fields where
  serverAddress := defaultAddress r.serverAddress
  serverPort := r.serverPort.getD 1080
  protocol := r.protocol.getD PROTOCOL_SOCKS5
  username := r.username.getD ""
  password := r.password.getD ""
  sUoT := r.sUoT.getD false

def Fields.serialize (b : Fields) : List Token :=
  [.int 2, .string b.serverAddress, .int b.serverPort, .int b.protocol, .string b.username,
    .string b.password, .boolean b.sUoT]

def deserialize {I : Type} [Source I] : Reader I Raw := do
  let version ← readInt
  let serverAddress ← readString
  let serverPort ← readInt
  let protocol ← readIf (1 ≤ version) readInt
  let username ← readString
  let password ← readString
  let sUoT ← readIf (2 ≤ version) readBoolean
  return { serverAddress, serverPort, protocol, username, password, sUoT }

theorem Fields.raw_inj {a b : Fields} (h : a.raw = b.raw) : a = b := by
  cases a
  cases b
  simpa [Fields.raw] using h

theorem deserialize_reads {I : Type} [Stream I] (b : Fields) :
    Reads (I := I) deserialize b.serialize b.raw := by
  intro fits rest
  simp only [Fields.serialize, List.forall_mem_cons] at fits
  simp [-StateT.run_bind, deserialize, Fields.serialize, Fields.raw, readIf, fits]

def layout : Layout :=
  .whole "class io.nekohasekai.sagernet.fmt.socks.SOCKSBean" Fields.raw Fields.raw_inj
    initializeDefaultValues Fields.serialize deserialize deserialize_reads

end SOCKSBean

namespace ShadowsocksBean

structure Raw where
  serverAddress : Option String := none
  serverPort : Option Int := none
  method : Option String := none
  password : Option String := none
  plugin : Option String := none
  sUoT : Option Bool := none
  deriving DecidableEq, Repr

structure Fields where
  serverAddress : String
  serverPort : Int
  method : String
  password : String
  plugin : String
  sUoT : Bool
  deriving DecidableEq, Repr

def Fields.raw (b : Fields) : Raw :=
  ⟨b.serverAddress, b.serverPort, b.method, b.password, b.plugin, b.sUoT⟩

def initializeDefaultValues (r : Raw) : Fields where
  serverAddress := defaultAddress r.serverAddress
  serverPort := r.serverPort.getD 1080
  method := ifNullOrBlank r.method "aes-256-gcm"
  password := r.password.getD ""
  plugin := r.plugin.getD ""
  sUoT := r.sUoT.getD false

def Fields.serialize (b : Fields) : List Token :=
  [.int 2, .string b.serverAddress, .int b.serverPort, .string b.method, .string b.password,
    .string b.plugin, .boolean b.sUoT]

def deserialize {I : Type} [Source I] : Reader I Raw := do
  let version ← readInt
  let serverAddress ← readString
  let serverPort ← readInt
  let method ← readString
  let password ← readString
  let plugin ← readString
  let sUoT ← readIf (2 ≤ version) readBoolean
  return { serverAddress, serverPort, method, password, plugin, sUoT }

theorem Fields.raw_inj {a b : Fields} (h : a.raw = b.raw) : a = b := by
  cases a
  cases b
  simpa [Fields.raw] using h

theorem deserialize_reads {I : Type} [Stream I] (b : Fields) :
    Reads (I := I) deserialize b.serialize b.raw := by
  intro fits rest
  simp only [Fields.serialize, List.forall_mem_cons] at fits
  simp [-StateT.run_bind, deserialize, Fields.serialize, Fields.raw, readIf, fits]

def layout : Layout :=
  .whole "class io.nekohasekai.sagernet.fmt.shadowsocks.ShadowsocksBean" Fields.raw Fields.raw_inj
    initializeDefaultValues Fields.serialize deserialize deserialize_reads

end ShadowsocksBean

namespace MieruBean

structure Raw where
  serverAddress : Option String := none
  serverPort : Option Int := none
  protocol : Option String := none
  username : Option String := none
  password : Option String := none
  mtu : Option Int := none
  deriving DecidableEq, Repr

structure Fields where
  serverAddress : String
  serverPort : Int
  protocol : String
  username : String
  password : String
  mtu : Int
  deriving DecidableEq, Repr

def Fields.raw (b : Fields) : Raw :=
  ⟨b.serverAddress, b.serverPort, b.protocol, b.username, b.password, b.mtu⟩

def initializeDefaultValues (r : Raw) : Fields where
  serverAddress := defaultAddress r.serverAddress
  serverPort := r.serverPort.getD 1080
  protocol := r.protocol.getD "TCP"
  username := r.username.getD ""
  password := r.password.getD ""
  mtu := r.mtu.getD 1400

def Fields.serialize (b : Fields) : List Token :=
  [.int 1, .string b.serverAddress, .int b.serverPort, .string b.protocol, .string b.username,
    .string b.password, .int b.mtu]

def deserialize {I : Type} [Source I] : Reader I Raw := do
  let version ← readInt
  let serverAddress ← readString
  let serverPort ← readInt
  let protocol ← readString
  let username ← readString
  let password ← readString
  require (1 ≤ version ∨ protocol.isSome)
  let mtu ← readIf (1 ≤ version ∨ protocol = some "UDP") readInt
  return { serverAddress, serverPort, protocol, username, password, mtu }

theorem Fields.raw_inj {a b : Fields} (h : a.raw = b.raw) : a = b := by
  cases a
  cases b
  simpa [Fields.raw] using h

theorem deserialize_reads {I : Type} [Stream I] (b : Fields) :
    Reads (I := I) deserialize b.serialize b.raw := by
  intro fits rest
  simp only [Fields.serialize, List.forall_mem_cons] at fits
  simp [-StateT.run_bind, deserialize, Fields.serialize, Fields.raw, readIf, require, fits]

def layout : Layout :=
  .whole "class io.nekohasekai.sagernet.fmt.mieru.MieruBean" Fields.raw Fields.raw_inj
    initializeDefaultValues Fields.serialize deserialize deserialize_reads

end MieruBean

namespace NaiveBean

structure Raw where
  serverAddress : Option String := none
  serverPort : Option Int := none
  proto : Option String := none
  username : Option String := none
  password : Option String := none
  extraHeaders : Option String := none
  sni : Option String := none
  certificates : Option String := none
  insecureConcurrency : Option Int := none
  sUoT : Option Bool := none
  deriving DecidableEq, Repr

structure Fields where
  serverAddress : String
  serverPort : Int
  proto : String
  username : String
  password : String
  extraHeaders : String
  sni : String
  certificates : String
  insecureConcurrency : Int
  sUoT : Bool
  deriving DecidableEq, Repr

def Fields.raw (b : Fields) : Raw :=
  ⟨b.serverAddress, b.serverPort, b.proto, b.username, b.password, b.extraHeaders, b.sni,
    b.certificates, b.insecureConcurrency, b.sUoT⟩

def initializeDefaultValues (r : Raw) : Fields where
  serverAddress := defaultAddress r.serverAddress
  serverPort := r.serverPort.getD 443
  proto := r.proto.getD "https"
  username := r.username.getD ""
  password := r.password.getD ""
  extraHeaders := r.extraHeaders.getD ""
  sni := r.sni.getD ""
  certificates := r.certificates.getD ""
  insecureConcurrency := r.insecureConcurrency.getD 0
  sUoT := r.sUoT.getD false

def Fields.serialize (b : Fields) : List Token :=
  [.int 3, .string b.serverAddress, .int b.serverPort, .string b.proto, .string b.username,
    .string b.password, .string b.extraHeaders, .string b.certificates, .string b.sni,
    .int b.insecureConcurrency, .boolean b.sUoT]

def deserialize {I : Type} [Source I] : Reader I Raw := do
  let version ← readInt
  let serverAddress ← readString
  let serverPort ← readInt
  let proto ← readString
  let username ← readString
  let password ← readString
  let extraHeaders ← readString
  let certificates := (← readIf (2 ≤ version) readString).join
  let sni := (← readIf (2 ≤ version) readString).join
  let insecureConcurrency ← readIf (1 ≤ version) readInt
  let sUoT ← readIf (3 ≤ version) readBoolean
  return ⟨serverAddress, serverPort, proto, username, password, extraHeaders, sni, certificates,
    insecureConcurrency, sUoT⟩

theorem Fields.raw_inj {a b : Fields} (h : a.raw = b.raw) : a = b := by
  cases a
  cases b
  simpa [Fields.raw] using h

theorem deserialize_reads {I : Type} [Stream I] (b : Fields) :
    Reads (I := I) deserialize b.serialize b.raw := by
  intro fits rest
  simp only [Fields.serialize, List.forall_mem_cons] at fits
  simp [-StateT.run_bind, deserialize, Fields.serialize, Fields.raw, readIf, fits]

def layout : Layout :=
  .whole "class io.nekohasekai.sagernet.fmt.naive.NaiveBean" Fields.raw Fields.raw_inj
    initializeDefaultValues Fields.serialize deserialize deserialize_reads

end NaiveBean

namespace TrojanGoBean

structure Raw where
  serverAddress : Option String := none
  serverPort : Option Int := none
  password : Option String := none
  sni : Option String := none
  type : Option String := none
  host : Option String := none
  path : Option String := none
  encryption : Option String := none
  plugin : Option String := none
  allowInsecure : Option Bool := none
  deriving DecidableEq, Repr

structure Fields where
  serverAddress : String
  serverPort : Int
  password : String
  sni : String
  type : String
  host : String
  path : String
  encryption : String
  plugin : String
  allowInsecure : Bool
  deriving DecidableEq, Repr

def Fields.raw (b : Fields) : Raw :=
  ⟨b.serverAddress, b.serverPort, b.password, b.sni, b.type, b.host, b.path, b.encryption, b.plugin,
    b.allowInsecure⟩

def initializeDefaultValues (r : Raw) : Fields where
  serverAddress := defaultAddress r.serverAddress
  serverPort := r.serverPort.getD 1080
  password := r.password.getD ""
  sni := r.sni.getD ""
  type := ifNullOrBlank r.type "original"
  host := r.host.getD ""
  path := r.path.getD ""
  encryption := ifNullOrBlank r.encryption "none"
  plugin := r.plugin.getD ""
  allowInsecure := r.allowInsecure.getD false

def Fields.writeTransport (b : Fields) : List Token :=
  if b.type = "ws" then [.string b.host, .string b.path] else []

def Fields.serialize (b : Fields) : List Token :=
  [.int 1, .string b.serverAddress, .int b.serverPort, .string b.password, .string b.sni,
    .string b.type] ++
    (b.writeTransport ++ [.string b.encryption, .string b.plugin, .boolean b.allowInsecure])

def readTransport {I : Type} [Source I] (type : String) (r : Raw) : Reader I Raw :=
  if type = "ws" then do
    let host ← readString
    let path ← readString
    return { r with host, path }
  else return r

def deserialize {I : Type} [Source I] : Reader I Raw := do
  let version ← readInt
  let serverAddress ← readString
  let serverPort ← readInt
  let password ← readString
  let sni ← readString
  let some type ← readString | failure
  let r ← readTransport type { serverAddress, serverPort, password, sni, type }
  let encryption ← readString
  let plugin ← readString
  let allowInsecure ← readIf (1 ≤ version) readBoolean
  return { r with encryption, plugin, allowInsecure }

/-- Host and path are written for WebSocket only. -/
def Fields.written (b : Fields) : Raw :=
  { b.raw with
    host := if b.type = "ws" then b.host else none
    path := if b.type = "ws" then b.path else none }

theorem deserialize_reads {I : Type} [Stream I] (b : Fields) :
    Reads (I := I) deserialize b.serialize b.written := by
  intro fits rest
  simp only [Fields.serialize, Fields.writeTransport, List.forall_mem_cons,
    List.forall_mem_append] at fits
  by_cases ws : b.type = "ws"
  · simp only [ws, if_true, List.forall_mem_cons] at fits
    simp [-StateT.run_bind, deserialize, Fields.serialize, Fields.writeTransport,
      readTransport, Fields.written, Fields.raw, readIf, ws, fits]
  · simp [-StateT.run_bind, deserialize, Fields.serialize, Fields.writeTransport,
      readTransport, Fields.written, Fields.raw, readIf, ws, fits]

theorem serialize_congr {a b : Fields} (h : a.written = b.written) : a.serialize = b.serialize := by
  simp only [Fields.written, Fields.raw, Raw.mk.injEq, Option.some.injEq] at h
  obtain ⟨address, port, password, sni, type, host, path, encryption, plugin, allowInsecure⟩ := h
  have transport : a.writeTransport = b.writeTransport := by
    unfold Fields.writeTransport
    by_cases ws : b.type = "ws"
    · simp only [type, ws, if_true, Option.some.injEq] at host path ⊢
      rw [host, path]
    · simp [type, ws]
  rw [Fields.serialize, address, port, password, sni, type, transport, encryption, plugin,
    allowInsecure, Fields.serialize]

theorem written_again {b : Fields} (h : initializeDefaultValues b.raw = b) :
    (initializeDefaultValues b.written).written = b.written := by
  have fields : initializeDefaultValues b.written =
      { initializeDefaultValues b.raw with
        host := (if b.type = "ws" then some b.host else none).getD ""
        path := (if b.type = "ws" then some b.path else none).getD "" } := rfl
  rw [fields, h]
  by_cases ws : b.type = "ws"
  · simp [Fields.written, Fields.raw, ws]
  · simp [Fields.written, Fields.raw, ws]

def layout : Layout where
  Raw := Raw
  Fields := Fields
  javaClass _ := "class io.nekohasekai.sagernet.fmt.trojan_go.TrojanGoBean"
  raw := Fields.raw
  initializeDefaultValues := initializeDefaultValues
  serialize := Fields.serialize
  written := Fields.written
  deserialize _ := deserialize
  reads := deserialize_reads
  serialize_congr := serialize_congr
  javaClass_again _ _ := rfl
  written_again _ := written_again

end TrojanGoBean

end QuinMo
