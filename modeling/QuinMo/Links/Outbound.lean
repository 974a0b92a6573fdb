import QuinMo.Model.ServerBeans
import QuinMo.Model.TunnelBeans

/-!
# What a profile is built into

The options that the builders hand to the cores, with null where a field is not set. An object
that is only there to be enabled is left out when it is null and is its remaining fields
otherwise.
-/

namespace QuinMo.Links

open Text V2Ray

def blankAsNull (s : String) : Option String := if isBlank s then none else some s

def ECH_PEM_HEADER : String := "-----BEGIN ECH CONFIGS-----"

def ECH_PEM_FOOTER : String := "-----END ECH CONFIGS-----"

def echPemBody (s : String) : String :=
  substringBefore (substringBefore (substringAfter s ECH_PEM_HEADER "") ECH_PEM_FOOTER)
    ECH_PEM_HEADER

def echAsBase64 (s : String) : String :=
  let body := if contains s ECH_PEM_HEADER then echPemBody s else s
  String.ofList (body.toList.filter (!isWhitespace ·))

def echAsPem (s : String) : String :=
  "\n".intercalate
    (ECH_PEM_HEADER :: ((echAsBase64 s).toList.toChunks 64).map String.ofList ++ [ECH_PEM_FOOTER])

structure OutboundRealityOptions where
  public_key : String
  short_id : String
  deriving DecidableEq, Repr

structure OutboundECHOptions where
  config : Option (List String)
  deriving DecidableEq, Repr

structure OutboundTLSOptions where
  disable_sni : Option Bool := none
  server_name : Option String
  insecure : Option Bool
  alpn : Option (List String)
  certificate : Option String
  /-- The fingerprint of `utls`. -/
  utls : Option String := none
  reality : Option OutboundRealityOptions := none
  ech : Option OutboundECHOptions := none
  deriving DecidableEq, Repr

/-- REALITY requires uTLS, defaulting to chrome. -/
def effectiveUtlsFingerprint (bean : StandardV2RayBean) : Option String :=
  if !isBlank bean.utlsFingerprint then some bean.utlsFingerprint
  else if !isBlank bean.realityPubKey then some "chrome"
  else none

def buildSingBoxOutboundTLS (globalAllowInsecure : Bool) (bean : StandardV2RayBean) :
    Option OutboundTLSOptions :=
  if bean.security ≠ "tls" then none
  else some
    { insecure := some (bean.allowInsecure || globalAllowInsecure)
      server_name := blankAsNull bean.sni
      alpn := (blankAsNull bean.alpn).map listByLineOrComma
      certificate := blankAsNull bean.certificates
      reality :=
        if isBlank bean.realityPubKey then none
        else some { public_key := bean.realityPubKey, short_id := bean.realityShortId }
      utls := (effectiveUtlsFingerprint bean).bind blankAsNull
      ech :=
        if bean.enableECH then
          some { config := (blankAsNull bean.echConfig).map fun it => lines (echAsPem it) }
        else none }

structure WsEarlyData where
  path : String
  maxEarlyData : Option Int
  headerName : Option String
  deriving DecidableEq, Repr

/-- The mark in the path is overridden by the fields. -/
def resolveWsEarlyData (bean : StandardV2RayBean) : WsEarlyData :=
  let ed := (breakOn "?ed=".toList bean.path.toList).or (breakOn "&ed=".toList bean.path.toList)
  let basePath := match ed with
    | some parts => String.ofList parts.1
    | none => bean.path
  { path := (blankAsNull basePath).getD "/"
    maxEarlyData :=
      if 0 < bean.wsMaxEarlyData then some bean.wsMaxEarlyData
      else ed.map fun parts =>
        (toIntOrNull (substringBefore (String.ofList parts.2) "&")).getD 2048
    headerName :=
      (blankAsNull bean.earlyDataHeaderName).or (ed.map fun _ => "Sec-WebSocket-Protocol") }

inductive V2RayTransportOptions where
  | ws (host : Option String) (path : String) (max_early_data : Option Int)
      (early_data_header_name : Option String)
  | http (method : Option String) (host : Option (List String)) (path : String)
  | quic
  | grpc (service_name : String)
  | httpupgrade (host path : String)
  deriving DecidableEq, Repr

def buildSingBoxOutboundStreamSettings (bean : StandardV2RayBean) : Option V2RayTransportOptions :=
  if bean.type = "ws" then
    let ed := resolveWsEarlyData bean
    some (.ws (blankAsNull bean.host) ed.path ed.maxEarlyData ed.headerName)
  else if bean.type = "http" then
    some (.http (if bean.security = "tls" then none else some "GET")
      ((blankAsNull bean.host).map listByLineOrComma) ((blankAsNull bean.path).getD "/"))
  else if bean.type = "quic" then some .quic
  else if bean.type = "grpc" then some (.grpc bean.path)
  else if bean.type = "httpupgrade" then some (.httpupgrade bean.host bean.path)
  else none

inductive V2RayOutbound where
  | http (server : String) (server_port : Int) (username password : String)
      (tls : Option OutboundTLSOptions)
  | vless (server : String) (server_port : Int) (uuid : String)
    (flow packet_encoding : Option String)
      (tls : Option OutboundTLSOptions) (transport : Option V2RayTransportOptions)
  | vmess (server : String) (server_port : Int) (uuid : String) (alter_id : Int) (security : String)
      (packet_encoding : Option String) (tls : Option OutboundTLSOptions)
      (transport : Option V2RayTransportOptions)
  | trojan (server : String) (server_port : Int) (password : String)
      (tls : Option OutboundTLSOptions) (transport : Option V2RayTransportOptions)
  deriving DecidableEq, Repr

def packetEncodingName (packetEncoding : Int) : Option String :=
  if packetEncoding = 0 then some ""
  else if packetEncoding = 1 then some "packetaddr"
  else if packetEncoding = 2 then some "xudp"
  else none

def buildSingBoxOutboundStandardV2RayBean (globalAllowInsecure : Bool) (bean : StandardV2RayBean) :
    Except String V2RayOutbound :=
  let tls := buildSingBoxOutboundTLS globalAllowInsecure bean
  let transport := buildSingBoxOutboundStreamSettings bean
  let encryption := bean.encryption.getD ""
  match bean.ofClass with
  | .http username password =>
    .ok (.http bean.serverAddress bean.serverPort username password tls)
  | .vmess alterId =>
    if alterId = -1 then
      .ok (.vless bean.serverAddress bean.serverPort bean.uuid
        (if isBlank encryption ∨ encryption = "auto" then none else some encryption)
        (packetEncodingName bean.packetEncoding) tls transport)
    else
      .ok (.vmess bean.serverAddress bean.serverPort bean.uuid alterId
        ((blankAsNull encryption).getD "auto") (packetEncodingName bean.packetEncoding)
          tls transport)
  | .trojan password => .ok (.trojan bean.serverAddress bean.serverPort password tls transport)
  | .shadowTls _ _ => .error "can't reach"

def protocolVersionName (protocol : Int) : String :=
  if protocol = 0 then "4" else if protocol = 1 then "4a" else "5"

/-- UDP over TCP is set by the config builder, for every class that has the field. -/
structure Outbound_SocksOptions where
  server : String
  server_port : Int
  username : String
  password : String
  version : String
  udp_over_tcp : Bool
  deriving DecidableEq, Repr

def buildSingBoxOutboundSocksBean (bean : SOCKSBean.Fields) : Outbound_SocksOptions where
  server := bean.serverAddress
  server_port := bean.serverPort
  username := bean.username
  password := bean.password
  version := protocolVersionName bean.protocol
  udp_over_tcp := bean.sUoT

structure Outbound_ShadowsocksOptions where
  server : String
  server_port : Int
  method : String
  password : String
  /-- The plugin and its options. -/
  plugin : Option (String × String)
  udp_over_tcp : Bool
  deriving DecidableEq, Repr

def buildSingBoxOutboundShadowsocksBean (bean : ShadowsocksBean.Fields) :
    Outbound_ShadowsocksOptions where
  server := bean.serverAddress
  server_port := bean.serverPort
  method := bean.method
  password := bean.password
  plugin :=
    if isBlank bean.plugin ∨ substringBefore bean.plugin ";" = "none" then none
    else some (substringBefore bean.plugin ";", substringAfter bean.plugin ";" "")
  udp_over_tcp := bean.sUoT

structure Outbound_TUICOptions where
  server : String
  server_port : Int
  uuid : String
  password : String
  congestion_control : String
  udp_relay_mode : Option String
  zero_rtt_handshake : Bool
  tls : OutboundTLSOptions
  deriving DecidableEq, Repr

def buildSingBoxOutboundTuicBean (globalAllowInsecure : Bool) (bean : TuicBean.Fields) :
    Except String Outbound_TUICOptions :=
  if bean.protocolVersion = 4 then .error "TUIC v4 is no longer supported"
  else .ok
    { server := bean.serverAddress
      server_port := bean.serverPort
      uuid := bean.uuid
      password := bean.token
      congestion_control := bean.congestionController
      udp_relay_mode := if bean.udpRelayMode = "quic" then some "quic" else none
      zero_rtt_handshake := bean.reduceRTT
      tls :=
        { server_name := blankAsNull bean.sni
          alpn := (blankAsNull bean.alpn).map listByLineOrComma
          certificate := blankAsNull bean.caText
          disable_sni := some bean.disableSNI
          insecure := some (bean.allowInsecure || globalAllowInsecure) } }

structure Outbound_AnyTLSOptions where
  server : String
  server_port : Int
  password : String
  tls : OutboundTLSOptions
  deriving DecidableEq, Repr

def buildSingBoxOutboundAnyTLSBean (globalAllowInsecure : Bool) (bean : AnyTLSBean.Fields) :
    Outbound_AnyTLSOptions where
  server := bean.serverAddress
  server_port := bean.serverPort
  password := bean.password
  tls :=
    { server_name := blankAsNull bean.sni
      insecure := if bean.allowInsecure || globalAllowInsecure then some true else none
      alpn := (blankAsNull bean.alpn).map listByLineOrComma
      certificate := blankAsNull bean.certificates
      utls := blankAsNull bean.utlsFingerprint
      ech := (blankAsNull bean.echConfig).map fun it => { config := lines (echAsPem it) } }

/-- A range of ports, or a single port as a range; anything else is dropped. -/
def hopPortsToSingboxList (s : String) : List String :=
  (split s ',').filterMap fun it =>
    let pRange := replace it "-" ":"
    if (split pRange ':').length = 2 then some pRange
    else if (toIntOrNull it).isSome then some (it ++ ":" ++ it)
    else none

structure HysteriaServer where
  server : String
  server_port : Option Int
  server_ports : Option (List String)
  hop_interval : String
  up_mbps : Int
  down_mbps : Int
  deriving DecidableEq, Repr

inductive HysteriaOutbound where
  | v1 (server : HysteriaServer) (obfs : String) (auth auth_str : Option String)
      (recv_window_conn recv_window : Option Int) (disable_mtu_discovery : Bool)
      (tls : OutboundTLSOptions)
  /-- The obfuscation is the password of `salamander`. -/
  | v2 (server : HysteriaServer) (obfs : Option String) (password : String)
      (tls : OutboundTLSOptions)
  deriving DecidableEq, Repr

def hysteriaServer (bean : HysteriaBean.Fields) : HysteriaServer where
  server := bean.serverAddress
  server_port := toIntOrNull bean.serverPorts
  server_ports :=
    if (toIntOrNull bean.serverPorts).isSome then none
    else some (hopPortsToSingboxList bean.serverPorts)
  hop_interval := toString bean.hopInterval ++ "s"
  up_mbps := bean.uploadMbps
  down_mbps := bean.downloadMbps

def hysteriaTLS (globalAllowInsecure : Bool) (bean : HysteriaBean.Fields)
    (alpn : Option (List String)) : OutboundTLSOptions where
  server_name := blankAsNull bean.sni
  alpn := alpn
  certificate := blankAsNull bean.caText
  insecure := some (bean.allowInsecure || globalAllowInsecure)

def positive (n : Int) : Option Int := if 0 < n then some n else none

/-- The message of the error has what `toString` makes of the whole bean, and then the name of the
field as it stands. -/
def buildSingBoxOutboundHysteriaBean (describe : HysteriaBean.Fields → String)
    (globalAllowInsecure : Bool) (bean : HysteriaBean.Fields) : Except String HysteriaOutbound :=
  if bean.protocolVersion = 1 then
    .ok (.v1 (hysteriaServer bean) bean.obfuscation
      (if bean.authPayloadType = HysteriaBean.TYPE_BASE64 then some bean.authPayload else none)
      (if bean.authPayloadType = HysteriaBean.TYPE_STRING then some bean.authPayload else none)
      (positive bean.streamReceiveWindow) (positive bean.connectionReceiveWindow)
      bean.disableMtuDiscovery
      (hysteriaTLS globalAllowInsecure bean ((blankAsNull bean.alpn).map listByLineOrComma)))
  else if bean.protocolVersion = 2 then
    .ok (.v2 (hysteriaServer bean) (blankAsNull bean.obfuscation) bean.authPayload
      (hysteriaTLS globalAllowInsecure bean (some ["h3"])))
  else .error ("error_version " ++ describe bean ++ ".protocolVersion")

structure Outbound_SSHOptions where
  server : String
  server_port : Int
  user : String
  password : Option String
  private_key : Option String
  private_key_passphrase : Option String
  host_key : Option (List String)
  deriving DecidableEq, Repr

def buildSingBoxOutboundSSHBean (bean : SSHBean.Fields) : Outbound_SSHOptions where
  server := bean.serverAddress
  server_port := bean.serverPort
  user := bean.username
  password :=
    if bean.authType = SSHBean.AUTH_TYPE_PRIVATE_KEY then none else some bean.password
  private_key :=
    if bean.authType = SSHBean.AUTH_TYPE_PRIVATE_KEY then some bean.privateKey else none
  private_key_passphrase :=
    if bean.authType = SSHBean.AUTH_TYPE_PRIVATE_KEY then some bean.privateKeyPassphrase else none
  host_key := (blankAsNull bean.publicKey).map listByLineOrComma

/-- Three numbers, in any brackets. -/
def genReservedList (anyStr : String) : Option (List Int) := do
  let list ← (listByLineOrComma anyStr).mapM fun it =>
    toIntOrNull (replace (replace (replace it "[" "") "]" "") " " "")
  if list.length = 3 then some list else none

structure Endpoint_WireGuardOptions where
  address : List String
  private_key : String
  mtu : Int
  /-- The one peer. -/
  peer_address : String
  peer_port : Int
  public_key : String
  pre_shared_key : String
  allowed_ips : List String
  reserved : Option (List Int)
  deriving DecidableEq, Repr

def buildSingBoxEndpointWireGuardBean (bean : WireGuardBean.Fields) :
    Endpoint_WireGuardOptions where
  address := listByLineOrComma bean.localAddress
  private_key := bean.privateKey
  mtu := bean.mtu
  peer_address := bean.serverAddress
  peer_port := bean.serverPort
  public_key := bean.peerPublicKey
  pre_shared_key := bean.peerPreSharedKey
  allowed_ips := ["0.0.0.0/0", "::/0"]
  reserved := if isBlank bean.reserved then none else genReservedList bean.reserved

structure Outbound_ShadowTLSOptions where
  server : String
  server_port : Int
  version : Int
  password : String
  tls : Option OutboundTLSOptions
  deriving DecidableEq, Repr

def buildSingBoxOutboundShadowTLSBean (globalAllowInsecure : Bool) (bean : StandardV2RayBean)
    (version : Int) (password : String) : Outbound_ShadowTLSOptions where
  server := bean.serverAddress
  server_port := bean.serverPort
  version := version
  password := password
  tls := buildSingBoxOutboundTLS globalAllowInsecure bean

end QuinMo.Links
