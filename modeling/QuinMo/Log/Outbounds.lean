import QuinMo.Links.Outbound
import QuinMo.Log.LineByLine

/-!
# The text of a configuration

The JSON library is not part of the app: its printer is a parameter, with what is assumed of it.
The options of an outbound are in the order in which Gson writes the fields of their classes: those
of the class itself and then those of `Outbound`. A field that is null is left out.
-/

namespace QuinMo.Log

open Links V2Ray

inductive Json where
  | string (s : String)
  | number (n : Int)
  | boolean (on : Bool)
  | array (items : List Json)
  | object (members : List (String × Json))

mutual

/-- The lines of a pretty-printed value, with strings in the given form. -/
def Json.lines (escape : String → StringText) (indent : Nat) (key : Option String) (comma : Bool) :
    Json → List Line
  | .string s => [⟨indent, key.map escape, .text (escape s), comma⟩]
  | .number n => [⟨indent, key.map escape, .plain (.number n), comma⟩]
  | .boolean on => [⟨indent, key.map escape, .plain (.boolean on), comma⟩]
  | .array items => match items with
    | [] => [⟨indent, key.map escape, .plain .emptyArray, comma⟩]
    | j :: js =>
      ⟨indent, key.map escape, .plain .openArray, false⟩ ::
        (itemLines escape (indent + 1) (j :: js) ++ [⟨indent, none, .plain .closeArray, comma⟩])
  | .object members => match members with
    | [] => [⟨indent, key.map escape, .plain .emptyObject, comma⟩]
    | m :: ms =>
      ⟨indent, key.map escape, .plain .openObject, false⟩ ::
        (memberLines escape (indent + 1) (m :: ms) ++ [⟨indent, none, .plain .closeObject, comma⟩])

def itemLines (escape : String → StringText) (indent : Nat) : List Json → List Line
  | [] => []
  | j :: js => j.lines escape indent none (!js.isEmpty) ++ itemLines escape indent js

def memberLines (escape : String → StringText) (indent : Nat) : List (String × Json) → List Line
  | [] => []
  | (key, j) :: ms =>
    j.lines escape indent (some key) (!ms.isEmpty) ++ memberLines escape indent ms

end

/-- The printer of the JSON library. -/
structure Printer where
  escape : String → StringText
  print : Json → List Char

/-- What the development assumes of the printer: one member or element a line, indented and with
the key before the value, and strings in a form that can be read back. -/
structure Printer.Pretty (P : Printer) : Prop where
  layout : ∀ j, P.print j = render (j.lines P.escape 0 none false)
  /-- Small letters and underscores need no escape. -/
  letters : ∀ s : String, (∀ c ∈ s.toList, c.isLower ∨ c = '_') → (P.escape s).chars = s.toList
  injective : ∀ s t, P.escape s = P.escape t → s = t
  /-- Neither an `@` nor the end of a line is in an escape. -/
  special : ∀ s, ∀ c ∈ (P.escape s).chars, c = '@' ∨ isTerminator c = true → c ∈ s.toList

abbrev Members := List (String × Json)

/-- A field that may be null. -/
def optional (key : String) (value : Option Json) : Members := value.toList.map (key, ·)

def text (key : String) (value : Option String) : Members := optional key (value.map .string)

def number (key : String) (value : Option Int) : Members := optional key (value.map .number)

def boolean (key : String) (value : Option Bool) : Members := optional key (value.map .boolean)

def texts (key : String) (value : Option (List String)) : Members :=
  optional key (value.map fun list => .array (list.map .string))

def echMembers (o : OutboundECHOptions) : Members :=
  boolean "enabled" true ++ texts "config" o.config

def realityMembers (o : OutboundRealityOptions) : Members :=
  boolean "enabled" true ++ text "public_key" o.public_key ++ text "short_id" o.short_id

def utlsMembers (fingerprint : String) : Members :=
  boolean "enabled" true ++ text "fingerprint" fingerprint

def tlsMembers (o : OutboundTLSOptions) : Members :=
  boolean "enabled" true ++ boolean "disable_sni" o.disable_sni ++
    text "server_name" o.server_name ++
    boolean "insecure" o.insecure ++ texts "alpn" o.alpn ++ text "certificate" o.certificate ++
    optional "ech" (o.ech.map fun it => .object (echMembers it)) ++
    optional "utls" (o.utls.map fun it => .object (utlsMembers it)) ++
    optional "reality" (o.reality.map fun it => .object (realityMembers it))

def transportMembers : V2RayTransportOptions → Members
  | .ws host path max_early_data early_data_header_name =>
    text "path" path ++ [("headers", .object (text "Host" host))] ++
      number "max_early_data" max_early_data ++
      text "early_data_header_name" early_data_header_name ++ text "type" "ws"
  | .http method host path =>
    texts "host" host ++ text "path" path ++ text "method" method ++ text "type" "http"
  | .quic => text "type" "quic"
  | .grpc service_name => text "service_name" service_name ++ text "type" "grpc"
  | .httpupgrade host path => text "host" host ++ text "path" path ++ text "type" "httpupgrade"

def tls (o : Option OutboundTLSOptions) : Members :=
  optional "tls" (o.map fun it => .object (tlsMembers it))

def transport (o : Option V2RayTransportOptions) : Members :=
  optional "transport" (o.map fun it => .object (transportMembers it))

def server (address : String) (port : Int) : Members :=
  text "server" address ++ number "server_port" port

def v2RayMembers : V2RayOutbound → Members
  | .http address port username password options =>
    server address port ++ text "username" username ++ text "password" password ++ tls options ++
      text "type" "http"
  | .vless address port uuid flow packet_encoding options stream =>
    server address port ++ text "uuid" uuid ++ text "flow" flow ++ tls options ++
      transport stream ++ text "packet_encoding" packet_encoding ++ text "type" "vless"
  | .vmess address port uuid alter_id security packet_encoding options stream =>
    server address port ++ text "uuid" uuid ++ text "security" security ++
      number "alter_id" alter_id ++ tls options ++ text "packet_encoding" packet_encoding ++
      transport stream ++ text "type" "vmess"
  | .trojan address port password options stream =>
    server address port ++ text "password" password ++ tls options ++ transport stream ++
      text "type" "trojan"

def shadowTlsMembers (o : Outbound_ShadowTLSOptions) : Members :=
  server o.server o.server_port ++ number "version" o.version ++ text "password" o.password ++
    tls o.tls ++ text "type" "shadowtls"

def socksMembers (o : Outbound_SocksOptions) : Members :=
  server o.server o.server_port ++ text "version" o.version ++ text "username" o.username ++
    text "password" o.password ++ text "type" "socks"

def shadowsocksMembers (o : Outbound_ShadowsocksOptions) : Members :=
  server o.server o.server_port ++ text "method" o.method ++ text "password" o.password ++
    text "plugin" (o.plugin.map (·.1)) ++ text "plugin_opts" (o.plugin.map (·.2)) ++
    text "type" "shadowsocks"

def tuicMembers (o : Outbound_TUICOptions) : Members :=
  server o.server o.server_port ++ text "uuid" o.uuid ++ text "password" o.password ++
    text "congestion_control" o.congestion_control ++ text "udp_relay_mode" o.udp_relay_mode ++
    boolean "zero_rtt_handshake" o.zero_rtt_handshake ++ tls o.tls ++ text "type" "tuic"

def anyTlsMembers (o : Outbound_AnyTLSOptions) : Members :=
  server o.server o.server_port ++ tls o.tls ++ text "password" o.password ++ text "type" "anytls"

def hysteriaServerMembers (o : HysteriaServer) : Members :=
  text "server" o.server ++ number "server_port" o.server_port

def hopMembers (o : HysteriaServer) : Members :=
  texts "server_ports" o.server_ports ++ text "hop_interval" o.hop_interval

def salamander (password : String) : Members := text "type" "salamander" ++ text "password" password

def hysteriaMembers : HysteriaOutbound → Members
  | .v1 o obfs auth auth_str recv_window_conn recv_window disable_mtu_discovery options =>
    hysteriaServerMembers o ++ number "up_mbps" o.up_mbps ++ number "down_mbps" o.down_mbps ++
      text "obfs" obfs ++ text "auth" auth ++ text "auth_str" auth_str ++
      number "recv_window_conn" recv_window_conn ++ number "recv_window" recv_window ++
      boolean "disable_mtu_discovery" disable_mtu_discovery ++ tls options ++ hopMembers o ++
      text "type" "hysteria"
  | .v2 o obfs password options =>
    hysteriaServerMembers o ++ number "up_mbps" o.up_mbps ++ number "down_mbps" o.down_mbps ++
      optional "obfs" (obfs.map fun it => .object (salamander it)) ++ text "password" password ++
      tls options ++ hopMembers o ++ text "type" "hysteria2"

def sshMembers (o : Outbound_SSHOptions) : Members :=
  server o.server o.server_port ++ text "user" o.user ++ text "password" o.password ++
    text "private_key" o.private_key ++ text "private_key_passphrase" o.private_key_passphrase ++
    texts "host_key" o.host_key ++ text "type" "ssh"

def peerMembers (o : Endpoint_WireGuardOptions) : Members :=
  text "address" o.peer_address ++ number "port" o.peer_port ++ text "public_key" o.public_key ++
    text "pre_shared_key" o.pre_shared_key ++ texts "allowed_ips" o.allowed_ips ++
    optional "reserved" (o.reserved.map fun list => .array (list.map .number))

def wireGuardMembers (o : Endpoint_WireGuardOptions) : Members :=
  texts "address" o.address ++ text "private_key" o.private_key ++
    [("peers", .array [.object (peerMembers o)])] ++ number "mtu" o.mtu ++ text "type" "wireguard"

end QuinMo.Log
