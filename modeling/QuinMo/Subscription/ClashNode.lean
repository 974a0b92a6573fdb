import QuinMo.Lib.Assign
import QuinMo.Subscription.V2RayFmt

/-!
# The VMess, VLESS and Trojan nodes of a Clash file

Each key of a node, in the order of the file, assigns fields of the bean. Which ones depends on
the bean only in whether it is VLESS by then. Two branches can throw, which rejects the node.
-/

namespace QuinMo.Subscription.Clash

open Text Net V2Ray Assign

/-- What the parser makes of a value. A scalar that is neither a text nor a truth value
counts only as it prints. -/
inductive Yaml where
  | null
  | boolean (b : Bool)
  | string (s : String)
  | scalar (text : String)
  | list (items : List Yaml)
  | map (entries : List (String × Yaml))

namespace Yaml

mutual

/-- `toString`. -/
def text : Yaml → String
  | .null => "null"
  | .boolean b => if b then "true" else "false"
  | .string s => s
  | .scalar text => text
  | .list items => "[" ++ ", ".intercalate (texts items) ++ "]"
  | .map entries => "\x7b" ++ ", ".intercalate (entryTexts entries) ++ "\x7d"

def texts : List Yaml → List String
  | [] => []
  | item :: items => item.text :: texts items

def entryTexts : List (String × Yaml) → List String
  | [] => []
  | (key, value) :: entries => (key ++ "=" ++ value.text) :: entryTexts entries

end

/-- `?.toString()`. -/
def textOrNull : Yaml → Option String
  | .null => none
  | value => some value.text

/-- `as? String`. -/
def asString : Yaml → Option String
  | .string s => some s
  | _ => none

/-- `as? List<Any>`, joined by line breaks. -/
def joined : Yaml → Option String
  | .list items => some ("\n".intercalate (texts items))
  | _ => none

def isTrue : Yaml → Bool
  | .boolean b => b
  | _ => false

/-- `toString() == "true"`. -/
def printsTrue (value : Yaml) : Bool := value.text == "true"

end Yaml

abbrev Mapping := List (String × Yaml)

inductive NodeType where
  | vmess
  | vless
  | trojan
  deriving DecidableEq, Repr

/-- The fields that the keys of a node assign. -/
inductive Field where
  | name
  | password
  | uuid
  | alterId
  | encryption
  | packetEncoding
  | security
  | sni
  | alpn
  | allowInsecure
  | utlsFingerprint
  | realityPubKey
  | realityShortId
  | type
  | host
  | path
  | wsMaxEarlyData
  | earlyDataHeaderName
  | enableMux
  | muxConcurrency
  | muxPadding
  | enableECH
  | echConfig
  deriving DecidableEq, Repr

@[reducible] def Field.Value : Field → Type
  | .alterId | .packetEncoding | .wsMaxEarlyData | .muxConcurrency => Option Int
  | .allowInsecure | .enableMux | .muxPadding | .enableECH => Option Bool
  | _ => Option String

/-- A bean that is being filled. -/
abbrev Draft := (f : Field) → f.Value

abbrev Assignment := (f : Field) × f.Value

/-- `VMessBean()`, `TrojanBean()` and what is set before the keys are gone through. -/
def newBean (type : NodeType) : Draft
  | .alterId => if type = .vless then some (-1) else none
  -- clash meta default XUDP
  | .packetEncoding => if type = .vless then some 2 else none
  | .security => if type = .trojan then some "tls" else none
  | .name | .password | .uuid | .encryption | .sni | .alpn | .utlsFingerprint | .realityPubKey
  | .realityShortId | .type | .host | .path | .earlyDataHeaderName | .echConfig =>
    (none : Option String)
  | .wsMaxEarlyData | .muxConcurrency => (none : Option Int)
  | .allowInsecure | .enableMux | .muxPadding | .enableECH => (none : Option Bool)

/-- `bean.isVLESS` of a `VMessBean`. -/
def isVLESS (bean : Draft) : Bool := bean .alterId == some (-1)

/-! ## The keys -/

def FLOW_VISION : String := "xtls-rprx-vision"

/-- The entries of an option map; a value that is no map has none. -/
def optionMap (branch : String × Yaml → List Assignment) : Yaml → List Assignment
  | .map entries => entries.flatMap branch
  | _ => []

def realityOpt : String × Yaml → List Assignment
  | (key, value) => ⟨.security, some "tls"⟩ :: match key with
    | "public-key" => [⟨.realityPubKey, value.textOrNull⟩]
    | "short-id" => [⟨.realityShortId, value.textOrNull⟩]
    | _ => []

section
variable (L : LowerCase)

/-- The headers of a transport, of which the host is taken. -/
def hostHeader (host : Yaml → Option String) : String × Yaml → List Assignment
  | (key, value) => if L.lower key = "host" then [⟨.host, host value⟩] else []

def wsOpt : String × Yaml → List Assignment
  | (key, value) => match key with
    | "headers" => optionMap (hostHeader L Yaml.textOrNull) value
    | "path" => [⟨.path, value.textOrNull⟩]
    | "max-early-data" => [⟨.wsMaxEarlyData, value.textOrNull.bind toIntOrNull⟩]
    | "early-data-header-name" => [⟨.earlyDataHeaderName, value.textOrNull⟩]
    | "v2ray-http-upgrade" => if value.isTrue then [⟨.type, some "httpupgrade"⟩] else []
    | _ => []

def h2Opt : String × Yaml → List Assignment
  | (key, value) => match key with
    | "host" => [⟨.host, value.joined⟩]
    | "path" => [⟨.path, value.textOrNull⟩]
    | _ => []

/-- A list mihomo picks from at random; the builders carry a single path. -/
def firstPath : Yaml → Option String
  | .list (first :: _) => first.textOrNull
  | _ => none

/-- The host of the HTTP headers may be a text or a list. -/
def httpHost : Yaml → Option String
  | .list items => some ("\n".intercalate (items.filterMap Yaml.textOrNull))
  | value => value.textOrNull

def httpOpt : String × Yaml → List Assignment
  | (key, value) => match key with
    | "path" => [⟨.path, firstPath value⟩]
    | "headers" => optionMap (hostHeader L httpHost) value
    | _ => []

def grpcOpt : String × Yaml → List Assignment
  | (key, value) => match key with
    | "grpc-service-name" => [⟨.path, value.textOrNull⟩]
    | _ => []

def smuxOpt : String × Yaml → List Assignment
  | (key, value) => match key with
    | "enabled" => [⟨.enableMux, some value.printsTrue⟩]
    | "max-streams" => [⟨.muxConcurrency, toIntOrNull value.text⟩]
    | "padding" => [⟨.muxPadding, some value.printsTrue⟩]
    | _ => []

def echOpt : String × Yaml → List Assignment
  | (key, value) => match key with
    | "enable" => [⟨.enableECH, some value.printsTrue⟩]
    | "config" => [⟨.echConfig, some (value.textOrNull.getD "")⟩]
    | _ => []

def packetEncodingOf (value : Yaml) : Int :=
  match value.asString with
  | some "packetaddr" => 1
  | some "xudp" => 2
  | _ => 0

/-- The transport of `network`; any other value leaves the field. -/
def networkType (value : Yaml) : Option String :=
  match value.asString with
  | some "h2" | some "http" => some "http"
  | some "ws" => some "ws"
  | some "grpc" => some "grpc"
  | _ => none

/-- `flow` names the vision flow. -/
def hasVision (value : Yaml) : Bool := value.asString.any fun flow => contains flow FLOW_VISION

def assigned (type : NodeType) (vless : Bool) : String × Yaml → List Assignment
  | (key, value) => match key with
    | "name" => [⟨.name, value.textOrNull⟩]
    | "password" => if type = .trojan then [⟨.password, value.textOrNull⟩] else []
    | "uuid" => if type ≠ .trojan then [⟨.uuid, value.textOrNull⟩] else []
    | "alterId" =>
      if type ≠ .trojan ∧ vless = false then [⟨.alterId, value.textOrNull.bind toIntOrNull⟩] else []
    | "cipher" => if type ≠ .trojan ∧ vless = false then [⟨.encryption, value.asString⟩] else []
    | "flow" =>
      if type ≠ .trojan ∧ vless = true ∧ hasVision value = true then
        [⟨.encryption, some FLOW_VISION⟩]
      else []
    | "packet-encoding" =>
      if type ≠ .trojan then [⟨.packetEncoding, some (packetEncodingOf value)⟩] else []
    | "tls" =>
      if type ≠ .trojan then [⟨.security, some (if value.isTrue then "tls" else "")⟩] else []
    | "servername" => [⟨.sni, value.textOrNull⟩]
    | "sni" => [⟨.sni, value.textOrNull⟩]
    | "alpn" => [⟨.alpn, value.joined⟩]
    | "skip-cert-verify" => [⟨.allowInsecure, some value.printsTrue⟩]
    | "client-fingerprint" => [⟨.utlsFingerprint, value.asString⟩]
    | "reality-opts" => optionMap realityOpt value
    | "network" => (networkType value).toList.map fun type => ⟨.type, some type⟩
    | "ws-opts" => optionMap (wsOpt L) value
    | "h2-opts" => optionMap h2Opt value
    | "http-opts" => optionMap (httpOpt L) value
    | "grpc-opts" => optionMap grpcOpt value
    | "smux" => optionMap smuxOpt value
    | "ech-opts" => optionMap echOpt value
    | _ => []

/-- `toInt()` of `max-streams`. -/
def smuxThrows : String × Yaml → Bool
  | (key, value) => key == "max-streams" && (toIntOrNull value.text).isNone

/-- The branch of the key throws: a cast to `String`, or a number that is none. -/
def throws : String × Yaml → Bool
  | (key, value) => match key with
    | "client-fingerprint" => value.asString.isNone
    | "smux" => match value with
      | .map entries => entries.any smuxThrows
      | _ => false
    | _ => false

def importOpts (type : NodeType) : Draft → Mapping → Option Draft
  | bean, [] => some bean
  | bean, opt :: opts =>
    if throws opt then none
    else importOpts type (assignAll bean (assigned L type (isVLESS bean) opt)) opts

def serverOf (proxy : Mapping) : Option String := (proxy.lookup "server").bind Yaml.textOrNull

def portOf (proxy : Mapping) : Option Int :=
  ((proxy.lookup "port").bind Yaml.textOrNull).bind toIntOrNull

def classOf (type : NodeType) (bean : Draft) : RawClass :=
  match type with
  | .trojan => .trojan (bean .password)
  | _ => .vmess (bean .alterId)

def parsed (type : NodeType) (globalClientFingerprint server : String) (port : Int)
    (bean : Draft) : ParsedNode where
  name := bean .name
  raw := {
    ofClass := classOf type bean
    serverAddress := some server
    serverPort := some port
    uuid := bean .uuid
    encryption := bean .encryption
    type := bean .type
    host := bean .host
    path := bean .path
    wsMaxEarlyData := bean .wsMaxEarlyData
    earlyDataHeaderName := bean .earlyDataHeaderName
    security := bean .security
    sni := bean .sni
    alpn := bean .alpn
    allowInsecure := bean .allowInsecure
    utlsFingerprint := bean .utlsFingerprint
    realityPubKey := bean .realityPubKey
    realityShortId := bean .realityShortId
    enableECH := bean .enableECH
    echConfig := bean .echConfig
    packetEncoding := bean .packetEncoding
    enableMux := bean .enableMux
    muxPadding := bean .muxPadding
    muxConcurrency := bean .muxConcurrency }
  clash := some globalClientFingerprint

/-- The bean that `parseRaw` makes of one entry of `proxies`; none if the entry is skipped. -/
def importNode (type : NodeType) (globalClientFingerprint : String) (proxy : Mapping) :
    Option (AbstractBean StandardV2RayBean) := do
  let server ← serverOf proxy
  let port ← portOf proxy
  let bean ← importOpts L type (newBean type) proxy
  return (parsed type globalClientFingerprint server port bean).bean L

end

end QuinMo.Subscription.Clash
