import Mathlib.Data.List.AList
import QuinMo.Chain.Resolve

/-!
# The generated configuration

The options that `buildConfig` fills in, and what it reads. A list option that is absent means the
same to the core as an empty one and is the empty list here. Options that nothing else refers to
(log level, Clash API, the tun device) are left out.
-/

namespace QuinMo.Config

open Text

/-- A `HashMap`, with its entries in some order. -/
abbrev Map (K V : Type) := AList fun _ : K => V

def TAG_MIXED : String := "mixed-in"
def TAG_PROXY : String := "proxy"
def TAG_DIRECT : String := "direct"
def TAG_BYPASS : String := "bypass"
def TAG_BLOCK : String := "block"
def LOCALHOST : String := "127.0.0.1"

inductive OutboundBody where
  /-- A node the core dials itself, with the options its protocol package writes. -/
  | protocol (options : String)
  /-- The local port of an external core. -/
  | socks (serverPort : Int)
  | selector (default_ : Option String) (outbounds : List String)
  | direct
  deriving DecidableEq, Repr

structure Outbound where
  tag : String
  body : OutboundBody
  /-- WireGuard nodes go to the list of endpoints. -/
  isEndpoint : Bool := false
  detour : Option String := none
  multiplex : Option Mux := none
  udpOverTcp : Bool := false
  domainStrategy : Option String := none
  customConfig : String := ""
  /-- The profile the outbound was made from; not part of the file. -/
  hop : Option Profile := none
  /-- The inbound through which the profile's external core dials; not part of the
  file, the core gets its port. -/
  mapping : Option String := none
  deriving DecidableEq, Repr

inductive Inbound where
  | tun (tag : String)
  | mixed (tag listen : String) (listenPort : Int)
  | direct (tag : String) (listenPort : Int) (overrideAddress : String) (overridePort : Int)
  deriving DecidableEq, Repr

def Inbound.tag : Inbound → String
  | .tun tag | .mixed tag _ _ | .direct tag _ _ _ => tag

/-- The options of both kinds of rules that name destinations. -/
structure Domains where
  domain : List String := []
  domain_suffix : List String := []
  domain_regex : List String := []
  domain_keyword : List String := []
  rule_set : List String := []
  deriving DecidableEq, Repr

/-- `Rule_DefaultOptions`. -/
structure RouteRule extends Domains where
  inbound : List String := []
  user_id : List Int := []
  ip_cidr : List String := []
  ip_is_private : Bool := false
  port : List Int := []
  port_range : List String := []
  source_port : List Int := []
  source_port_range : List String := []
  network : List String := []
  source_ip_cidr : List String := []
  protocol : List String := []
  outbound : Option String := none
  action : Option String := none
  strategy : Option String := none
  customConfig : String := ""
  deriving DecidableEq, Repr

/-- `DNSRule_DefaultOptions`. -/
structure DNSRule extends Domains where
  inbound : List String := []
  outbound : List String := []
  user_id : List Int := []
  server : Option String := none
  strategy : Option String := none
  action : Option String := none
  rcode : Option String := none
  disable_cache : Bool := false
  fallback : Bool := false
  deriving DecidableEq, Repr

structure DNSServer where
  type : String
  tag : String
  server : Option String := none
  server_port : Option Int := none
  path : Option String := none
  detour : Option String := none
  domain_resolver : Option String := none
  deriving DecidableEq, Repr

structure RuleSet where
  tag : String
  path : String
  deriving DecidableEq, Repr

/-- The options `buildConfig` returns as text. -/
structure Options where
  inbounds : List Inbound
  outbounds : List Outbound
  endpoints : List Outbound
  rules : List RouteRule
  rule_set : List RuleSet
  dnsServers : List DNSServer
  dnsRules : List DNSRule
  dnsFinal : String
  dnsStrategy : Option String
  /-- The texts of the user that are merged into the file. -/
  customConfig : List String

/-! ## What a build reads -/

/-- The entries of `DataStore` that decide what is generated. -/
structure Settings where
  serviceMode : String
  allowAccess : Bool
  mixedPort : Int
  remoteDns : String
  directDns : String
  enableDnsRouting : Bool
  enableFakeDns : Bool
  trafficSniffing : Int
  ipv6Mode : Int
  resolveDestination : Bool
  bypassLanInCore : Bool
  domain_strategy_for_remote : Option String
  domain_strategy_for_direct : Option String
  domain_strategy_for_server : Option String
  globalCustomConfig : String

/-- The database, the settings and the functions of the platform. Little is assumed
about these functions: ports, hashes and package tables are arbitrary. -/
structure Env where
  db : Database
  settings : Settings
  /-- `String.lowercase`. -/
  lowercase : String → String
  isBlank_lowercase : ∀ s, isBlank (lowercase s) = isBlank s
  /-- `String.equals(…, ignoreCase = true)`. -/
  equalsIgnoreCase : String → String → Bool
  /-- The hash of the serialized bean. -/
  hashCode : Bean → Int
  /-- The port of the n-th call of `mkPort`. -/
  mkPort : Nat → Int
  /-- `PackageCache[packageName]`. -/
  packageUid : String → Option Int
  /-- The authority of the installed provider of a plugin. -/
  pluginProvider : String → Option String
  /-- The options the protocol packages write for a bean; they may refuse it. -/
  outboundOptions : Bean → Except String String
  /-- For a numeric address, whether it is a loopback or unspecified one. -/
  parseNumericAddress : String → Option Bool
  /-- The host of a URL, none when it is malformed. -/
  httpUrlHost : String → Option String
  /-- The `server` entry of a custom outbound; fails when the text is no JSON object. -/
  configServer : String → Option (Option String)

/-- The settings of a new installation. -/
def Settings.initial : Settings where
  serviceMode := "vpn"
  allowAccess := false
  mixedPort := 2080
  remoteDns := "https://dns.google/dns-query"
  directDns := "https://223.5.5.5/dns-query"
  enableDnsRouting := true
  enableFakeDns := true
  trafficSniffing := 1
  ipv6Mode := 0
  resolveDestination := false
  bypassLanInCore := false
  domain_strategy_for_remote := none
  domain_strategy_for_direct := none
  domain_strategy_for_server := none
  globalCustomConfig := ""

/-- A device without plugins and with the given packages. -/
def Env.device (db : Database) (settings : Settings) (packageUid : String → Option Int) : Env where
  db := db
  settings := settings
  lowercase := asciiLowercase
  isBlank_lowercase := isBlank_asciiLowercase
  equalsIgnoreCase := fun s t => asciiLowercase s == asciiLowercase t
  hashCode := fun _ => 0
  mkPort := fun n => 20000 + n
  packageUid := packageUid
  pluginProvider := fun _ => none
  outboundOptions := fun _ => .ok ""
  parseNumericAddress := fun _ => none
  httpUrlHost := fun url => some (substringBefore (substringAfter url "://" url) "/")
  configServer := fun _ => none

/-- A call of `buildConfig` for a stored profile. -/
structure Build where
  env : Env
  proxy : Profile
  stored : proxy ∈ env.db.proxies.rows
  forTest : Bool
  forExport : Bool

namespace Build

/-- A build for use, on a device with the initial settings. -/
def onDevice (db : Database) (proxy : Profile) (stored : proxy ∈ db.proxies.rows) : Build where
  env := .device db .initial fun _ => none
  proxy := proxy
  stored := stored
  forTest := false
  forExport := false

def db (b : Build) : Database := b.env.db

def group (b : Build) : Option ProxyGroup := b.db.groups.get b.proxy.groupId

def buildSelector (b : Build) : Bool :=
  !b.forTest && (b.group.map (·.isSelector)).getD false && !b.forExport

def isVPN (b : Build) : Bool := b.env.settings.serviceMode == "vpn"

def useFakeDns (b : Build) : Bool := b.env.settings.enableFakeDns && !b.forTest

def ipv6Mode (b : Build) : Int := if b.forTest then 1 else b.env.settings.ipv6Mode

def extraRules (b : Build) : List RuleEntity := if b.forTest then [] else b.db.enabledRules

/-- The profiles that enabled rules point to, apart from the selected one. -/
def extraProxies (b : Build) : List Profile :=
  if b.forTest then []
  else b.db.getEntities
    ((b.extraRules.map (·.outbound)).filter fun id => decide (0 < id ∧ id ≠ b.proxy.id)).dedup

end Build

/-- The non-blank lines of a DNS setting that are not commented out. -/
def dnsLines (setting : String) : List String :=
  ((split setting '\n').map trim).filter fun dns => !isBlank dns && !startsWith dns "#"

/-- `SingBoxOptionsUtil.domainStrategy`. -/
def domainStrategy (s : Settings) (tag : String) : String :=
  let auto2 (value : Option String) (newS : String) := replace (value.getD "") "auto" newS
  if tag = "dns-remote" then auto2 s.domain_strategy_for_remote ""
  else if tag = "dns-direct" then auto2 s.domain_strategy_for_direct ""
  else auto2 s.domain_strategy_for_server "prefer_ipv4"

def autoDnsDomainStrategy (b : Build) (s : String) : Option String :=
  if s ≠ "" then some s
  else if b.ipv6Mode = 0 then some "ipv4_only"
  else if b.ipv6Mode = 1 then some "prefer_ipv4"
  else if b.ipv6Mode = 2 then some "prefer_ipv6"
  else if b.ipv6Mode = 3 then some "ipv6_only"
  else none

def genDomainStrategy (b : Build) (noAsIs : Bool) : String :=
  if !noAsIs then ""
  else if b.ipv6Mode = 0 then "ipv4_only"
  else if b.ipv6Mode = 2 then "prefer_ipv6"
  else if b.ipv6Mode = 3 then "ipv6_only"
  else "prefer_ipv4"

/-- `Plugins.getPluginExternal`: the authority of an installed plugin. -/
def getPluginExternal (env : Env) (pluginId : String) : Option String :=
  if isBlank pluginId then none else env.pluginProvider pluginId

/-- `Plugins.isUsingMatsuriExe`; a plugin that is not installed runs from the app. -/
def isUsingMatsuriExe (env : Env) (pluginId : String) : Bool :=
  if isBlank pluginId then false
  else startsWith ((getPluginExternal env pluginId).getD "moe.matsuri.exe.") "moe.matsuri.exe."

end QuinMo.Config
