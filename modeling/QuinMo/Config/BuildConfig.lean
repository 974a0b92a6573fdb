import QuinMo.Config.BuildChain
import QuinMo.Config.UserRules

/-!
# Building a configuration

`buildConfig` after its local functions: the chains, the user's rules, and the DNS part.
-/

namespace QuinMo.Config

open Text Net Outcome Unfold

def baseInbounds (b : Build) : List Inbound :=
  let s := b.env.settings
  let bind := if !b.forTest && s.allowAccess then "0.0.0.0" else LOCALHOST
  if b.forTest then []
  else (if b.isVPN then [.tun "tun-in"] else []) ++ [.mixed TAG_MIXED bind s.mixedPort]

/-- What the loops over profiles carry along. -/
structure Progress where
  shared : Shared
  tagMap : Map Int String := ∅

/-- The body of the loop over the selector members and of the one over the profiles
rules point to. A profile that is already the first hop of another chain is not built
again; a middle hop has no outbound that could be shared. -/
def buildListed (b : Build) (p : Progress) (e : Profile) : Except BuildError Progress := do
  let build : Except BuildError Progress := do
    let (tag, shared) ← buildChain b e.id e p.shared
    return { shared, tagMap := p.tagMap.insert e.id tag }
  if e.id ∈ p.shared.builtProfiles then
    match p.shared.globalOutbounds.lookup e.id with
    | some globalTag => return { p with tagMap := p.tagMap.insert e.id globalTag }
    | none => build
  else build

def values (m : Map Int String) : List String := m.entries.map Sigma.snd

def selectorOutbound (b : Build) (tagMap : Map Int String) : Outbound where
  tag := TAG_PROXY
  body := .selector (tagMap.lookup b.proxy.id) (distinctBy id (values tagMap))

/-- The chains of the selected profile or of its group, and the selector. -/
def buildSelected (b : Build) : Except BuildError Progress := do
  let start : Shared := { inbounds := baseInbounds b }
  if b.buildSelector then
    let members := b.db.getByGroup b.proxy.groupId
    let p ← forEach (buildListed b) members { shared := start }
    return { p with shared := { p.shared with
      outbounds := selectorOutbound b p.tagMap :: p.shared.outbounds } }
  else
    let (_, shared) ← buildChain b 0 b.proxy start
    return { shared }

def buildOutbounds (b : Build) : Except BuildError Progress := do
  let p ← buildSelected b
  forEach (buildListed b) b.extraProxies p

/-- Rules that stand before the ones of the chains and of the user. -/
def leadingRules (b : Build) : List RouteRule :=
  let strategy := genDomainStrategy b b.env.settings.resolveDestination
  (if 0 < b.env.settings.trafficSniffing then [{ action := some "sniff" }] else []) ++
    (if strategy ≠ "" then [{ action := some "resolve", strategy := some strategy }] else []) ++
    [{ port := [53], action := some "hijack-dns" },
      { protocol := ["dns"], action := some "hijack-dns" }]

def trailingRules (b : Build) : List RouteRule :=
  (if b.env.settings.bypassLanInCore then
    [{ outbound := some TAG_BYPASS, ip_is_private := true }] else []) ++
    [{ ip_cidr := ["224.0.0.0/3", "ff00::/8"], source_ip_cidr := ["224.0.0.0/3", "ff00::/8"],
       action := some "reject" }]

def routeRules (b : Build) (p : Progress) : List RouteRule :=
  let rules := p.shared.rules ++ b.extraRules.filterMap (routeRule b p.tagMap)
  if b.forTest then rules else leadingRules b ++ rules ++ trailingRules b

def routeRuleSets (b : Build) (p : Progress) : List RuleSet :=
  distinctBy (·.tag) (b.extraRules.flatMap (ruleSets b p.tagMap))

/-- The address of a bean; a custom outbound has it inside its text. -/
def bypassAddress (env : Env) (bean : Bean) : Except BuildError String :=
  match bean.kind with
  | .config _ config => match env.configServer config with
    | none => .error .configJson
    | some server => .ok (server.getD bean.serverAddress)
  | _ => .ok bean.serverAddress

def full (domain : String) : String := "full:" ++ domain

/-- The domains of the hops dialled first. -/
def bypassDomains (b : Build) (beans : List Bean) : Except BuildError (List String) := do
  let addresses ← gather (bypassAddress b.env) beans
  return (addresses.filter (!isIpAddress ·)).map full

/-- The domains of the remote DNS servers. -/
def remoteDnsDomains (b : Build) : List String :=
  let hosts := (dnsLines b.env.settings.remoteDns).filterMap fun it =>
    let address := if contains it "://" then substringAfter it "://" it else it
    b.env.httpUrlHost ("https://" ++ address)
  (hosts.filter (!isIpAddress ·)).map full

def directServer (b : Build) : Except BuildError DNSServer := do
  match (dnsLines b.env.settings.directDns).head? with
  | none => throw .noDirectDns
  | some address =>
    let server ← makeDnsServer address "dns-direct"
    return { server with domain_resolver := some "dns-local" }

def remoteServer (b : Build) : Except BuildError (List DNSServer) := do
  if b.forTest then return []
  else match (dnsLines b.env.settings.remoteDns).head? with
    | none => throw .noRemoteDns
    | some address =>
      let server ← makeDnsServer address "dns-remote"
      return [{ server with detour := some TAG_PROXY, domain_resolver := some "dns-direct" }]

def localServer : DNSServer :=
  { type := "local", tag := "dns-local", detour := some TAG_DIRECT }

def fakeServers (b : Build) : List DNSServer :=
  if b.useFakeDns then [{ type := "fakeip", tag := "dns-fake" }] else []

def directStrategy (b : Build) : Option String :=
  autoDnsDomainStrategy b (domainStrategy b.env.settings "dns-direct")

/-- The rules of the user, in their order, without the empty ones. -/
def userDNSRuleList (b : Build) : List DNSRule :=
  if b.env.settings.enableDnsRouting then
    (b.extraRules.flatMap (userDNSRules b)).filter (!·.checkEmpty)
  else []

def fakeRules (b : Build) : List DNSRule :=
  if b.useFakeDns then
    [{ inbound := ["tun-in"], server := some "dns-fake", strategy := some "ipv4_only",
       disable_cache := true }]
  else []

/-- Domains that are looked up directly whatever the rules of the user say. -/
def forceRules (b : Build) (forced : List String) : List DNSRule :=
  if forced.isEmpty then []
  else
    let r : DNSRule := { server := some "dns-direct", strategy := directStrategy b }
    [r.makeSingBoxRule b.env forced.dedup]

def loopbackRule (b : Build) : DNSRule :=
  { outbound := ["any"], server := some "dns-direct", strategy := directStrategy b }

def groupTag (index : Nat) : String := "dns-group-" ++ toString index

/-- The servers of the group, each with the rule that leads to it. Addresses that
`makeDnsServer` does not take are skipped, and keep their number. -/
def groupServers (b : Build) (domains : List String) : List (DNSServer × DNSRule) :=
  if domains.isEmpty then []
  else (groupNameservers b).zipIdx.filterMap fun (address, index) =>
    let tag := groupTag index
    match makeDnsServer address tag with
    | .error _ => none
    | .ok server => some (
        { server with domain_resolver := some "dns-local" },
        { domain := domains, server := some tag,
          strategy := autoDnsDomainStrategy b (domainStrategy b.env.settings tag),
          fallback := true })

def dnsRules (b : Build) (forced groupNsDomains : List String) : List DNSRule :=
  (groupServers b groupNsDomains).map (·.2) ++
    if b.forTest then []
    else forceRules b forced ++ loopbackRule b :: userDNSRuleList b ++ fakeRules b

/-! ## The result -/

inductive ConfigText where
  /-- A complete configuration of the user. -/
  | custom (config : String)
  | generated (options : Options)

structure ConfigBuildResult where
  config : ConfigText
  externalIndex : List (Map Int Profile)
  mainEntId : Int
  trafficMap : Map String (List Profile)
  profileTagMap : Map Int String
  selectorGroupId : Int

def directOutbounds : List Outbound :=
  [{ tag := TAG_DIRECT, body := .direct }, { tag := TAG_BYPASS, body := .direct }]

/-- The options of a build whose outbounds are done. -/
def makeOptions (b : Build) (p : Progress) : Except BuildError Options := do
  let bypass ← bypassDomains b p.shared.bypassDNSBeans
  let direct ← directServer b
  let remote ← remoteServer b
  let forced := p.shared.domainListDNSDirectForce ++ bypass ++ remoteDnsDomains b
  let all := p.shared.outbounds ++ directOutbounds
  return {
    inbounds := p.shared.inbounds
    outbounds := all.filter (!·.isEndpoint)
    endpoints := all.filter (·.isEndpoint)
    rules := routeRules b p
    rule_set := routeRuleSets b p
    dnsServers := [localServer, direct] ++ remote ++ fakeServers b ++
      (groupServers b p.shared.groupNsDomains).map (·.1)
    dnsRules := dnsRules b forced p.shared.groupNsDomains
    dnsFinal := if b.forTest then "dns-direct" else "dns-remote"
    dnsStrategy := if b.forTest then directStrategy b
      else autoDnsDomainStrategy b (domainStrategy b.env.settings "dns-remote")
    customConfig := (if b.forTest then [] else [b.env.settings.globalCustomConfig]) ++
      [b.proxy.bean.customConfigJson] }

/-- The text of a profile that is a complete configuration. -/
def fullConfig (e : Profile) : Option String :=
  match e.bean.kind with
  | .config 0 config => some config
  | _ => none

def buildConfig (b : Build) : Except BuildError ConfigBuildResult :=
  match fullConfig b.proxy with
  | some config => .ok {
      config := .custom config
      externalIndex := []
      mainEntId := b.proxy.id
      trafficMap := AList.insert TAG_PROXY [b.proxy] ∅
      profileTagMap := AList.insert b.proxy.id TAG_PROXY ∅
      selectorGroupId := -1 }
  | none => do
    let p ← buildOutbounds b
    let options ← makeOptions b p
    return {
      config := .generated options
      externalIndex := p.shared.externalIndexMap
      mainEntId := b.proxy.id
      trafficMap := p.shared.trafficMap
      profileTagMap := p.tagMap
      selectorGroupId := if b.buildSelector then b.proxy.groupId else -1 }

/-- What `f` tells of a build that succeeds and is no complete configuration of the user. -/
def generatedWith {T : Type} (f : ConfigBuildResult → Options → T) (b : Build) : Option T :=
  match buildConfig b with
  | .ok r => match r.config with
    | .generated o => some (f r o)
    | .custom _ => none
  | .error _ => none

theorem generatedWith_eq {T : Type} {f : ConfigBuildResult → Options → T} {b : Build} {told : T}
    (h : generatedWith f b = some told) :
    ∃ r o, buildConfig b = .ok r ∧ r.config = .generated o ∧ f r o = told := by
  unfold generatedWith at h
  split at h
  · rename_i r built
    split at h
    · rename_i o config
      exact ⟨r, o, built, config, Option.some.inj h⟩
    · cases h
  · cases h

/-- A generated result comes from the outbounds and options of the same build. -/
theorem buildConfig_generated {b : Build} {r : ConfigBuildResult} {options : Options}
    (h : buildConfig b = .ok r) (generated : r.config = .generated options) :
    ∃ p, buildOutbounds b = .ok p ∧ makeOptions b p = .ok options ∧
      r.trafficMap = p.shared.trafficMap ∧ r.profileTagMap = p.tagMap := by
  unfold buildConfig at h
  split at h
  · cases h
    cases generated
  · simp only [bind_ok, pure_ok] at h
    obtain ⟨p, outs, made, opts, rfl⟩ := h
    cases generated
    exact ⟨p, outs, opts, rfl, rfl⟩

end QuinMo.Config
