import QuinMo.Config.Options

/-!
# DNS server addresses

`makeDnsServer` of the config builder, and the reading of a group's list of
nameservers.
-/

namespace QuinMo.Config

open Text

/-- Set host and port from `[v6]:port`, `host:port`, a bare IPv6 address or a host. -/
def setAuthority (address authority : String) (server : DNSServer) :
    Except BuildError DNSServer := do
  let withPort (host : String) (port : Option Int) : DNSServer :=
    { server with server := some host, server_port := port.filter (0 < ·) }
  if startsWith authority "[" then
    if ']' ∈ authority.toList then
      return withPort (String.ofList (authority.toList.tail.takeWhile (· ≠ ']')))
        (toIntOrNull (substringAfter authority "]:" ""))
    else throw (.unsupportedDns address)
  else if authority.toList.count ':' = 1 then
    return withPort (substringBefore authority ":")
      (toIntOrNull (substringAfter authority ":" authority))
  else return withPort authority none

def makeDnsServer (address tag : String) : Except BuildError DNSServer :=
  if !contains address "://" then
    if address = "local" then .ok { type := "local", tag }
    else setAuthority address address { type := "udp", tag }
  else
    let rest := substringAfter address "://" address
    let scheme := substringBefore address "://"
    if scheme ∈ ["tcp", "udp", "tls", "quic"] then
      setAuthority address rest { type := scheme, tag }
    else if scheme ∈ ["https", "h3"] then do
      let server ← setAuthority address (substringBefore rest "/") { type := scheme, tag }
      return { server with
        path := if contains rest "/" then some ("/" ++ substringAfter rest "/" rest) else none }
    else .error (.unsupportedDns address)

theorem setAuthority_tag {address authority : String} {server made : DNSServer}
    (h : setAuthority address authority server = .ok made) :
    made.tag = server.tag ∧ made.detour = server.detour ∧
      made.domain_resolver = server.domain_resolver := by
  unfold setAuthority at h
  split at h
  · split at h
    · simp only [Outcome.pure_ok] at h
      exact h ▸ ⟨rfl, rfl, rfl⟩
    · simp at h
  · split at h <;>
    · simp only [Outcome.pure_ok] at h
      exact h ▸ ⟨rfl, rfl, rfl⟩

/-- A server that is made has the tag it was asked for and refers to nothing. -/
theorem makeDnsServer_tag {address tag : String} {made : DNSServer}
    (h : makeDnsServer address tag = .ok made) :
    made.tag = tag ∧ made.detour = none ∧ made.domain_resolver = none := by
  unfold makeDnsServer at h
  split at h
  · split at h
    · cases h
      exact ⟨rfl, rfl, rfl⟩
    · exact setAuthority_tag h
  · simp only at h
    split at h
    · exact setAuthority_tag h
    · split at h
      · simp only [Outcome.bind_ok, Outcome.pure_ok] at h
        obtain ⟨server, made, rfl⟩ := h
        exact setAuthority_tag made
      · cases h

/-- Loopback and unspecified addresses only make sense inside the core that owns them. -/
def isLocalNameserverAddress (env : Env) (address : String) : Bool :=
  let host := trim (substringBefore (substringAfter address "://" address) "/")
  let host :=
    if startsWith host "[" then substringBefore (substringAfter host "[" host) "]"
    else if host.toList.count ':' = 1 then substringBefore host ":"
    else host
  (env.parseNumericAddress (substringBefore host "%")).getD
    (env.equalsIgnoreCase host "localhost")

/-- One address per line, without comments, the clash sentinels and local addresses. -/
def usableNameservers (env : Env) (text : String) : List String :=
  distinctBy id <|
    ((lines text).map fun line => trim (substringBefore (trim line) "#")).filter fun it =>
      !isBlank it && it != "system" && it != "local" && !isLocalNameserverAddress env it

def groupNameservers (b : Build) : List String :=
  match b.group with
  | some group => usableNameservers b.env group.proxyServerNameserver
  | none => []

end QuinMo.Config
