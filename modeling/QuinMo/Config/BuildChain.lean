import QuinMo.Lib.Fresh
import QuinMo.Config.Nameserver

/-!
# Building the outbounds of one profile

`buildChain` turns the hops of a profile, exit first, into linked outbounds. All calls of one
build share `Shared`; one call's loop has the variables of `Loop`.
-/

namespace QuinMo.Config

open Text Net Outcome

/-- `.` in a regular expression stops at these. -/
def isLineTerminator (c : Char) : Bool :=
  c == '\n' || c == '\r' || c.toNat == 0x85 || c.toNat == 0x2028 || c.toNat == 0x2029

/-- `g-\d+|c-\d+.*`, the shape of the tags the builder makes itself. -/
def matchesGeneratedTagShape (name : String) : Bool :=
  match name.toList with
  | 'g' :: '-' :: ds => !ds.isEmpty && ds.all Char.isDigit
  | 'c' :: '-' :: d :: rest => d.isDigit && rest.all (!isLineTerminator ·)
  | _ => false

def reservedSelectorTags : List String := [TAG_PROXY, TAG_DIRECT, TAG_BYPASS, TAG_BLOCK]

def selectorCandidate (base : String) (count : Nat) : String :=
  if count = 0 then base else base ++ "-" ++ toString count

/-- The tag of the next selector member. The loop tries one candidate more than there
are names it could clash with. -/
def selectorName (selectorNames : List String) (name_ : String) : String :=
  let base := if matchesGeneratedTagShape name_ then "p-" ++ name_ else name_
  let taken (name : String) : Bool :=
    decide (name ∈ selectorNames) || decide (name ∈ reservedSelectorTags)
  selectorCandidate base
    (Fresh.search taken (selectorCandidate base)
      (selectorNames.length + reservedSelectorTags.length + 1) 0)

theorem selectorCandidate_inj {base : String} {i j : Nat} (hi : 0 < i) (hj : 0 < j)
    (h : selectorCandidate base i = selectorCandidate base j) : i = j := by
  simp only [selectorCandidate, Nat.ne_of_gt hi, Nat.ne_of_gt hj, if_false] at h
  have tail := congrArg String.toList h
  simp only [String.toList_append, List.append_cancel_left_eq] at tail
  exact toString_nat_inj (String.toList_inj.mp tail)

theorem selectorName_fresh (selectorNames : List String) (name_ : String) :
    selectorName selectorNames name_ ∉ selectorNames ∧
      selectorName selectorNames name_ ∉ reservedSelectorTags := by
  have free := Fresh.search_free
    (fun name => decide (name ∈ selectorNames) || decide (name ∈ reservedSelectorTags))
    (selectorCandidate (if matchesGeneratedTagShape name_ then "p-" ++ name_ else name_))
    (selectorNames ++ reservedSelectorTags)
    (selectorNames.length + reservedSelectorTags.length + 1)
    (by intro name; simp [List.mem_append]) (by simp)
    (fun i j hi hj => selectorCandidate_inj hi hj)
  simpa [selectorName] using free

/-- The landing proxy of the profile's group, the profile's own hops, the front proxy. -/
def resolveChain (db : Database) (e : Profile) : Except BuildError (List Profile) := do
  let thisGroup := db.groups.get e.groupId
  let frontProxy := thisGroup.bind fun g => db.proxies.get g.frontProxy
  let landingProxy := thisGroup.bind fun g => db.proxies.get g.landingProxy
  let list ← Chain.resolve db e
  return landingProxy.toList ++ list ++ frontProxy.toList

/-! ## The loop over the hops -/

/-- What all calls of `buildChain` write to. An outbound is kept in one list with the
endpoints until the options are put together. -/
structure Shared where
  inbounds : List Inbound
  outbounds : List Outbound := []
  rules : List RouteRule := []
  trafficMap : Map String (List Profile) := ∅
  globalOutbounds : Map Int String := ∅
  selectorNames : List String := []
  builtProfiles : List Int := []
  bypassDNSBeans : List Bean := []
  groupNsDomains : List String := []
  domainListDNSDirectForce : List String := []
  externalIndexMap : List (Map Int Profile) := []
  /-- How often `mkPort` was called. -/
  ports : Nat := 0

/-- The variables of one call. `chainOutbounds` has the newest outbound, which is
`pastOutbound`, at its head; the outbounds join the shared list at the end. -/
structure Loop where
  shared : Shared
  chainOutbounds : List Outbound := []
  pastEntity : Option Profile := none
  pastInboundTag : String := ""
  chainTagOut : String := ""
  muxApplied : Bool := false
  externalChainMap : Map Int Profile := ∅

/-- A domain of the selected group goes to the group's nameservers. -/
def noteGroupDomain (b : Build) (hop : Profile) (s : Shared) : Shared :=
  let address := hop.bean.serverAddress
  if !(groupNameservers b).isEmpty && hop.groupId == b.proxy.groupId &&
      !isBlank address && !isIpAddress address && !(s.groupNsDomains.contains address) then
    { s with groupNsDomains := s.groupNsDomains ++ [address] }
  else s

/-- The first profile of a chain is looked up outside the tunnel. -/
def noteBypass (needGlobal : Bool) (hop : Profile) (s : Shared) : Shared :=
  if needGlobal then { s with bypassDNSBeans := s.bypassDNSBeans ++ [hop.bean] } else s

/-- The tag of a hop, with the selector names still free. -/
def hopTag (b : Build) (chainId : Int) (entity hop : Profile) (index : Nat) (needGlobal : Bool)
    (selectorNames : List String) : String :=
  let tagOut := "c-" ++ toString chainId ++ "-" ++ toString hop.id
  let tagOut := if needGlobal then "g-" ++ toString hop.id else tagOut
  let tagOut := if chainId = 0 ∧ index = 0 then TAG_PROXY else tagOut
  if b.buildSelector ∧ index = 0 then
    selectorName selectorNames (entity.bean.displayName b.env.hashCode)
  else tagOut

def noteName (b : Build) (index : Nat) (tagOut : String) (s : Shared) : Shared :=
  if b.buildSelector ∧ index = 0 then { s with selectorNames := s.selectorNames ++ [tagOut] }
  else s

def setDetour (tagOut : String) : List Outbound → List Outbound
  | [] => []
  | pastOutbound :: older => { pastOutbound with detour := some tagOut } :: older

/-- Make the hop before dial through `tagOut`. There is one at every index but 0, where
the tag becomes the chain's own. -/
def linkPast (tagOut : String) (l : Loop) : Loop :=
  match l.pastEntity with
  | none => { l with chainTagOut := tagOut }
  | some past =>
    if past.needMapping then
      { l with shared := { l.shared with rules := l.shared.rules ++
          [{ inbound := [l.pastInboundTag], outbound := some tagOut }] } }
    else { l with chainOutbounds := setDetour tagOut l.chainOutbounds }

/-- The outbound of a node that sing-box runs itself. -/
def internalBody (b : Build) (hop : Profile) : Except BuildError OutboundBody :=
  match hop.bean.kind with
  | .config _ config => .ok (.protocol config)
  | .trojanGo | .mieru | .naive _ | .neko | .chain _ => .error .cannotReach
  | _ => match b.env.outboundOptions hop.bean with
    | .ok options => .ok (.protocol options)
    | .error message => .error (.protocol message)

/-- The body of a hop's outbound; an external core listens on a port of its own. -/
def openBody (b : Build) (hop : Profile) (l : Loop) : Except BuildError (OutboundBody × Loop) :=
  if hop.needExternal then
    let localPort := b.env.mkPort l.shared.ports
    .ok (.socks localPort,
      { l with
        externalChainMap := l.externalChainMap.insert localPort hop
        shared := { l.shared with ports := l.shared.ports + 1 } })
  else do
    let body ← internalBody b hop
    return (body, l)

/-- Only one hop of a chain is multiplexed, the first that asks for it. -/
def muxFor (hop : Profile) (muxApplied : Bool) : Option Mux :=
  if hop.needExternal || muxApplied then none else hop.singMux.filter (·.enableMux)

/-- The domain of the hop before must not be looked up through the hop that dials it. -/
def noteForced (b : Build) (pastEntity : Option Profile) (s : Shared) : Shared :=
  match pastEntity with
  | none => s
  | some past =>
    let address := past.bean.serverAddress
    if domainStrategy b.env.settings "server" ≠ "" ∧ !isIpAddress address then
      { s with domainListDNSDirectForce := s.domainListDNSDirectForce ++ ["full:" ++ address] }
    else s

def pluginId (hop : Profile) : String :=
  match hop.bean.kind with
  | .hysteria protocolVersion _ _ =>
    if protocolVersion = 1 then "hysteria-plugin" else "hysteria2-plugin"
  | _ => ""

/-- An external core dials through an inbound of its own, except for the first profile
when its plugin can protect its sockets itself. -/
def mappingNeeded (b : Build) (isLast : Bool) (hop : Profile) : Except BuildError Bool :=
  if !hop.needMapping then .ok false
  else if !isLast then .ok true
  else if isUsingMatsuriExe b.env (pluginId hop) then .ok false
  else if (getPluginExternal b.env (pluginId hop)).isSome then
    .error (.unsupportedPlugin (pluginId hop))
  else .ok true

def mappingTag (chainId : Int) (hop : Profile) : String :=
  "c-" ++ toString chainId ++ "-mapping-" ++ toString hop.id

/-- HysteriaBean keeps the real port in serverPorts; serverPort is a stale default. -/
def overridePort (bean : Bean) : Int :=
  match bean.kind with
  | .hysteria _ _ serverPorts => getFirstPort serverPorts
  | _ => bean.serverPort

def addMapping (b : Build) (chainId : Int) (isLast : Bool) (hop : Profile) (l : Loop) : Loop :=
  let tag := mappingTag chainId hop
  let inbound := Inbound.direct tag (b.env.mkPort l.shared.ports) hop.bean.serverAddress
    (overridePort hop.bean)
  -- no chain rule and not outbound, so need to set to direct
  let direct : List RouteRule :=
    if isLast then [{ inbound := [tag], outbound := some TAG_DIRECT }] else []
  { l with
    pastInboundTag := tag
    shared := { l.shared with
      ports := l.shared.ports + 1
      inbounds := l.shared.inbounds ++ [inbound]
      rules := l.shared.rules ++ direct } }

/-- Emit the outbound of a hop whose tag is settled. -/
def emitHop (b : Build) (chainId : Int) (isLast : Bool) (tagOut : String) (hop : Profile)
    (l : Loop) : Except BuildError Loop := do
  let (body, l) ← openBody b hop l
  let mux := muxFor hop l.muxApplied
  let mapped ← mappingNeeded b isLast hop
  let outbound : Outbound := {
    tag := tagOut
    body := body
    isEndpoint := hop.bean.kind == .wireGuard
    multiplex := mux
    udpOverTcp := hop.bean.sUoT
    domainStrategy := if b.forTest then some "" else some (domainStrategy b.env.settings "server")
    customConfig := hop.bean.customOutboundJson
    hop := some hop
    mapping := if mapped then some (mappingTag chainId hop) else none }
  let l := { l with
    muxApplied := l.muxApplied || mux.isSome
    shared := noteForced b l.pastEntity l.shared }
  let l := if mapped then addMapping b chainId isLast hop l else l
  return { l with chainOutbounds := outbound :: l.chainOutbounds, pastEntity := some hop }

/-- One round of the loop. The outbound of the hop dialled first is built once for the
whole config. -/
def buildHop (b : Build) (chainId : Int) (entity : Profile) (index : Nat) (isLast : Bool)
    (hop : Profile) (l : Loop) : Except BuildError Loop :=
  let shared := noteBypass isLast hop (noteGroupDomain b hop l.shared)
  let tagOut := hopTag b chainId entity hop index isLast shared.selectorNames
  let l := linkPast tagOut { l with shared := noteName b index tagOut shared }
  if isLast then
    match l.shared.globalOutbounds.lookup hop.id with
    | some known => .ok (if index = 0 then { l with chainTagOut := known } else l)
    | none =>
      emitHop b chainId isLast tagOut hop
        { l with shared := { l.shared with
          globalOutbounds := l.shared.globalOutbounds.insert hop.id tagOut } }
  else emitHop b chainId isLast tagOut hop l

/-- The rounds from `index` on. -/
def buildHops (b : Build) (chainId : Int) (entity : Profile) :
    Nat → List Profile → Loop → Except BuildError Loop
  | _, [], l => .ok l
  | index, hop :: hops, l => do
    let l ← buildHop b chainId entity index hops.isEmpty hop l
    buildHops b chainId entity (index + 1) hops l

/-- Build the outbounds of `entity`; the result is the tag of its exit. -/
def buildChain (b : Build) (chainId : Int) (entity : Profile) (s : Shared) :
    Except BuildError (String × Shared) := do
  let profileList ← resolveChain b.db entity
  if profileList.isEmpty then
    throw (.noValidMember entity.id (entity.bean.displayName b.env.hashCode))
  else
    let s := { s with
      builtProfiles := s.builtProfiles ++ entity.id :: profileList.map (·.id) }
    let chainTrafficList := distinctBy (·.id) (profileList ++ [entity])
    let l ← buildHops b chainId entity 0 profileList { shared := s }
    return (l.chainTagOut, { l.shared with
      outbounds := l.shared.outbounds ++ l.chainOutbounds.reverse
      externalIndexMap := l.shared.externalIndexMap ++ [l.externalChainMap]
      trafficMap := l.shared.trafficMap.insert l.chainTagOut chainTrafficList })

end QuinMo.Config
