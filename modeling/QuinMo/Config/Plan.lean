import QuinMo.Config.BuildConfig

/-!
# The plan of a build

Which chains a build makes and where each of their hops gets its outbound. A place is an
outbound's name before it is spelled out as a tag.
-/

namespace QuinMo.Config

/-- Where an outbound stands: the exit of the selected profile, a member of the
selector, the hop a chain dials first, or another hop of one chain. -/
inductive Place where
  | proxy
  | named (name : String)
  | entry (id : Int)
  | inner (chainId id : Int)
  deriving DecidableEq, Repr

def Place.text : Place → String
  | .proxy => TAG_PROXY
  | .named name => name
  | .entry id => "g-" ++ toString id
  | .inner chainId id => "c-" ++ toString chainId ++ "-" ++ toString id

/-- A hop in its place, and the place it dials through. -/
structure Leg where
  place : Place
  hop : Profile
  next : Option Place
  deriving DecidableEq, Repr

/-- One call of `buildChain`. `reused` is the place of the hop dialled first when an
earlier chain has built it. -/
structure Call where
  chainId : Int
  entity : Profile
  hops : List Profile
  first : Place
  reused : Option Place
  deriving DecidableEq, Repr

/-- The places of the hops behind the exit. -/
def restPlaces (chainId : Int) : List Profile → List (Place × Profile)
  | [] => []
  | [h] => [(.entry h.id, h)]
  | h :: g :: t => (.inner chainId h.id, h) :: restPlaces chainId (g :: t)

def legsFrom (place : Place) (hop : Profile) : List (Place × Profile) → List Leg
  | [] => [⟨place, hop, none⟩]
  | (q, h) :: t => ⟨place, hop, some q⟩ :: legsFrom q h t

namespace Call

def legs (c : Call) : List Leg :=
  match c.hops with
  | [] => []
  | h :: t => legsFrom c.first h (restPlaces c.chainId t)

/-- The legs that get an outbound in this call. -/
def emitted (c : Call) : List Leg := if c.reused.isSome then c.legs.dropLast else c.legs

/-- The hop dialled first. -/
def entryHop (c : Call) : Option Profile := c.hops.getLast?

/-- The place of the hop dialled first, had it to be built. -/
def entryPlace (c : Call) : Place :=
  match c.hops with
  | [_] => c.first
  | _ => match c.entryHop with
    | some x => .entry x.id
    | none => c.first

/-- The place that stands for the whole chain. -/
def exit (c : Call) : Place :=
  match c.hops with
  | [_] => c.reused.getD c.first
  | _ => c.first

def traffic (c : Call) : List Profile := distinctBy (·.id) (c.hops ++ [c.entity])

end Call

/-- The place where the hop with this id, dialled first by some chain, was built. -/
def registered (calls : List Call) (id : Int) : Option Place :=
  (calls.find? fun c => (c.entryHop.map (·.id)) == some id).map Call.entryPlace

/-- The hops of a profile, none when it cannot be resolved. -/
def hopsOf (db : Database) (e : Profile) : List Profile := (resolveChain db e).toOption.getD []

/-- The selector names given out so far. -/
def issuedNames (b : Build) (calls : List Call) : List String :=
  if b.buildSelector then calls.map (·.first.text) else []

def firstPlace (b : Build) (chainId : Int) (entity : Profile) (hops : List Profile)
    (names : List String) : Place :=
  if b.buildSelector then .named (selectorName names (entity.bean.displayName b.env.hashCode))
  else if chainId = 0 then .proxy
  else match hops with
    | [] => .proxy
    | [h] => .entry h.id
    | h :: _ => .inner chainId h.id

/-- The call for `entity` after the given ones. -/
def planCall (b : Build) (calls : List Call) (chainId : Int) (entity : Profile) : Call :=
  let hops := hopsOf b.db entity
  { chainId, entity, hops
    first := firstPlace b chainId entity hops (issuedNames b calls)
    reused := hops.getLast?.bind fun x => registered calls x.id }

/-- The calls of a build in their order, and the places given to profiles. -/
structure Plan where
  calls : List Call := []
  tags : List (Int × Place) := []

/-- A profile that was dialled first by an earlier chain keeps the place it got there. -/
def Plan.request (b : Build) (p : Plan) (e : Profile) : Plan :=
  match registered p.calls e.id with
  | some place => { p with tags := p.tags ++ [(e.id, place)] }
  | none =>
    let c := planCall b p.calls e.id e
    { calls := p.calls ++ [c], tags := p.tags ++ [(e.id, c.exit)] }

def planSelected (b : Build) : Plan :=
  if b.buildSelector then (b.db.getByGroup b.proxy.groupId).foldl (Plan.request b) {}
  else { calls := [planCall b [] 0 b.proxy] }

def plan (b : Build) : Plan := b.extraProxies.foldl (Plan.request b) (planSelected b)

/-- An external core dials through an inbound of the config from this hop. -/
def maps (b : Build) (isLast : Bool) (hop : Profile) : Bool :=
  hop.needMapping && !(isLast && isUsingMatsuriExe b.env (pluginId hop))

namespace Leg

def mapping (b : Build) (chainId : Int) (leg : Leg) : Option String :=
  if maps b leg.next.isNone leg.hop then some (mappingTag chainId leg.hop) else none

def detour (leg : Leg) : Option String :=
  if leg.hop.needMapping then none else leg.next.map Place.text

/-- The rule for what the external core of the hop dials. -/
def rules (b : Build) (chainId : Int) (leg : Leg) : List RouteRule :=
  match leg.mapping b chainId with
  | none => []
  | some tag => [{ inbound := [tag], outbound := some ((leg.next.map Place.text).getD TAG_DIRECT) }]

end Leg

/-- The names by which an outbound is found and continued, and the members of a
selector. -/
structure View where
  tag : String
  hop : Option Profile
  mapping : Option String
  detour : Option String
  members : List String
  deriving DecidableEq, Repr

def OutboundBody.members : OutboundBody → List String
  | .selector default_ outbounds => default_.toList ++ outbounds
  | _ => []

def Outbound.view (o : Outbound) : View := ⟨o.tag, o.hop, o.mapping, o.detour, o.body.members⟩

def Leg.view (b : Build) (chainId : Int) (leg : Leg) : View :=
  ⟨leg.place.text, some leg.hop, leg.mapping b chainId, leg.detour, []⟩

namespace Call

def views (b : Build) (c : Call) : List View := c.emitted.map (Leg.view b c.chainId)

def rules (b : Build) (c : Call) : List RouteRule := c.emitted.flatMap (Leg.rules b c.chainId)

def inboundTags (b : Build) (c : Call) : List String :=
  c.emitted.filterMap (Leg.mapping b c.chainId)

end Call

end QuinMo.Config
