import QuinMo.Config.RuleScope

/-!
# Where the domains of nodes are looked up

The node a chain dials first has to be found without the tunnel. In the list of DNS
rules the first one that accepts a name decides.
-/

namespace QuinMo.Config

open Text Net Outcome Unfold

/-- The rule has no condition but a list of whole domains. -/
structure DNSRule.Plain (r : DNSRule) : Prop where
  full : ∀ m, r.toDomains.Has m → ∃ d, m = .full d
  inbound : r.inbound = []
  outbound : r.outbound = []
  user_id : r.user_id = []

/-- How the core decides whether a rule is for a queried name. Of a list of whole domains
it is known that the name is looked up in lower case and compared exactly. -/
structure Core (env : Env) where
  accepts : DNSRule → String → Bool
  plain : ∀ r name, r.Plain → (accepts r name = true ↔ env.lowercase name ∈ r.domain)

/-- A chain that is built dials the hop first. -/
def DialledFirst (b : Build) (hop : Profile) : Prop :=
  ∃ e t hops, Returns b e t ∧ resolveChain b.db e = .ok hops ∧ hops.getLast? = some hop

/-- The hop belongs to a chain that is built. -/
def BuiltHop (b : Build) (hop : Profile) : Prop :=
  ∃ e t hops, Returns b e t ∧ resolveChain b.db e = .ok hops ∧ hop ∈ hops

/-- The server of the hop is given by this domain. -/
structure DialsDomain (env : Env) (hop : Profile) (name : String) : Prop where
  address : bypassAddress env hop.bean = .ok name
  notIp : isIpAddress name = false
  notBlank : isBlank name = false

/-- The tags of the group's nameservers that `makeDnsServer` takes, in their order. -/
def acceptedNameservers (b : Build) : List String :=
  (groupNameservers b).zipIdx.filterMap fun (address, index) =>
    match makeDnsServer address (groupTag index) with
    | .ok _ => some (groupTag index)
    | .error _ => none

/-- The hop is one of the selected group, and the group has nameservers. -/
def InGroup (b : Build) (hop : Profile) : Prop :=
  hop.groupId = b.proxy.groupId ∧ acceptedNameservers b ≠ []

/-- The domains of hops dialled first are looked up directly or by the group, before any
rule of the user, and those of the selected group by all its nameservers first. -/
structure NodesResolved (b : Build) (o : Options) (core : Core b.env) : Prop where
  direct : b.forTest = false → ∀ hop name, DialledFirst b hop → DialsDomain b.env hop name →
    ∃ pre r post, o.dnsRules = pre ++ r :: post ∧ core.accepts r name = true ∧
      (∀ x ∈ pre, core.accepts x name = false) ∧
      (r.server = some "dns-direct" ∨ ∃ t ∈ acceptedNameservers b, r.server = some t) ∧
      userDNSRuleList b ++ fakeRules b <:+ post
  group : ∀ hop name, DialledFirst b hop → DialsDomain b.env hop name → InGroup b hop →
    (acceptedNameservers b).map some <+:
      (o.dnsRules.filter (core.accepts · name)).map (·.server)

/-- A domain of the selected group that is dialled first is, in lower case, the server
address of some hop of the group. -/
def LowerCaseListed (b : Build) : Prop :=
  ∀ hop name, DialledFirst b hop → DialsDomain b.env hop name → InGroup b hop →
    ∃ x, BuiltHop b x ∧ x.groupId = b.proxy.groupId ∧
      x.bean.serverAddress = b.env.lowercase name ∧ isIpAddress (b.env.lowercase name) = false

variable {hop : Profile}

section
variable {b : Build} {p selected : Progress}

/-- What holds of the hops of some call that is made holds of those of a planned one. -/
theorem returned_iff (outs : buildOutbounds b = .ok p)
    (follows : Follows b (headViews b selected) p (plan b)) {P : List Profile → Prop} :
    (∃ e t hops, Returns b e t ∧ resolveChain b.db e = .ok hops ∧ P hops) ↔
      ∃ c ∈ (plan b).calls, P c.hops := by
  constructor
  · rintro ⟨e, t, hops, returned, resolved, holds⟩
    obtain ⟨c, hc, rfl, _⟩ := returned.planned
    rw [(follows.shared.resolved c hc).1, Except.ok.injEq] at resolved
    exact ⟨c, hc, resolved ▸ holds⟩
  · rintro ⟨c, hc, holds⟩
    exact ⟨_, _, c.hops, plan_returns outs hc, (follows.shared.resolved c hc).1, holds⟩

theorem dialledFirst_iff (outs : buildOutbounds b = .ok p)
    (follows : Follows b (headViews b selected) p (plan b)) :
    DialledFirst b hop ↔ ∃ c ∈ (plan b).calls, c.entryHop = some hop :=
  returned_iff outs follows (P := (·.getLast? = some hop))

theorem builtHop_iff (outs : buildOutbounds b = .ok p)
    (follows : Follows b (headViews b selected) p (plan b)) :
    BuiltHop b hop ↔ ∃ c ∈ (plan b).calls, hop ∈ c.hops :=
  returned_iff outs follows (P := (hop ∈ ·))

/-- A domain is on the group's list when a built hop of the group has it. -/
theorem mem_groupNsDomains (outs : buildOutbounds b = .ok p)
    (follows : Follows b (headViews b selected) p (plan b)) {d : String} :
    d ∈ p.shared.groupNsDomains ↔ ∃ x, BuiltHop b x ∧ AsksGroup b x ∧ x.bean.serverAddress = d := by
  rw [follows.shared.domains]
  constructor
  · rintro ⟨c, hc, x, hx, asks, address⟩
    exact ⟨x, (builtHop_iff outs follows).mpr ⟨c, hc, hx⟩, asks, address⟩
  · rintro ⟨x, built, asks, address⟩
    obtain ⟨c, hc, hx⟩ := (builtHop_iff outs follows).mp built
    exact ⟨c, hc, x, hx, asks, address⟩

end

theorem domainMatcher_full (lowercase : String → String) (d : String) :
    domainMatcher lowercase (full d) = .full (lowercase d) := by
  have starts : startsWith (full d) "full:" = true := by
    unfold startsWith full
    rw [String.toList_append]
    exact List.isPrefixOf_iff_prefix.mpr (List.prefix_append _ _)
  have rest : removePrefix (full d) "full:" = d := by
    unfold removePrefix
    rw [if_pos starts, full, String.toList_append]
    exact (congrArg String.ofList (List.drop_left' rfl)).trans String.ofList_toList
  unfold domainMatcher
  rw [if_neg (by simp [full_not_geosite]), if_pos starts, rest]

variable {name : String}

section
variable {b : Build}

/-- The rule for forced domains lists them whole and in lower case. -/
theorem forceRules_plain (b : Build) {forced : List String} (isFull : ∀ d ∈ forced, ∃ a, d = full a)
    (listed : full name ∈ forced) (notBlank : isBlank name = false) :
    ∃ r, forceRules b forced = [r] ∧ r.Plain ∧ b.env.lowercase name ∈ r.domain ∧
      r.server = some "dns-direct" := by
  have some_ : forced.isEmpty = false := by
    rw [List.isEmpty_eq_false_iff]
    exact List.ne_nil_of_mem listed
  let r : DNSRule := DNSRule.makeSingBoxRule b.env
    { server := some "dns-direct", strategy := directStrategy b } forced.dedup
  have none (m : DomainMatcher) : ¬ ({} : Domains).Has m := by cases m <;> simp [Domains.Has]
  have has (m : DomainMatcher) : r.toDomains.Has m ↔
      (∃ it ∈ forced, m = domainMatcher b.env.lowercase it) ∧ isBlank m.text = false := by
    simp only [r, DNSRule.makeSingBoxRule, Domains.removeBlank_has, Domains.foldl_add_has, none,
      false_or, List.mem_dedup]
  refine ⟨r, by simp [forceRules, some_, r], ⟨?_, rfl, rfl, rfl⟩, ?_, rfl⟩
  · intro m found
    obtain ⟨⟨it, hit, rfl⟩, _⟩ := (has m).mp found
    obtain ⟨a, rfl⟩ := isFull it hit
    exact ⟨_, domainMatcher_full _ a⟩
  · refine (has (.full (b.env.lowercase name))).mpr ⟨⟨_, listed, ?_⟩, ?_⟩
    · exact (domainMatcher_full _ name).symm
    · rw [DomainMatcher.text, b.env.isBlank_lowercase, notBlank]

variable {domains : List String}

theorem groupServers_plain {s : DNSServer} {r : DNSRule} (h : (s, r) ∈ groupServers b domains) :
    r.Plain ∧ r.domain = domains ∧ ∃ t ∈ acceptedNameservers b, r.server = some t := by
  unfold groupServers at h
  split at h
  · simp at h
  · obtain ⟨⟨address, index⟩, listed, made⟩ := List.mem_filterMap.mp h
    dsimp only at made
    split at made
    · cases made
    · rename_i server accepted
      cases made
      refine ⟨⟨?_, rfl, rfl, rfl⟩, rfl, groupTag index, ?_, rfl⟩
      · intro m found
        cases m with
        | full d => exact ⟨d, rfl⟩
        | _ => simp [Domains.Has] at found
      · exact List.mem_filterMap.mpr ⟨(address, index), listed, by simp [accepted]⟩

/-- Once there is a domain, every accepted nameserver of the group gets its rule. -/
theorem groupServers_servers (some_ : domains ≠ []) :
    ((groupServers b domains).map (·.2)).map (·.server) = (acceptedNameservers b).map some := by
  unfold groupServers acceptedNameservers
  rw [if_neg (by simpa using some_), List.map_map, List.map_filterMap, List.map_filterMap]
  congr 1
  funext ⟨address, index⟩
  dsimp only
  cases makeDnsServer address (groupTag index) <;> rfl

theorem groupTag_ne (index : Nat) : groupTag index ≠ "dns-direct" ∧
    groupTag index ≠ "dns-remote" ∧ groupTag index ≠ "dns-fake" := by
  refine ⟨?_, ?_, ?_⟩ <;>
  · intro same
    have chars := congrArg String.toList same
    simp [groupTag, String.toList_append] at chars

theorem acceptedNameservers_tag {t : String} (h : t ∈ acceptedNameservers b) :
    ∃ index, t = groupTag index := by
  obtain ⟨⟨address, index⟩, _, made⟩ := List.mem_filterMap.mp h
  dsimp only at made
  split at made
  · exact ⟨index, (Option.some.inj made).symm⟩
  · cases made

/-- A rule that leads to a nameserver of the group is one of the group's rules. -/
theorem group_rule {forced : List String} (isFull : ∀ d ∈ forced, ∃ a, d = full a) {r : DNSRule}
    (h : r ∈ dnsRules b forced domains) {index : Nat} (server : r.server = some (groupTag index)) :
    ∃ s, (s, r) ∈ groupServers b domains := by
  obtain ⟨notDirect, notRemote, notFake⟩ := groupTag_ne index
  rcases mem_dnsRules h with group | ⟨_, force | rfl | ⟨rule, _, made⟩ | ⟨_, fake, _⟩⟩
  · exact group
  · have := (forceRules_refs isFull force).1
    rw [server, Option.some.injEq] at this
    exact absurd this notDirect
  · exact absurd (Option.some.inj server).symm notDirect
  · rcases (userDNSRules_server made).2.2.2 _ server with direct | remote | ⟨fake, _⟩
    · exact absurd direct notDirect
    · exact absurd remote notRemote
    · exact absurd fake notFake
  · exact absurd (Option.some.inj (server.symm.trans fake)) notFake

end

/-! ## First matches -/

section
variable {b : Build} {p selected : Progress} {o : Options}

/-- The domain of a hop dialled first is among the forced ones. -/
theorem first_forced (outs : buildOutbounds b = .ok p)
    (follows : Follows b (headViews b selected) p (plan b)) {bypass : List String}
    (hb : bypassDomains b p.shared.bypassDNSBeans = .ok bypass) (first : DialledFirst b hop)
    (dials : DialsDomain b.env hop name) : full name ∈ bypass := by
  obtain ⟨c, hc, last⟩ := (dialledFirst_iff outs follows).mp first
  have listed : hop.bean ∈ p.shared.bypassDNSBeans := by
    rw [follows.shared.beans]
    exact List.mem_flatMap.mpr ⟨c, hc, by simp [last]⟩
  simp only [bypassDomains, bind_ok, pure_ok] at hb
  obtain ⟨addresses, gathered, rfl⟩ := hb
  have found := gather_mem gathered listed dials.address
  exact List.mem_map_of_mem (List.mem_filter.mpr ⟨found, by simp [dials.notIp]⟩)

/-- Outside of tests the rules of the group and the one for forced domains come first,
and one of them accepts. -/
theorem direct_first (outs : buildOutbounds b = .ok p) (made : Made b p o)
    (follows : Follows b (headViews b selected) p (plan b)) (core : Core b.env)
    (real : b.forTest = false) (first : DialledFirst b hop) (dials : DialsDomain b.env hop name) :
    ∃ pre r post, o.dnsRules = pre ++ r :: post ∧ core.accepts r name = true ∧
      (∀ x ∈ pre, core.accepts x name = false) ∧
      (r.server = some "dns-direct" ∨ ∃ t ∈ acceptedNameservers b, r.server = some t) ∧
      userDNSRuleList b ++ fakeRules b <:+ post := by
  obtain ⟨bypass, hb, rules⟩ := made.dnsRules
  have listed : full name ∈ p.shared.domainListDNSDirectForce ++ bypass ++ remoteDnsDomains b :=
    List.mem_append_left _ (List.mem_append_right _ (first_forced outs follows hb first dials))
  obtain ⟨f, force, plain, inside, direct⟩ :=
    forceRules_plain b (forced_full follows hb) listed dials.notBlank
  let own := (groupServers b p.shared.groupNsDomains).map (·.2) ++ [f]
  have whole : o.dnsRules = own ++ loopbackRule b :: (userDNSRuleList b ++ fakeRules b) := by
    rw [rules, dnsRules, force]
    simp [real, own]
  have accepts : core.accepts f name = true := (core.plain f name plain).mpr inside
  have found : (own.find? (core.accepts · name)).isSome := by
    rw [List.find?_isSome]
    exact ⟨f, List.mem_append_right _ (List.mem_singleton.mpr rfl), accepts⟩
  obtain ⟨r, found⟩ := Option.isSome_iff_exists.mp found
  have mem := List.mem_of_find?_eq_some found
  obtain ⟨accepts, pre, mid, split, before⟩ := List.find?_eq_some_iff_append.mp found
  refine ⟨pre, r, mid ++ loopbackRule b :: (userDNSRuleList b ++ fakeRules b), ?_, accepts, ?_, ?_,
    ?_⟩
  · rw [whole, split]
    simp
  · intro x hx
    simpa using before x hx
  · rcases List.mem_append.mp mem with group | last
    · obtain ⟨⟨s, r⟩, hs, rfl⟩ := List.mem_map.mp group
      exact .inr (groupServers_plain hs).2.2
    · rw [List.mem_singleton.mp last]
      exact .inl direct
  · exact ⟨mid ++ [loopbackRule b], by simp⟩

theorem InGroup.asks {x : Profile} (inside : InGroup b hop) (dials : DialsDomain b.env hop name)
    (group : x.groupId = b.proxy.groupId) (address : x.bean.serverAddress = b.env.lowercase name)
    (notIp : isIpAddress (b.env.lowercase name) = false) : AsksGroup b x := by
  refine ⟨?_, group, ?_, by rw [address, notIp]⟩
  · intro none
    apply inside.2
    simp [acceptedNameservers, none]
  · rw [address, b.env.isBlank_lowercase, dials.notBlank]

/-- A listed domain is looked up by every accepted nameserver before anything else. -/
theorem group_first (made : Made b p o) (core : Core b.env)
    (listed : b.env.lowercase name ∈ p.shared.groupNsDomains) : (acceptedNameservers b).map some <+:
      (o.dnsRules.filter (core.accepts · name)).map (·.server) := by
  obtain ⟨bypass, _, rules⟩ := made.dnsRules
  have all : ((groupServers b p.shared.groupNsDomains).map (·.2)).filter (core.accepts · name) =
      (groupServers b p.shared.groupNsDomains).map (·.2) := by
    rw [List.filter_eq_self]
    intro r hr
    obtain ⟨⟨s, r⟩, hs, rfl⟩ := List.mem_map.mp hr
    obtain ⟨plain, domain, _⟩ := groupServers_plain hs
    exact (core.plain r name plain).mpr (domain ▸ listed)
  rw [rules, dnsRules, List.filter_append, all, List.map_append,
    groupServers_servers (List.ne_nil_of_mem listed)]
  exact List.prefix_append _ _

end

/-- The domains of hops dialled first are looked up as intended exactly when the group's
list has their lower case form. -/
theorem buildConfig_nodesResolved_iff {b : Build} {result : ConfigBuildResult} {o : Options}
    (core : Core b.env) (built : buildConfig b = .ok result)
    (generated : result.config = .generated o) :
    NodesResolved b o core ↔ LowerCaseListed b := by
  obtain ⟨p, outs, options, _, _⟩ := buildConfig_generated built generated
  obtain ⟨selected, _, follows⟩ := buildOutbounds_follows outs
  have made := makeOptions_made options
  constructor
  · intro resolved hop name first dials inside
    obtain ⟨t, rest, accepted⟩ := List.exists_cons_of_ne_nil inside.2
    have mine : t ∈ acceptedNameservers b := by simp [accepted]
    obtain ⟨index, rfl⟩ := acceptedNameservers_tag mine
    have starts := resolved.group hop name first dials inside
    have here : some (groupTag index) ∈
        (o.dnsRules.filter (core.accepts · name)).map (·.server) :=
      starts.subset (by simp [accepted])
    obtain ⟨r, hr, server⟩ := List.mem_map.mp here
    obtain ⟨hr, accepts⟩ := List.mem_filter.mp hr
    obtain ⟨bypass, hb, rules⟩ := made.dnsRules
    rw [rules] at hr
    obtain ⟨s, hs⟩ := group_rule (forced_full follows hb) hr server
    obtain ⟨plain, domain, _⟩ := groupServers_plain hs
    have listed := (core.plain r name plain).mp accepts
    rw [domain, mem_groupNsDomains outs follows] at listed
    obtain ⟨x, built, ⟨_, group, _, notIp⟩, address⟩ := listed
    exact ⟨x, built, group, address, address ▸ notIp⟩
  · intro lower
    refine ⟨fun real hop name first dials => direct_first outs made follows core real first dials,
      ?_⟩
    intro hop name first dials inside
    obtain ⟨x, built, group, address, notIp⟩ := lower hop name first dials inside
    apply group_first made core
    rw [mem_groupNsDomains outs follows]
    exact ⟨x, built, inside.asks dials group address notIp, address⟩

/-- A core that looks at whole domains only. -/
def Core.wholeDomains (env : Env) : Core env where
  accepts r name := decide (env.lowercase name ∈ r.domain)
  plain r name _ := by simp

/-- A group with a nameserver, and a node whose address has capital letters. -/
def capitalDb : Database where
  proxies := {
    rows := [.fresh 1 1 1 (.default .ssh "one" "Node.Example")]
    unique := by decide }
  groups := {
    rows := [{ id := 1, userOrder := 1, ungrouped := false, type := 0, isSelector := false,
               frontProxy := 0, landingProxy := 0, proxyServerNameserver := "9.9.9.9" }]
    unique := by decide }
  rules := []

def capital : Build :=
  .onDevice capitalDb (.fresh 1 1 1 (.default .ssh "one" "Node.Example")) (by decide)

theorem capital_servers : generatedWith (fun _ o =>
    (o.dnsRules.filter ((Core.wholeDomains capital.env).accepts · "Node.Example")).map (·.server))
      capital = some [some "dns-direct"] := by
  decide

theorem capital_generates : ∃ result o, buildConfig capital = .ok result ∧
    result.config = .generated o ∧ ¬ NodesResolved capital o (.wholeDomains capital.env) := by
  obtain ⟨result, o, built, generated, servers⟩ := generatedWith_eq capital_servers
  refine ⟨result, o, built, generated, ?_⟩
  intro resolved
  obtain ⟨p, outs, _, _, _⟩ := buildConfig_generated built generated
  have main : planCall capital [] 0 capital.proxy ∈ (plan capital).calls := by decide
  have first : DialledFirst capital capital.proxy :=
    ⟨_, _, [capital.proxy], plan_returns outs main, rfl, rfl⟩
  have dials : DialsDomain capital.env capital.proxy "Node.Example" :=
    ⟨rfl, by decide, by decide⟩
  have accepted : acceptedNameservers capital = ["dns-group-0"] := by decide
  have starts := resolved.group _ _ first dials ⟨rfl, by simp [accepted]⟩
  rw [accepted, servers] at starts
  exact absurd starts (by decide)

/-- The group's rule lists `Node.Example`, which no query in lower case is equal to. -/
theorem capital_not_asked : ¬ ∀ (b : Build) (core : Core b.env) (result : ConfigBuildResult)
    (o : Options), buildConfig b = .ok result → result.config = .generated o →
      NodesResolved b o core := by
  intro all
  obtain ⟨result, o, built, generated, missed⟩ := capital_generates
  exact missed (all capital _ result o built generated)

theorem capital_not_listed : ¬ LowerCaseListed capital := by
  obtain ⟨result, o, built, generated, missed⟩ := capital_generates
  exact fun lower => missed ((buildConfig_nodesResolved_iff _ built generated).mpr lower)

end QuinMo.Config
