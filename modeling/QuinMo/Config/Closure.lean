import QuinMo.Config.Places

/-!
# References inside a configuration

Every name a generated configuration refers to, and when all of them are defined in
it.
-/

namespace QuinMo.Config

open Text Outcome

/-- Outbounds and endpoints share one space of tags. -/
def Options.all (o : Options) : List Outbound := o.outbounds ++ o.endpoints

def Options.tags (o : Options) : List String := o.all.map (·.tag)

def Options.serverTags (o : Options) : List String := o.dnsServers.map (·.tag)

/-- Every name the configuration refers to is defined in it. -/
structure Closed (o : Options) : Prop where
  detours : ∀ x ∈ o.all, ∀ t ∈ x.detour, t ∈ o.tags
  selectors : ∀ x ∈ o.all, ∀ t ∈ x.body.members, t ∈ o.tags
  routes : ∀ r ∈ o.rules, ∀ t ∈ r.outbound, t ∈ o.tags
  serverDetours : ∀ s ∈ o.dnsServers, ∀ t ∈ s.detour, t ∈ o.tags
  resolvers : ∀ s ∈ o.dnsServers, ∀ t ∈ s.domain_resolver, t ∈ o.serverTags
  servers : ∀ r ∈ o.dnsRules, ∀ t ∈ r.server, t ∈ o.serverTags
  final : o.dnsFinal ∈ o.serverTags
  routeSets : ∀ r ∈ o.rules, ∀ t ∈ r.rule_set, t ∈ o.rule_set.map (·.tag)
  dnsSets : ∀ r ∈ o.dnsRules, ∀ t ∈ r.rule_set, t ∈ o.rule_set.map (·.tag)

/-- The hop that a chain of two or more hops dials first was built as such, not
earlier as the only hop of the selected profile or of a selector member, or else some
selector member has a name that spells the missing tag. -/
def EntriesTagged (b : Build) : Prop :=
  ∀ c ∈ (plan b).calls, 2 ≤ c.hops.length → ∀ y, c.entryHop = some y →
    registered (plan b).calls y.id = some (.entry y.id) ∨
      .named (Place.entry y.id).text ∈ placesOf (plan b).calls

/-- The parts of options that were made for an outbound list. -/
structure Made (b : Build) (p : Progress) (o : Options) : Prop where
  all : ∀ x, x ∈ o.all ↔ x ∈ p.shared.outbounds ∨ x ∈ directOutbounds
  rules : o.rules = routeRules b p
  rule_set : o.rule_set = routeRuleSets b p
  servers : ∃ direct remote, directServer b = .ok direct ∧ remoteServer b = .ok remote ∧
    o.dnsServers = [localServer, direct] ++ remote ++ fakeServers b ++
      (groupServers b p.shared.groupNsDomains).map (·.1)
  dnsRules : ∃ bypass, bypassDomains b p.shared.bypassDNSBeans = .ok bypass ∧
    o.dnsRules = dnsRules b (p.shared.domainListDNSDirectForce ++ bypass ++ remoteDnsDomains b)
      p.shared.groupNsDomains
  final : o.dnsFinal = if b.forTest then "dns-direct" else "dns-remote"

variable {b : Build}

theorem makeOptions_made {p : Progress} {o : Options} (h : makeOptions b p = .ok o) :
    Made b p o := by
  simp only [makeOptions, bind_ok, pure_ok] at h
  obtain ⟨bypass, hb, direct, hd, remote, hr, rfl⟩ := h
  refine ⟨?_, rfl, rfl, ⟨direct, remote, hd, hr, rfl⟩, ⟨bypass, hb, rfl⟩, rfl⟩
  intro x
  simp only [Options.all, List.mem_append, List.mem_filter]
  cases x.isEndpoint <;> simp

/-- The options of a build whose outbounds follow its plan; the selector was made when the chosen
profiles were built. -/
structure MadeAsPlanned (b : Build) (selected p : Progress) (o : Options) : Prop
    extends Made b p o where
  chosen : buildSelected b = .ok selected
  follows : Follows b (headViews b selected) p (plan b)

theorem buildConfig_asPlanned {r : ConfigBuildResult} {o : Options} (built : buildConfig b = .ok r)
    (generated : r.config = .generated o) :
    ∃ selected p, MadeAsPlanned b selected p o ∧ r.profileTagMap = p.tagMap := by
  obtain ⟨p, outs, options, _, tagMap⟩ := buildConfig_generated built generated
  obtain ⟨selected, chosen, follows⟩ := buildOutbounds_follows outs
  exact ⟨selected, p, ⟨makeOptions_made options, chosen, follows⟩, tagMap⟩

variable {t : String}

theorem values_lookup {m : Map Int String} (h : t ∈ values m) : ∃ k, m.lookup k = some t := by
  obtain ⟨⟨k, v⟩, entry, rfl⟩ := List.mem_map.mp h
  exact ⟨k, AList.mem_lookup_iff.mpr entry⟩

variable {rule : RuleEntity}

section
variable {b : Build} {p selected : Progress} {o : Options} {r : RouteRule}
variable (made : MadeAsPlanned b selected p o)
include made

theorem MadeAsPlanned.tag_iff : t ∈ o.tags ↔ (b.buildSelector = true ∧ t = TAG_PROXY) ∨
      t ∈ (placesOf (plan b).calls).map Place.text ∨ t = TAG_DIRECT ∨ t = TAG_BYPASS := by
  have views : (∃ x ∈ p.shared.outbounds, x.tag = t) ↔
      t ∈ (headViews b selected ++ (plan b).calls.flatMap (Call.views b)).map View.tag := by
    rw [← made.follows.shared.outbounds, List.map_map, List.mem_map]
    rfl
  have texts : t ∈ ((plan b).calls.flatMap (Call.views b)).map View.tag ↔
      t ∈ (placesOf (plan b).calls).map Place.text := by
    simp only [placesOf, List.map_flatMap, Call.views, Call.places, List.map_map]
    rfl
  have head : t ∈ (headViews b selected).map View.tag ↔
      (b.buildSelector = true ∧ t = TAG_PROXY) := by
    unfold headViews
    split
    · rename_i hs
      simp [hs, Outbound.view, selectorOutbound]
    · rename_i hs
      simp [hs]
  have fixed : (∃ x ∈ directOutbounds, x.tag = t) ↔ t = TAG_DIRECT ∨ t = TAG_BYPASS := by
    simp [directOutbounds, eq_comm]
  rw [List.map_append, List.mem_append, head, texts] at views
  simp only [Options.tags, List.mem_map, made.all, or_and_right, exists_or] at *
  rw [views, fixed, or_assoc]

/-- The tag that rules and the remote server use for the selected profile is defined. -/
theorem proxy_defined : TAG_PROXY ∈ o.tags := by
  rw [made.tag_iff]
  cases hs : b.buildSelector with
  | true => exact .inl ⟨rfl, rfl⟩
  | false =>
    obtain ⟨post, calls, _⟩ := (plan_orderly b).single hs
    have main : planCall b [] 0 b.proxy ∈ (plan b).calls := by rw [calls]; exact List.mem_cons_self
    have resolved := (made.follows.shared.resolved _ main).2
    have filled := (plan_orderly b).exit_filled main resolved
    have exit : (planCall b [] 0 b.proxy).exit = .proxy := by
      have reused : (planCall b [] 0 b.proxy).reused = none := by
        simp [planCall, registered]
      have first : (planCall b [] 0 b.proxy).first = .proxy := by
        simp [planCall, firstPlace, hs]
      unfold Call.exit
      split <;> simp [reused, first]
    rw [exit] at filled
    exact .inr (.inl (List.mem_map.mpr ⟨.proxy, filled, rfl⟩))

theorem assigned_defined {k : Int} (tag : p.tagMap.lookup k = some t) : t ∈ o.tags := by
  rw [made.follows.tags, Option.map_eq_some_iff] at tag
  obtain ⟨place, tag, rfl⟩ := tag
  have filled := (plan_orderly b).tag_filled (plan_built b).assigned
    (fun c hc => (made.follows.shared.resolved c hc).2) tag
  rw [made.tag_iff]
  exact .inr (.inl (List.mem_map_of_mem filled))

/-- The members of the selector and its default keep their outbounds. -/
theorem members_defined (member : t ∈ (selectorOutbound b selected.tagMap).body.members) :
    t ∈ o.tags := by
  obtain ⟨k, tag⟩ : ∃ k, selected.tagMap.lookup k = some t := by
    simp only [selectorOutbound, OutboundBody.members, List.mem_append, Option.mem_toList] at member
    rcases member with member | member
    · exact ⟨_, member⟩
    · exact values_lookup (mem_of_distinctBy member)
  have before := buildSelected_follows made.chosen
  rw [before.tags, Option.map_eq_some_iff] at tag
  obtain ⟨place, tag, rfl⟩ := tag
  obtain ⟨more, calls⟩ := requests_calls b b.extraProxies (planSelected b)
  have built : Built b (planSelected b) := planSelected_built b
  have filled := built.orderly.tag_filled built.assigned
    (fun c hc => (before.shared.resolved c hc).2) tag
  rw [made.tag_iff]
  refine .inr (.inl (List.mem_map_of_mem ?_))
  have : (plan b).calls = (planSelected b).calls ++ more := calls
  rw [this, placesOf, List.flatMap_append]
  exact List.mem_append_left _ filled

/-- What a hop dials through is defined when the entry of its chain is. -/
theorem next_defined (tagged : EntriesTagged b) {c : Call} {leg : Leg} {q : Place}
    (hc : c ∈ (plan b).calls) (hl : leg ∈ c.emitted) (next : leg.next = some q) :
    q.text ∈ o.tags := by
  rw [made.tag_iff]
  refine .inr (.inl ?_)
  rcases c.next_cases hl next with own | ⟨x, z, t, y, hops, last, rfl⟩
  · exact List.mem_map_of_mem (mem_placesOf.mpr ⟨c, hc, own⟩)
  · exact ((plan_orderly b).entry_text_filled y.id).mpr
      (tagged c hc (by simp [hops]) y last)

/-- A rule that a chain brings binds an inbound to what its hop dials through. -/
theorem chain_rule_cases (hr : r ∈ p.shared.rules) : ∃ c ∈ (plan b).calls, ∃ leg ∈ c.emitted,
    ∃ m, leg.mapping b c.chainId = some m ∧
      r = { inbound := [m], outbound := some ((leg.next.map Place.text).getD TAG_DIRECT) } := by
  rw [made.follows.shared.rules] at hr
  obtain ⟨c, hc, hr⟩ := List.mem_flatMap.mp hr
  obtain ⟨leg, hl, hr⟩ := List.mem_flatMap.mp hr
  unfold Leg.rules at hr
  split at hr
  · simp at hr
  · rename_i m mapping
    exact ⟨c, hc, leg, hl, m, mapping, List.mem_singleton.mp hr⟩

theorem chain_rule_closed (tagged : EntriesTagged b) (hr : r ∈ p.shared.rules) :
    (∀ t ∈ r.outbound, t ∈ o.tags) ∧ r.rule_set = [] := by
  obtain ⟨c, hc, leg, hl, m, _, rfl⟩ := chain_rule_cases made hr
  refine ⟨?_, rfl⟩
  rintro t ⟨⟩
  cases next : leg.next with
  | none =>
    rw [made.tag_iff]
    exact .inr (.inr (.inl rfl))
  | some q => exact next_defined made tagged hc hl next

/-- A rule of the user that is emitted routes to something that is there. -/
theorem user_rule_defined (hr : routeRule b p.tagMap rule = some r) (out : r.outbound = some t) :
    t ∈ o.tags := by
  obtain ⟨_, named, ⟨_, rfl⟩ | ⟨notBlock, rfl⟩⟩ := routeRule_eq hr
  · cases out
  have target : ruleOutbound b p.tagMap rule = t := by simpa [ruleObj] using out
  rw [target] at named notBlock
  unfold ruleOutbound at target
  split at target
  · exact target ▸ proxy_defined made
  split at target
  · rw [made.tag_iff]
    exact .inr (.inr (.inr target.symm))
  split at target
  · exact absurd target.symm notBlock
  split at target
  · exact target ▸ proxy_defined made
  cases tag : p.tagMap.lookup rule.outbound with
  | none =>
    rw [tag, Option.getD_none] at target
    rw [← target] at named
    exact absurd named (by decide)
  | some found =>
    rw [tag, Option.getD_some] at target
    exact target ▸ assigned_defined made tag

end

/-- A rule for every inbound that names no rule set and routes nowhere but to `bypass`. -/
def BuiltIn (r : RouteRule) : Prop :=
  r.inbound = [] ∧ r.rule_set = [] ∧ ∀ t ∈ r.outbound, t = TAG_BYPASS

theorem leadingRules_builtIn (b : Build) : ∀ r ∈ leadingRules b, BuiltIn r := by
  unfold leadingRules
  simp only [List.forall_mem_append]
  refine ⟨⟨?_, ?_⟩, ?_⟩
  · split <;> simp [BuiltIn]
  · split <;> simp [BuiltIn]
  · simp [BuiltIn]

theorem trailingRules_builtIn (b : Build) : ∀ r ∈ trailingRules b, BuiltIn r := by
  unfold trailingRules
  rw [List.forall_mem_append]
  refine ⟨?_, ?_⟩
  · split <;> simp [BuiltIn]
  · simp [BuiltIn]

theorem mem_routeRules {r : RouteRule} {p : Progress} (h : r ∈ routeRules b p) :
    r ∈ p.shared.rules ∨ (∃ rule ∈ b.extraRules, routeRule b p.tagMap rule = some r) ∨
      BuiltIn r := by
  have parts : r ∈ leadingRules b ∨
      r ∈ p.shared.rules ++ b.extraRules.filterMap (routeRule b p.tagMap) ∨
      r ∈ trailingRules b := by
    unfold routeRules at h
    simp only at h
    split at h
    · exact .inr (.inl h)
    · rcases List.mem_append.mp h with h | h
      · rcases List.mem_append.mp h with h | h
        · exact .inl h
        · exact .inr (.inl h)
      · exact .inr (.inr h)
  rcases parts with h | h | h
  · exact .inr (.inr (leadingRules_builtIn b r h))
  · rcases List.mem_append.mp h with h | h
    · exact .inl h
    · exact .inr (.inl (List.mem_filterMap.mp h))
  · exact .inr (.inr (trailingRules_builtIn b r h))

theorem mem_routeRuleSets {r : RouteRule} {p : Progress} (listed : rule ∈ b.extraRules)
    (hr : routeRule b p.tagMap rule = some r) (ht : t ∈ r.rule_set) :
    t ∈ (routeRuleSets b p).map (·.tag) := by
  have local_ := ruleObj_rule_set_local (routeRule_rule_set hr ▸ ht)
  unfold routeRuleSets
  rw [distinctBy_keys, List.mem_map]
  refine ⟨{ tag := t, path := t }, List.mem_flatMap.mpr ⟨rule, listed, ?_⟩, rfl⟩
  unfold ruleSets
  rw [hr]
  exact List.mem_map_of_mem (List.mem_filter.mpr ⟨ht, local_⟩)

/-! ## DNS -/

theorem directServer_refs {s : DNSServer} (h : directServer b = .ok s) :
    s.tag = "dns-direct" ∧ s.detour = none ∧ s.domain_resolver = some "dns-local" := by
  unfold directServer at h
  split at h
  · simp at h
  · simp only [bind_ok, pure_ok] at h
    obtain ⟨made, hm, rfl⟩ := h
    obtain ⟨tag, detour, _⟩ := makeDnsServer_tag hm
    exact ⟨tag, detour, rfl⟩

theorem remoteServer_refs {l : List DNSServer} (h : remoteServer b = .ok l) :
    (b.forTest = true ∧ l = []) ∨ (b.forTest = false ∧ ∃ s, l = [s] ∧ s.tag = "dns-remote" ∧
      s.detour = some TAG_PROXY ∧ s.domain_resolver = some "dns-direct") := by
  unfold remoteServer at h
  split at h
  · rename_i test
    simp only [pure_ok] at h
    exact .inl ⟨test, h.symm⟩
  · rename_i test
    split at h
    · simp at h
    · simp only [bind_ok, pure_ok] at h
      obtain ⟨made, hm, rfl⟩ := h
      exact .inr ⟨by simpa using test, _, rfl, (makeDnsServer_tag hm).1, rfl, rfl⟩

theorem groupServers_refs {domains : List String} {s : DNSServer} {r : DNSRule}
    (h : (s, r) ∈ groupServers b domains) :
    s.detour = none ∧ s.domain_resolver = some "dns-local" ∧ r.server = some s.tag ∧
      r.rule_set = [] := by
  unfold groupServers at h
  split at h
  · simp at h
  · obtain ⟨⟨address, index⟩, _, made⟩ := List.mem_filterMap.mp h
    dsimp only at made
    split at made
    · cases made
    · rename_i server hm
      obtain ⟨tag, detour, _⟩ := makeDnsServer_tag hm
      cases made
      exact ⟨detour, rfl, by simp [tag], rfl⟩

/-- The server of a rule made from a stored rule. -/
theorem userDNSRules_server {r : DNSRule} (h : r ∈ userDNSRules b rule) :
    r.toDomains = (makeDnsRuleObj b rule).toDomains ∧
      r.user_id = (makeDnsRuleObj b rule).user_id ∧
      (rule.outbound = -1 ∨ rule.outbound = 0 ∨ rule.outbound = -2) ∧
      ∀ t ∈ r.server, t = "dns-direct" ∨ t = "dns-remote" ∨
        (t = "dns-fake" ∧ b.useFakeDns = true) := by
  unfold userDNSRules at h
  simp only at h
  split at h
  · rename_i out
    rw [List.mem_singleton] at h
    subst h
    exact ⟨rfl, rfl, .inl out, by simp⟩
  split at h
  · rename_i out
    rcases List.mem_append.mp h with h | h
    · split at h
      · rename_i fake
        rw [List.mem_singleton] at h
        subst h
        exact ⟨rfl, rfl, .inr (.inl out), by simp [fake]⟩
      · simp at h
    · rw [List.mem_singleton] at h
      subst h
      exact ⟨rfl, rfl, .inr (.inl out), by simp⟩
  split at h
  · rename_i out
    rw [List.mem_singleton] at h
    subst h
    refine ⟨rfl, rfl, .inr (.inr out), ?_⟩
    unfold makeDnsRuleObj
    split <;> simp [DNSRule.makeSingBoxRule]
  · simp at h

theorem full_not_geosite (a : String) : startsWith (full a) "geosite:" = false := by
  unfold startsWith full
  rw [String.toList_append]
  rfl

/-- Everything that is looked up directly by force is written as a whole domain. -/
theorem forced_full {p selected : Progress} (follows : Follows b (headViews b selected) p (plan b))
    {bypass : List String} (hb : bypassDomains b p.shared.bypassDNSBeans = .ok bypass) :
    ∀ d ∈ p.shared.domainListDNSDirectForce ++ bypass ++ remoteDnsDomains b, ∃ a, d = full a := by
  intro d hd
  rcases List.mem_append.mp hd with hd | hd
  · rcases List.mem_append.mp hd with hd | hd
    · exact follows.shared.forced d hd
    · simp only [bypassDomains, bind_ok, pure_ok] at hb
      obtain ⟨addresses, _, rfl⟩ := hb
      obtain ⟨a, _, rfl⟩ := List.mem_map.mp hd
      exact ⟨a, rfl⟩
  · obtain ⟨a, _, rfl⟩ := List.mem_map.mp hd
    exact ⟨a, rfl⟩

theorem forceRules_refs {forced : List String} (isFull : ∀ d ∈ forced, ∃ a, d = full a)
    {r : DNSRule} (h : r ∈ forceRules b forced) :
    r.server = some "dns-direct" ∧ r.rule_set = [] := by
  unfold forceRules at h
  split at h
  · simp at h
  · rw [List.mem_singleton] at h
    subst h
    refine ⟨rfl, ?_⟩
    have none : forced.dedup.filter (startsWith · "geosite:") = [] := by
      rw [List.filter_eq_nil_iff]
      intro d hd
      obtain ⟨a, rfl⟩ := isFull d (List.mem_dedup.mp hd)
      simp [full_not_geosite]
    simp [DNSRule.makeSingBoxRule, Domains.removeBlank, Domains.foldl_add_rule_set, none, notBlank]

theorem mem_dnsRules {forced domains : List String} {r : DNSRule}
    (h : r ∈ dnsRules b forced domains) :
    (∃ s, (s, r) ∈ groupServers b domains) ∨ (b.forTest = false ∧
      (r ∈ forceRules b forced ∨ r = loopbackRule b ∨
        (∃ rule ∈ b.extraRules, r ∈ userDNSRules b rule) ∨
        (b.useFakeDns = true ∧ r.server = some "dns-fake" ∧ r.rule_set = []))) := by
  have user : r ∈ userDNSRuleList b → ∃ rule ∈ b.extraRules, r ∈ userDNSRules b rule := by
    unfold userDNSRuleList
    split
    · exact fun h => List.mem_flatMap.mp (List.mem_filter.mp h).1
    · simp
  have fake : r ∈ fakeRules b →
      b.useFakeDns = true ∧ r.server = some "dns-fake" ∧ r.rule_set = [] := by
    unfold fakeRules
    split
    · rename_i on
      intro h
      rw [List.mem_singleton.mp h]
      exact ⟨on, rfl, rfl⟩
    · simp
  unfold dnsRules at h
  rcases List.mem_append.mp h with h | h
  · obtain ⟨⟨s, r⟩, hs, rfl⟩ := List.mem_map.mp h
    exact .inl ⟨s, hs⟩
  · split at h
    · simp at h
    · rename_i test
      simp only [List.mem_append, List.mem_cons, or_assoc] at h
      exact .inr ⟨by simpa using test, h.imp_right (Or.imp_right (Or.imp user fake))⟩

/-- A DNS rule of the user with rule sets comes with a route rule that brings them. -/
theorem user_dns_sets {p : Progress} {r : DNSRule} (listed : rule ∈ b.extraRules)
    (hr : r ∈ userDNSRules b rule) (ht : t ∈ r.rule_set) :
    t ∈ (routeRuleSets b p).map (·.tag) := by
  obtain ⟨domains, _, out, _⟩ := userDNSRules_server hr
  have named : t ∈ (ruleObj b p.tagMap rule).rule_set := by
    rw [domains, makeDnsRuleObj_rule_set] at ht
    rw [ruleObj_rule_set]
    exact List.mem_append_left _ ht
  have kept : (ruleObj b p.tagMap rule).checkEmpty = false := by
    have : (ruleObj b p.tagMap rule).rule_set.isEmpty = false := by
      cases sets : (ruleObj b p.tagMap rule).rule_set with
      | nil => simp [sets] at named
      | cons => rfl
    simp [RouteRule.checkEmpty, Domains.isEmpty, this]
  have target : isBlank (ruleOutbound b p.tagMap rule) = false := by
    unfold ruleOutbound
    rcases out with out | out | out
    · rw [if_neg (by omega), if_pos out]
      decide
    · rw [if_pos out]
      decide
    · rw [if_neg (by omega), if_neg (by omega), if_pos out]
      decide
  obtain ⟨route, emitted⟩ := routeRule_exists kept target
  exact mem_routeRuleSets listed emitted (by rw [routeRule_rule_set emitted]; exact named)

/-! ## Closure -/

section
variable {b : Build} {p selected : Progress} {o : Options} (made : MadeAsPlanned b selected p o)
include made

/-- The DNS servers every build has, and the ones it has only sometimes. -/
theorem servers_defined : "dns-local" ∈ o.serverTags ∧ "dns-direct" ∈ o.serverTags ∧
      (b.forTest = false → "dns-remote" ∈ o.serverTags) ∧
      (b.useFakeDns = true → "dns-fake" ∈ o.serverTags) := by
  obtain ⟨direct, remote, hd, hr, eq⟩ := made.servers
  unfold Options.serverTags
  rw [eq]
  refine ⟨?_, ?_, ?_, ?_⟩
  · simp [localServer]
  · simp [(directServer_refs hd).1]
  · intro test
    rcases remoteServer_refs hr with ⟨test', _⟩ | ⟨_, s, rfl, tag, _⟩
    · simp [test] at test'
    · simp [tag]
  · intro fake
    simp [fakeServers, fake]

theorem chain_rule_mem {r : RouteRule} (h : r ∈ p.shared.rules) : r ∈ o.rules := by
  rw [made.rules]
  unfold routeRules
  dsimp only
  split
  · exact List.mem_append_left _ h
  · exact List.mem_append_left _ (List.mem_append_right _ (List.mem_append_left _ h))

theorem leg_outbound {c : Call} {leg : Leg} (hc : c ∈ (plan b).calls) (hl : leg ∈ c.emitted) :
    ∃ x ∈ o.all, x.view = leg.view b c.chainId := by
  have view : leg.view b c.chainId ∈ p.shared.outbounds.map Outbound.view := by
    rw [made.follows.shared.outbounds]
    exact List.mem_append_right _
      (List.mem_flatMap.mpr ⟨c, hc, List.mem_map_of_mem hl⟩)
  obtain ⟨x, hx, eq⟩ := List.mem_map.mp view
  exact ⟨x, (made.all x).mpr (.inl hx), eq⟩

theorem leg_rule {c : Call} {leg : Leg} {r : RouteRule} (hc : c ∈ (plan b).calls)
    (hl : leg ∈ c.emitted) (hr : r ∈ leg.rules b c.chainId) : r ∈ p.shared.rules := by
  rw [made.follows.shared.rules]
  exact List.mem_flatMap.mpr ⟨c, hc, List.mem_flatMap.mpr ⟨leg, hl, hr⟩⟩

/-- In a closed configuration the place a hop dials through is the tag of something. -/
theorem Closed.next (closed : Closed o) {c : Call} {leg : Leg} {q : Place} (hc : c ∈ (plan b).calls)
    (hl : leg ∈ c.emitted) (next : leg.next = some q) : q.text ∈ o.tags := by
  cases hm : leg.hop.needMapping with
  | true =>
    have rule : ({ inbound := [mappingTag c.chainId leg.hop], outbound := some q.text } : RouteRule)
        ∈ leg.rules b c.chainId := by
      simp [Leg.rules, Leg.mapping, maps, hm, next]
    exact closed.routes _ (chain_rule_mem made (leg_rule made hc hl rule)) q.text rfl
  | false =>
    obtain ⟨x, hx, view⟩ := leg_outbound made hc hl
    have detour : x.detour = some q.text := by
      have := congrArg View.detour view
      simpa [Outbound.view, Leg.view, Leg.detour, hm, next] using this
    exact closed.detours x hx q.text detour

theorem entries_of_closed (closed : Closed o) : EntriesTagged b := by
  intro c hc long y last
  obtain ⟨x, z, t, hops⟩ : ∃ x z t, c.hops = x :: z :: t := by
    rcases hops : c.hops with _ | ⟨x, _ | ⟨z, t⟩⟩
    · simp [hops] at long
    · simp [hops] at long
    · exact ⟨x, z, t, rfl⟩
  obtain ⟨leg, hl, next⟩ := c.dials_entry hops last
  have defined := closed.next made hc hl next
  have free : (Place.entry y.id).text ∉ reservedSelectorTags :=
    Place.text_not_reserved rfl (by simp)
  simp only [reservedSelectorTags, List.mem_cons, List.not_mem_nil, or_false, not_or] at free
  rw [made.tag_iff] at defined
  rcases defined with ⟨_, proxy⟩ | used | direct | bypass
  · exact absurd proxy free.1
  · exact ((plan_orderly b).entry_text_filled y.id).mp used
  · exact absurd direct free.2.1
  · exact absurd bypass free.2.2.1

theorem view_cases {x : Outbound} (hx : x ∈ o.all) :
    (b.buildSelector = true ∧ x.view = (selectorOutbound b selected.tagMap).view) ∨
      (∃ c ∈ (plan b).calls, ∃ leg ∈ c.emitted, x.view = leg.view b c.chainId) ∨
      x ∈ directOutbounds := by
  rcases (made.all x).mp hx with built | fixed
  · have view : x.view ∈ headViews b selected ++ (plan b).calls.flatMap (Call.views b) := by
      rw [← made.follows.shared.outbounds]
      exact List.mem_map_of_mem built
    rcases List.mem_append.mp view with head | view
    · unfold headViews at head
      split at head
      · exact .inl ⟨‹_›, List.mem_singleton.mp head⟩
      · simp at head
    · obtain ⟨c, hc, view⟩ := List.mem_flatMap.mp view
      obtain ⟨leg, hl, view⟩ := List.mem_map.mp view
      exact .inr (.inl ⟨c, hc, leg, hl, view.symm⟩)
  · exact .inr (.inr fixed)

theorem outbounds_closed (tagged : EntriesTagged b) {x : Outbound} (hx : x ∈ o.all) :
    (∀ t ∈ x.detour, t ∈ o.tags) ∧ ∀ t ∈ x.body.members, t ∈ o.tags := by
  rcases view_cases made hx with ⟨_, view⟩ | ⟨c, hc, leg, hl, view⟩ | fixed
  · have detour : x.detour = none := congrArg View.detour view
    have members : x.body.members = (selectorOutbound b selected.tagMap).body.members :=
      congrArg View.members view
    refine ⟨by simp [detour], ?_⟩
    intro t ht
    exact members_defined made (members ▸ ht)
  · have detour : x.detour = leg.detour := congrArg View.detour view
    have members : x.body.members = [] := congrArg View.members view
    refine ⟨?_, by simp [members]⟩
    intro t ht
    rw [detour] at ht
    unfold Leg.detour at ht
    split at ht
    · simp at ht
    · obtain ⟨q, next, rfl⟩ := Option.map_eq_some_iff.mp ht
      exact next_defined made tagged hc hl next
  · simp only [directOutbounds, List.mem_cons, List.not_mem_nil, or_false] at fixed
    rcases fixed with rfl | rfl <;> simp [OutboundBody.members]

theorem routes_closed (tagged : EntriesTagged b) {r : RouteRule} (hr : r ∈ o.rules) :
    (∀ t ∈ r.outbound, t ∈ o.tags) ∧ ∀ t ∈ r.rule_set, t ∈ o.rule_set.map (·.tag) := by
  rw [made.rules] at hr
  rcases mem_routeRules hr with chain | ⟨rule, listed, user⟩ | ⟨_, sets, bypass⟩
  · obtain ⟨targets, sets⟩ := chain_rule_closed made tagged chain
    exact ⟨targets, by simp [sets]⟩
  · refine ⟨fun t out => user_rule_defined made user out, ?_⟩
    intro t ht
    rw [made.rule_set]
    exact mem_routeRuleSets listed user ht
  · refine ⟨?_, by simp [sets]⟩
    intro t out
    rw [made.tag_iff]
    exact .inr (.inr (.inr (bypass t out)))

theorem servers_closed {s : DNSServer} (hs : s ∈ o.dnsServers) :
    (∀ t ∈ s.detour, t ∈ o.tags) ∧ ∀ t ∈ s.domain_resolver, t ∈ o.serverTags := by
  obtain ⟨toLocal, toDirect, _, _⟩ := servers_defined made
  obtain ⟨direct, remote, hd, hr, eq⟩ := made.servers
  rw [eq] at hs
  simp only [List.mem_append, List.mem_cons, List.not_mem_nil, or_false] at hs
  rcases hs with (((rfl | rfl) | hs) | hs) | hs
  · have : TAG_DIRECT ∈ o.tags := (made.tag_iff).mpr (.inr (.inr (.inl rfl)))
    simpa [localServer] using this
  · obtain ⟨_, detour, resolver⟩ := directServer_refs hd
    simp [detour, resolver, toLocal]
  · rcases remoteServer_refs hr with ⟨_, rfl⟩ | ⟨_, s', rfl, _, detour, resolver⟩
    · simp at hs
    · rw [List.mem_singleton.mp hs]
      simp [detour, resolver, toDirect, proxy_defined made]
  · unfold fakeServers at hs
    split at hs
    · rw [List.mem_singleton.mp hs]
      simp
    · simp at hs
  · obtain ⟨⟨s', r⟩, listed, rfl⟩ := List.mem_map.mp hs
    obtain ⟨detour, resolver, _⟩ := groupServers_refs listed
    simp [detour, resolver, toLocal]

theorem dnsRules_closed {r : DNSRule} (hr : r ∈ o.dnsRules) :
    (∀ t ∈ r.server, t ∈ o.serverTags) ∧ ∀ t ∈ r.rule_set, t ∈ o.rule_set.map (·.tag) := by
  obtain ⟨_, toDirect, toRemote, toFake⟩ := servers_defined made
  obtain ⟨bypass, hb, eq⟩ := made.dnsRules
  rw [eq] at hr
  rcases mem_dnsRules hr with ⟨s, hs⟩ | ⟨test, force | rfl | ⟨rule, listed, user⟩ |
    ⟨useFake, server, sets⟩⟩
  · obtain ⟨_, _, server, sets⟩ := groupServers_refs hs
    obtain ⟨direct, remote, _, _, servers⟩ := made.servers
    have : s.tag ∈ o.serverTags := by
      unfold Options.serverTags
      rw [servers]
      exact List.mem_map_of_mem (List.mem_append_right _ (List.mem_map_of_mem hs))
    simp [server, sets, this]
  · obtain ⟨server, sets⟩ := forceRules_refs (forced_full made.follows hb) force
    simp [server, sets, toDirect]
  · simp [loopbackRule, toDirect]
  · refine ⟨?_, fun t ht => made.rule_set ▸ user_dns_sets listed user ht⟩
    intro t ht
    rcases (userDNSRules_server user).2.2.2 t ht with rfl | rfl | ⟨rfl, useFake⟩
    · exact toDirect
    · exact toRemote test
    · exact toFake useFake
  · simp [server, sets, toFake useFake]

end

/-- A generated configuration is closed exactly when the entry of every longer chain
has its tag. -/
theorem buildConfig_closed_iff {b : Build} {r : ConfigBuildResult} {o : Options}
    (built : buildConfig b = .ok r) (generated : r.config = .generated o) :
    Closed o ↔ EntriesTagged b := by
  obtain ⟨selected, p, made, _⟩ := buildConfig_asPlanned built generated
  constructor
  · intro closed
    exact entries_of_closed made closed
  · intro tagged
    refine ⟨fun x hx => (outbounds_closed made tagged hx).1,
      fun x hx => (outbounds_closed made tagged hx).2,
      fun r hr => (routes_closed made tagged hr).1,
      fun s hs => (servers_closed made hs).1,
      fun s hs => (servers_closed made hs).2,
      fun r hr => (dnsRules_closed made hr).1, ?_,
      fun r hr => (routes_closed made tagged hr).2,
      fun r hr => (dnsRules_closed made hr).2⟩
    obtain ⟨_, toDirect, toRemote, _⟩ := servers_defined made
    rw [made.final]
    split
    · exact toDirect
    · rename_i test
      exact toRemote (by simpa using test)

/-- A profile, and a rule that points to a chain which dials that profile first. -/
def shadowedDb : Database where
  proxies := {
    rows := [
      .fresh 1 1 1 (.default .ssh "one" "one.example"),
      .fresh 2 1 2 (.default .ssh "two" "two.example"),
      .fresh 3 1 3 (.default (.chain [1, 2]) "chain" "")]
    unique := by decide }
  groups := .empty
  rules := [{ id := 1, userOrder := 1, enabled := true, domains := "site.example", outbound := 3 }]

def shadowed : Build :=
  .onDevice shadowedDb (.fresh 1 1 1 (.default .ssh "one" "one.example")) (by decide)

theorem shadowed_links :
    generatedWith (fun _ o => o.all.map fun x => (x.tag, x.detour)) shadowed = some
      [("proxy", none), ("c-3-2", some "g-1"), ("direct", none), ("bypass", none)] := by
  decide

theorem shadowed_generates : ∃ r o, buildConfig shadowed = .ok r ∧ r.config = .generated o ∧
    ¬ Closed o := by
  obtain ⟨r, o, built, generated, links⟩ := generatedWith_eq shadowed_links
  refine ⟨r, o, built, generated, ?_⟩
  intro closed
  have link : ("c-3-2", some "g-1") ∈ o.all.map fun x => (x.tag, x.detour) := by
    rw [links]
    decide
  obtain ⟨x, hx, pair⟩ := List.mem_map.mp link
  have defined := closed.detours x hx "g-1" (congrArg Prod.snd pair)
  have tags : o.tags = (o.all.map fun x => (x.tag, x.detour)).map Prod.fst := by
    simp [Options.tags]
  rw [tags, links] at defined
  exact absurd defined (by decide)

/-- The chain's exit dials through `g-1`, but profile 1 has the tag `proxy`. -/
theorem shadowed_entry_undefined : ¬ ∀ (b : Build) (r : ConfigBuildResult) (o : Options),
    buildConfig b = .ok r → r.config = .generated o → Closed o := by
  intro all
  obtain ⟨r, o, built, generated, dangling⟩ := shadowed_generates
  exact dangling (all shadowed r o built generated)

theorem shadowed_not_tagged : ¬ EntriesTagged shadowed := by
  obtain ⟨r, o, built, generated, dangling⟩ := shadowed_generates
  exact fun tagged => dangling ((buildConfig_closed_iff built generated).mpr tagged)

end QuinMo.Config
