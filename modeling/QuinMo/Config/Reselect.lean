import QuinMo.Config.Ports

/-!
# Builds for another member of the group

In selector mode every member of the group is built, whichever of them is selected. The selected
one is seen in the default of the selector, in the rules that name a profile, and in its own custom
configuration.
-/

namespace QuinMo.Config

open Outcome

/-- The same build with another profile selected. -/
def Build.select (b : Build) (e : Profile) (stored : e ∈ b.env.db.proxies.rows) : Build :=
  { b with proxy := e, stored := stored }

section Chains

variable {b : Build} {e : Profile} {stored : e ∈ b.env.db.proxies.rows}
  (group : e.groupId = b.proxy.groupId)
include group

theorem select_group : (b.select e stored).group = b.group :=
  congrArg b.db.groups.get group

theorem select_buildSelector : (b.select e stored).buildSelector = b.buildSelector := by
  unfold Build.buildSelector
  rw [select_group group]
  rfl

theorem select_groupNameservers : groupNameservers (b.select e stored) = groupNameservers b := by
  unfold groupNameservers
  rw [select_group group]
  rfl

theorem select_noteGroupDomain : noteGroupDomain (b.select e stored) = noteGroupDomain b := by
  funext hop s
  unfold noteGroupDomain
  rw [select_groupNameservers group]
  simp only [Build.select, group]

theorem select_buildHop : buildHop (b.select e stored) = buildHop b := by
  funext chainId entity index isLast hop l
  have tag (names : List String) : hopTag (b.select e stored) chainId entity hop index isLast names =
      hopTag b chainId entity hop index isLast names := by
    unfold hopTag
    rw [select_buildSelector group]
    rfl
  have named : noteName (b.select e stored) = noteName b := by
    unfold noteName
    rw [select_buildSelector group]
  have emitted : emitHop (b.select e stored) = emitHop b := rfl
  unfold buildHop
  simp only [select_noteGroupDomain group, tag, named, emitted]

theorem select_buildHops (chainId : Int) (entity : Profile) (hops : List Profile) (index : Nat)
    (l : Loop) : buildHops (b.select e stored) chainId entity index hops l =
      buildHops b chainId entity index hops l := by
  induction hops generalizing index l with
  | nil => rfl
  | cons hop hops ih => simp only [buildHops, select_buildHop group, ih]

theorem select_buildListed : buildListed (b.select e stored) = buildListed b := by
  have chain : buildChain (b.select e stored) = buildChain b := by
    funext chainId entity s
    unfold buildChain
    simp only [select_buildHops group]
    rfl
  funext p e'
  unfold buildListed
  rw [chain]

end Chains

/-- The two profiles have the same custom configuration, and no enabled rule names one of them. -/
structure Interchangeable (b : Build) (e : Profile) : Prop where
  custom : e.bean.customConfigJson = b.proxy.bean.customConfigJson
  unnamed : ∀ rule ∈ b.db.enabledRules, rule.outbound ≠ e.id ∧ rule.outbound ≠ b.proxy.id

section Builds

variable {b : Build} {e : Profile} {stored : e ∈ b.env.db.proxies.rows}

theorem Interchangeable.extraRules (h : Interchangeable b e) {rule : RuleEntity}
    (extra : rule ∈ b.extraRules) : rule.outbound ≠ e.id ∧ rule.outbound ≠ b.proxy.id := by
  unfold Build.extraRules at extra
  split at extra
  · cases extra
  · exact h.unnamed rule extra

theorem select_extraProxies (h : Interchangeable b e) :
    (b.select e stored).extraProxies = b.extraProxies := by
  have ids : (b.extraRules.map (·.outbound)).filter (fun id => decide (0 < id ∧ id ≠ e.id)) =
      (b.extraRules.map (·.outbound)).filter fun id => decide (0 < id ∧ id ≠ b.proxy.id) := by
    refine List.filter_congr fun id inside => ?_
    obtain ⟨rule, extra, rfl⟩ := List.mem_map.mp inside
    have unnamed := h.extraRules extra
    simp [unnamed.1, unnamed.2]
  exact congrArg (fun ids => if b.forTest then [] else b.db.getEntities ids.dedup) ids

theorem select_routeRule (h : Interchangeable b e) {rule : RuleEntity}
    (extra : rule ∈ b.extraRules) (tagMap : Map Int String) :
    routeRule (b.select e stored) tagMap rule = routeRule b tagMap rule := by
  have out : ruleOutbound (b.select e stored) tagMap rule = ruleOutbound b tagMap rule := by
    obtain ⟨other, main⟩ := h.extraRules extra
    have other : rule.outbound ≠ (b.select e stored).proxy.id := other
    simp only [ruleOutbound, if_neg other, if_neg main]
  unfold routeRule ruleObj
  rw [out]
  rfl

theorem select_routeRules (h : Interchangeable b e) (p : Progress) :
    routeRules (b.select e stored) p = routeRules b p := by
  have rules : b.extraRules.filterMap (routeRule (b.select e stored) p.tagMap) =
      b.extraRules.filterMap (routeRule b p.tagMap) :=
    List.filterMap_congr fun rule extra => select_routeRule h extra p.tagMap
  exact congrArg (fun rules => if b.forTest then p.shared.rules ++ rules
    else leadingRules b ++ (p.shared.rules ++ rules) ++ trailingRules b) rules

theorem select_routeRuleSets (h : Interchangeable b e) (p : Progress) :
    routeRuleSets (b.select e stored) p = routeRuleSets b p := by
  have sets : b.extraRules.flatMap (ruleSets (b.select e stored) p.tagMap) =
      b.extraRules.flatMap (ruleSets b p.tagMap) := by
    refine List.flatMap_congr fun rule extra => ?_
    unfold ruleSets
    rw [select_routeRule h extra]
  exact congrArg (distinctBy (·.tag)) sets

theorem select_makeOptions (group : e.groupId = b.proxy.groupId) (h : Interchangeable b e)
    (p : Progress) : makeOptions (b.select e stored) p = makeOptions b p := by
  have servers (domains : List String) :
      groupServers (b.select e stored) domains = groupServers b domains := by
    unfold groupServers
    rw [select_groupNameservers group]
    rfl
  have dns (forced domains : List String) :
      dnsRules (b.select e stored) forced domains = dnsRules b forced domains := by
    unfold dnsRules
    rw [servers]
    rfl
  have custom : (b.select e stored).proxy.bean.customConfigJson =
    b.proxy.bean.customConfigJson := h.custom
  unfold makeOptions
  simp only [select_routeRules h, select_routeRuleSets h, servers, dns, custom]
  rfl

theorem select_buildOutbounds (selector : b.buildSelector = true)
    (group : e.groupId = b.proxy.groupId) (h : Interchangeable b e) :
    Agree Progress.Alike (buildOutbounds b) (buildOutbounds (b.select e stored)) := by
  unfold buildOutbounds
  rw [select_extraProxies h, select_buildListed group]
  refine Agree.bind (R := Progress.Alike) ?_ fun p q alike =>
    Agree.forEach (fun p q alike e _ => buildListed_agree b b.env.mkPort alike e) alike
  have members : (b.select e stored).db.getByGroup (b.select e stored).proxy.groupId =
    b.db.getByGroup b.proxy.groupId := congrArg b.db.getByGroup group
  unfold buildSelected
  rw [select_buildSelector group, selector, members, select_buildListed group]
  refine (Agree.of_eq (forEach (buildListed b) (b.db.getByGroup b.proxy.groupId)
    { shared := { inbounds := baseInbounds b } })).bind fun p q same => ?_
  cases same
  exact .ok rfl

/-- A build for another member of the group gives the same configuration, up to the default of the
selector, and the same tags. -/
theorem select_buildConfig (selector : b.buildSelector = true) (full : fullConfig b.proxy = none)
    (full' : fullConfig e = none) (group : e.groupId = b.proxy.groupId)
    (h : Interchangeable b e) :
    Agree (fun r r' => r.config.shape = r'.config.shape ∧ r.profileTagMap = r'.profileTagMap)
      (buildConfig b) (buildConfig (b.select e stored)) := by
  have none' : fullConfig (b.select e stored).proxy = none := full'
  unfold buildConfig
  rw [full, none']
  refine (select_buildOutbounds selector group h).bind fun p q alike => ?_
  rw [select_makeOptions group h]
  refine (makeOptions_agree b b.env.mkPort alike).bind fun o o' options => ?_
  exact .ok ⟨congrArg ConfigText.generated options, congrArg (·.tagMap) alike⟩

end Builds

end QuinMo.Config
