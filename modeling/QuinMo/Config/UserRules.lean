import QuinMo.Config.Options

/-!
# Rules of the user

How one stored route rule becomes a route rule and DNS rules.
-/

namespace QuinMo.Config

open Text

/-- Sort one domain entry into the option its marker asks for. -/
def Domains.add (lowercase : String → String) (d : Domains) (it : String) : Domains :=
  if startsWith it "geosite:" then { d with rule_set := d.rule_set ++ [it] }
  else if startsWith it "full:" then
    { d with domain := d.domain ++ [lowercase (removePrefix it "full:")] }
  else if startsWith it "domain:" then
    { d with domain_suffix := d.domain_suffix ++ [lowercase (removePrefix it "domain:")] }
  else if startsWith it "regexp:" then
    { d with domain_regex := d.domain_regex ++ [lowercase (removePrefix it "regexp:")] }
  else if startsWith it "keyword:" then
    { d with domain_keyword := d.domain_keyword ++ [lowercase (removePrefix it "keyword:")] }
  else { d with domain_suffix := d.domain_suffix ++ [lowercase it] }

def notBlank (entries : List String) : List String := entries.filter (!isBlank ·)

def Domains.removeBlank (d : Domains) : Domains where
  domain := notBlank d.domain
  domain_suffix := notBlank d.domain_suffix
  domain_regex := notBlank d.domain_regex
  domain_keyword := notBlank d.domain_keyword
  rule_set := notBlank d.rule_set

def Domains.isEmpty (d : Domains) : Bool :=
  d.domain.isEmpty && d.domain_suffix.isEmpty && d.domain_regex.isEmpty &&
    d.domain_keyword.isEmpty && d.rule_set.isEmpty

/-- `DNSRule_DefaultOptions.makeSingBoxRule`. -/
def DNSRule.makeSingBoxRule (env : Env) (r : DNSRule) (list : List String) : DNSRule :=
  { r with toDomains := (list.foldl (Domains.add env.lowercase) {}).removeBlank }

/-- `DNSRule_DefaultOptions.checkEmpty`. -/
def DNSRule.checkEmpty (r : DNSRule) : Bool := r.toDomains.isEmpty && r.user_id.isEmpty

/-- `Rule_DefaultOptions.makeSingBoxRule` for domains. Rule sets already there stay. -/
def RouteRule.makeSingBoxRuleDomain (env : Env) (r : RouteRule) (list : List String) :
    RouteRule :=
  let domains := list.foldl (Domains.add env.lowercase) { rule_set := r.rule_set }
  { r with toDomains := domains.removeBlank, ip_cidr := notBlank r.ip_cidr }

def RouteRule.addIp (r : RouteRule) (it : String) : RouteRule :=
  if startsWith it "geoip:" then
    if it = "geoip:private" then { r with ip_is_private := true }
    else { r with rule_set := r.rule_set ++ [it] }
  else { r with ip_cidr := r.ip_cidr ++ [it] }

/-- `Rule_DefaultOptions.makeSingBoxRule` for addresses. -/
def RouteRule.makeSingBoxRuleIp (r : RouteRule) (list : List String) : RouteRule :=
  let r := list.foldl RouteRule.addIp { r with ip_cidr := [] }
  { r with toDomains := r.toDomains.removeBlank, ip_cidr := notBlank r.ip_cidr }

/-- `Rule_DefaultOptions.checkEmpty`. -/
def RouteRule.checkEmpty (r : RouteRule) : Bool :=
  r.ip_cidr.isEmpty && !r.ip_is_private && r.toDomains.isEmpty && r.user_id.isEmpty &&
    r.port.isEmpty && r.port_range.isEmpty && r.source_port.isEmpty &&
    r.source_port_range.isEmpty && r.source_ip_cidr.isEmpty && r.network.isEmpty &&
    r.protocol.isEmpty && isBlank r.customConfig

def generateRuleSet (ruleSetString : List String) : List RuleSet :=
  (ruleSetString.filter fun it => startsWith it "geoip:" || startsWith it "geosite:").map
    fun it => { tag := it, path := it }

/-- The user ids of the installed packages; system ids are left out. -/
def uidList (env : Env) (rule : RuleEntity) : List Int :=
  (rule.packages.filterMap fun it => (env.packageUid it).filter fun uid => decide (1000 ≤ uid)).dedup

/-- The ranges and the single ports of a port list; other entries are dropped. -/
def portRanges (text : String) : List String :=
  (listByLineOrComma text).filter (contains · ":")

def ports (text : String) : List Int :=
  ((listByLineOrComma text).filter (!contains · ":")).filterMap toIntOrNull

/-- The tag a rule routes to; blank when it names a profile without an outbound. -/
def ruleOutbound (b : Build) (tagMap : Map Int String) (rule : RuleEntity) : String :=
  if rule.outbound = 0 then TAG_PROXY
  else if rule.outbound = -1 then TAG_BYPASS
  else if rule.outbound = -2 then TAG_BLOCK
  else if rule.outbound = b.proxy.id then TAG_PROXY
  else (tagMap.lookup rule.outbound).getD ""

/-- The route rule of a stored rule before it is checked. -/
def ruleObj (b : Build) (tagMap : Map Int String) (rule : RuleEntity) : RouteRule :=
  let r : RouteRule := { user_id := uidList b.env rule }
  let r := if !isBlank rule.domains then
      r.makeSingBoxRuleDomain b.env (listByLineOrComma rule.domains) else r
  let r := if !isBlank rule.ip then r.makeSingBoxRuleIp (listByLineOrComma rule.ip) else r
  { r with
    port := if !isBlank rule.port then ports rule.port else []
    port_range := if !isBlank rule.port then portRanges rule.port else []
    source_port := if !isBlank rule.sourcePort then ports rule.sourcePort else []
    source_port_range := if !isBlank rule.sourcePort then portRanges rule.sourcePort else []
    network := if !isBlank rule.network then [rule.network] else []
    source_ip_cidr := if !isBlank rule.source then listByLineOrComma rule.source else []
    protocol := if !isBlank rule.protocol then listByLineOrComma rule.protocol else []
    outbound := some (ruleOutbound b tagMap rule)
    customConfig := rule.config }

/-- The route rule that is emitted for a stored rule, if any. A rule without conditions
and one whose profile has no outbound are dropped; blocking is an action. -/
def routeRule (b : Build) (tagMap : Map Int String) (rule : RuleEntity) : Option RouteRule :=
  let r := ruleObj b tagMap rule
  let out := ruleOutbound b tagMap rule
  if r.checkEmpty then none
  else if isBlank out then none
  else if out = TAG_BLOCK then some { r with outbound := none, action := some "reject" }
  else some r

/-- The rule sets an emitted rule brings along. -/
def ruleSets (b : Build) (tagMap : Map Int String) (rule : RuleEntity) : List RuleSet :=
  match routeRule b tagMap rule with
  | some r => generateRuleSet r.rule_set
  | none => []

def makeDnsRuleObj (b : Build) (rule : RuleEntity) : DNSRule :=
  let r : DNSRule := { user_id := uidList b.env rule }
  if !isBlank rule.domains then r.makeSingBoxRule b.env (listByLineOrComma rule.domains) else r

/-- The DNS rules of a stored rule before the empty ones are dropped. -/
def userDNSRules (b : Build) (rule : RuleEntity) : List DNSRule :=
  let r := makeDnsRuleObj b rule
  let directStrategy := autoDnsDomainStrategy b (domainStrategy b.env.settings "dns-direct")
  let remoteStrategy := autoDnsDomainStrategy b (domainStrategy b.env.settings "dns-remote")
  if rule.outbound = -1 then
    [{ r with server := some "dns-direct", strategy := directStrategy }]
  else if rule.outbound = 0 then
    (if b.useFakeDns then
      [{ r with server := some "dns-fake", strategy := some "ipv4_only", inbound := ["tun-in"] }]
    else []) ++ [{ r with server := some "dns-remote", strategy := remoteStrategy }]
  else if rule.outbound = -2 then
    [{ r with action := some "predefined", rcode := some "NOERROR" }]
  else []

theorem Domains.add_rule_set (lowercase : String → String) (d : Domains) (it : String) :
    (d.add lowercase it).rule_set = d.rule_set ++ if startsWith it "geosite:" then [it] else [] := by
  unfold Domains.add
  by_cases h : startsWith it "geosite:" = true
  · simp [h]
  · simp only [h, Bool.false_eq_true, if_false, List.append_nil]
    repeat' split
    all_goals rfl

theorem Domains.foldl_add_rule_set (lowercase : String → String) (list : List String)
    (d : Domains) : (list.foldl (Domains.add lowercase) d).rule_set =
      d.rule_set ++ list.filter (startsWith · "geosite:") := by
  induction list generalizing d with
  | nil => simp
  | cons it list ih =>
    rw [List.foldl_cons, ih, Domains.add_rule_set]
    by_cases h : startsWith it "geosite:" = true <;> simp [h]

/-- An address entry that names a rule set. -/
def isGeoip (it : String) : Bool := startsWith it "geoip:" && it != "geoip:private"

theorem RouteRule.foldl_addIp_rule_set (list : List String) (r : RouteRule) :
    (list.foldl RouteRule.addIp r).rule_set = r.rule_set ++ list.filter isGeoip := by
  induction list generalizing r with
  | nil => simp
  | cons it list ih =>
    rw [List.foldl_cons, ih]
    unfold RouteRule.addIp isGeoip
    by_cases h : startsWith it "geoip:" = true
    · rw [if_pos h]
      by_cases k : it = "geoip:private"
      · simp [k]
      · simp [h, k]
    · simp [h]

/-- The rule sets that the domains of a rule name. -/
def domainSets (rule : RuleEntity) : List String :=
  if !isBlank rule.domains then
    notBlank ((listByLineOrComma rule.domains).filter (startsWith · "geosite:")) else []

/-- The rule sets that the addresses of a rule name. -/
def ipSets (rule : RuleEntity) : List String :=
  if !isBlank rule.ip then notBlank ((listByLineOrComma rule.ip).filter isGeoip) else []

theorem ruleObj_rule_set (b : Build) (tagMap : Map Int String) (rule : RuleEntity) :
    (ruleObj b tagMap rule).rule_set = domainSets rule ++ ipSets rule := by
  unfold ruleObj domainSets ipSets
  cases isBlank rule.domains <;> cases isBlank rule.ip <;>
    simp [RouteRule.makeSingBoxRuleDomain, RouteRule.makeSingBoxRuleIp, Domains.removeBlank,
      Domains.foldl_add_rule_set, RouteRule.foldl_addIp_rule_set, notBlank]

theorem RouteRule.foldl_addIp_inbound (list : List String) (r : RouteRule) :
    (list.foldl RouteRule.addIp r).inbound = r.inbound := by
  induction list generalizing r with
  | nil => rfl
  | cons it list ih =>
    rw [List.foldl_cons, ih]
    unfold RouteRule.addIp
    split
    · split <;> rfl
    · rfl

/-- A rule of the user holds for every inbound. -/
theorem ruleObj_inbound (b : Build) (tagMap : Map Int String) (rule : RuleEntity) :
    (ruleObj b tagMap rule).inbound = [] := by
  unfold ruleObj
  cases isBlank rule.domains <;> cases isBlank rule.ip <;>
    simp [RouteRule.makeSingBoxRuleDomain, RouteRule.makeSingBoxRuleIp,
      RouteRule.foldl_addIp_inbound]

theorem makeDnsRuleObj_rule_set (b : Build) (rule : RuleEntity) :
    (makeDnsRuleObj b rule).rule_set = domainSets rule := by
  unfold makeDnsRuleObj domainSets
  cases isBlank rule.domains <;>
    simp [DNSRule.makeSingBoxRule, Domains.removeBlank, Domains.foldl_add_rule_set]

variable {tagMap : Map Int String} {rule : RuleEntity}

/-- Every rule set a stored rule names is one that can be generated. -/
theorem ruleObj_rule_set_local {b : Build} {t : String} (h : t ∈ (ruleObj b tagMap rule).rule_set) :
    (startsWith t "geoip:" || startsWith t "geosite:") = true := by
  rw [ruleObj_rule_set, List.mem_append] at h
  rcases h with h | h
  · unfold domainSets at h
    split at h
    · simp only [notBlank, List.mem_filter] at h
      simp [h.1.2]
    · simp at h
  · unfold ipSets at h
    split at h
    · simp only [notBlank, List.mem_filter, isGeoip, Bool.and_eq_true] at h
      simp [h.1.2.1]
    · simp at h

theorem routeRule_exists {b : Build} (lasting : (ruleObj b tagMap rule).checkEmpty = false)
    (named : isBlank (ruleOutbound b tagMap rule) = false) :
    ∃ r, routeRule b tagMap rule = some r := by
  unfold routeRule
  simp only [lasting, named, Bool.false_eq_true, if_false]
  split
  · exact ⟨_, rfl⟩
  · exact ⟨_, rfl⟩

/-- What is emitted for a rule has the matchers that were collected for it. -/
theorem routeRule_eq {b : Build} {r : RouteRule} (h : routeRule b tagMap rule = some r) :
    (ruleObj b tagMap rule).checkEmpty = false ∧
      isBlank (ruleOutbound b tagMap rule) = false ∧
      ((ruleOutbound b tagMap rule = TAG_BLOCK ∧
          r = { ruleObj b tagMap rule with outbound := none, action := some "reject" }) ∨
        (ruleOutbound b tagMap rule ≠ TAG_BLOCK ∧ r = ruleObj b tagMap rule)) := by
  unfold routeRule at h
  simp only at h
  split at h
  · cases h
  · rename_i notEmpty
    split at h
    · cases h
    · rename_i named
      refine ⟨by simpa using notEmpty, by simpa using named, ?_⟩
      split at h
      · rename_i block
        cases h
        exact .inl ⟨block, rfl⟩
      · rename_i route
        cases h
        exact .inr ⟨route, rfl⟩

theorem routeRule_rule_set {b : Build} {r : RouteRule} (h : routeRule b tagMap rule = some r) :
    r.rule_set = (ruleObj b tagMap rule).rule_set := by
  obtain ⟨_, _, ⟨_, rfl⟩ | ⟨_, rfl⟩⟩ := routeRule_eq h <;> rfl

end QuinMo.Config
