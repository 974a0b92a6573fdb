import QuinMo.Config.Closure

/-!
# The conditions of a rule

A stored rule has up to eight conditions. Entries that cannot be used are dropped, and a condition
without entries is not written into the rule.
-/

namespace QuinMo.Config

open Text

/-- What one domain entry asks for. -/
inductive DomainMatcher where
  | set (text : String)
  | full (text : String)
  | suffix_ (text : String)
  | regex (text : String)
  | keyword (text : String)
  deriving DecidableEq, Repr

def DomainMatcher.text : DomainMatcher → String
  | .set text | .full text | .suffix_ text | .regex text | .keyword text => text

def domainMatcher (lowercase : String → String) (it : String) : DomainMatcher :=
  if startsWith it "geosite:" then .set it
  else if startsWith it "full:" then .full (lowercase (removePrefix it "full:"))
  else if startsWith it "domain:" then .suffix_ (lowercase (removePrefix it "domain:"))
  else if startsWith it "regexp:" then .regex (lowercase (removePrefix it "regexp:"))
  else if startsWith it "keyword:" then .keyword (lowercase (removePrefix it "keyword:"))
  else .suffix_ (lowercase it)

def Domains.Has (d : Domains) : DomainMatcher → Prop
  | .set text => text ∈ d.rule_set
  | .full text => text ∈ d.domain
  | .suffix_ text => text ∈ d.domain_suffix
  | .regex text => text ∈ d.domain_regex
  | .keyword text => text ∈ d.domain_keyword

/-- What one address entry asks for. -/
inductive IpMatcher where
  | private_
  | set (text : String)
  | cidr (text : String)
  deriving DecidableEq, Repr

def ipMatcher (it : String) : IpMatcher :=
  if startsWith it "geoip:" then if it = "geoip:private" then .private_ else .set it
  else .cidr it

def RouteRule.HasIp (r : RouteRule) : IpMatcher → Prop
  | .private_ => r.ip_is_private = true
  | .set text => text ∈ r.rule_set
  | .cidr text => text ∈ r.ip_cidr

inductive Field where
  | packages | domains | ip | port | sourcePort | network | source | protocol
  deriving DecidableEq, Repr

namespace Field

/-- The user has filled in the condition. -/
def written (rule : RuleEntity) : Field → Bool
  | packages => !rule.packages.isEmpty
  | domains => !isBlank rule.domains
  | ip => !isBlank rule.ip
  | port => !isBlank rule.port
  | sourcePort => !isBlank rule.sourcePort
  | network => !isBlank rule.network
  | source => !isBlank rule.source
  | protocol => !isBlank rule.protocol

/-- A port entry is a range or a number. -/
def portEntry (it : String) : Bool := contains it ":" || (toIntOrNull it).isSome

/-- The condition has an entry that is not dropped: a package that is installed and not
of the system, a domain with a body, a port that can be read, any other entry. -/
def usable (env : Env) (rule : RuleEntity) : Field → Bool
  | packages => rule.packages.any fun it =>
      (env.packageUid it).any fun uid => decide (1000 ≤ uid)
  | domains => (listByLineOrComma rule.domains).any fun it =>
      !isBlank (domainMatcher env.lowercase it).text
  | ip => !(listByLineOrComma rule.ip).isEmpty
  | port => (listByLineOrComma rule.port).any portEntry
  | sourcePort => (listByLineOrComma rule.sourcePort).any portEntry
  | network => true
  | source => !(listByLineOrComma rule.source).isEmpty
  | protocol => !(listByLineOrComma rule.protocol).isEmpty

end Field

/-- One of the users belongs to a package of the rule. -/
def PackagesMatched (env : Env) (rule : RuleEntity) (user_id : List Int) : Prop :=
  ∃ it ∈ rule.packages, ∃ uid, env.packageUid it = some uid ∧ uid ∈ user_id

def DomainsMatched (env : Env) (rule : RuleEntity) (d : Domains) : Prop :=
  ∃ it ∈ listByLineOrComma rule.domains, d.Has (domainMatcher env.lowercase it)

def PortsMatched (text : String) (ports : List Int) (ranges : List String) : Prop :=
  ∃ it ∈ listByLineOrComma text, it ∈ ranges ∨ ∃ n, toIntOrNull it = some n ∧ n ∈ ports

/-- The rule has a matcher that comes from the condition. -/
def Field.Matched (env : Env) (rule : RuleEntity) (r : RouteRule) : Field → Prop
  | packages => PackagesMatched env rule r.user_id
  | domains => DomainsMatched env rule r.toDomains
  | ip => ∃ it ∈ listByLineOrComma rule.ip, r.HasIp (ipMatcher it)
  | port => PortsMatched rule.port r.port r.port_range
  | sourcePort => PortsMatched rule.sourcePort r.source_port r.source_port_range
  | network => rule.network ∈ r.network
  | source => ∃ it ∈ listByLineOrComma rule.source, it ∈ r.source_ip_cidr
  | protocol => ∃ it ∈ listByLineOrComma rule.protocol, it ∈ r.protocol

/-- The DNS rules that are emitted for a stored rule. -/
def emittedDNSRules (b : Build) (rule : RuleEntity) : List DNSRule :=
  if b.env.settings.enableDnsRouting then (userDNSRules b rule).filter (!·.checkEmpty) else []

/-- Every condition the user has filled in is there in what is emitted for the rule. -/
structure NotWidened (b : Build) (result : ConfigBuildResult) (rule : RuleEntity) : Prop where
  route : ∀ r, routeRule b result.profileTagMap rule = some r →
    ∀ f : Field, f.written rule → f.Matched b.env rule r
  dnsPackages : ∀ r ∈ emittedDNSRules b rule, Field.packages.written rule →
    PackagesMatched b.env rule r.user_id
  dnsDomains : ∀ r ∈ emittedDNSRules b rule, Field.domains.written rule →
    DomainsMatched b.env rule r.toDomains

/-- The rule routes to something: a built-in outbound, the selected profile, or a stored
profile that is built. -/
def Routable (b : Build) (rule : RuleEntity) : Prop :=
  rule.outbound = 0 ∨ rule.outbound = -1 ∨ rule.outbound = -2 ∨ rule.outbound = b.proxy.id ∨
    ∃ e ∈ b.db.proxies.rows, e.id = rule.outbound ∧
      (0 < e.id ∨ (b.buildSelector = true ∧ e.groupId = b.proxy.groupId))

/-- Something is left of the rule. -/
def Lasting (env : Env) (rule : RuleEntity) : Prop :=
  (∃ f : Field, f.written rule ∧ f.usable env rule) ∨ isBlank rule.config = false

/-- The rule is dropped as a whole, or each of its conditions has an entry that is not
dropped. -/
def KeptWhole (b : Build) (rule : RuleEntity) : Prop :=
  Routable b rule → Lasting b.env rule → ∀ f : Field, f.written rule → f.usable b.env rule

namespace Domains

theorem add_has (lowercase : String → String) (d : Domains) (it : String) (m : DomainMatcher) :
    (d.add lowercase it).Has m ↔ d.Has m ∨ m = domainMatcher lowercase it := by
  unfold add domainMatcher
  repeat' split
  all_goals cases m <;> simp [Has]

theorem foldl_add_has (lowercase : String → String) (list : List String) (d : Domains)
    (m : DomainMatcher) : (list.foldl (add lowercase) d).Has m ↔
      d.Has m ∨ ∃ it ∈ list, m = domainMatcher lowercase it := by
  induction list generalizing d with
  | nil => simp
  | cons it list ih =>
    rw [List.foldl_cons, ih, add_has]
    simp [or_assoc]

theorem removeBlank_has (d : Domains) (m : DomainMatcher) :
    d.removeBlank.Has m ↔ d.Has m ∧ isBlank m.text = false := by
  cases m <;> simp [Has, removeBlank, notBlank, DomainMatcher.text]

theorem not_isEmpty (d : Domains) : d.isEmpty = false ↔ ∃ m, d.Has m := by
  constructor
  · intro h
    by_contra none
    have absent {l : List String} (k : String → DomainMatcher) (hk : ∀ t, d.Has (k t) ↔ t ∈ l) :
        l = [] := List.eq_nil_iff_forall_not_mem.mpr fun t ht => none ⟨k t, (hk t).mpr ht⟩
    have : d.isEmpty = true := by
      simp [isEmpty, absent .full fun _ => Iff.rfl, absent .suffix_ fun _ => Iff.rfl,
        absent .regex fun _ => Iff.rfl, absent .keyword fun _ => Iff.rfl,
        absent .set fun _ => Iff.rfl]
    simp [this] at h
  · rintro ⟨m, has⟩
    by_contra empty
    simp only [Bool.not_eq_false, isEmpty, Bool.and_eq_true, List.isEmpty_iff] at empty
    cases m <;> simp [Has, empty] at has

end Domains

namespace RouteRule

theorem addIp_hasIp (r : RouteRule) (it : String) (m : IpMatcher) :
    (r.addIp it).HasIp m ↔ r.HasIp m ∨ m = ipMatcher it := by
  unfold addIp ipMatcher
  repeat' split
  all_goals cases m <;> simp [HasIp]

theorem foldl_addIp_hasIp (list : List String) (r : RouteRule) (m : IpMatcher) :
    (list.foldl addIp r).HasIp m ↔ r.HasIp m ∨ ∃ it ∈ list, m = ipMatcher it := by
  induction list generalizing r with
  | nil => simp
  | cons it list ih =>
    rw [List.foldl_cons, ih, addIp_hasIp]
    simp [or_assoc]

/-- Addresses add rule sets to the matchers for domains and nothing else. -/
theorem foldl_addIp_has (list : List String) (r : RouteRule) (m : DomainMatcher) :
    (list.foldl addIp r).toDomains.Has m ↔
      r.toDomains.Has m ∨ ∃ it ∈ list, ∃ s, .set s = ipMatcher it ∧ m = .set s := by
  cases m with
  | set s =>
    have := foldl_addIp_hasIp list r (.set s)
    simpa [HasIp, Domains.Has] using this
  | _ =>
    simp only [reduceCtorEq, and_false, exists_const, or_false]
    induction list generalizing r with
    | nil => rfl
    | cons it list ih =>
      rw [List.foldl_cons, ih]
      unfold addIp
      repeat' split
      all_goals rfl

end RouteRule

section
variable (b : Build) (tagMap : Map Int String) (rule : RuleEntity)

theorem ruleObj_has (m : DomainMatcher) : (ruleObj b tagMap rule).toDomains.Has m ↔
    isBlank m.text = false ∧
      ((Field.domains.written rule = true ∧
          ∃ it ∈ listByLineOrComma rule.domains, m = domainMatcher b.env.lowercase it) ∨
        (Field.ip.written rule = true ∧
          ∃ it ∈ listByLineOrComma rule.ip, ∃ s, .set s = ipMatcher it ∧ m = .set s)) := by
  have none : ({} : Domains).Has m ↔ False := by cases m <;> simp [Domains.Has]
  unfold ruleObj Field.written
  cases isBlank rule.domains <;> cases isBlank rule.ip <;>
    by_cases blank : isBlank m.text = false <;>
    simp [RouteRule.makeSingBoxRuleDomain, RouteRule.makeSingBoxRuleIp, Domains.removeBlank_has,
      Domains.foldl_add_has, RouteRule.foldl_addIp_has, none, blank]

theorem ruleObj_private : (ruleObj b tagMap rule).ip_is_private = true ↔
    Field.ip.written rule = true ∧
      ∃ it ∈ listByLineOrComma rule.ip, .private_ = ipMatcher it := by
  have added (r : RouteRule) := RouteRule.foldl_addIp_hasIp (listByLineOrComma rule.ip) r .private_
  simp only [RouteRule.HasIp] at added
  unfold ruleObj Field.written
  cases isBlank rule.domains <;> cases isBlank rule.ip <;>
    simp [RouteRule.makeSingBoxRuleDomain, RouteRule.makeSingBoxRuleIp, added]

theorem ruleObj_ip_cidr (s : String) : s ∈ (ruleObj b tagMap rule).ip_cidr ↔
    isBlank s = false ∧ Field.ip.written rule = true ∧
      ∃ it ∈ listByLineOrComma rule.ip, .cidr s = ipMatcher it := by
  have added (r : RouteRule) := RouteRule.foldl_addIp_hasIp (listByLineOrComma rule.ip) r (.cidr s)
  simp only [RouteRule.HasIp] at added
  unfold ruleObj Field.written
  cases isBlank rule.domains <;> cases isBlank rule.ip <;>
    simp [RouteRule.makeSingBoxRuleDomain, RouteRule.makeSingBoxRuleIp, notBlank, added, and_comm]

theorem makeDnsRuleObj_has (m : DomainMatcher) : (makeDnsRuleObj b rule).toDomains.Has m ↔
    isBlank m.text = false ∧ Field.domains.written rule = true ∧
      ∃ it ∈ listByLineOrComma rule.domains, m = domainMatcher b.env.lowercase it := by
  have none : ({} : Domains).Has m ↔ False := by cases m <;> simp [Domains.Has]
  unfold makeDnsRuleObj Field.written
  cases isBlank rule.domains <;>
    simp [DNSRule.makeSingBoxRule, Domains.removeBlank_has, Domains.foldl_add_has, none, and_comm]

/-- The parts of the rule that are filled in after the domains and addresses. -/
theorem ruleObj_user_id : (ruleObj b tagMap rule).user_id = uidList b.env rule := by
  have kept (list : List String) (r : RouteRule) :
      (list.foldl RouteRule.addIp r).user_id = r.user_id := by
    induction list generalizing r with
    | nil => rfl
    | cons it list ih =>
      rw [List.foldl_cons, ih]
      unfold RouteRule.addIp
      repeat' split
      all_goals rfl
  unfold ruleObj
  cases isBlank rule.domains <;> cases isBlank rule.ip <;>
    simp [RouteRule.makeSingBoxRuleDomain, RouteRule.makeSingBoxRuleIp, kept]

theorem makeDnsRuleObj_user_id : (makeDnsRuleObj b rule).user_id = uidList b.env rule := by
  unfold makeDnsRuleObj
  split <;> rfl

end

/-! ## Conditions that are kept -/

section
variable {b : Build} {tagMap : Map Int String} {rule : RuleEntity}

theorem mem_uidList {env : Env} {uid : Int} : uid ∈ uidList env rule ↔
    ∃ it ∈ rule.packages, env.packageUid it = some uid ∧ 1000 ≤ uid := by
  simp [uidList]

theorem packages_matched_iff {env : Env} :
    PackagesMatched env rule (uidList env rule) ↔ Field.packages.usable env rule = true := by
  simp only [PackagesMatched, Field.usable, List.any_eq_true, Option.any_eq_true, mem_uidList,
    decide_eq_true_eq]
  constructor
  · rintro ⟨_, _, uid, _, it, listed, installed, user⟩
    exact ⟨it, listed, uid, installed, user⟩
  · rintro ⟨it, listed, uid, installed, user⟩
    exact ⟨it, listed, uid, installed, it, listed, installed, user⟩

theorem ports_matched_iff (text : String) : PortsMatched text (ports text) (portRanges text) ↔
      (listByLineOrComma text).any Field.portEntry = true := by
  simp only [PortsMatched, ports, portRanges, List.mem_filter, List.mem_filterMap,
    List.any_eq_true, Field.portEntry, Bool.or_eq_true, Option.isSome_iff_exists]
  constructor
  · rintro ⟨it, listed, ⟨_, range⟩ | ⟨n, number, _⟩⟩
    · exact ⟨it, listed, .inl range⟩
    · exact ⟨it, listed, .inr ⟨n, number⟩⟩
  · rintro ⟨it, listed, kept⟩
    by_cases range : contains it ":" = true
    · exact ⟨it, listed, .inl ⟨listed, range⟩⟩
    · obtain ⟨n, number⟩ := kept.resolve_left range
      exact ⟨it, listed, .inr ⟨n, number, it, ⟨listed, by simpa using range⟩, number⟩⟩

theorem entries_matched_iff (list : List String) :
    (∃ it ∈ list, it ∈ list) ↔ (!list.isEmpty) = true := by
  cases list <;> simp

theorem ipMatcher_text {it s : String} (kind : ipMatcher it = .set s ∨ ipMatcher it = .cidr s) :
    it = s := by
  unfold ipMatcher at kind
  repeat' split at kind
  all_goals rcases kind with kind | kind <;> cases kind <;> rfl

/-- A condition that is filled in is there exactly when it has an entry that is not
dropped. -/
theorem matched_iff (f : Field) (filled : f.written rule = true) :
    f.Matched b.env rule (ruleObj b tagMap rule) ↔ f.usable b.env rule = true := by
  cases f with
  | packages =>
    rw [Field.Matched, ruleObj_user_id]
    exact packages_matched_iff
  | domains =>
    simp only [Field.Matched, DomainsMatched, ruleObj_has, Field.usable, List.any_eq_true,
      Bool.not_eq_true']
    constructor
    · rintro ⟨it, listed, body, _⟩
      exact ⟨it, listed, body⟩
    · rintro ⟨it, listed, body⟩
      exact ⟨it, listed, body, .inl ⟨filled, it, listed, rfl⟩⟩
  | ip =>
    simp only [Field.Matched, Field.usable]
    constructor
    · rintro ⟨it, listed, _⟩
      exact (entries_matched_iff _).mp ⟨it, listed, listed⟩
    · intro left
      obtain ⟨it, listed, _⟩ := (entries_matched_iff _).mpr left
      have body := listByLineOrComma_not_blank listed
      refine ⟨it, listed, ?_⟩
      cases kind : ipMatcher it with
      | private_ => exact (ruleObj_private b tagMap rule).mpr ⟨filled, it, listed, kind.symm⟩
      | set s =>
        exact (ruleObj_has b tagMap rule (.set s)).mpr
          ⟨ipMatcher_text (.inl kind) ▸ body, .inr ⟨filled, it, listed, s, kind.symm, rfl⟩⟩
      | cidr s =>
        exact (ruleObj_ip_cidr b tagMap rule s).mpr
          ⟨ipMatcher_text (.inr kind) ▸ body, filled, it, listed, kind.symm⟩
  | port =>
    have kept : isBlank rule.port = false := by simpa [Field.written] using filled
    have := ports_matched_iff rule.port
    simpa [Field.Matched, ruleObj, kept, Field.usable] using this
  | sourcePort =>
    have kept : isBlank rule.sourcePort = false := by simpa [Field.written] using filled
    have := ports_matched_iff rule.sourcePort
    simpa [Field.Matched, ruleObj, kept, Field.usable] using this
  | network =>
    have kept : isBlank rule.network = false := by simpa [Field.written] using filled
    simp [Field.Matched, ruleObj, kept, Field.usable]
  | source =>
    have kept : isBlank rule.source = false := by simpa [Field.written] using filled
    have := entries_matched_iff (listByLineOrComma rule.source)
    simpa [Field.Matched, ruleObj, kept, Field.usable] using this
  | protocol =>
    have kept : isBlank rule.protocol = false := by simpa [Field.written] using filled
    have := entries_matched_iff (listByLineOrComma rule.protocol)
    simpa [Field.Matched, ruleObj, kept, Field.usable] using this

/-- A rule with a matcher is not empty. -/
theorem Field.Matched.not_empty {env : Env} {f : Field} {r : RouteRule}
    (h : f.Matched env rule r) : r.checkEmpty = false := by
  by_contra empty
  simp only [Bool.not_eq_false, RouteRule.checkEmpty, Bool.and_eq_true, List.isEmpty_iff,
    Bool.not_eq_true'] at empty
  obtain ⟨⟨⟨⟨⟨⟨⟨⟨⟨⟨⟨cidr, lan⟩, domains⟩, users⟩, ports⟩, ranges⟩, sourcePorts⟩, sourceRanges⟩,
    sources⟩, network⟩, protocol⟩, _⟩ := empty
  have none (m : DomainMatcher) : ¬ r.toDomains.Has m := by
    intro has
    have := r.toDomains.not_isEmpty.mpr ⟨m, has⟩
    simp [domains] at this
  cases f with
  | packages =>
    obtain ⟨_, _, _, _, user⟩ := h
    simp [users] at user
  | domains =>
    obtain ⟨_, _, has⟩ := h
    exact none _ has
  | ip =>
    obtain ⟨it, _, has⟩ := h
    cases kind : ipMatcher it with
    | private_ => simp [kind, RouteRule.HasIp, lan] at has
    | set s =>
      rw [kind] at has
      exact none (.set s) has
    | cidr s => simp [kind, RouteRule.HasIp, cidr] at has
  | port => simp [Field.Matched, PortsMatched, ports, ranges] at h
  | sourcePort => simp [Field.Matched, PortsMatched, sourcePorts, sourceRanges] at h
  | network => simp [Field.Matched, network] at h
  | source => simp [Field.Matched, sources] at h
  | protocol => simp [Field.Matched, protocol] at h

/-- A rule of whose conditions nothing can be used is empty. -/
theorem ruleObj_empty (dropped : ∀ f : Field, f.written rule = true → f.usable b.env rule = false)
    (config : isBlank rule.config = true) : (ruleObj b tagMap rule).checkEmpty = true := by
  have noIp (filled : Field.ip.written rule = true) (it : String) :
      it ∉ listByLineOrComma rule.ip := by
    have left : listByLineOrComma rule.ip = [] := by
      simpa [Field.usable] using dropped .ip filled
    simp [left]
  have domains : (ruleObj b tagMap rule).toDomains.isEmpty = true := by
    by_contra some
    obtain ⟨m, has⟩ := (Domains.not_isEmpty _).mp (Bool.not_eq_true _ ▸ some)
    obtain ⟨body, ⟨filled, it, listed, rfl⟩ | ⟨filled, it, listed, _⟩⟩ :=
      (ruleObj_has b tagMap rule m).mp has
    · have none := dropped .domains filled
      simp only [Field.usable, List.any_eq_false, Bool.not_eq_true', Bool.not_eq_false] at none
      have := none it listed
      simp [body] at this
    · exact noIp filled it listed
  have cidr : (ruleObj b tagMap rule).ip_cidr = [] := by
    rw [List.eq_nil_iff_forall_not_mem]
    intro s hs
    obtain ⟨_, filled, it, listed, _⟩ := (ruleObj_ip_cidr b tagMap rule s).mp hs
    exact noIp filled it listed
  have lan : (ruleObj b tagMap rule).ip_is_private = false := by
    by_contra on
    obtain ⟨filled, it, listed, _⟩ := (ruleObj_private b tagMap rule).mp (by simpa using on)
    exact noIp filled it listed
  have users : (ruleObj b tagMap rule).user_id = [] := by
    rw [ruleObj_user_id, List.eq_nil_iff_forall_not_mem]
    intro uid user
    obtain ⟨it, listed, installed, _⟩ := mem_uidList.mp user
    have filled : Field.packages.written rule = true := by
      simp [Field.written, List.ne_nil_of_mem listed]
    have none := dropped .packages filled
    rw [packages_matched_iff.mp ⟨it, listed, uid, installed, user⟩] at none
    cases none
  have portList (text : String)
      (none : isBlank text = false → (listByLineOrComma text).any Field.portEntry = false) :
      (if !isBlank text then ports text else []) = [] ∧
        (if !isBlank text then portRanges text else []) = [] := by
    cases filled : isBlank text with
    | true => simp
    | false =>
      have none := List.any_eq_false.mp (none filled)
      simp only [Bool.not_false, if_true, List.eq_nil_iff_forall_not_mem]
      constructor
      · intro n hn
        simp only [ports, List.mem_filterMap, List.mem_filter] at hn
        obtain ⟨it, ⟨listed, _⟩, number⟩ := hn
        exact none it listed (by simp [Field.portEntry, number])
      · intro it range
        simp only [portRanges, List.mem_filter] at range
        exact none it range.1 (by simp [Field.portEntry, range.2])
  have entries (text : String) (none : isBlank text = false → listByLineOrComma text = []) :
      (if !isBlank text then listByLineOrComma text else []) = [] := by
    cases filled : isBlank text with
    | true => simp
    | false => simpa using none filled
  have port := portList rule.port fun filled => dropped .port (by simp [Field.written, filled])
  have sourcePort := portList rule.sourcePort fun filled =>
    dropped .sourcePort (by simp [Field.written, filled])
  have source := entries rule.source fun filled => by
    simpa [Field.usable] using dropped .source (by simp [Field.written, filled])
  have protocol := entries rule.protocol fun filled => by
    simpa [Field.usable] using dropped .protocol (by simp [Field.written, filled])
  have network : isBlank rule.network = true := by
    by_contra filled
    have := dropped .network (by simpa [Field.written] using filled)
    simp [Field.usable] at this
  unfold RouteRule.checkEmpty
  rw [domains, cidr, lan, users]
  unfold ruleObj
  simp only [port, sourcePort, network, source, protocol, config, List.isEmpty_nil, Bool.not_true,
    Bool.not_false, Bool.and_self, Bool.false_eq_true, if_false]

theorem ruleObj_lasting : (ruleObj b tagMap rule).checkEmpty = false ↔ Lasting b.env rule := by
  constructor
  · intro notEmpty
    by_contra none
    rw [Lasting, not_or, not_exists] at none
    have : (ruleObj b tagMap rule).checkEmpty = true := by
      refine ruleObj_empty ?_ (by simpa using none.2)
      intro f filled
      by_contra used
      exact none.1 f ⟨filled, by simpa using used⟩
    simp [this] at notEmpty
  · rintro (⟨f, filled, used⟩ | config)
    · exact ((matched_iff f filled).mpr used).not_empty
    · unfold RouteRule.checkEmpty
      have own : (ruleObj b tagMap rule).customConfig = rule.config := rfl
      simp [own, config]

end

/-! ## Rules that route somewhere -/

theorem isBlank_append (s t : String) : isBlank (s ++ t) = (isBlank s && isBlank t) := by
  simp [isBlank, String.toList_append]

theorem displayName_not_blank (hashCode : Bean → Int) (bean : Bean) :
    isBlank (bean.displayName hashCode) = false := by
  have colon : isBlank ":" = false := by decide
  unfold Bean.displayName
  split
  · rename_i named
    simpa using named
  · split
    · rw [isBlank_append, show isBlank "Chain " = false by decide, Bool.false_and]
    · rw [isBlank_append, show isBlank "Custom " = false by decide, Bool.false_and]
    · unfold Bean.displayAddress
      split
      · simp [isBlank_append, colon]
      · simp_all
      · simp_all
      · simp [isBlank_append, colon]

theorem selectorName_not_blank {names : List String} {name : String}
    (h : isBlank name = false) : isBlank (selectorName names name) = false := by
  unfold selectorName selectorCandidate
  dsimp only
  repeat' split
  all_goals simp [isBlank_append, h]

section
variable {b : Build} {p selected : Progress}

theorem place_not_blank (follows : Follows b (headViews b selected) p (plan b)) {q : Place}
    (filled : q ∈ placesOf (plan b).calls) : isBlank q.text = false := by
  cases q with
  | proxy => decide
  | entry id => simp [Place.text, isBlank_append, show isBlank "g-" = false by decide]
  | inner c id => simp [Place.text, isBlank_append, show isBlank "c-" = false by decide]
  | named name =>
    have once := (plan_built b).plainOnce fun c hc => (follows.shared.resolved c hc).2
    obtain ⟨hs, issued, _⟩ := once.named name filled
    rw [issuedNames, if_pos hs] at issued
    obtain ⟨c, hc, rfl⟩ := List.mem_map.mp issued
    obtain ⟨pre, post, split⟩ := List.append_of_mem hc
    rw [Place.text, (plan_orderly b).sequenced pre c post split]
    simp only [planCall, firstPlace, hs, if_true, Place.text]
    exact selectorName_not_blank (displayName_not_blank _ _)

theorem requests_keys (es : List Profile) (q : Plan) :
    (es.foldl (Plan.request b) q).tags.map Prod.fst = q.tags.map Prod.fst ++ es.map (·.id) := by
  induction es generalizing q with
  | nil => simp
  | cons e es ih =>
    have one : (q.request b e).tags.map Prod.fst = q.tags.map Prod.fst ++ [e.id] := by
      unfold Plan.request
      split <;> simp
    rw [List.foldl_cons, ih, one]
    simp

/-- The profiles that get a tag: the members of the selector and those rules point to. -/
theorem plan_keys (k : Int) : k ∈ (plan b).tags.map Prod.fst ↔
    (b.buildSelector = true ∧
        ∃ e ∈ b.db.proxies.rows, e.groupId = b.proxy.groupId ∧ e.id = k) ∨
      ∃ e ∈ b.extraProxies, e.id = k := by
  unfold plan planSelected
  rw [requests_keys, List.mem_append]
  refine or_congr ?_ List.mem_map
  cases hs : b.buildSelector with
  | true =>
    simp [requests_keys, Database.mem_getByGroup, and_assoc]
  | false => simp

theorem tag_isSome_iff {q : Plan} {k : Int} : (q.tag k).isSome ↔ k ∈ q.tags.map Prod.fst := by
  constructor
  · intro h
    obtain ⟨place, tag⟩ := Option.isSome_iff_exists.mp h
    exact List.mem_map.mpr ⟨(k, place), Plan.mem_of_tag tag, rfl⟩
  · intro h
    obtain ⟨⟨k, place⟩, listed, rfl⟩ := List.mem_map.mp h
    obtain ⟨place', tag⟩ := Plan.tag_isSome listed
    simp [tag]

/-- A rule has a tag to route to exactly when it names something that is there. -/
theorem routable_iff (follows : Follows b (headViews b selected) p (plan b)) {rule : RuleEntity}
    (listed : rule ∈ b.extraRules) :
    isBlank (ruleOutbound b p.tagMap rule) = false ↔ Routable b rule := by
  unfold ruleOutbound Routable
  by_cases proxy : rule.outbound = 0
  · simp [proxy, show isBlank TAG_PROXY = false by decide]
  by_cases bypass : rule.outbound = -1
  · simp [bypass, show isBlank TAG_BYPASS = false by decide]
  by_cases block : rule.outbound = -2
  · simp [block, show isBlank TAG_BLOCK = false by decide]
  by_cases main : rule.outbound = b.proxy.id
  · simp only [proxy, bypass, block, if_false, if_pos main, false_or]
    exact ⟨fun _ => .inl main, fun _ => by decide⟩
  simp only [proxy, bypass, block, main, if_false, false_or]
  have named : isBlank ((p.tagMap.lookup rule.outbound).getD "") = false ↔
      ((plan b).tag rule.outbound).isSome := by
    rw [follows.tags]
    cases tag : (plan b).tag rule.outbound with
    | none => simp [isBlank]
    | some place =>
      have filled := (plan_orderly b).tag_filled (plan_built b).assigned
        (fun c hc => (follows.shared.resolved c hc).2) tag
      simp [place_not_blank follows filled]
  rw [named, tag_isSome_iff, plan_keys]
  constructor
  · rintro (⟨hs, e, stored, group, id⟩ | ⟨e, extra, id⟩)
    · exact ⟨e, stored, id, .inr ⟨hs, group⟩⟩
    · obtain ⟨stored, positive, _⟩ := mem_extraProxies extra
      exact ⟨e, stored, id, .inl positive⟩
  · rintro ⟨e, stored, id, positive | ⟨hs, group⟩⟩
    · refine .inr ⟨e, ?_, id⟩
      unfold Build.extraProxies
      unfold Build.extraRules at listed ⊢
      split at listed
      · simp at listed
      · rename_i real
        rw [if_neg real, Database.mem_getEntities, List.mem_dedup, List.mem_filter, if_neg real]
        refine ⟨stored, List.mem_map.mpr ⟨rule, listed, id.symm⟩, ?_⟩
        rw [id] at positive ⊢
        simp [positive, main]
    · exact .inl ⟨hs, e, stored, group, id⟩

end

section
variable {b : Build} {tagMap : Map Int String} {rule : RuleEntity}

theorem routeRule_matched {r : RouteRule} (h : routeRule b tagMap rule = some r) (f : Field) :
    f.Matched b.env rule r ↔ f.Matched b.env rule (ruleObj b tagMap rule) := by
  obtain ⟨_, _, ⟨_, rfl⟩ | ⟨_, rfl⟩⟩ := routeRule_eq h
  · cases f <;> exact Iff.rfl
  · exact Iff.rfl

/-- What a DNS rule for the rule keeps of the packages and the domains. -/
theorem emittedDNSRules_spec {r : DNSRule} (h : r ∈ emittedDNSRules b rule) :
    r.user_id = uidList b.env rule ∧ r.toDomains = (makeDnsRuleObj b rule).toDomains ∧
      Routable b rule ∧ Lasting b.env rule := by
  unfold emittedDNSRules at h
  split at h
  · obtain ⟨made, notEmpty⟩ := List.mem_filter.mp h
    obtain ⟨domains, users, target, _⟩ := userDNSRules_server made
    rw [makeDnsRuleObj_user_id] at users
    refine ⟨users, domains, ?_, .inl ?_⟩
    · rcases target with bypass | proxy | block
      · exact .inr (.inl bypass)
      · exact .inl proxy
      · exact .inr (.inr (.inl block))
    · have left : r.toDomains.isEmpty = false ∨ r.user_id ≠ [] := by
        simpa [DNSRule.checkEmpty, ← Bool.not_eq_true, imp_iff_not_or] using notEmpty
      rcases left with left | left
      · obtain ⟨m, has⟩ := (Domains.not_isEmpty _).mp left
        rw [domains] at has
        obtain ⟨body, filled, it, listed, rfl⟩ := (makeDnsRuleObj_has b rule m).mp has
        refine ⟨.domains, filled, ?_⟩
        exact List.any_eq_true.mpr ⟨it, listed, by simp [body]⟩
      · obtain ⟨uid, user⟩ := List.exists_mem_of_ne_nil _ left
        rw [users] at user
        obtain ⟨it, listed, installed, _⟩ := mem_uidList.mp user
        refine ⟨.packages, by simp [Field.written, List.ne_nil_of_mem listed], ?_⟩
        exact packages_matched_iff.mp ⟨it, listed, uid, installed, user⟩
  · simp at h

end

/-- No condition of a rule is lost exactly when the rule is dropped as a whole or none
of its conditions loses every entry. -/
theorem buildConfig_notWidened_iff {b : Build} {result : ConfigBuildResult} {o : Options}
    (built : buildConfig b = .ok result) (generated : result.config = .generated o)
    {rule : RuleEntity} (listed : rule ∈ b.extraRules) :
    NotWidened b result rule ↔ KeptWhole b rule := by
  obtain ⟨p, outs, _, _, tagMap⟩ := buildConfig_generated built generated
  obtain ⟨selected, _, follows⟩ := buildOutbounds_follows outs
  have routable := routable_iff follows listed
  constructor
  · intro kept routes lasting f filled
    obtain ⟨r, emitted⟩ := routeRule_exists (ruleObj_lasting.mpr lasting) (routable.mpr routes)
    have matched := kept.route r (tagMap ▸ emitted) f filled
    exact (matched_iff f filled).mp ((routeRule_matched emitted f).mp matched)
  · intro kept
    refine ⟨?_, ?_, ?_⟩
    · intro r emitted f filled
      rw [tagMap] at emitted
      obtain ⟨lasting, named, _⟩ := routeRule_eq emitted
      rw [routeRule_matched emitted, matched_iff f filled]
      exact kept (routable.mp named) (ruleObj_lasting.mp lasting) f filled
    · intro r emitted filled
      obtain ⟨users, _, routes, lasting⟩ := emittedDNSRules_spec emitted
      rw [users, packages_matched_iff]
      exact kept routes lasting .packages filled
    · intro r emitted filled
      obtain ⟨_, domains, routes, lasting⟩ := emittedDNSRules_spec emitted
      obtain ⟨it, entry, body⟩ := List.any_eq_true.mp (kept routes lasting .domains filled)
      rw [domains]
      exact ⟨it, entry,
        (makeDnsRuleObj_has b rule _).mpr ⟨by simpa using body, filled, it, entry, rfl⟩⟩

/-- Bypass a site for one app. -/
def appRule : RuleEntity :=
  { id := 1, userOrder := 1, enabled := true, domains := "site.example", outbound := -1,
    packages := ["app.example"] }

def appDb : Database where
  proxies := {
    rows := [.fresh 1 1 1 (.default .ssh "one" "one.example")]
    unique := by decide }
  groups := .empty
  rules := [appRule]

def withoutApp : Build :=
  .onDevice appDb (.fresh 1 1 1 (.default .ssh "one" "one.example")) (by decide)

theorem withoutApp_rule (tagMap : Map Int String) :
    ∃ r, routeRule withoutApp tagMap appRule = some r := by
  refine routeRule_exists (ruleObj_lasting.mpr (.inl ⟨.domains, by decide, by decide⟩)) ?_
  have target : ruleOutbound withoutApp tagMap appRule = TAG_BYPASS := rfl
  rw [target]
  decide

theorem withoutApp_generates : ∃ result o, buildConfig withoutApp = .ok result ∧
    result.config = .generated o ∧ ¬ NotWidened withoutApp result appRule := by
  obtain ⟨result, o, built, generated, -⟩ := generatedWith_eq
    (show generatedWith (fun _ _ => ()) withoutApp = some () by decide)
  refine ⟨result, o, built, generated, ?_⟩
  intro kept
  obtain ⟨r, emitted⟩ := withoutApp_rule result.profileTagMap
  obtain ⟨_, _, uid, installed, _⟩ := kept.route r emitted .packages (by decide)
  cases installed

/-- The rule for the app becomes a rule for every app. -/
theorem withoutApp_widened : ¬ ∀ (b : Build) (result : ConfigBuildResult) (o : Options)
    (rule : RuleEntity), buildConfig b = .ok result → result.config = .generated o →
      rule ∈ b.extraRules → NotWidened b result rule := by
  intro all
  obtain ⟨result, o, built, generated, widened⟩ := withoutApp_generates
  exact widened (all withoutApp result o appRule built generated (by decide))

theorem withoutApp_not_kept : ¬ KeptWhole withoutApp appRule := by
  obtain ⟨result, o, built, generated, widened⟩ := withoutApp_generates
  exact fun kept =>
    widened ((buildConfig_notWidened_iff built generated (by decide)).mpr kept)

end QuinMo.Config
