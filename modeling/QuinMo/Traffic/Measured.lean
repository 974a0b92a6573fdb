import QuinMo.Config.SelectorNames
import QuinMo.Config.Traffic

/-!
# The tags that are measured

The looper hands the tags to the core as one text, a tag on a line, so a tag with a line break is
not found. In a selector the tags are made of display names.
-/

namespace QuinMo.Traffic

open Text Config

/-- The outbounds `SetV2rayStats` makes the service with. -/
def setV2rayStats (outbounds : String) : List String := split outbounds '\n'

/-- Whether a connection through the outbound is counted. -/
def countOutbound (outbounds : List String) (outbound : String) : Bool :=
  outbound != "" && decide (outbound ∈ outbounds)

/-- The hash set the looper fills, in the order in which it is joined. -/
def HandsOver (trafficMap : Map String (List Profile)) (tags : List String) : Prop :=
  ∀ tag, tag ∈ tags ↔ tag = TAG_PROXY ∨ tag = TAG_BYPASS ∨ tag ∈ trafficMap

/-- Every tag of the traffic map is counted. -/
def Measured (trafficMap : Map String (List Profile)) (tags : List String) : Prop :=
  ∀ tag ∈ trafficMap, countOutbound (setV2rayStats (joinToString tags '\n')) tag = true

/-- A tag that is handed over is counted unless it has a line break or is empty. -/
theorem countOutbound_iff {tags : List String} {tag : String} (listed : tag ∈ tags) :
    countOutbound (setV2rayStats (joinToString tags '\n')) tag = true ↔
      tag ≠ "" ∧ '\n' ∉ tag.toList := by
  have found : tag ∈ setV2rayStats (joinToString tags '\n') ↔ '\n' ∉ tag.toList := by
    constructor
    · exact not_mem_of_mem_split
    · intro whole
      rw [setV2rayStats, split_joinToString (List.ne_nil_of_mem listed), List.mem_flatMap]
      exact ⟨tag, listed, by simp [split_whole whole]⟩
  simp [countOutbound, found]

theorem displayName_ne_empty (hashCode : Bean → Int) (b : Bean) : b.displayName hashCode ≠ "" := by
  unfold Bean.displayName
  split
  · next solid =>
    intro empty
    rw [empty] at solid
    cases solid
  · split
    · simp
    · simp
    · next notChain notConfig =>
      unfold Bean.displayAddress
      split <;> simp_all

/-- A display name is spelled out in its tag. -/
theorem selectorName_chars (names : List String) (name_ : String) :
    ∃ before after, (selectorName names name_).toList = before ++ name_.toList ++ after ∧
      '\n' ∉ before ∧ '\n' ∉ after := by
  obtain ⟨count, -, tag⟩ := selectorName_ends names name_
  have base : ∃ before, (selectorBase name_).toList = before ++ name_.toList ∧ '\n' ∉ before := by
    unfold selectorBase
    split
    · exact ⟨['p', '-'], by simp, by decide⟩
    · exact ⟨[], rfl, by simp⟩
  obtain ⟨before, chars, clean⟩ := base
  rw [tag]
  by_cases first : count = 0
  · refine ⟨before, [], ?_, clean, by simp⟩
    simp [selectorCandidate, first, chars]
  · refine ⟨before, '-' :: Nat.toDigits 10 count, ?_, clean, ?_⟩
    · rw [selectorCandidate, if_neg first, toList_numbered, chars]
    · intro inside
      rcases List.mem_cons.mp inside with dash | digit
      · cases dash
      · exact absurd (toDigits_isDigit digit) (by decide)

theorem selectorName_break_iff (names : List String) (name_ : String) :
    '\n' ∈ (selectorName names name_).toList ↔ '\n' ∈ name_.toList := by
  obtain ⟨before, after, chars, noBefore, noAfter⟩ := selectorName_chars names name_
  rw [chars]
  simp [noBefore, noAfter]

theorem selectorName_ne_empty (names : List String) {name_ : String} (solid : name_ ≠ "") :
    selectorName names name_ ≠ "" := by
  obtain ⟨before, after, chars, -, -⟩ := selectorName_chars names name_
  intro empty
  rw [empty] at chars
  have nothing : before ++ name_.toList ++ after = [] := chars.symm
  simp only [List.append_eq_nil_iff] at nothing
  exact solid (String.toList_eq_nil_iff.mp nothing.1.2)

/-- A tag that is not made of a display name has no line break. -/
theorem generated_clean {p : Place} (generated : p.generated = true) :
    p.text ≠ "" ∧ '\n' ∉ p.text.toList := by
  have number (n : Int) : '\n' ∉ n.repr.toList :=
    not_mem_toString_int (by decide) (by decide) n
  cases p with
  | proxy => exact ⟨by decide, by decide⟩
  | named name => cases generated
  | entry id => exact ⟨by simp [Place.text], by simp [Place.text, number]⟩
  | inner chainId id => exact ⟨by simp [Place.text], by simp [Place.text, number]⟩

/-- The exit of a call is its own place or a generated one, or the own place of another call. -/
theorem exit_origin {b : Build} {q : Plan} (h : Orderly b q) {c : Call} (hc : c ∈ q.calls) :
    (∃ d ∈ q.calls, d.exit = d.first ∧ c.exit = d.first) ∨ c.exit.generated = true := by
  by_cases own : c.exit = c.first
  · exact .inl ⟨c, hc, own, own⟩
  -- a single hop that an earlier call has built
  obtain ⟨p, reused, exit⟩ : ∃ p, c.reused = some p ∧ c.exit = p := by
    unfold Call.exit at own ⊢
    split at own
    · cases reused : c.reused with
      | some p => exact ⟨p, rfl, rfl⟩
      | none =>
        rw [reused] at own
        exact absurd rfl own
    · exact absurd rfl own
  obtain ⟨y, -, known⟩ := h.reused hc reused
  obtain ⟨d, hd, -, fresh, place⟩ := h.built_first known
  rw [exit, ← place]
  unfold Call.entryPlace
  split
  · next x hops =>
    exact .inl ⟨d, hd, by simp [Call.exit, hops, fresh], rfl⟩
  · next several =>
    split
    · exact .inr rfl
    · refine .inl ⟨d, hd, ?_, rfl⟩
      unfold Call.exit
      split
      · next x hops => exact absurd hops (several x)
      · rfl

/-- The place of a call is made of a display name in a selector only. -/
theorem first_text {b : Build} {q : Plan} (h : Orderly b q) {c : Call} (hc : c ∈ q.calls) :
    (b.buildSelector = true ∧ ∃ names,
      c.first.text = selectorName names (c.entity.bean.displayName b.env.hashCode)) ∨
    b.buildSelector = false ∧ c.first.generated = true := by
  obtain ⟨pre, post, split⟩ := List.append_of_mem hc
  have planned : c.first = firstPlace b c.chainId c.entity (hopsOf b.db c.entity)
      (issuedNames b pre) := congrArg Call.first (h.sequenced pre c post split)
  rw [planned]
  unfold firstPlace
  cases selector : b.buildSelector with
  | true => exact .inl ⟨rfl, _, rfl⟩
  | false =>
    refine .inr ⟨rfl, ?_⟩
    simp only [Bool.false_eq_true, if_false]
    split
    · rfl
    · split <;> rfl

/-- In a selector, no profile that has a tag of its own has a line break in its display name. -/
def Breakless (b : Build) : Prop :=
  b.buildSelector = true → ∀ c ∈ (plan b).calls, c.exit = c.first →
    '\n' ∉ (c.entity.bean.displayName b.env.hashCode).toList

theorem exits_clean_iff (b : Build) :
    (∀ c ∈ (plan b).calls, c.exit.text ≠ "" ∧ '\n' ∉ c.exit.text.toList) ↔ Breakless b := by
  have orderly := plan_orderly b
  constructor
  · intro clean selector c hc own
    have exit := (clean c hc).2
    rcases first_text orderly hc with ⟨-, names, text⟩ | ⟨plain, -⟩
    · rwa [own, text, selectorName_break_iff] at exit
    · rw [selector] at plain
      cases plain
  · intro breakless c hc
    rcases exit_origin orderly hc with ⟨d, hd, own, exit⟩ | generated
    · rw [exit]
      rcases first_text orderly hd with ⟨selector, names, text⟩ | ⟨-, generated⟩
      · rw [text, selectorName_break_iff]
        exact ⟨selectorName_ne_empty names (displayName_ne_empty _ _),
          breakless selector d hd own⟩
      · exact generated_clean generated
    · exact generated_clean generated

theorem mem_trafficMap {b : Build} {r : ConfigBuildResult} {o : Options}
    (built : buildConfig b = .ok r) (generated : r.config = .generated o) {tag : String} :
    tag ∈ r.trafficMap ↔ ∃ c ∈ (plan b).calls, c.exit.text = tag := by
  obtain ⟨p, outs, _, trafficMap, _⟩ := buildConfig_generated built generated
  obtain ⟨selected, _, follows⟩ := buildOutbounds_follows outs
  have lookup : r.trafficMap.lookup tag = (lastCall (plan b).calls tag).map Call.traffic := by
    rw [trafficMap]
    exact follows.shared.traffic tag
  rw [← AList.lookup_isSome, lookup, Option.isSome_map]
  simp [lastCall, List.find?_isSome]

/-- All tags of the traffic map are measured exactly when no display name that became one has a
line break. -/
theorem trafficMap_measured_iff {b : Build} {r : ConfigBuildResult} {o : Options}
    (built : buildConfig b = .ok r) (generated : r.config = .generated o) {tags : List String}
    (handed : HandsOver r.trafficMap tags) : Measured r.trafficMap tags ↔ Breakless b := by
  rw [← exits_clean_iff]
  constructor
  · intro measured c hc
    have mapped := (mem_trafficMap built generated).mpr ⟨c, hc, rfl⟩
    exact (countOutbound_iff ((handed _).mpr (.inr (.inr mapped)))).mp (measured _ mapped)
  · intro clean tag mapped
    obtain ⟨c, hc, rfl⟩ := (mem_trafficMap built generated).mp mapped
    exact (countOutbound_iff ((handed _).mpr (.inr (.inr mapped)))).mpr (clean c hc)

def selectorGroup : ProxyGroup :=
  { id := 1, userOrder := 1, isSelector := true }

/-- A selector with one member of the given name. -/
def oneMemberDb (name : String) : Database where
  proxies :=
    { rows := [.fresh 1 1 1 (.default .ssh name "node.example")], unique := List.nodup_singleton _ }
  groups := { rows := [selectorGroup], unique := List.nodup_singleton _ }
  rules := []

def oneMember (name : String) : Build :=
  .onDevice (oneMemberDb name) (.fresh 1 1 1 (.default .ssh name "node.example")) List.mem_cons_self

theorem handsOver_keys {m : Map String (List Profile)} {keys : List String} (h : m.keys = keys) :
    HandsOver m (TAG_PROXY :: TAG_BYPASS :: keys) := by
  intro tag
  rw [AList.mem_keys, h]
  simp

theorem oneMember_measured : ∃ r o, buildConfig (oneMember "tokyo") = .ok r ∧
    r.config = .generated o ∧ HandsOver r.trafficMap [TAG_PROXY, TAG_BYPASS, "tokyo"] ∧
    Measured r.trafficMap [TAG_PROXY, TAG_BYPASS, "tokyo"] := by
  have tags : generatedWith (fun r _ => r.trafficMap.keys) (oneMember "tokyo") = some ["tokyo"] := by
    decide
  obtain ⟨r, o, built, generated, keys⟩ := generatedWith_eq tags
  have handed := handsOver_keys keys
  refine ⟨r, o, built, generated, handed, (trafficMap_measured_iff built generated handed).mpr ?_⟩
  intro _ c hc _
  revert c
  decide

theorem oneMember_unmeasured : ∃ r o, buildConfig (oneMember "tokyo\n1") = .ok r ∧
    r.config = .generated o ∧ HandsOver r.trafficMap [TAG_PROXY, TAG_BYPASS, "tokyo\n1"] ∧
    "tokyo\n1" ∈ r.trafficMap ∧
    countOutbound (setV2rayStats (joinToString [TAG_PROXY, TAG_BYPASS, "tokyo\n1"] '\n'))
      "tokyo\n1" = false := by
  have tags : generatedWith (fun r _ => r.trafficMap.keys) (oneMember "tokyo\n1") =
      some ["tokyo\n1"] := by decide
  obtain ⟨r, o, built, generated, keys⟩ := generatedWith_eq tags
  refine ⟨r, o, built, generated, handsOver_keys keys, ?_, by decide⟩
  rw [AList.mem_keys, keys]
  exact List.mem_cons_self

end QuinMo.Traffic
