import QuinMo.Config.Places

/-!
# Tags of a configuration

When the outbounds, endpoints and inbounds of a generated configuration have
different tags.
-/

namespace QuinMo.Config

open Text

/-- All tags of outbounds and endpoints differ, and so do all tags of inbounds. -/
def TagsDistinct (o : Options) : Prop :=
  ((o.outbounds ++ o.endpoints).map (·.tag)).Nodup ∧ (o.inbounds.map Inbound.tag).Nodup

/-- The chain id and the profile of every hop that gets a tag of its own chain. -/
def innerPairs (c : Call) : List (Int × Int) :=
  c.places.filterMap fun p => match p with
    | .inner chainId id => some (chainId, id)
    | _ => none

/-- The chain id and the profile of every hop that gets an inbound. -/
def mappedPairs (b : Build) (c : Call) : List (Int × Int) :=
  c.emitted.filterMap fun leg =>
    if maps b leg.next.isNone leg.hop then some (c.chainId, leg.hop.id) else none

/-- No profile gets a chain's own tag, or an inbound, twice under one chain id, and no
member of the selector has a name that spells a generated tag in use. -/
structure TagsApart (b : Build) : Prop where
  inner : ((plan b).calls.flatMap innerPairs).Nodup
  mapped : ((plan b).calls.flatMap (mappedPairs b)).Nodup
  names : ∀ name, .named name ∈ placesOf (plan b).calls →
    ∀ p ∈ placesOf (plan b).calls, p.generated = true → name ≠ p.text

theorem views_tags (b : Build) (calls : List Call) :
    (calls.flatMap (Call.views b)).map View.tag = (placesOf calls).map Place.text := by
  unfold placesOf
  rw [List.map_flatMap, List.map_flatMap]
  congr 1
  funext c
  simp only [Call.views, Call.places, List.map_map]
  rfl

/-- The tags of the outbounds and endpoints, up to their order. -/
theorem options_tags {b : Build} {p : Progress} {o : Options} (h : makeOptions b p = .ok o) :
    ((o.outbounds ++ o.endpoints).map (·.tag)).Perm
      ((p.shared.outbounds.map Outbound.view).map View.tag ++ [TAG_DIRECT, TAG_BYPASS]) := by
  simp only [makeOptions, Outcome.bind_ok, Outcome.pure_ok] at h
  obtain ⟨_, _, _, _, _, _, rfl⟩ := h
  have parted := List.filter_append_perm (fun o : Outbound => !o.isEndpoint)
    (p.shared.outbounds ++ directOutbounds)
  have tags := parted.map (·.tag)
  simp only [Bool.not_not] at tags
  refine tags.trans ?_
  rw [List.map_append, List.map_map]
  exact List.Perm.refl _

theorem options_inbounds {b : Build} {p : Progress} {o : Options}
    (h : makeOptions b p = .ok o) : o.inbounds = p.shared.inbounds := by
  simp only [makeOptions, Outcome.bind_ok, Outcome.pure_ok] at h
  obtain ⟨_, _, _, _, _, _, rfl⟩ := h
  rfl

theorem inner_filter (calls : List Call) : (placesOf calls).filter Place.isInner =
      (calls.flatMap innerPairs).map fun pair => .inner pair.1 pair.2 := by
  unfold placesOf
  rw [List.filter_flatMap, List.map_flatMap]
  congr 1
  funext c
  unfold innerPairs
  generalize c.places = places
  induction places with
  | nil => rfl
  | cons p places ih => cases p <;> simp [List.filter_cons, Place.isInner, ih]

/-- The texts of all filled places differ exactly when no inner place is filled twice
and no name spells a generated place. -/
theorem places_text_nodup_iff {b : Build} {calls : List Call} (once : PlainOnce b calls) :
    ((placesOf calls).map Place.text).Nodup ↔
      (calls.flatMap innerPairs).Nodup ∧
        ∀ name, .named name ∈ placesOf calls → ∀ p ∈ placesOf calls, p.generated = true →
          name ≠ p.text := by
  have parts : (placesOf calls).Nodup ↔ (calls.flatMap innerPairs).Nodup := by
    rw [nodup_iff_filter Place.isInner, inner_filter]
    have plainNodup : ((placesOf calls).filter (!·.isInner)).Nodup := once.nodup
    simp only [plainNodup, and_true]
    exact List.nodup_map_iff fun x y h => by
      simp only [Place.inner.injEq] at h
      exact Prod.ext h.1 h.2
  constructor
  · intro h
    have nodup := h.of_map
    refine ⟨parts.mp nodup, ?_⟩
    intro name hn p hp generated same
    have := List.inj_on_of_nodup_map h hn hp same
    rw [← this] at generated
    simp [Place.generated] at generated
  · rintro ⟨inner, apart⟩
    refine (parts.mpr inner).map_on ?_
    intro p hp q hq same
    cases gp : p.generated with
    | true =>
      cases gq : q.generated with
      | true => exact Place.text_inj gp gq same
      | false =>
        cases q with
        | named name => exact absurd same.symm (apart name hq p hp gp)
        | _ => simp [Place.generated] at gq
    | false =>
      cases p with
      | named name =>
        cases q with
        | named other => exact congrArg Place.named same
        | _ => exact absurd same (apart name hp _ hq rfl)
      | _ => simp [Place.generated] at gp

theorem inboundTags_pairs (b : Build) (c : Call) :
    c.inboundTags b = (c.emitted.filter fun leg => maps b leg.next.isNone leg.hop).map
      fun leg => mappingTag c.chainId leg.hop := by
  unfold Call.inboundTags
  induction c.emitted with
  | nil => rfl
  | cons leg legs ih =>
    cases hm : maps b leg.next.isNone leg.hop <;> simp [Leg.mapping, hm, ih]

theorem mappedPairs_eq (b : Build) (c : Call) :
    mappedPairs b c = (c.emitted.filter fun leg => maps b leg.next.isNone leg.hop).map
      fun leg => (c.chainId, leg.hop.id) := by
  unfold mappedPairs
  induction c.emitted with
  | nil => rfl
  | cons leg legs ih => cases hm : maps b leg.next.isNone leg.hop <;> simp [hm, ih]

/-- The spelling of a mapped hop's inbound. -/
def pairTag (pair : Int × Int) : String :=
  "c-" ++ toString pair.1 ++ "-mapping-" ++ toString pair.2

theorem inboundTags_nodup_iff (b : Build) (calls : List Call) :
    (calls.flatMap (Call.inboundTags b)).Nodup ↔ (calls.flatMap (mappedPairs b)).Nodup := by
  have tags : calls.flatMap (Call.inboundTags b) = (calls.flatMap (mappedPairs b)).map pairTag := by
    rw [List.map_flatMap]
    congr 1
    funext c
    rw [inboundTags_pairs, mappedPairs_eq, List.map_map]
    rfl
  rw [tags]
  refine List.nodup_map_iff ?_
  intro x y same
  have bean : Bean := .default .ssh "" ""
  have := mappingTag_inj (x := .fresh x.2 0 0 bean) (y := .fresh y.2 0 0 bean) same
  exact Prod.ext this.1 this.2

theorem baseInbounds_nodup (b : Build) : ((baseInbounds b).map Inbound.tag).Nodup := by
  unfold baseInbounds
  cases b.forTest
  · cases b.isVPN <;> simp [Inbound.tag, TAG_MIXED]
  · simp

theorem baseInbounds_apart (b : Build) (calls : List Call) :
    List.Disjoint ((baseInbounds b).map Inbound.tag) (calls.flatMap (Call.inboundTags b)) := by
  intro tag base mapped
  have spelled : tag.toList.head? = some 'c' := by
    obtain ⟨c, _, hc⟩ := List.mem_flatMap.mp mapped
    rw [inboundTags_pairs] at hc
    obtain ⟨leg, _, rfl⟩ := List.mem_map.mp hc
    simp [mappingTag_toList]
  have known : tag = "tun-in" ∨ tag = TAG_MIXED := by
    unfold baseInbounds at base
    cases ht : b.forTest
    · cases hv : b.isVPN <;> simp [ht, hv, Inbound.tag] at base
      · exact .inr base
      · exact base
    · simp [ht] at base
  rcases known with rfl | rfl
  · exact absurd spelled (by decide)
  · exact absurd spelled (by decide)

theorem headViews_tags (b : Build) (p : Progress) :
    (headViews b p).map View.tag = if b.buildSelector then [TAG_PROXY] else [] := by
  unfold headViews
  split <;> rfl

/-- The built-in outbounds never repeat the tag of a place. -/
theorem with_builtin_nodup_iff {b : Build} {calls : List Call} (once : PlainOnce b calls)
    (selected : Progress) :
    ((headViews b selected).map View.tag ++ (placesOf calls).map Place.text ++
        [TAG_DIRECT, TAG_BYPASS]).Nodup ↔ ((placesOf calls).map Place.text).Nodup := by
  rw [headViews_tags]
  constructor
  · intro h
    exact h.of_append_left.of_append_right
  · intro h
    have freedom : List.Disjoint ((placesOf calls).map Place.text) [TAG_DIRECT, TAG_BYPASS] := by
      intro tag used fixed
      obtain ⟨p, hp, rfl⟩ := List.mem_map.mp used
      obtain ⟨direct, bypass, _⟩ := place_text_free once hp
      simp [direct, bypass] at fixed
    have outs := List.Nodup.append h (by decide) freedom
    split
    · rename_i hs
      rw [List.append_assoc, List.singleton_append, List.nodup_cons]
      refine ⟨?_, outs⟩
      intro used
      rcases List.mem_append.mp used with used | used
      · obtain ⟨p, hp, same⟩ := List.mem_map.mp used
        exact (place_text_free once hp).2.2 hs same
      · exact absurd used (by decide)
    · simpa using outs

/-- A generated configuration has different tags exactly when the chains of its plan
are apart. -/
theorem buildConfig_tagsDistinct_iff {b : Build} {r : ConfigBuildResult} {o : Options}
    (built : buildConfig b = .ok r) (generated : r.config = .generated o) :
    TagsDistinct o ↔ TagsApart b := by
  obtain ⟨p, outs, made, _, _⟩ := buildConfig_generated built generated
  obtain ⟨selected, _, follows⟩ := buildOutbounds_follows outs
  have once : PlainOnce b (plan b).calls :=
    (plan_built b).plainOnce fun c hc => (follows.shared.resolved c hc).2
  have outbounds : ((o.outbounds ++ o.endpoints).map (·.tag)).Nodup ↔
      ((placesOf (plan b).calls).map Place.text).Nodup := by
    rw [(options_tags made).nodup_iff, follows.shared.outbounds, List.map_append, views_tags]
    exact with_builtin_nodup_iff once selected
  have inbounds : (o.inbounds.map Inbound.tag).Nodup ↔
      ((plan b).calls.flatMap (mappedPairs b)).Nodup := by
    rw [options_inbounds made, follows.shared.inbounds, ← inboundTags_nodup_iff]
    constructor
    · exact fun h => h.of_append_right
    · exact fun h => List.Nodup.append (baseInbounds_nodup b) h (baseInbounds_apart b _)
  unfold TagsDistinct
  rw [outbounds, inbounds, places_text_nodup_iff once]
  constructor
  · rintro ⟨⟨inner, names⟩, mapped⟩
    exact ⟨inner, mapped, names⟩
  · rintro ⟨inner, mapped, names⟩
    exact ⟨⟨inner, names⟩, mapped⟩

/-- A selector group with a landing and a front proxy, and a rule that points to one of
its members. -/
def rebuiltDb : Database where
  proxies := {
    rows := [
      .fresh 1 2 1 (.default .ssh "landing" "landing.example"),
      .fresh 2 2 2 (.default .ssh "front" "front.example"),
      .fresh 4 1 1 (.default .ssh "four" "four.example"),
      .fresh 5 1 2 (.default .ssh "five" "five.example")]
    unique := by decide }
  groups := {
    rows := [{ id := 1, userOrder := 1, isSelector := true, frontProxy := 2, landingProxy := 1 }]
    unique := by decide }
  rules := [{ id := 1, userOrder := 1, enabled := true, domains := "site.example", outbound := 5 }]

def rebuilt : Build :=
  .onDevice rebuiltDb (.fresh 4 1 1 (.default .ssh "four" "four.example")) (by decide)

def tagsOf (o : Options) : List String := (o.outbounds ++ o.endpoints).map (·.tag)

theorem rebuilt_tags : generatedWith (fun _ => tagsOf) rebuilt = some
    ["proxy", "four", "c-4-4", "g-2", "five", "c-5-5", "five-1", "c-5-5", "direct", "bypass"] := by
  decide

theorem rebuilt_generates : ∃ r o, buildConfig rebuilt = .ok r ∧ r.config = .generated o ∧
    ¬ TagsDistinct o := by
  obtain ⟨r, o, built, generated, tags⟩ := generatedWith_eq rebuilt_tags
  refine ⟨r, o, built, generated, ?_⟩
  rintro ⟨distinct, _⟩
  unfold tagsOf at tags
  rw [tags] at distinct
  exact absurd distinct (by decide)

/-- The hop of the second member gets the tag `c-5-5` in both chains of that member. -/
theorem rebuilt_member_repeats_tag : ¬ ∀ (b : Build) (r : ConfigBuildResult) (o : Options),
    buildConfig b = .ok r → r.config = .generated o → TagsDistinct o := by
  intro all
  obtain ⟨r, o, built, generated, repeated⟩ := rebuilt_generates
  exact repeated (all rebuilt r o built generated)

theorem rebuilt_not_apart : ¬ TagsApart rebuilt := by
  obtain ⟨r, o, built, generated, repeated⟩ := rebuilt_generates
  exact fun apart => repeated ((buildConfig_tagsDistinct_iff built generated).mpr apart)

end QuinMo.Config
