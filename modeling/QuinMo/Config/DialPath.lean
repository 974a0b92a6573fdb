import QuinMo.Lib.Follow
import QuinMo.Config.Closure

/-!
# The path a tag dials

What is visited when the detour of an outbound, or the rule of its external core's inbound, is
followed to the end.
-/

namespace QuinMo.Config

open Follow

/-- Where the core goes on from an outbound. -/
def continuations (o : Options) (x : Outbound) : List String :=
  x.detour.toList ++ x.mapping.toList.flatMap fun m =>
    (o.rules.filter (·.inbound = [m])).flatMap (·.outbound.toList)

/-- Outbounds and endpoints as nodes; those of profiles are marked with their id. -/
def Options.net (o : Options) : Net Outbound String Int where
  nodes := o.all
  name := (·.tag)
  mark x := x.hop.map (·.id)
  next := continuations o

/-- From the tag given to a profile the hops of the profile are dialled, exit first. -/
structure DialPaths (b : Build) (r : ConfigBuildResult) (o : Options) : Prop where
  profile : ∀ k t, r.profileTagMap.lookup k = some t → ∀ e, b.db.proxies.get k = some e →
    ∀ hops, resolveChain b.db e = .ok hops → Visits o.net (hops.map (·.id)) t
  main : b.buildSelector = false → ∀ hops, resolveChain b.db b.proxy = .ok hops →
    Visits o.net (hops.map (·.id)) TAG_PROXY

def ids (legs : List Leg) : List Int := legs.map (·.hop.id)

/-- The call makes an outbound for this leg, which dials through `rest`. -/
def Call.Emits (c : Call) (leg : Leg) (rest : List Leg) : Prop :=
  leg :: rest <:+ c.legs ∧ (rest = [] → c.reused = none)

/-- The hops that should be visited from a tag. -/
inductive Expected (b : Build) : List Int → String → Prop
  | profile {k : Int} {p : Place} {e : Profile} {hops : List Profile} :
      (plan b).tag k = some p → b.db.proxies.get k = some e → resolveChain b.db e = .ok hops →
      Expected b (hops.map (·.id)) p.text
  | main {hops : List Profile} : b.buildSelector = false → resolveChain b.db b.proxy = .ok hops →
      Expected b (hops.map (·.id)) TAG_PROXY
  /-- A hop behind the exit of a chain. -/
  | behind {c : Call} {front rest : List Leg} {leg : Leg} : c ∈ (plan b).calls → front ≠ [] →
      c.legs = front ++ leg :: rest → Expected b (ids (leg :: rest)) leg.place.text

/-- Every tag that is dialled is built, by chains which all have the same hops left
from there, and so has every inbound of an external core. -/
structure PathsAgree (b : Build) : Prop where
  built : ∀ l t, Expected b l t →
    ∃ c ∈ (plan b).calls, ∃ leg rest, c.Emits leg rest ∧ leg.place.text = t
  agree : ∀ l t, Expected b l t → ∀ c ∈ (plan b).calls, ∀ leg rest, c.Emits leg rest →
    leg.place.text = t → l = ids (leg :: rest)
  mapped : ∀ m, ∀ c ∈ (plan b).calls, ∀ x rest, c.Emits x rest → x.mapping b c.chainId = some m →
    ∀ d ∈ (plan b).calls, ∀ y rest', d.Emits y rest' → y.mapping b d.chainId = some m →
      ids rest = ids rest'

theorem legsFrom_linked {p : Place} {h : Profile} {t : List (Place × Profile)}
    {front rest : List Leg} {leg : Leg} (split : legsFrom p h t = front ++ leg :: rest) :
    leg.next = rest.head?.map Leg.place := by
  induction t generalizing p h front with
  | nil =>
    cases front with
    | nil =>
      cases split
      rfl
    | cons a front => simp [legsFrom] at split
  | cons a t ih =>
    cases front with
    | nil =>
      cases split
      cases t <;> rfl
    | cons a' front =>
      rw [legsFrom, List.cons_append, List.cons.injEq] at split
      exact ih split.2

namespace Call

variable {c : Call} {leg : Leg}

theorem linked {front rest : List Leg}
    (split : c.legs = front ++ leg :: rest) : leg.next = rest.head?.map Leg.place := by
  cases hops : c.hops with
  | nil => simp [legs, hops] at split
  | cons x t => exact legsFrom_linked (by simpa [legs, hops] using split)

theorem Emits.next {rest : List Leg} (h : c.Emits leg rest) :
    leg.next = rest.head?.map Leg.place := by
  obtain ⟨front, split⟩ := h.1
  exact linked split.symm

theorem mem_emitted : leg ∈ c.emitted ↔ ∃ rest, c.Emits leg rest := by
  unfold emitted Emits
  cases reused : c.reused with
  | none =>
    simp only [Option.isSome_none, Bool.false_eq_true, if_false, implies_true, and_true]
    constructor
    · intro h
      obtain ⟨front, rest, split⟩ := List.append_of_mem h
      exact ⟨rest, front, split.symm⟩
    · rintro ⟨rest, front, split⟩
      rw [← split]
      simp
  | some p =>
    simp only [Option.isSome_some, if_true, reduceCtorEq, imp_false]
    constructor
    · intro h
      obtain ⟨front, rest, split⟩ := List.append_of_mem h
      have all : c.legs ≠ [] := by
        intro nil
        simp [nil] at h
      refine ⟨rest ++ [c.legs.getLast all], ⟨front, ?_⟩, by simp⟩
      rw [← List.cons_append, ← List.append_assoc, ← split, List.dropLast_append_getLast]
    · rintro ⟨rest, ⟨front, split⟩, more⟩
      rw [← split, List.dropLast_append_of_ne_nil (by simp), List.dropLast_cons_of_ne_nil more]
      simp

/-- A leg with others behind it is always built. -/
theorem emits_of_split (front : List Leg) {rest : List Leg}
    (split : c.legs = front ++ leg :: rest) (more : rest ≠ []) : c.Emits leg rest :=
  ⟨⟨front, split.symm⟩, fun nil => absurd nil more⟩

theorem ids_legs (c : Call) : ids c.legs = c.hops.map (·.id) := by
  rw [← c.legs_hops]
  simp [ids]

end Call

/-- The tag that follows on a leg with `rest` behind it. -/
def onward (rest : List Leg) : String := (rest.head?.map (·.place.text)).getD TAG_DIRECT

theorem Leg.detour_eq (b : Build) (chainId : Int) (leg : Leg) :
    leg.detour = if (leg.mapping b chainId).isSome then none else leg.next.map Place.text := by
  unfold Leg.detour Leg.mapping maps
  cases leg.hop.needMapping <;> cases leg.next <;> simp

/-- No outbound but those of hops has this tag. -/
def Free (b : Build) (t : String) : Prop :=
  t ≠ TAG_DIRECT ∧ t ≠ TAG_BYPASS ∧ (b.buildSelector = true → t ≠ TAG_PROXY)

variable {t : String}

section
variable {b : Build} {p selected : Progress} {o : Options}

variable {c : Call} {leg : Leg} {rest : List Leg} {x : Outbound}

theorem mem_continuations : t ∈ continuations o x ↔
    x.detour = some t ∨
      ∃ m, x.mapping = some m ∧ ∃ r ∈ o.rules, r.inbound = [m] ∧ r.outbound = some t := by
  simp only [continuations, List.mem_append, Option.mem_toList, List.mem_flatMap, List.mem_filter,
    decide_eq_true_eq, and_assoc]

/-- The hop behind an exit has a generated tag. -/
theorem behind_free (b : Build) {front : List Leg}
    (inside : front ≠ []) (split : c.legs = front ++ leg :: rest) : Free b leg.place.text := by
  obtain ⟨a, front, rfl⟩ := List.exists_cons_of_ne_nil inside
  have tail : leg.place ∈ (c.legs.map Leg.place).tail := by simp [split]
  have kind : leg.place.generated = true ∧ leg.place ≠ .proxy := by
    cases hops : c.hops with
    | nil => simp [Call.legs, hops] at split
    | cons h t =>
      simp only [Call.legs, hops, legsFrom_places, List.tail_cons, restPlaces_places,
        List.mem_append, List.mem_map, Option.mem_toList, Option.map_eq_some_iff] at tail
      rcases tail with ⟨g, _, place⟩ | ⟨g, _, place⟩ <;> simp [← place, Place.generated]
  have free := Place.text_not_reserved kind.1 kind.2
  simp only [reservedSelectorTags, List.mem_cons, List.not_mem_nil, or_false, not_or] at free
  exact ⟨free.2.1, free.2.2.1, fun _ => free.1⟩

theorem Call.Emits.behind {q : Leg} {more : List Leg} (hc : c ∈ (plan b).calls)
    (emits : c.Emits leg (q :: more)) : Expected b (ids (q :: more)) q.place.text := by
  obtain ⟨front, split⟩ := emits.1
  exact .behind hc (List.append_ne_nil_of_right_ne_nil front (List.cons_ne_nil leg []))
    (by rw [← split]; simp)

variable (made : MadeAsPlanned b selected p o)
include made

theorem emitted_outbound (hc : c ∈ (plan b).calls) (emits : c.Emits leg rest) :
    ∃ x ∈ o.net.nodes, x.view = leg.view b c.chainId :=
  leg_outbound made hc (Call.mem_emitted.mpr ⟨rest, emits⟩)

/-- An outbound that is not made for a hop has one of the built-in tags. -/
theorem outbound_cases (hx : x ∈ o.net.nodes) : (x.hop = none ∧ ¬ Free b x.tag) ∨
      ∃ c ∈ (plan b).calls, ∃ leg rest, c.Emits leg rest ∧ x.view = leg.view b c.chainId := by
  rcases view_cases made hx with ⟨hs, view⟩ | ⟨c, hc, leg, hl, view⟩ | fixed
  · have tag : x.tag = TAG_PROXY := congrArg View.tag view
    have hop : x.hop = none := congrArg View.hop view
    exact .inl ⟨hop, fun free => free.2.2 hs tag⟩
  · obtain ⟨rest, emits⟩ := Call.mem_emitted.mp hl
    exact .inr ⟨c, hc, leg, rest, emits, view⟩
  · simp only [directOutbounds, List.mem_cons, List.not_mem_nil, or_false] at fixed
    rcases fixed with rfl | rfl
    · exact .inl ⟨rfl, fun free => free.1 rfl⟩
    · exact .inl ⟨rfl, fun free => free.2.1 rfl⟩

/-- The rules that are bound to an inbound are those of the legs mapped to it. -/
theorem bound_rule {r : RouteRule} {m : String} (hr : r ∈ o.rules) (bound : r.inbound = [m]) :
    ∃ c ∈ (plan b).calls, ∃ leg rest, c.Emits leg rest ∧ leg.mapping b c.chainId = some m ∧
      r.outbound = some (onward rest) := by
  rw [made.rules] at hr
  rcases mem_routeRules hr with chain | ⟨rule, _, user⟩ | ⟨free, _⟩
  · obtain ⟨c, hc, leg, hl, tag, mapping, rfl⟩ := chain_rule_cases made chain
    obtain ⟨rest, emits⟩ := Call.mem_emitted.mp hl
    have same : tag = m := by simpa using bound
    refine ⟨c, hc, leg, rest, emits, by rw [mapping, same], ?_⟩
    rw [emits.next]
    simp [onward, Option.map_map, Function.comp_def]
  · have free : r.inbound = [] := by
      obtain ⟨_, _, ⟨_, rfl⟩ | ⟨_, rfl⟩⟩ :=
        routeRule_eq user <;> exact ruleObj_inbound b p.tagMap rule
    simp [free] at bound
  · simp [free] at bound

theorem leg_bound_rule {m : String} (hc : c ∈ (plan b).calls) (emits : c.Emits leg rest)
    (mapping : leg.mapping b c.chainId = some m) :
    ∃ r ∈ o.rules, r.inbound = [m] ∧ r.outbound = some (onward rest) := by
  refine ⟨{ inbound := [m], outbound := some (onward rest) }, ?_, rfl, rfl⟩
  refine chain_rule_mem made (leg_rule made hc (Call.mem_emitted.mpr ⟨rest, emits⟩) ?_)
  simp [Leg.rules, mapping, emits.next, onward, Option.map_map, Function.comp_def]

/-- A leg goes on at the next one, or at whatever a leg with the same inbound does. -/
theorem next_of_leg (emits : c.Emits leg rest) (view : x.view = leg.view b c.chainId) :
    t ∈ o.net.next x ↔
      (leg.mapping b c.chainId = none ∧ ∃ q more, rest = q :: more ∧ t = q.place.text) ∨
      ∃ m, leg.mapping b c.chainId = some m ∧ ∃ d ∈ (plan b).calls, ∃ y rest',
        d.Emits y rest' ∧ y.mapping b d.chainId = some m ∧ t = onward rest' := by
  have detour : x.detour = leg.detour := congrArg View.detour view
  have mapping : x.mapping = leg.mapping b c.chainId := congrArg View.mapping view
  change t ∈ continuations o x ↔ _
  rw [mem_continuations, detour, mapping, Leg.detour_eq b c.chainId, emits.next]
  cases inbound : leg.mapping b c.chainId with
  | none =>
    cases rest with
    | nil => simp
    | cons q more => simp [eq_comm]
  | some m =>
    simp only [Option.isSome_some, if_true, reduceCtorEq, false_and, false_or, Option.some.injEq,
      exists_eq_left']
    constructor
    · rintro ⟨r, hr, bound, out⟩
      obtain ⟨d, hd, y, rest', emits', mapped, out'⟩ := bound_rule made hr bound
      exact ⟨d, hd, y, rest', emits', mapped, by simpa [out] using out'⟩
    · rintro ⟨d, hd, y, rest', emits', mapped, rfl⟩
      exact leg_bound_rule made hd emits' mapped

/-- A leg that is not the end of its path goes on at its own next place. -/
theorem own_next (hc : c ∈ (plan b).calls) (emits : c.Emits leg rest)
    (view : x.view = leg.view b c.chainId) (more : rest ≠ [] ∨ (leg.mapping b c.chainId).isSome) :
    onward rest ∈ o.net.next x := by
  rw [next_of_leg made emits view]
  cases mapping : leg.mapping b c.chainId with
  | none =>
    cases rest with
    | nil => simp [mapping] at more
    | cons q rest => exact .inl ⟨rfl, q, rest, rfl, rfl⟩
  | some m => exact .inr ⟨m, rfl, c, hc, leg, rest, emits, mapping, rfl⟩

theorem place_free {q : Place} (filled : q ∈ placesOf (plan b).calls) : Free b q.text :=
  place_text_free ((plan_built b).plainOnce fun c hc => (made.follows.shared.resolved c hc).2) filled

theorem emits_free (hc : c ∈ (plan b).calls) (emits : c.Emits leg rest) : Free b leg.place.text :=
  place_free made (mem_placesOf.mpr
    ⟨c, hc, List.mem_map_of_mem (Call.mem_emitted.mpr ⟨rest, emits⟩)⟩)

theorem direct_outside (hx : x ∈ o.net.nodes) (tag : x.tag = TAG_DIRECT) : x.hop = none := by
  rcases outbound_cases made hx with ⟨hop, _⟩ | ⟨c, hc, leg, rest, emits, view⟩
  · exact hop
  · have place : x.tag = leg.place.text := congrArg View.tag view
    exact absurd (place.symm.trans tag) (emits_free made hc emits).1

theorem direct_node : ∃ x ∈ o.net.nodes, x.tag = TAG_DIRECT :=
  ⟨_, (made.all _).mpr (.inr List.mem_cons_self), rfl⟩

theorem expected_free {l : List Int} (h : Expected b l t) : Free b t := by
  cases h with
  | profile tag _ _ =>
    exact place_free made ((plan_orderly b).tag_filled (plan_built b).assigned
      (fun c hc => (made.follows.shared.resolved c hc).2) tag)
  | main hs _ => exact ⟨by decide, by decide, by simp [hs]⟩
  | behind _ inside split => exact behind_free b inside split

/-- What has a tag that is expected to dial something is made for a hop. -/
theorem expected_outbound {l : List Int} (hx : x ∈ o.net.nodes) (h : Expected b l x.tag) :
    ∃ c ∈ (plan b).calls, ∃ leg rest, c.Emits leg rest ∧ x.view = leg.view b c.chainId := by
  rcases outbound_cases made hx with ⟨_, taken⟩ | leg
  · exact absurd (expected_free made h) taken
  · exact leg

end

/-! ## Agreeing paths are dialled -/

section
variable {b : Build} {p selected : Progress} {o : Options}

/-- What is due at a tag, with the end of the path outside of the profiles. -/
def Due (b : Build) (l : List Int) (t : String) : Prop :=
  Expected b l t ∨ (l = [] ∧ t = TAG_DIRECT)

theorem due_onward {c : Call} {leg : Leg} {rest : List Leg} (hc : c ∈ (plan b).calls)
    (emits : c.Emits leg rest) : Due b (ids rest) (onward rest) := by
  cases rest with
  | nil => exact .inr ⟨rfl, rfl⟩
  | cons q more => exact .inl (emits.behind hc)

variable (made : MadeAsPlanned b selected p o)
include made

theorem PathsAgree.node (agree : PathsAgree b) {i : Int} {l : List Int} {x : Outbound}
    (hx : x ∈ o.net.nodes) (h : Expected b (i :: l) x.tag) :
    o.net.mark x = some i ∧ (o.net.next x = [] → l = []) ∧ ∀ t ∈ o.net.next x, Due b l t := by
  obtain ⟨c, hc, leg, rest, emits, view⟩ := expected_outbound made hx h
  have tag : x.tag = leg.place.text := congrArg View.tag view
  have hop : x.hop = some leg.hop := congrArg View.hop view
  have same := agree.agree _ _ h c hc leg rest emits tag.symm
  rw [ids, List.map_cons, List.cons.injEq] at same
  obtain ⟨rfl, rfl⟩ := same
  refine ⟨by simp [Options.net, hop], ?_, ?_⟩
  · intro stop
    by_contra more
    have rest_ne : rest ≠ [] := by
      intro nil
      simp [nil] at more
    have := own_next made hc emits view (.inl rest_ne)
    simp [stop] at this
  · intro t ht
    rcases (next_of_leg made emits view).mp ht with
      ⟨_, q, more, rfl, rfl⟩ | ⟨m, mapping, d, hd, y, rest', emits', mapped, rfl⟩
    · exact .inl (emits.behind hc)
    · have same := agree.mapped m c hc leg rest emits mapping d hd y rest' emits' mapped
      rw [show rest.map (·.hop.id) = ids rest' from same]
      exact due_onward hd emits'

theorem PathsAgree.visits (agree : PathsAgree b) {l : List Int} (h : Expected b l t) :
    Visits o.net l t := by
  have due : Due b l t := .inl h
  refine visits_of_expected ?_ ?_ ?_ due
  · rintro l t (expected | ⟨rfl, rfl⟩)
    · obtain ⟨c, hc, leg, rest, emits, rfl⟩ := agree.built l t expected
      obtain ⟨x, hx, view⟩ := emitted_outbound made hc emits
      exact ⟨x, hx, congrArg View.tag view⟩
    · exact direct_node made
  · rintro t (expected | ⟨_, rfl⟩) x hx tag
    · obtain ⟨c, hc, leg, rest, emits, place⟩ := agree.built [] t expected
      have := agree.agree [] t expected c hc leg rest emits place
      simp [ids] at this
    · have := direct_outside made hx tag
      simp [Options.net, this]
  · rintro i l t (expected | ⟨nil, _⟩) x hx tag
    · have tag : x.tag = t := tag
      subst tag
      exact agree.node made hx expected
    · simp at nil

end

/-! ## Dialled paths agree -/

section
variable {b : Build} {p selected : Progress} {r : ConfigBuildResult} {o : Options}

variable {c : Call} {l : List Int} {rest : List Leg} {leg : Leg}

/-- Calls with the same chain id and hops differ in the place of their exit only. -/
theorem legs_same {d : Call} (chainId : d.chainId = c.chainId) (hops : d.hops = c.hops)
    {a : Leg} {tail : List Leg} (split : c.legs = a :: tail) :
    d.legs = { a with place := d.first } :: tail := by
  cases shape : c.hops with
  | nil => simp [Call.legs, shape] at split
  | cons h t =>
    simp only [Call.legs, shape] at split
    simp only [Call.legs, hops, shape, chainId]
    cases rest : restPlaces c.chainId t with
    | nil =>
      simp only [rest, legsFrom, List.cons.injEq] at split ⊢
      obtain ⟨rfl, rfl⟩ := split
      exact ⟨rfl, rfl⟩
    | cons q rest' =>
      simp only [rest, legsFrom, List.cons.injEq] at split ⊢
      obtain ⟨rfl, rfl⟩ := split
      exact ⟨rfl, rfl⟩

variable (made : MadeAsPlanned b selected p o)
include made

theorem direct_visits (h : Visits o.net l TAG_DIRECT) : l = [] := by
  obtain ⟨x, hx, tag⟩ := direct_node made
  refine h.outside hx tag ?_
  simp [Options.net, direct_outside made hx tag]

/-- What a leg's tag visits begins with the leg's hop and goes on from its next tag. -/
theorem visits_leg (hc : c ∈ (plan b).calls) (emits : c.Emits leg rest)
    (h : Visits o.net l leg.place.text) :
    ∃ l', l = leg.hop.id :: l' ∧ ((rest = [] ∧ l' = []) ∨ Visits o.net l' (onward rest)) := by
  obtain ⟨x, hx, view⟩ := emitted_outbound made hc emits
  have tag : x.tag = leg.place.text := congrArg View.tag view
  have hop : x.hop = some leg.hop := congrArg View.hop view
  have mark : o.net.mark x = some leg.hop.id := by simp [Options.net, hop]
  obtain ⟨l', eq, stop, go⟩ := h.through hx tag mark
  refine ⟨l', eq, ?_⟩
  by_cases more : rest ≠ [] ∨ (leg.mapping b c.chainId).isSome
  · exact .inr (go _ (own_next made hc emits view more))
  · obtain ⟨nil, mapping⟩ : rest = [] ∧ leg.mapping b c.chainId = none := by simpa using more
    refine .inl ⟨nil, stop (List.eq_nil_iff_forall_not_mem.mpr ?_)⟩
    intro t ht
    rw [next_of_leg made emits view, mapping, nil] at ht
    simp at ht

/-- A hop dialled first visits itself alone. -/
theorem visits_entry (hc : c ∈ (plan b).calls) (emits : c.Emits leg [])
    (h : Visits o.net l leg.place.text) : l = [leg.hop.id] := by
  obtain ⟨l', rfl, ⟨_, rfl⟩ | direct⟩ := visits_leg made hc emits h
  · rfl
  · rw [direct_visits made direct]

theorem visits_registered {id : Int} {q : Place} (known : registered (plan b).calls id = some q)
    (h : Visits o.net l q.text) : l = [id] := by
  obtain ⟨c, hc, hop, fresh, rfl⟩ := (plan_orderly b).built_first known
  obtain ⟨y, last, rfl⟩ := Option.map_eq_some_iff.mp hop
  obtain ⟨rest, emits⟩ := Call.mem_emitted.mp (c.entry_emitted last fresh)
  have nil : rest = [] := by
    have next := emits.next
    simpa using next.symm
  subst nil
  exact visits_entry made hc emits h

/-- Along the legs of a call, each is followed by the next. -/
theorem visits_along (hc : c ∈ (plan b).calls) (pre front : List Leg)
    (split : c.legs = pre ++ (front ++ leg :: rest))
    (h : Visits o.net (ids (front ++ leg :: rest)) (onward (front ++ leg :: rest))) :
    Visits o.net (ids (leg :: rest)) leg.place.text := by
  induction front generalizing pre with
  | nil => exact h
  | cons a front ih =>
    have emits : c.Emits a (front ++ leg :: rest) :=
      Call.emits_of_split pre split (List.append_ne_nil_of_right_ne_nil front (by simp))
    obtain ⟨l', eq, ⟨nil, _⟩ | onwards⟩ := visits_leg made hc emits h
    · simp at nil
    · rw [List.cons_append, ids, List.map_cons, List.cons.injEq] at eq
      rw [← eq.2] at onwards
      refine ih (pre ++ [a]) ?_ onwards
      rw [split]
      simp

variable (paths : DialPaths b r o) (tagMap : r.profileTagMap = p.tagMap)
include paths tagMap

/-- A longer chain has a call which the final tag of its profile stands for. -/
theorem final_call (hc : c ∈ (plan b).calls) (long : 2 ≤ c.hops.length) :
    ∃ d ∈ (plan b).calls, d.chainId = c.chainId ∧ d.hops = c.hops ∧
      Visits o.net (c.hops.map (·.id)) d.first.text := by
  have resolved := (made.follows.shared.resolved c hc).1
  rcases (plan_built b).assigned.covers c hc with ⟨hs, rfl⟩ | ⟨own, q, listed⟩
  · refine ⟨_, hc, rfl, rfl, ?_⟩
    have first : (planCall b [] 0 b.proxy).first = .proxy := by simp [planCall, firstPlace, hs]
    rw [first]
    exact paths.main hs _ resolved
  · obtain ⟨q, tag⟩ := Plan.tag_isSome listed
    have stored := (plan_orderly b).stored c hc
    have visits : Visits o.net (c.hops.map (·.id)) q.text := by
      refine paths.profile c.chainId q.text ?_ c.entity ?_ c.hops resolved
      · rw [tagMap, made.follows.tags, tag]
        rfl
      · rw [own]
        exact b.db.proxies.get_key stored
    obtain ⟨e, _, _, ⟨d, hd, same, exit⟩ | known⟩ :=
      (plan_built b).assigned.sound c.chainId q (Plan.mem_of_tag tag)
    · have hops : d.hops = c.hops := by
        rw [(plan_orderly b).hops hd, (plan_orderly b).hops hc,
          (plan_orderly b).same_entity hd hc same]
      refine ⟨d, hd, same, hops, ?_⟩
      have first : d.exit = d.first := by
        unfold Call.exit
        split
        · rename_i x single
          simp [← hops, single] at long
        · rfl
      rw [← first, exit]
      exact visits
    · have single := congrArg List.length (visits_registered made known visits)
      simp only [List.length_map, List.length_singleton] at single
      omega

theorem expected_visits (h : Expected b l t) : Visits o.net l t := by
  cases h with
  | @profile k place e hops tag stored resolved =>
    refine paths.profile k place.text ?_ e stored hops resolved
    rw [tagMap, made.follows.tags, tag]
    rfl
  | main hs resolved => exact paths.main hs _ resolved
  | @behind c front rest leg hc inside split =>
    obtain ⟨a, front, rfl⟩ := List.exists_cons_of_ne_nil inside
    have long : 2 ≤ c.hops.length := by
      rw [← c.legs_hops, List.length_map, split]
      simp only [List.cons_append, List.length_cons, List.length_append]
      omega
    obtain ⟨d, hd, chainId, hops, visits⟩ := final_call made paths tagMap hc long
    have legs := legs_same chainId hops split
    refine visits_along made hd [] ({ a with place := d.first } :: front) legs ?_
    rw [← c.ids_legs, split] at visits
    exact visits

/-- Past an emitted leg the tag that follows visits what the leg has left. -/
theorem visits_onward (hc : c ∈ (plan b).calls) (emits : c.Emits leg rest)
    (h : Visits o.net l (onward rest)) : l = ids rest := by
  cases rest with
  | nil => exact direct_visits made h
  | cons q more =>
    exact h.unique (expected_visits made paths tagMap (emits.behind hc))

/-- An inbound of a longer chain is reached from a tag that is dialled. -/
theorem mapped_reached {x : Leg} {m : String} (hc : c ∈ (plan b).calls) (emits : c.Emits x rest)
    (mapping : x.mapping b c.chainId = some m) (long : 2 ≤ c.hops.length) :
    ∃ d ∈ (plan b).calls, ∃ y, d.Emits y rest ∧ y.mapping b d.chainId = some m ∧
      Visits o.net (ids (y :: rest)) y.place.text := by
  obtain ⟨front, split⟩ := emits.1
  cases front with
  | cons a front =>
    exact ⟨c, hc, x, emits, mapping,
      expected_visits made paths tagMap (.behind hc (List.cons_ne_nil a front) split.symm)⟩
  | nil =>
    obtain ⟨d, hd, chainId, hops, visits⟩ := final_call made paths tagMap hc long
    have legs := legs_same chainId hops split.symm
    have more : rest ≠ [] := by
      rintro rfl
      rw [← c.legs_hops, ← split] at long
      simp at long
    refine ⟨d, hd, { x with place := d.first }, Call.emits_of_split [] legs more, ?_, ?_⟩
    · rw [chainId]
      exact mapping
    · rw [← c.ids_legs, ← split] at visits
      exact visits

theorem paths_mapped {d : Call} {x y : Leg} {rest' : List Leg} {m : String}
    (hc : c ∈ (plan b).calls) (emits : c.Emits x rest) (mapping : x.mapping b c.chainId = some m)
    (hd : d ∈ (plan b).calls) (emits' : d.Emits y rest')
      (mapping' : y.mapping b d.chainId = some m) :
    ids rest = ids rest' := by
  by_cases long : 2 ≤ c.hops.length
  · obtain ⟨e, he, z, reached, mapped, visits⟩ :=
      mapped_reached made paths tagMap hc emits mapping long
    obtain ⟨out, ho, view⟩ := emitted_outbound made he reached
    have tag : out.tag = z.place.text := congrArg View.tag view
    have hop : out.hop = some z.hop := congrArg View.hop view
    obtain ⟨l, eq, _, go⟩ := visits.through ho tag (show o.net.mark out = some z.hop.id by
      simp [Options.net, hop])
    rw [ids, List.map_cons, List.cons.injEq] at eq
    have next := (next_of_leg made reached view).mpr
      (.inr ⟨m, mapped, d, hd, y, rest', emits', mapping', rfl⟩)
    rw [← visits_onward made paths tagMap hd emits' (go _ next)]
    exact eq.2
  · have same : c.chainId = d.chainId := by
      unfold Leg.mapping at mapping mapping'
      split at mapping <;> split at mapping' <;> simp_all only [reduceCtorEq, Option.some.injEq]
      exact (mappingTag_inj (mapping.trans mapping'.symm)).1
    have hops : c.hops = d.hops := by
      rw [(plan_orderly b).hops hc, (plan_orderly b).hops hd,
        (plan_orderly b).same_entity hc hd same]
    have short {e : Call} {z : Leg} {l : List Leg} (emits : e.Emits z l)
        (single : ¬ 2 ≤ e.hops.length) : l = [] := by
      have := emits.1.length_le
      rw [← e.legs_hops, List.length_map] at single
      rw [List.length_cons] at this
      exact List.length_eq_zero_iff.mp (by omega)
    rw [short emits long, short emits' (hops ▸ long)]

theorem pathsAgree_of_dialled : PathsAgree b := by
  refine ⟨?_, ?_, ?_⟩
  · intro l t h
    obtain ⟨x, hx, tag⟩ := (expected_visits made paths tagMap h).defined
    have tag : x.tag = t := tag
    subst tag
    obtain ⟨c, hc, leg, rest, emits, view⟩ := expected_outbound made hx h
    exact ⟨c, hc, leg, rest, emits, (congrArg View.tag view).symm⟩
  · rintro l _ h c hc leg rest emits rfl
    have visits := expected_visits made paths tagMap h
    obtain ⟨l', rfl, ⟨rfl, rfl⟩ | onwards⟩ := visits_leg made hc emits visits
    · rfl
    · rw [visits_onward made paths tagMap hc emits onwards]
      rfl
  · intro m c hc x rest emits mapping d hd y rest' emits' mapping'
    exact paths_mapped made paths tagMap hc emits mapping hd emits' mapping'

end

/-- Every profile with a tag is dialled through its own hops exactly when the chains of
the plan agree on what is behind each tag. -/
theorem buildConfig_dialPaths_iff {b : Build} {r : ConfigBuildResult} {o : Options}
    (built : buildConfig b = .ok r) (generated : r.config = .generated o) :
    DialPaths b r o ↔ PathsAgree b := by
  obtain ⟨selected, p, made, tagMap⟩ := buildConfig_asPlanned built generated
  constructor
  · intro paths
    exact pathsAgree_of_dialled made paths tagMap
  · intro agree
    refine ⟨?_, fun hs hops resolved => agree.visits made (.main hs resolved)⟩
    intro k t listed e stored hops resolved
    rw [tagMap, made.follows.tags, Option.map_eq_some_iff] at listed
    obtain ⟨q, tag, rfl⟩ := listed
    exact agree.visits made (.profile tag stored resolved)

/-- The selected chain dials profile 1 first; a rule points to profile 1, whose group has
the landing proxy 9. -/
def skippedDb : Database where
  proxies := {
    rows := [
      .fresh 1 1 1 (.default .ssh "one" "one.example"),
      .fresh 2 2 1 (.default .ssh "two" "two.example"),
      .fresh 3 2 2 (.default (.chain [1, 2]) "chain" ""),
      .fresh 9 2 3 (.default .ssh "landing" "landing.example")]
    unique := by decide }
  groups := {
    rows := [{ id := 1, userOrder := 1, frontProxy := 0, landingProxy := 9 }]
    unique := by decide }
  rules := [{ id := 1, userOrder := 1, enabled := true, domains := "site.example", outbound := 1 }]

def skipped : Build :=
  .onDevice skippedDb (.fresh 3 2 2 (.default (.chain [1, 2]) "chain" "")) (by decide)

/-- The tag given to profile 1, and the tag, the profile and the detour of every outbound. -/
def pathsOf (r : ConfigBuildResult) (o : Options) :
    Option String × List (String × Option Int × Option String) :=
  (r.profileTagMap.lookup 1, o.all.map fun x => (x.tag, x.hop.map (·.id), x.detour))

theorem skipped_paths : generatedWith pathsOf skipped = some (some "g-1",
    [("proxy", some 2, some "g-1"), ("g-1", some 1, none), ("direct", none, none),
      ("bypass", none, none)]) := by
  decide

theorem skipped_generates : ∃ r o, buildConfig skipped = .ok r ∧ r.config = .generated o ∧
    ¬ DialPaths skipped r o := by
  obtain ⟨r, o, built, generated, told⟩ := generatedWith_eq skipped_paths
  obtain ⟨tag, links⟩ := Prod.mk.inj told
  refine ⟨r, o, built, generated, ?_⟩
  intro paths
  have visits : Visits o.net [9, 1] "g-1" := paths.profile 1 "g-1" tag _ rfl _ rfl
  have node : ("g-1", some 1, none) ∈ o.all.map fun x => (x.tag, x.hop.map (·.id), x.detour) := by
    rw [links]
    decide
  obtain ⟨x, hx, eq⟩ := List.mem_map.mp node
  simp only [Prod.mk.injEq] at eq
  obtain ⟨rest, same, _⟩ := visits.through hx eq.1 eq.2.1
  simp at same

/-- Profile 1 keeps the tag it has as the first hop of the selected chain, so its
landing proxy is not dialled. -/
theorem skipped_landing : ¬ ∀ (b : Build) (r : ConfigBuildResult) (o : Options),
    buildConfig b = .ok r → r.config = .generated o → DialPaths b r o := by
  intro all
  obtain ⟨r, o, built, generated, wrong⟩ := skipped_generates
  exact wrong (all skipped r o built generated)

theorem skipped_disagrees : ¬ PathsAgree skipped := by
  obtain ⟨r, o, built, generated, wrong⟩ := skipped_generates
  exact fun agree => wrong ((buildConfig_dialPaths_iff built generated).mpr agree)

end QuinMo.Config
