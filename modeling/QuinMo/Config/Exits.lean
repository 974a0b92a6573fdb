import QuinMo.Config.Sharing

/-!
# Chains that leave through one outbound

A chain with a single hop leaves through the outbound of that hop, whichever chain it was built
for. Chains with more hops have an exit of their own, unless its name is spelled like a hop.
-/

namespace QuinMo.Config

variable {b : Build}

/-- The chains that are built, one after the other. Those of a selector come with the names of
their exits. -/
def Build.made (b : Build) : List (Profile × String) :=
  if b.buildSelector then chains b b.requests
  else b.extraProxies.foldl (addChain b) [(b.proxy, TAG_PROXY)]

/-- The hop of a profile that has no other. -/
def onlyHop (b : Build) (e : Profile) : Option Int :=
  match hopsOf b.db e with
  | [h] => some h.id
  | _ => none

/-- The exit of the one chain of a selector is spelled like the only hop of the other, which lies
behind the exit of a longer chain. The one leaves through its own exit, or through that of the
chain with a single hop for which its only hop was built. -/
def SpelledLike (b : Build) (c d : Profile × String) : Prop :=
  ∃ y, onlyHop b d.1 = some y ∧ InnerHop b y ∧
    StandsAs b (onlyHop b c.1) c.2 (Place.entry y).text

/-- Two chains that leave through one outbound. -/
def SharesExit (b : Build) (c d : Profile × String) : Prop :=
  (∃ y, onlyHop b c.1 = some y ∧ onlyHop b d.1 = some y) ∨
    b.buildSelector = true ∧ (SpelledLike b c d ∨ SpelledLike b d c)

/-- The calls of the plan are the chains that are made, one by one. -/
theorem plan_matches (b : Build) : List.Forall₂ (Matches b) (plan b).calls b.made := by
  unfold plan planSelected Build.made
  cases selector : b.buildSelector with
  | true =>
    rw [if_pos rfl, if_pos rfl, chains, Build.requests, List.foldl_append]
    exact requests_matches _ (requests_matches _ .nil)
  | false =>
    rw [if_neg (by decide), if_neg (by decide)]
    refine requests_matches _ (.cons ⟨rfl, rfl, fun hs => ?_⟩ .nil)
    rw [selector] at hs
    cases hs

variable {c d : Call} {y z : Int}

theorem onlyHop_cons {e : Profile} {x : Profile} (shape : hopsOf b.db e = [x]) :
    onlyHop b e = some x.id := by
  rw [onlyHop, shape]

theorem hops_of_onlyHop {e : Profile} (only : onlyHop b e = some y) :
    ∃ x, hopsOf b.db e = [x] ∧ x.id = y := by
  unfold onlyHop at only
  split at only
  · rename_i x shape
    exact ⟨x, shape, Option.some.inj only⟩
  · cases only

/-- A chain with a single hop leaves where the hop is registered in the end. -/
theorem exit_only (hc : c ∈ (plan b).calls) (only : onlyHop b c.entity = some y) :
    registered (plan b).calls y = some c.exit := by
  obtain ⟨x, hops, rfl⟩ := hops_of_onlyHop only
  have orderly := plan_orderly b
  obtain ⟨pre, post, split⟩ := List.append_of_mem hc
  have call := orderly.sequenced pre c post split
  have shape : c.hops = [x] := (orderly.hops hc).trans hops
  have reused : c.reused = registered pre x.id := by
    rw [call, planCall, hops]
    rfl
  have entry : c.entryHop = some x := by rw [Call.entryHop, shape]; rfl
  have place : c.entryPlace = c.first := by rw [Call.entryPlace, shape]
  rw [split, List.append_cons]
  apply registered_mono
  rw [registered_append, entry, place, Call.exit, shape, reused]
  cases registered pre x.id <;> simp

/-- A longer chain leaves through its own exit. -/
theorem exit_long (hc : c ∈ (plan b).calls) (long : onlyHop b c.entity = none) :
    c.exit = c.first := by
  unfold Call.exit
  split
  · rename_i x shape
    rw [onlyHop_cons (((plan_orderly b).hops hc).symm.trans shape)] at long
    cases long
  · rfl

section Selector
variable {chain chain' : Profile × String}

theorem exit_stands (selector : b.buildSelector = true) (hc : c ∈ (plan b).calls)
    (h : Matches b c chain) : standPlace b chain.2 (onlyHop b chain.1) = some c.exit := by
  rw [← h.entity]
  cases only : onlyHop b c.entity with
  | none => rw [exit_long hc only, h.first selector, standPlace]
  | some y => rw [standPlace, ← hopPlace_eq selector, exit_only hc only]

theorem exit_eq_iff_selector (selector : b.buildSelector = true) (hc : c ∈ (plan b).calls)
    (hd : d ∈ (plan b).calls) (h : Matches b c chain) (g : Matches b d chain')
    (listed : chain ∈ chains b b.requests) (listed' : chain' ∈ chains b b.requests)
    (apart : chain.2 ≠ chain'.2) : c.exit.text = d.exit.text ↔ SharesExit b chain chain' := by
  have own {chain : Profile × String} (listed : chain ∈ chains b b.requests) :
      OwnExit b (onlyHop b chain.1) chain.2 := by
    refine fun long => ⟨chain.1, listed, fun x shape => ?_⟩
    rw [onlyHop_cons shape] at long
    cases long
  rw [standPlace_text_iff (own listed) (own listed') (fun _ _ => apart) (exit_stands selector hc h)
    (exit_stands selector hd g), SharesExit, selector]
  simp only [SpelledLike, true_and]

end Selector

/-! ## Chains of a single profile -/

section Plain
variable (plain : b.buildSelector = false)

include plain

theorem first_plain (hc : c ∈ (plan b).calls) :
    (c.first = .proxy ∧ c.entity = b.proxy) ∨
      (c.chainId = c.entity.id ∧ ∀ x t, c.hops = x :: t →
        c.first = if t = [] then .entry x.id else .inner c.chainId x.id) := by
  have orderly := plan_orderly b
  obtain ⟨pre, post, split⟩ := List.append_of_mem hc
  have call := orderly.sequenced pre c post split
  have first : c.first = firstPlace b c.chainId c.entity c.hops (issuedNames b pre) := by
    rw [orderly.hops hc, call]
    rfl
  unfold firstPlace at first
  rw [if_neg (by rw [plain]; decide)] at first
  rcases orderly.ownId c hc with ⟨own, positive⟩ | ⟨_, zero, selected⟩
  · refine .inr ⟨own, fun x t hops => ?_⟩
    have := positive plain
    rw [if_neg (by omega), hops] at first
    cases t with
    | nil => exact first
    | cons z t => exact first
  · rw [if_pos zero] at first
    exact .inl ⟨first, selected⟩

theorem registered_plain {place : Place} (known : registered (plan b).calls y = some place) :
    place = .entry y ∨ place = .proxy ∧ onlyHop b b.proxy = some y := by
  have orderly := plan_orderly b
  obtain ⟨c, hc, entry, _, rfl⟩ := orderly.built_first known
  obtain ⟨x, last, rfl⟩ := Option.map_eq_some_iff.mp entry
  unfold Call.entryPlace
  split
  · rename_i z shape
    have same : z = x := by
      rw [Call.entryHop, shape] at last
      exact Option.some.inj last
    subst same
    rcases first_plain plain hc with ⟨first, selected⟩ | ⟨_, first⟩
    · refine .inr ⟨first, onlyHop_cons ?_⟩
      rw [← selected, ← orderly.hops hc, shape]
    · exact .inl (first z [] shape)
  · rw [last]
    exact .inl rfl

theorem exit_plain (hc : c ∈ (plan b).calls) (resolved : c.hops ≠ []) :
    (∃ y, onlyHop b c.entity = some y ∧
      (c.exit = .entry y ∨ c.exit = .proxy ∧ onlyHop b b.proxy = some y)) ∨
      onlyHop b c.entity = none ∧ (c.exit = .proxy ∧ c.entity = b.proxy ∨
        ∃ x, c.exit = .inner c.entity.id x) := by
  cases only : onlyHop b c.entity with
  | some y => exact .inl ⟨y, rfl, registered_plain plain (exit_only hc only)⟩
  | none =>
    refine .inr ⟨rfl, ?_⟩
    rw [exit_long hc only]
    rcases first_plain plain hc with selected | ⟨own, first⟩
    · exact .inl selected
    · obtain ⟨x, t, shape⟩ := List.exists_cons_of_ne_nil resolved
      have more : t ≠ [] := by
        rintro rfl
        rw [onlyHop_cons (((plan_orderly b).hops hc).symm.trans shape)] at only
        cases only
      rw [first x t shape, if_neg more, own]
      exact .inr ⟨x.id, rfl⟩

theorem exit_eq_iff_plain (hc : c ∈ (plan b).calls) (hd : d ∈ (plan b).calls)
    (resolved : c.hops ≠ []) (resolved' : d.hops ≠ []) (apart : c.entity.id ≠ d.entity.id) :
    c.exit.text = d.exit.text ↔
      ∃ y, onlyHop b c.entity = some y ∧ onlyHop b d.entity = some y := by
  constructor
  · intro same
    rcases exit_plain plain hc resolved with ⟨y, only, exit | ⟨exit, main⟩⟩ |
        ⟨long, ⟨exit, main⟩ | ⟨x, exit⟩⟩ <;>
      rcases exit_plain plain hd resolved' with ⟨z, only', exit' | ⟨exit', main'⟩⟩ |
        ⟨long', ⟨exit', main'⟩ | ⟨x', exit'⟩⟩ <;>
      rw [exit, exit'] at same <;> have place := Place.text_inj rfl rfl same <;>
      simp only [Place.entry.injEq, Place.inner.injEq, reduceCtorEq] at place
    · exact ⟨y, only, place ▸ only'⟩
    · cases main.symm.trans main'
      exact ⟨y, only, only'⟩
    · rw [main', main] at long'
      cases long'
    · rw [main, main'] at long
      cases long
    · exact absurd (by rw [main, main']) apart
    · exact absurd place.1 apart
  · rintro ⟨y, only, only'⟩
    have place := exit_only hc only
    rw [exit_only hd only'] at place
    rw [Option.some.inj place]

end Plain

/-- No two chains have one name, and without a selector no two are for one profile. -/
def Apart (b : Build) (c d : Profile × String) : Prop :=
  if b.buildSelector then c.2 ≠ d.2 else c.1.id ≠ d.1.id

theorem foldl_addChain_sublist (es : List Profile) (cs : List (Profile × String)) :
    ((es.foldl (addChain b) cs).map Prod.fst).Sublist (cs.map Prod.fst ++ es) := by
  induction es generalizing cs with
  | nil => simp
  | cons e es ih =>
    refine (ih (addChain b cs e)).trans ?_
    unfold addChain
    split
    · exact List.Sublist.append_left (List.sublist_cons_self e es) _
    · simp

theorem extraProxies_nodup (b : Build) : (b.extraProxies.map (·.id)).Nodup := by
  unfold Build.extraProxies
  split
  · exact List.nodup_nil
  · exact b.db.proxies.unique.sublist (List.filter_sublist.map _)

theorem made_apart (b : Build) : b.made.Pairwise (Apart b) := by
  unfold Build.made Apart
  cases selector : b.buildSelector with
  | true => exact List.pairwise_map.mp (chains_names_nodup b b.requests)
  | false =>
    have ids : ((b.proxy :: b.extraProxies).map (·.id)).Nodup := by
      rw [List.map_cons, List.nodup_cons]
      refine ⟨fun inside => ?_, extraProxies_nodup b⟩
      obtain ⟨e, extra, same⟩ := List.mem_map.mp inside
      exact (mem_extraProxies extra).2.2 same
    have sublist := (foldl_addChain_sublist (b := b) b.extraProxies [(b.proxy, TAG_PROXY)]).map
      (·.id)
    have distinct := ids.sublist sublist
    rw [List.map_map] at distinct
    exact List.pairwise_map.mp distinct

/-- The calls for two chains return one tag exactly if the chains leave through one outbound. -/
theorem exit_eq_iff {chain chain' : Profile × String} (hc : c ∈ (plan b).calls)
    (hd : d ∈ (plan b).calls) (resolved : c.hops ≠ []) (resolved' : d.hops ≠ [])
    (h : Matches b c chain) (g : Matches b d chain') (listed : chain ∈ b.made)
    (listed' : chain' ∈ b.made) (apart : Apart b chain chain') :
    c.exit.text = d.exit.text ↔ SharesExit b chain chain' := by
  unfold Build.made at listed listed'
  unfold Apart at apart
  cases selector : b.buildSelector with
  | true =>
    rw [if_pos selector] at listed listed' apart
    exact exit_eq_iff_selector selector hc hd h g listed listed' apart
  | false =>
    rw [if_neg (by rw [selector]; decide), ← h.entity, ← g.entity] at apart
    rw [exit_eq_iff_plain selector hc hd resolved resolved' apart, SharesExit, h.entity, g.entity,
      selector]
    simp

end QuinMo.Config
