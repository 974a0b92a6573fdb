import QuinMo.Config.Exits

/-!
# The traffic map

`trafficMap` tells which profiles the traffic of a tag is counted for. A call of `buildChain`
overwrites the entry of the tag it returns.
-/

namespace QuinMo.Config

open Outcome

/-- The traffic of every tag that was returned for a profile is counted for the
profile and all its hops. -/
def TrafficCovered (b : Build) (r : ConfigBuildResult) : Prop :=
  ∀ e t, Returns b e t → ∃ counted, r.trafficMap.lookup t = some counted ∧ e ∈ counted ∧
    ∀ hops, resolveChain b.db e = .ok hops → ∀ h ∈ hops, h ∈ counted

/-- The last call that returned a tag. -/
def lastCall (calls : List Call) (t : String) : Option Call :=
  calls.reverse.find? (·.exit.text == t)

/-- Of the chains that leave through one outbound the last one has the profiles of every other
among its own: the other chain itself, and its hops. -/
def TrafficKept (b : Build) : Prop :=
  ∀ pre c mid d post, b.made = pre ++ c :: (mid ++ d :: post) → SharesExit b c d →
    (∀ e ∈ post, ¬ SharesExit b d e) →
      ∀ x ∈ c.1 :: hopsOf b.db c.1, x ∈ d.1 :: hopsOf b.db d.1

theorem resolveChain_stored {db : Database} {e : Profile} {hops : List Profile}
    (he : e ∈ db.proxies.rows) (h : resolveChain db e = .ok hops) :
    ∀ x ∈ hops, x ∈ db.proxies.rows := by
  simp only [resolveChain, bind_ok, pure_ok] at h
  obtain ⟨list, resolved, rfl⟩ := h
  intro x hx
  have named (f : ProxyGroup → Int)
      (h : x ∈ ((db.groups.get e.groupId).bind fun g => db.proxies.get (f g)).toList) :
      x ∈ db.proxies.rows := by
    obtain ⟨g, _, found⟩ := Option.bind_eq_some_iff.mp (Option.mem_toList.mp h)
    exact (Table.get_eq_some.mp found).1
  rcases List.mem_append.mp hx with hx | hx
  · rcases List.mem_append.mp hx with hx | hx
    · exact named _ hx
    · exact (Chain.resolve_hops he resolved x hx).1
  · exact named _ hx

theorem mem_traffic {b : Build} {c : Call} (stored : c.entity ∈ b.db.proxies.rows)
    (resolved : resolveChain b.db c.entity = .ok c.hops) {x : Profile} :
    x ∈ c.traffic ↔ x ∈ c.entity :: c.hops := by
  have rows : ∀ y ∈ c.hops ++ [c.entity], y ∈ b.db.proxies.rows := by
    intro y hy
    rcases List.mem_append.mp hy with hy | hy
    · exact resolveChain_stored stored resolved y hy
    · rw [List.mem_singleton.mp hy]
      exact stored
  unfold Call.traffic
  rw [mem_distinctBy fun y hy z hz same => b.db.proxies.key_inj (rows y hy) (rows z hz) same]
  simp [or_comm]

theorem lastCall_mem {calls : List Call} {t : String} {d : Call} (h : lastCall calls t = some d) :
    d ∈ calls := List.mem_reverse.mp (List.mem_of_find?_eq_some h)

theorem lastCall_exists {calls : List Call} {c : Call} (hc : c ∈ calls) :
    ∃ d, lastCall calls c.exit.text = some d := by
  have found : (calls.reverse.find? (·.exit.text == c.exit.text)).isSome := by
    rw [List.find?_isSome]
    exact ⟨c, List.mem_reverse.mpr hc, by simp⟩
  exact Option.isSome_iff_exists.mp found

/-- Of the elements with one value the last one is related to all. -/
theorem last_related_iff {α : Type} (f : α → String) (related : α → α → Prop)
    (self : ∀ a, related a a) (l : List α) :
    (∀ a ∈ l, ∀ d, l.reverse.find? (f · == f a) = some d → related a d) ↔
      ∀ pre a mid d post, l = pre ++ a :: (mid ++ d :: post) → f a = f d →
        (∀ e ∈ post, f d ≠ f e) → related a d := by
  constructor
  · intro kept pre a mid d post split same later
    refine kept a (by simp [split]) d ?_
    have reversed : l.reverse = post.reverse ++ d :: (pre ++ a :: mid).reverse := by
      simp [split]
    rw [List.find?_eq_some_iff_append]
    refine ⟨by simp [same], post.reverse, (pre ++ a :: mid).reverse, reversed, ?_⟩
    intro e inside
    simpa [same] using (later e (List.mem_reverse.mp inside)).symm
  · intro kept a inside d found
    obtain ⟨same, after, before, reversed, later⟩ := List.find?_eq_some_iff_append.mp found
    have same : f d = f a := by simpa using same
    have split : l = before.reverse ++ d :: after.reverse := by
      have whole := congrArg List.reverse reversed
      simpa using whole
    have later : ∀ e ∈ after, f e ≠ f a := by simpa using later
    rw [split, List.mem_append, List.mem_cons] at inside
    rcases inside with inside | rfl | inside
    · obtain ⟨pre, mid, first⟩ := List.append_of_mem inside
      refine kept pre a mid d after.reverse (by simp [split, first]) same.symm ?_
      intro e hit
      rw [same]
      exact (later e (List.mem_reverse.mp hit)).symm
    · exact self a
    · exact absurd rfl (later a (List.mem_reverse.mp inside))

section Related

variable {α β : Type} {R : α → β → Prop}

theorem forall₂_split {pre post : List α} {a : α} {l : List β}
    (h : List.Forall₂ R (pre ++ a :: post) l) :
    ∃ pre' a' post', l = pre' ++ a' :: post' ∧ R a a' ∧ List.Forall₂ R post post' := by
  induction pre generalizing l with
  | nil =>
    cases h with
    | cons first rest => exact ⟨[], _, _, rfl, first, rest⟩
  | cons x pre ih =>
    cases h with
    | cons first rest =>
      obtain ⟨pre', a', post', rfl, same, others⟩ := ih rest
      exact ⟨_ :: pre', a', post', rfl, same, others⟩

/-- Two places of the one list are two places of the other, with related elements after them. -/
theorem forall₂_split_twice {pre mid post : List α} {a d : α} {l : List β}
    (h : List.Forall₂ R (pre ++ a :: (mid ++ d :: post)) l) :
    ∃ pre' a' mid' d' post', l = pre' ++ a' :: (mid' ++ d' :: post') ∧ R a a' ∧ R d d' ∧
      ∀ e' ∈ post', ∃ e ∈ post, R e e' := by
  obtain ⟨pre', a', rest, rfl, first, others⟩ := forall₂_split h
  obtain ⟨mid', d', post', rfl, second, after⟩ := forall₂_split others
  refine ⟨pre', a', mid', d', post', rfl, first, second, fun e' inside => ?_⟩
  obtain ⟨before, later, rfl⟩ := List.append_of_mem inside
  obtain ⟨_, e, _, rfl, same, _⟩ := forall₂_split after.flip
  exact ⟨e, by simp, same⟩

end Related

/-- The last call that returned a tag has the profiles of every other one that did. -/
def CallsKept (calls : List Call) : Prop :=
  ∀ c ∈ calls, ∀ d, lastCall calls c.exit.text = some d →
    ∀ x ∈ c.entity :: c.hops, x ∈ d.entity :: d.hops

theorem callsKept_iff {b : Build} (resolved : ∀ c ∈ (plan b).calls, c.hops ≠ []) :
    CallsKept (plan b).calls ↔ TrafficKept b := by
  have matched := plan_matches b
  have exits {c d : Call} {chain chain' : Profile × String} (hc : c ∈ (plan b).calls)
      (hd : d ∈ (plan b).calls) (h : Matches b c chain) (g : Matches b d chain')
      (apart : ∃ pre mid post, b.made = pre ++ chain :: (mid ++ chain' :: post)) :
      c.exit.text = d.exit.text ↔ SharesExit b chain chain' := by
    obtain ⟨pre, mid, post, split⟩ := apart
    have pairs := made_apart b
    rw [split, List.pairwise_append, List.pairwise_cons] at pairs
    exact exit_eq_iff hc hd (resolved c hc) (resolved d hd) h g (by simp [split]) (by simp [split])
      (pairs.2.1.1 chain' (by simp))
  unfold CallsKept lastCall
  rw [last_related_iff (fun c : Call => c.exit.text)
    (fun c d => ∀ x ∈ c.entity :: c.hops, x ∈ d.entity :: d.hops) fun _ _ h => h]
  constructor
  · intro kept pre chain mid chain' post split shares later
    obtain ⟨pre', c, mid', d, post', calls, h, g, after⟩ :=
      forall₂_split_twice (split ▸ matched.flip)
    rw [← h.hops, ← h.entity, ← g.hops, ← g.entity]
    refine kept pre' c mid' d post' calls ?_ ?_
    · exact (exits (by simp [calls]) (by simp [calls]) h g ⟨pre, mid, post, split⟩).mpr shares
    · intro e inside same
      obtain ⟨chain'', listed, m⟩ := after e inside
      obtain ⟨before, behind, rfl⟩ := List.append_of_mem listed
      have apart : b.made = (pre ++ chain :: mid) ++ chain' :: (before ++ chain'' :: behind) := by
        simp [split]
      exact later chain'' listed ((exits (by simp [calls]) (by simp [calls, inside]) g m
        ⟨_, _, _, apart⟩).mp same)
  · intro kept pre c mid d post split same later
    obtain ⟨pre', chain, mid', chain', post', made, h, g, after⟩ :=
      forall₂_split_twice (split ▸ matched)
    rw [h.entity, h.hops, g.entity, g.hops]
    refine kept pre' chain mid' chain' post' made ?_ ?_
    · exact (exits (by simp [split]) (by simp [split]) h g ⟨pre', mid', post', made⟩).mp same
    · intro chain'' listed shares
      obtain ⟨e, inside, m⟩ := after chain'' listed
      obtain ⟨before, behind, rfl⟩ := List.append_of_mem listed
      have apart : b.made = (pre' ++ chain :: mid') ++ chain' :: (before ++ chain'' :: behind) := by
        simp [made]
      exact later e inside ((exits (by simp [split]) (by simp [split, inside]) g m
        ⟨_, _, _, apart⟩).mpr shares)

/-- The traffic of every profile that is built is counted for it and its hops exactly if, of the
chains that leave through one outbound, the last one contains the others. -/
theorem buildConfig_trafficCovered_iff {b : Build} {r : ConfigBuildResult} {o : Options}
    (built : buildConfig b = .ok r) (generated : r.config = .generated o) :
    TrafficCovered b r ↔ TrafficKept b := by
  obtain ⟨p, outs, _, trafficMap, _⟩ := buildConfig_generated built generated
  obtain ⟨selected, _, follows⟩ := buildOutbounds_follows outs
  have stored := (plan_orderly b).stored
  have lookup (t : String) :
      r.trafficMap.lookup t = (lastCall (plan b).calls t).map Call.traffic := by
    rw [trafficMap]
    exact follows.shared.traffic t
  have counts {d : Call} (hd : d ∈ (plan b).calls) (x : Profile) :
      x ∈ d.traffic ↔ x ∈ d.entity :: d.hops :=
    mem_traffic (stored d hd) (follows.shared.resolved d hd).1
  rw [← callsKept_iff fun c hc => (follows.shared.resolved c hc).2]
  constructor
  · intro covered c hc d last x hx
    obtain ⟨counted, found, self, hops⟩ := covered _ _ (plan_returns outs hc)
    rw [lookup, last, Option.map_some, Option.some.injEq] at found
    rw [← counts (lastCall_mem last), found]
    rcases List.mem_cons.mp hx with rfl | hx
    · exact self
    · exact hops c.hops (follows.shared.resolved c hc).1 x hx
  · intro kept e t returned
    obtain ⟨c, hc, rfl, rfl⟩ := returned.planned
    obtain ⟨d, last⟩ := lastCall_exists hc
    have all := kept c hc d last
    refine ⟨d.traffic, by rw [lookup, last]; rfl, ?_, ?_⟩
    · exact (counts (lastCall_mem last) c.entity).mpr (all c.entity List.mem_cons_self)
    · intro hops resolved h hh
      rw [(follows.shared.resolved c hc).1, Except.ok.injEq] at resolved
      subst resolved
      exact (counts (lastCall_mem last) h).mpr (all h (List.mem_cons_of_mem _ hh))

/-! ## Two chains with one hop -/

/-- The selected chain and the chain a rule points to have the same only member. -/
def sharedDb : Database where
  proxies := {
    rows := [
      .fresh 1 1 1 (.default .ssh "one" "one.example"),
      .fresh 2 1 2 (.default (.chain [1]) "selected" ""),
      .fresh 3 1 3 (.default (.chain [1]) "other" "")]
    unique := by decide }
  groups := .empty
  rules := [{ id := 1, userOrder := 1, enabled := true, domains := "site.example", outbound := 3 }]

def sharedHop : Build :=
  .onDevice sharedDb (.fresh 2 1 2 (.default (.chain [1]) "selected" "")) (by decide)

/-- The tags of the traffic map with the profiles they are counted for. -/
def trafficOf (r : ConfigBuildResult) (_ : Options) : List (String × List Int) :=
  r.trafficMap.entries.map fun e => (e.1, e.2.map (·.id))

theorem sharedHop_traffic : generatedWith trafficOf sharedHop = some [("proxy", [1, 3])] := by
  decide

/-- The traffic of `proxy` is counted for the chain of the rule, not for the selected one. -/
theorem sharedHop_loses_selected : ¬ ∀ (b : Build) (r : ConfigBuildResult) (o : Options),
    buildConfig b = .ok r → r.config = .generated o → TrafficCovered b r := by
  intro all
  obtain ⟨r, o, built, generated, traffic⟩ := generatedWith_eq sharedHop_traffic
  obtain ⟨p, outs, _, _, _⟩ := buildConfig_generated built generated
  have main : planCall sharedHop [] 0 sharedHop.proxy ∈ (plan sharedHop).calls := by decide
  obtain ⟨counted, found, self, _⟩ :=
    all sharedHop r o built generated _ _ (plan_returns outs main)
  have entry : ("proxy", counted.map (·.id)) ∈ trafficOf r o :=
    List.mem_map.mpr ⟨⟨"proxy", counted⟩, AList.mem_lookup_iff.mp found, rfl⟩
  rw [traffic] at entry
  have ids : counted.map (·.id) = [1, 3] := by simpa using entry
  have selected : 2 ∈ counted.map (·.id) := List.mem_map.mpr ⟨_, self, rfl⟩
  rw [ids] at selected
  exact absurd selected (by decide)

/-- The selected node is the only member of the chain a rule points to. -/
def frontedNode : Build :=
  .onDevice sharedDb (.fresh 1 1 1 (.default .ssh "one" "one.example")) (by decide)

theorem frontedNode_kept : TrafficKept frontedNode := by
  intro pre c mid d post split _ _
  have two : frontedNode.made.map Prod.fst = [frontedNode.proxy,
      .fresh 3 1 3 (.default (.chain [1]) "other" "")] := by
    rfl
  rw [split] at two
  have ends : c.1 = frontedNode.proxy ∧ d.1 = .fresh 3 1 3 (.default (.chain [1]) "other" "") := by
    rcases pre with - | ⟨_, - | ⟨_, _⟩⟩ <;> rcases mid with - | ⟨_, _⟩ <;> simp_all
  rw [ends.1, ends.2]
  intro x inside
  have hops : hopsOf frontedNode.db frontedNode.proxy = [frontedNode.proxy] := by rfl
  have others : hopsOf frontedNode.db (.fresh 3 1 3 (.default (.chain [1]) "other" "")) =
      [frontedNode.proxy] := by rfl
  rw [hops] at inside
  rw [others]
  simp_all

/-- Its traffic is counted for the node and for the chain. -/
theorem frontedNode_covered : ∃ r o, buildConfig frontedNode = .ok r ∧
    r.config = .generated o ∧ TrafficCovered frontedNode r := by
  obtain ⟨r, o, built, generated, _⟩ := generatedWith_eq
    (show generatedWith trafficOf frontedNode = some [("proxy", [1, 3])] by decide)
  exact ⟨r, o, built, generated,
    (buildConfig_trafficCovered_iff built generated).mpr frontedNode_kept⟩

end QuinMo.Config
