import QuinMo.Config.Refinement

/-!
# The calls of a plan

They follow one another, a chain id belongs to one profile, and the outbound of a hop that several
chains dial first is built by the first of them.
-/

namespace QuinMo.Config

open Outcome

/-- The plans a build goes through. -/
inductive Built (b : Build) : Plan → Prop
  | members : b.buildSelector = true → Built b {}
  | single : b.buildSelector = false → Built b { calls := [planCall b [] 0 b.proxy] }
  | request {q : Plan} (e : Profile) : Built b q → e ∈ b.db.proxies.rows →
      (b.buildSelector = false → 0 < e.id) → Built b (q.request b e)

variable {b : Build} {q : Plan} {e : Profile} {c : Call} {id : Int} {p : Place}

theorem Built.requests {es : List Profile} (h : Built b q)
    (stored : ∀ e ∈ es, e ∈ b.db.proxies.rows)
    (positive : b.buildSelector = false → ∀ e ∈ es, 0 < e.id) :
    Built b (es.foldl (Plan.request b) q) := by
  induction es generalizing q with
  | nil => exact h
  | cons e es ih =>
    refine ih (.request e h (stored e (by simp)) fun hs => positive hs e (by simp)) ?_ ?_
    · exact fun d hd => stored d (List.mem_cons_of_mem e hd)
    · exact fun hs d hd => positive hs d (List.mem_cons_of_mem e hd)

theorem mem_extraProxies (h : e ∈ b.extraProxies) :
    e ∈ b.db.proxies.rows ∧ 0 < e.id ∧ e.id ≠ b.proxy.id := by
  unfold Build.extraProxies at h
  split at h
  · simp at h
  · obtain ⟨stored, listed⟩ := Database.mem_getEntities.mp h
    rw [List.mem_dedup, List.mem_filter] at listed
    exact ⟨stored, by simpa using listed.2⟩

theorem planSelected_built (b : Build) : Built b (planSelected b) := by
  unfold planSelected
  cases hs : b.buildSelector with
  | true =>
    refine Built.requests (.members hs) (fun e he => (Database.mem_getByGroup.mp he).1) ?_
    simp [hs]
  | false => exact .single hs

theorem plan_built (b : Build) : Built b (plan b) :=
  (planSelected_built b).requests (fun _ he => (mem_extraProxies he).1)
    fun _ _ he => (mem_extraProxies he).2.1

/-- Every call is the one the plan makes after the calls before it. -/
def Sequenced (b : Build) (calls : List Call) : Prop :=
  ∀ pre c post, calls = pre ++ c :: post → c = planCall b pre c.chainId c.entity

theorem Sequenced.snoc {calls : List Call} (h : Sequenced b calls) (chainId : Int)
    (e : Profile) : Sequenced b (calls ++ [planCall b calls chainId e]) := by
  intro pre c post split
  rcases List.eq_nil_or_concat post with rfl | ⟨front, last, rfl⟩
  · obtain ⟨rfl, rfl⟩ : calls = pre ∧ planCall b calls chainId e = c := by
      have := List.append_inj' split rfl
      simpa using this
    rfl
  · have assoc : calls ++ [planCall b calls chainId e] = (pre ++ c :: front) ++ [last] := by
      simpa using split
    exact h pre c front (List.append_inj' assoc rfl).1

/-- Where a call's chain id comes from. Only the selected profile of a build without a
selector is built under another id than its own. -/
def OwnId (b : Build) (c : Call) : Prop :=
  (c.chainId = c.entity.id ∧ (b.buildSelector = false → 0 < c.chainId)) ∨
    (b.buildSelector = false ∧ c.chainId = 0 ∧ c.entity = b.proxy)

/-- What holds of the plans of a build. -/
structure Orderly (b : Build) (q : Plan) : Prop where
  sequenced : Sequenced b q.calls
  stored : ∀ c ∈ q.calls, c.entity ∈ b.db.proxies.rows
  ownId : ∀ c ∈ q.calls, OwnId b c
  single : b.buildSelector = false → ∃ post,
    q.calls = planCall b [] 0 b.proxy :: post ∧ ∀ c ∈ post, 0 < c.chainId

theorem Orderly.request (h : Orderly b q) (stored : e ∈ b.db.proxies.rows)
    (positive : b.buildSelector = false → 0 < e.id) : Orderly b (q.request b e) := by
  unfold Plan.request
  split
  · exact ⟨h.sequenced, h.stored, h.ownId, h.single⟩
  · refine ⟨h.sequenced.snoc e.id e, ?_, ?_, ?_⟩
    · intro c hc
      rcases List.mem_append.mp hc with hc | hc
      · exact h.stored c hc
      · rw [List.mem_singleton.mp hc]
        exact stored
    · intro c hc
      rcases List.mem_append.mp hc with hc | hc
      · exact h.ownId c hc
      · rw [List.mem_singleton.mp hc]
        exact .inl ⟨rfl, positive⟩
    · intro hs
      obtain ⟨post, eq, later⟩ := h.single hs
      refine ⟨post ++ [planCall b q.calls e.id e], by simp [eq], ?_⟩
      intro c hc
      rcases List.mem_append.mp hc with hc | hc
      · exact later c hc
      · rw [List.mem_singleton.mp hc]
        exact positive hs

theorem Built.orderly (h : Built b q) : Orderly b q := by
  induction h with
  | members hs =>
    refine ⟨?_, by simp, by simp, by simp [hs]⟩
    intro pre c post split
    simp at split
  | single hs =>
    have nil : Sequenced b [] := by
      intro pre c post split
      simp at split
    refine ⟨nil.snoc 0 b.proxy, ?_, ?_, fun _ => ⟨[], rfl, by simp⟩⟩
    · intro c hc
      rw [List.mem_singleton.mp hc]
      exact b.stored
    · intro c hc
      rw [List.mem_singleton.mp hc]
      exact .inr ⟨hs, rfl, rfl⟩
  | request e _ stored positive ih => exact ih.request stored positive

theorem plan_orderly (b : Build) : Orderly b (plan b) := (plan_built b).orderly

/-- Two calls under one chain id build the same profile from the same hops. -/
theorem Orderly.same_entity (h : Orderly b q) {d : Call} (hc : c ∈ q.calls) (hd : d ∈ q.calls)
    (same : c.chainId = d.chainId) : c.entity = d.entity := by
  rcases h.ownId c hc with ⟨oc, pc⟩ | ⟨sc, zc, ec⟩ <;>
    rcases h.ownId d hd with ⟨od, pd⟩ | ⟨sd, zd, ed⟩
  · exact b.db.proxies.key_inj (h.stored c hc) (h.stored d hd) (by rw [← oc, ← od, same])
  · have := pc sd
    omega
  · have := pd sc
    omega
  · rw [ec, ed]

theorem Orderly.hops (h : Orderly b q) (hc : c ∈ q.calls) : c.hops = hopsOf b.db c.entity := by
  obtain ⟨pre, post, split⟩ := List.append_of_mem hc
  rw [h.sequenced pre c post split]
  rfl

theorem registered_mono {calls more : List Call}
    (h : registered calls id = some p) : registered (calls ++ more) id = some p := by
  unfold registered at h ⊢
  rw [List.find?_append]
  cases found : calls.find? fun c => (c.entryHop.map (·.id)) == some id with
  | none => simp [found] at h
  | some c => simpa [found] using h

theorem registered_isSome_iff {calls : List Call} :
    (registered calls id).isSome ↔ ∃ c ∈ calls, c.entryHop.map (·.id) = some id := by
  simp [registered, List.find?_isSome]

/-- A hop that is registered was built by the first call that dials it first. -/
theorem Orderly.built_first (h : Orderly b q) (known : registered q.calls id = some p) :
    ∃ c ∈ q.calls, c.entryHop.map (·.id) = some id ∧ c.reused = none ∧ c.entryPlace = p := by
  unfold registered at known
  rw [Option.map_eq_some_iff] at known
  obtain ⟨c, found, place⟩ := known
  obtain ⟨hit, pre, post, split, earlier⟩ := List.find?_eq_some_iff_append.mp found
  have hit : c.entryHop.map (·.id) = some id := by simpa using hit
  refine ⟨c, List.mem_of_find?_eq_some found, hit, ?_, place⟩
  have fresh : registered pre id = none := by
    rw [← Option.not_isSome_iff_eq_none, registered_isSome_iff]
    rintro ⟨d, hd, same⟩
    simpa [same] using earlier d hd
  rw [h.sequenced pre c post split] at hit ⊢
  simp only [planCall, Call.entryHop] at hit ⊢
  cases last : (hopsOf b.db c.entity).getLast? with
  | none => rfl
  | some y =>
    have same : y.id = id := by simpa [last] using hit
    simp [same, fresh]

/-- What a call reuses is what is registered in the end. -/
theorem Orderly.reused (h : Orderly b q) (hc : c ∈ q.calls) (reused : c.reused = some p) :
    ∃ y, c.entryHop = some y ∧ registered q.calls y.id = some p := by
  obtain ⟨pre, post, split⟩ := List.append_of_mem hc
  rw [h.sequenced pre c post split] at reused
  simp only [planCall] at reused
  rw [h.sequenced pre c post split]
  simp only [planCall, Call.entryHop]
  cases last : (hopsOf b.db c.entity).getLast? with
  | none => simp [last] at reused
  | some y =>
    refine ⟨y, rfl, ?_⟩
    rw [split]
    exact registered_mono (by simpa [last] using reused)

theorem request_calls (b : Build) (q : Plan) (e : Profile) :
    ∃ more, (q.request b e).calls = q.calls ++ more := by
  unfold Plan.request
  split
  · exact ⟨[], by simp⟩
  · exact ⟨[planCall b q.calls e.id e], rfl⟩

/-- Later requests only add calls. -/
theorem requests_calls (b : Build) (es : List Profile) (q : Plan) :
    ∃ more, (es.foldl (Plan.request b) q).calls = q.calls ++ more := by
  induction es generalizing q with
  | nil => exact ⟨[], by simp⟩
  | cons e es ih =>
    obtain ⟨first, eq⟩ := request_calls b q e
    obtain ⟨rest, eq'⟩ := ih (q.request b e)
    exact ⟨first ++ rest, by rw [List.foldl_cons, eq', eq, List.append_assoc]⟩

/-! ## The places given to profiles -/

/-- Every place given to a profile is the exit of a call for it or the place where it
was built as the first hop of a chain, and every call but that of the selected profile
without a selector gives one. -/
structure Assigned (b : Build) (q : Plan) : Prop where
  sound : ∀ k p, (k, p) ∈ q.tags → ∃ e ∈ b.db.proxies.rows, e.id = k ∧
    ((∃ c ∈ q.calls, c.chainId = k ∧ c.exit = p) ∨ registered q.calls k = some p)
  covers : ∀ c ∈ q.calls, (b.buildSelector = false ∧ c = planCall b [] 0 b.proxy) ∨
    (c.chainId = c.entity.id ∧ ∃ p, (c.chainId, p) ∈ q.tags)

theorem Assigned.request (h : Assigned b q)
    (stored : e ∈ b.db.proxies.rows) : Assigned b (q.request b e) := by
  unfold Plan.request
  split
  · rename_i place known
    refine ⟨?_, ?_⟩
    · intro k p hp
      rcases List.mem_append.mp hp with hp | hp
      · exact h.sound k p hp
      · cases List.mem_singleton.mp hp
        exact ⟨e, stored, rfl, .inr known⟩
    · intro c hc
      rcases h.covers c hc with main | ⟨own, p, hp⟩
      · exact .inl main
      · exact .inr ⟨own, p, List.mem_append_left _ hp⟩
  · refine ⟨?_, ?_⟩
    · intro k p hp
      rcases List.mem_append.mp hp with hp | hp
      · obtain ⟨d, hd, id, ⟨c, hc, exit⟩ | known⟩ := h.sound k p hp
        · exact ⟨d, hd, id, .inl ⟨c, List.mem_append_left _ hc, exit⟩⟩
        · exact ⟨d, hd, id, .inr (registered_mono known)⟩
      · cases List.mem_singleton.mp hp
        exact ⟨e, stored, rfl, .inl ⟨planCall b q.calls e.id e, by simp, rfl, rfl⟩⟩
    · intro c hc
      rcases List.mem_append.mp hc with hc | hc
      · rcases h.covers c hc with main | ⟨own, p, hp⟩
        · exact .inl main
        · exact .inr ⟨own, p, List.mem_append_left _ hp⟩
      · rw [List.mem_singleton.mp hc]
        exact .inr ⟨rfl, _, List.mem_append_right _ (List.mem_singleton.mpr rfl)⟩

theorem Built.assigned (h : Built b q) : Assigned b q := by
  induction h with
  | members hs => exact ⟨by simp, by simp⟩
  | single hs => exact ⟨by simp, by simp [hs]⟩
  | request e _ stored _ ih => exact ih.request stored

theorem Plan.mem_of_tag (h : q.tag id = some p) : (id, p) ∈ q.tags := by
  unfold Plan.tag at h
  obtain ⟨⟨k, place⟩, found, rfl⟩ := Option.map_eq_some_iff.mp h
  have same : k = id := by simpa using List.find?_some found
  subst same
  exact List.mem_reverse.mp (List.mem_of_find?_eq_some found)

theorem Plan.tag_isSome (h : (id, p) ∈ q.tags) : ∃ p', q.tag id = some p' := by
  have hit : (q.tags.reverse.find? (·.1 == id)).isSome := by
    rw [List.find?_isSome]
    exact ⟨(id, p), List.mem_reverse.mpr h, by simp⟩
  obtain ⟨kp, found⟩ := Option.isSome_iff_exists.mp hit
  exact ⟨kp.2, by simp [Plan.tag, found]⟩

/-- The loops over profiles come to `e` with the progress `p`. -/
inductive Reaches (b : Build) : Progress → Profile → Prop
  | member {pre post : List Profile} {e : Profile} {p : Progress} : b.buildSelector = true →
      b.db.getByGroup b.proxy.groupId = pre ++ e :: post →
      forEach (buildListed b) pre { shared := { inbounds := baseInbounds b } } = .ok p →
      Reaches b p e
  | extra {q p : Progress} {pre post : List Profile} {e : Profile} : buildSelected b = .ok q →
      b.extraProxies = pre ++ e :: post → forEach (buildListed b) pre q = .ok p → Reaches b p e

/-- The listed profile is not built again. -/
def Skipped (p : Progress) (e : Profile) : Prop :=
  e.id ∈ p.shared.builtProfiles ∧ (p.shared.globalOutbounds.lookup e.id).isSome

/-- During the build `buildChain` is called for `e` and returns `t`. -/
inductive Returns (b : Build) : Profile → String → Prop
  | main {t : String} {s : Shared} : b.buildSelector = false →
      buildChain b 0 b.proxy { inbounds := baseInbounds b } = .ok (t, s) → Returns b b.proxy t
  | listed {p : Progress} {e : Profile} {t : String} {s : Shared} : Reaches b p e →
      ¬ Skipped p e → buildChain b e.id e p.shared = .ok (t, s) → Returns b e t

theorem Follows.not_skipped {head : List View} {p : Progress}
    (h : Follows b head p q) : ¬ Skipped p e ↔ registered q.calls e.id = none := by
  have global := h.shared.global e.id
  unfold Skipped
  rw [global, Option.isSome_map]
  cases known : registered q.calls e.id with
  | none => simp
  | some place =>
    have listed := h.shared.built e.id (by simp [known])
    simp [listed]

/-- Where the loops are, the plan is. -/
theorem Reaches.follows {p : Progress} (h : Reaches b p e) :
    ∃ head q more, Follows b head p q ∧ (plan b).calls = (q.request b e).calls ++ more := by
  cases h with
  | @member pre post _ _ hs split run =>
    have start : Follows b [] { shared := { inbounds := baseInbounds b } } {} :=
      ⟨realises_nil b, by simp [Plan.tag]⟩
    refine ⟨[], pre.foldl (Plan.request b) {}, ?_⟩
    obtain ⟨first, eq⟩ := requests_calls b post ((pre.foldl (Plan.request b) {}).request b e)
    obtain ⟨rest, eq'⟩ := requests_calls b b.extraProxies (planSelected b)
    refine ⟨first ++ rest, forEach_follows start run, ?_⟩
    have selected : planSelected b = (pre ++ e :: post).foldl (Plan.request b) {} := by
      unfold planSelected
      rw [if_pos hs, split]
    rw [plan, eq', selected, List.foldl_append, List.foldl_cons, eq, List.append_assoc]
  | @extra q _ pre post _ chosen split run =>
    obtain ⟨rest, eq⟩ := requests_calls b post
      ((pre.foldl (Plan.request b) (planSelected b)).request b e)
    refine ⟨_, _, rest, forEach_follows (buildSelected_follows chosen) run, ?_⟩
    rw [plan, split, List.foldl_append, List.foldl_cons, eq]

theorem Returns.planned {t : String} (h : Returns b e t) :
    ∃ c ∈ (plan b).calls, c.entity = e ∧ c.exit.text = t := by
  cases h with
  | main hs chain =>
    obtain ⟨post, calls, _⟩ := (plan_orderly b).single hs
    obtain ⟨tag, _⟩ := buildChain_realises (realises_nil b) chain
    exact ⟨planCall b [] 0 b.proxy, by simp [calls], rfl, tag.symm⟩
  | @listed p _ _ _ reaches fresh chain =>
    obtain ⟨head, q, more, follows, calls⟩ := reaches.follows
    obtain ⟨tag, _⟩ := buildChain_realises follows.shared chain
    refine ⟨planCall b q.calls e.id e, ?_, rfl, tag.symm⟩
    have request : (q.request b e).calls = q.calls ++ [planCall b q.calls e.id e] := by
      simp [Plan.request, follows.not_skipped.mp fresh]
    rw [calls, request]
    simp

/-- A call of a plan was there at the start or belongs to one of the requests. -/
theorem mem_requests {es : List Profile}
    (h : c ∈ (es.foldl (Plan.request b) q).calls) : c ∈ q.calls ∨ ∃ pre e post,
      es = pre ++ e :: post ∧ registered (pre.foldl (Plan.request b) q).calls e.id = none ∧
        c = planCall b (pre.foldl (Plan.request b) q).calls e.id e := by
  induction es generalizing q with
  | nil => exact .inl h
  | cons e es ih =>
    rcases ih h with here | ⟨pre, e', post, rfl, known, eq⟩
    · cases known : registered q.calls e.id with
      | some place =>
        rw [Plan.request, known] at here
        exact .inl here
      | none =>
        rw [Plan.request, known] at here
        rcases List.mem_append.mp here with here | here
        · exact .inl here
        · exact .inr ⟨[], e, es, rfl, known, List.mem_singleton.mp here⟩
    · exact .inr ⟨e :: pre, e', post, rfl, known, eq⟩

/-- A planned call of a finished loop was made and returned its exit. -/
theorem call_returns {head : List View} {p p' : Progress} (follows : Follows b head p q)
    (reaches : Reaches b p e) (fresh : registered q.calls e.id = none)
    (built : buildListed b p e = .ok p') : Returns b e (planCall b q.calls e.id e).exit.text := by
  have global := follows.shared.global e.id
  rw [fresh] at global
  simp only [buildListed, global, Option.map_none, ite_self, bind_ok, pure_ok, Prod.exists] at built
  obtain ⟨tag, s, chain, _⟩ := built
  obtain ⟨rfl, _⟩ := buildChain_realises follows.shared chain
  exact .listed reaches (follows.not_skipped.mpr fresh) chain

theorem planSelected_returns {selected : Progress} (chosen : buildSelected b = .ok selected)
    (hc : c ∈ (planSelected b).calls) : Returns b c.entity c.exit.text := by
  unfold planSelected at hc
  unfold buildSelected at chosen
  cases hs : b.buildSelector with
  | true =>
    simp only [hs, if_true, bind_ok, pure_ok] at hc chosen
    obtain ⟨p, members, _⟩ := chosen
    rcases mem_requests hc with none | ⟨pre, e, post, split, fresh, rfl⟩
    · simp at none
    · rw [split] at members
      obtain ⟨u, v, before, round⟩ := forEach_at members
      have start : Follows b [] { shared := { inbounds := baseInbounds b } } {} :=
        ⟨realises_nil b, by simp [Plan.tag]⟩
      exact call_returns (forEach_follows start before) (.member hs split before) fresh round
  | false =>
    simp only [hs, Bool.false_eq_true, if_false, bind_ok, pure_ok, Prod.exists] at hc chosen
    obtain ⟨tag, s, chain, _⟩ := chosen
    rw [List.mem_singleton.mp hc]
    obtain ⟨rfl, _⟩ := buildChain_realises (realises_nil b) chain
    exact .main hs chain

theorem plan_returns {p : Progress} (outs : buildOutbounds b = .ok p)
    (hc : c ∈ (plan b).calls) : Returns b c.entity c.exit.text := by
  unfold buildOutbounds at outs
  rw [bind_ok] at outs
  obtain ⟨selected, chosen, extra⟩ := outs
  rcases mem_requests hc with first | ⟨pre, e, post, split, fresh, rfl⟩
  · exact planSelected_returns chosen first
  · rw [split] at extra
    obtain ⟨u, v, before, round⟩ := forEach_at extra
    exact call_returns (forEach_follows (buildSelected_follows chosen) before)
      (.extra chosen split before) fresh round

end QuinMo.Config
