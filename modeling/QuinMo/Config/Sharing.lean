import QuinMo.Config.Places

/-!
# Profiles of a selector that share an outbound

A profile that is dialled first by a chain built before is not built again, and a chain with a
single hop stands at the outbound of that hop.
-/

namespace QuinMo.Config

variable {b : Build}

/-- The profiles in the order in which the builder comes to them. -/
def Build.requests (b : Build) : List Profile :=
  b.db.getByGroup b.proxy.groupId ++ b.extraProxies

def dialsFirst (db : Database) (e : Profile) (id : Int) : Bool :=
  (hopsOf db e).getLast?.map (·.id) == some id

/-- One more profile: it is found as the first hop of a chain, or built under a new name. -/
def addChain (b : Build) (chains : List (Profile × String)) (e : Profile) :
    List (Profile × String) :=
  if chains.any (dialsFirst b.db ·.1 e.id) then chains
  else chains ++ [(e, selectorName (chains.map Prod.snd) (e.bean.displayName b.env.hashCode))]

/-- The chains built for these profiles, with the names of their exits. -/
def chains (b : Build) (es : List Profile) : List (Profile × String) := es.foldl (addChain b) []

/-- The hop at whose outbound the profile stands, if it does not stand at one of its own. -/
def standIn (b : Build) (before : List Profile) (p : Profile) : Option Int :=
  if (chains b before).any (dialsFirst b.db ·.1 p.id) then some p.id
  else match hopsOf b.db p with
    | [y] => some y.id
    | _ => none

/-- The name of the profile's own chain. -/
def ownName (b : Build) (before : List Profile) (p : Profile) : String :=
  selectorName ((chains b before).map Prod.snd) (p.bean.displayName b.env.hashCode)

/-- The builder comes to the profile for the last time after these. -/
def Asked (b : Build) (before : List Profile) (p : Profile) : Prop :=
  ∃ after, b.requests = before ++ p :: after ∧ ∀ q ∈ after, q.id ≠ p.id

/-- The chain that builds the outbound of a hop. -/
def maker (b : Build) (y : Int) : Option (Profile × String) :=
  (chains b b.requests).find? (dialsFirst b.db ·.1 y)

/-- The outbound of the hop is the exit of a chain, under this name. -/
def NamedHop (b : Build) (y : Int) (name : String) : Prop :=
  ∃ e h, maker b y = some (e, name) ∧ hopsOf b.db e = [h]

/-- The outbound of the hop lies behind the exit of a longer chain. -/
def InnerHop (b : Build) (y : Int) : Prop :=
  ∃ e name, maker b y = some (e, name) ∧ ∀ h, hopsOf b.db e ≠ [h]

/-- The profile stands at an exit with this name. -/
def Named (b : Build) (before : List Profile) (p : Profile) (name : String) : Prop :=
  standIn b before p = none ∧ name = ownName b before p ∨
    ∃ y, standIn b before p = some y ∧ NamedHop b y name

/-- The exit where one profile stands is spelled like the hop where the other stands. -/
def Spelled (b : Build) (before : List Profile) (p : Profile) (before' : List Profile)
    (q : Profile) : Prop :=
  ∃ y, standIn b before' q = some y ∧ InnerHop b y ∧ Named b before p (Place.entry y).text

/-- Two profiles that the selector cannot tell apart: they stand at the same hop, or a name
is spelled like a hop. -/
def Shares (b : Build) (p q : Profile) : Prop :=
  ∃ before before', Asked b before p ∧ Asked b before' q ∧
    ((∃ y, standIn b before p = some y ∧ standIn b before' q = some y) ∨
      Spelled b before p before' q ∨ Spelled b before' q before p)

variable {p : Profile} {before : List Profile} {y : Int} {name : String}

theorem requests_stored (h : p ∈ b.requests) : p ∈ b.db.proxies.rows := by
  rcases List.mem_append.mp h with member | extra
  · exact (Database.mem_getByGroup.mp member).1
  · exact (mem_extraProxies extra).1

theorem Asked.mem (h : Asked b before p) : p ∈ b.requests := by
  obtain ⟨after, split, _⟩ := h
  rw [split]
  exact List.mem_append_right _ List.mem_cons_self

theorem Asked.stored (h : Asked b before p) : p ∈ b.db.proxies.rows :=
  requests_stored h.mem

/-- The plan after these requests. -/
def planned (b : Build) (es : List Profile) : Plan := es.foldl (Plan.request b) {}

theorem planned_snoc (b : Build) (es : List Profile) (e : Profile) :
    planned b (es ++ [e]) = (planned b es).request b e := by
  simp [planned]

theorem chains_snoc (b : Build) (es : List Profile) (e : Profile) :
    chains b (es ++ [e]) = addChain b (chains b es) e := by
  simp [chains]

theorem plan_eq_planned (selector : b.buildSelector = true) : plan b = planned b b.requests := by
  simp [plan, planSelected, selector, planned, Build.requests]

/-- A call and the chain it builds. -/
structure Matches (b : Build) (c : Call) (chain : Profile × String) : Prop where
  entity : c.entity = chain.1
  hops : c.hops = hopsOf b.db chain.1
  first : b.buildSelector = true → c.first = .named chain.2

variable {chain : Profile × String}

theorem Matches.entryHop {c : Call} (h : Matches b c chain) (id : Int) :
    (c.entryHop.map (·.id) == some id) = dialsFirst b.db chain.1 id := by
  rw [dialsFirst, ← h.hops]
  rfl

/-- The place of the hop dialled first by a chain. -/
def entryOf (b : Build) (y : Int) (chain : Profile × String) : Place :=
  match hopsOf b.db chain.1 with
  | [_] => .named chain.2
  | _ => .entry y

theorem Matches.entryPlace (selector : b.buildSelector = true) {c : Call} (h : Matches b c chain)
    (dials : dialsFirst b.db chain.1 y = true) : c.entryPlace = entryOf b y chain := by
  unfold entryOf Call.entryPlace
  have last : c.entryHop.map (·.id) = some y := by
    rw [← h.entryHop] at dials
    exact beq_iff_eq.mp dials
  obtain ⟨x, entry, rfl⟩ := Option.map_eq_some_iff.mp last
  rw [← h.hops, entry]
  split <;> simp_all [h.first selector]

variable {calls : List Call} {cs : List (Profile × String)}

theorem registered_matches (selector : b.buildSelector = true)
    (h : List.Forall₂ (Matches b) calls cs) (y : Int) :
    registered calls y = (cs.find? (dialsFirst b.db ·.1 y)).map (entryOf b y) := by
  unfold registered
  induction h with
  | nil => rfl
  | @cons c chain calls cs first rest ih =>
    rw [List.find?_cons, List.find?_cons, first.entryHop]
    cases dials : dialsFirst b.db chain.1 y with
    | true => exact congrArg some (first.entryPlace selector dials)
    | false => exact ih

theorem any_matches (h : List.Forall₂ (Matches b) calls cs) (id : Int) :
    cs.any (dialsFirst b.db ·.1 id) = (registered calls id).isSome := by
  rw [registered, Option.isSome_map]
  induction h with
  | nil => rfl
  | @cons c chain calls cs first _ ih =>
    rw [List.any_cons, List.find?_cons, first.entryHop]
    cases dialsFirst b.db chain.1 id with
    | true => rfl
    | false => exact ih

theorem issuedNames_matches (selector : b.buildSelector = true)
    (h : List.Forall₂ (Matches b) calls cs) : issuedNames b calls = cs.map Prod.snd := by
  unfold issuedNames
  rw [if_pos selector]
  induction h with
  | nil => rfl
  | cons first rest ih => rw [List.map_cons, List.map_cons, ih, first.first selector, Place.text]

theorem planCall_matches (h : List.Forall₂ (Matches b) calls cs) (e : Profile) :
    Matches b (planCall b calls e.id e)
      (e, selectorName (cs.map Prod.snd) (e.bean.displayName b.env.hashCode)) := by
  refine ⟨rfl, rfl, fun selector => ?_⟩
  simp only [planCall, firstPlace, selector, if_true, issuedNames_matches selector h]

theorem request_matches {q : Plan} (h : List.Forall₂ (Matches b) q.calls cs) (e : Profile) :
    List.Forall₂ (Matches b) (q.request b e).calls (addChain b cs e) := by
  unfold Plan.request addChain
  rw [any_matches h]
  cases registered q.calls e.id with
  | some place => exact h
  | none => exact List.rel_append h (.cons (planCall_matches h e) .nil)

theorem requests_matches (es : List Profile) {q : Plan} (h : List.Forall₂ (Matches b) q.calls cs) :
    List.Forall₂ (Matches b) (es.foldl (Plan.request b) q).calls (es.foldl (addChain b) cs) := by
  induction es generalizing q cs with
  | nil => exact h
  | cons e es ih => exact ih (request_matches h e)

/-- The calls of a plan are the chains, one by one. -/
theorem planned_matches (es : List Profile) :
    List.Forall₂ (Matches b) (planned b es).calls (chains b es) :=
  requests_matches es .nil

/-! ## Where a profile stands -/

/-- The place of a hop that some chain dials first. -/
def hopPlace (b : Build) (y : Int) : Option Place := (maker b y).map (entryOf b y)

theorem hopPlace_eq (selector : b.buildSelector = true) (y : Int) :
    registered (plan b).calls y = hopPlace b y := by
  rw [plan_eq_planned selector]
  exact registered_matches selector (planned_matches b.requests) y

/-- Requests for other profiles leave the place of a profile alone. -/
theorem tag_request_other (q : Plan) {e : Profile} {id : Int} (other : e.id ≠ id) :
    (q.request b e).tag id = q.tag id := by
  unfold Plan.request
  split
  · rw [Plan.tag_append, if_neg other]
  · rw [Plan.tag_append, if_neg other]

theorem tag_requests_other (es : List Profile) (q : Plan) {id : Int}
    (others : ∀ e ∈ es, e.id ≠ id) : (es.foldl (Plan.request b) q).tag id = q.tag id := by
  induction es generalizing q with
  | nil => rfl
  | cons e es ih =>
    rw [List.foldl_cons, ih _ fun e he => others e (List.mem_cons_of_mem _ he),
      tag_request_other q (others e List.mem_cons_self)]

/-- The place a profile gets from one request, and where the hop it stands at is then. -/
theorem tag_request (selector : b.buildSelector = true) (before : List Profile) (p : Profile) :
    ((planned b before).request b p).tag p.id = match standIn b before p with
      | some y => registered ((planned b before).request b p).calls y
      | none => some (.named (ownName b before p)) := by
  have matched := planned_matches (b := b) before
  unfold standIn
  rw [any_matches matched]
  unfold Plan.request
  cases known : registered (planned b before).calls p.id with
  | some place =>
    simp only [Option.isSome_some, if_true]
    rw [Plan.tag_append, if_pos rfl, known]
  | none =>
    have call := planCall_matches matched p
    simp only [Option.isSome_none, Bool.false_eq_true, if_false]
    rw [Plan.tag_append, if_pos rfl]
    rcases shape : hopsOf b.db p with _ | ⟨y, _ | ⟨z, t⟩⟩
    · rw [Call.exit, call.hops, shape, call.first selector, ownName]
    · have entry : (planCall b (planned b before).calls p.id p).entryHop = some y := by
        rw [Call.entryHop, call.hops, shape]
        rfl
      have entryPlace : (planCall b (planned b before).calls p.id p).entryPlace =
          (planCall b (planned b before).calls p.id p).first := by
        rw [Call.entryPlace, call.hops, shape]
      have reused : (planCall b (planned b before).calls p.id p).reused =
          registered (planned b before).calls y.id := by
        simp only [planCall, shape]
        rfl
      change _ = registered _ y.id
      rw [registered_append, entry, entryPlace, Call.exit, call.hops, shape, reused]
      cases registered (planned b before).calls y.id <;> simp
    · rw [Call.exit, call.hops, shape, call.first selector, ownName]

theorem request_tag (q : Plan) (e : Profile) : ∃ place, (q.request b e).tag e.id = some place := by
  unfold Plan.request
  split
  · exact ⟨_, by rw [Plan.tag_append, if_pos rfl]⟩
  · exact ⟨_, by rw [Plan.tag_append, if_pos rfl]⟩

/-- The place of a profile at a hop, or else at an exit of its own under this name. -/
def standPlace (b : Build) (own : String) : Option Int → Option Place
  | some y => hopPlace b y
  | none => some (.named own)

theorem tag_asked (selector : b.buildSelector = true) (asked : Asked b before p) :
    (plan b).tag p.id = standPlace b (ownName b before p) (standIn b before p) := by
  obtain ⟨after, split, others⟩ := asked
  have whole : plan b = after.foldl (Plan.request b) ((planned b before).request b p) := by
    rw [plan_eq_planned selector, split, planned, List.foldl_append, List.foldl_cons]
    rfl
  have tag := tag_request selector before p
  obtain ⟨more, calls⟩ := requests_calls b after ((planned b before).request b p)
  obtain ⟨place, stored⟩ := request_tag (planned b before) p
  rw [stored] at tag
  rw [whole, tag_requests_other after _ others, stored]
  cases stands : standIn b before p with
  | none =>
    rw [stands] at tag
    exact tag
  | some y =>
    rw [stands] at tag
    have known : registered (plan b).calls y = some place := by
      rw [whole, calls]
      exact registered_mono tag.symm
    rw [standPlace, ← hopPlace_eq selector, known]

/-- Exactly the profiles that are asked for have a place. -/
theorem placed_iff (selector : b.buildSelector = true) {id : Int} :
    ((plan b).tag id).isSome ↔ ∃ p before, Asked b before p ∧ p.id = id := by
  constructor
  · intro tagged
    rw [plan_eq_planned selector] at tagged
    unfold Asked
    generalize b.requests = es at tagged ⊢
    induction es using List.reverseRecOn with
    | nil => cases tagged
    | append_singleton es e ih =>
      by_cases same : e.id = id
      · exact ⟨e, es, ⟨[], rfl, by simp⟩, same⟩
      · rw [planned_snoc, tag_request_other _ same] at tagged
        obtain ⟨p, before, ⟨after, split, others⟩, rfl⟩ := ih tagged
        refine ⟨p, before, ⟨after ++ [e], by simp [split], ?_⟩, rfl⟩
        intro q hq
        rcases List.mem_append.mp hq with hq | hq
        · exact others q hq
        · rwa [List.mem_singleton.mp hq]
  · rintro ⟨p, before, ⟨after, split, others⟩, rfl⟩
    obtain ⟨place, stored⟩ := request_tag (b := b) (planned b before) p
    rw [plan_eq_planned selector, split, planned, List.foldl_append, List.foldl_cons,
      tag_requests_other after _ others]
    exact Option.isSome_iff_exists.mpr ⟨place, stored⟩

theorem chains_names_nodup (b : Build) (es : List Profile) :
    ((chains b es).map Prod.snd).Nodup := by
  induction es using List.reverseRecOn with
  | nil => exact List.nodup_nil
  | append_singleton es e ih =>
    rw [chains_snoc]
    unfold addChain
    split
    · exact ih
    · rw [List.map_append, List.nodup_append]
      refine ⟨ih, List.nodup_singleton _, ?_⟩
      rintro name listed _ given rfl
      rw [List.map_singleton, List.mem_singleton] at given
      exact (selectorName_fresh _ _).1 (given ▸ listed)

/-- A name belongs to one chain. -/
theorem chains_name_inj {es : List Profile} {e d : Profile}
    (he : (e, name) ∈ chains b es) (hd : (d, name) ∈ chains b es) : e = d :=
  congrArg Prod.fst (List.inj_on_of_nodup_map (chains_names_nodup b es) he hd rfl)

theorem chains_prefix (es more : List Profile) (h : chain ∈ chains b es) :
    chain ∈ chains b (es ++ more) := by
  induction more using List.reverseRecOn with
  | nil => rwa [List.append_nil]
  | append_singleton more e ih =>
    rw [← List.append_assoc, chains_snoc]
    unfold addChain
    split
    · exact ih
    · exact List.mem_append_left _ ih

/-- A profile that stands at no hop has a chain of its own, with more than one hop. -/
theorem own_chain (asked : Asked b before p) (own : standIn b before p = none) :
    (p, ownName b before p) ∈ chains b b.requests ∧ ∀ h, hopsOf b.db p ≠ [h] := by
  obtain ⟨after, split, _⟩ := asked
  unfold standIn at own
  split at own
  · cases own
  · rename_i unknown
    constructor
    · rw [split, List.append_cons]
      refine chains_prefix _ _ ?_
      rw [chains_snoc, addChain, if_neg unknown]
      exact List.mem_append_right _ (List.mem_singleton.mpr rfl)
    · rintro h shape
      rw [shape] at own
      cases own

theorem hopPlace_cases {place : Place} (h : hopPlace b y = some place) :
    (∃ name, NamedHop b y name ∧ place = .named name) ∨ InnerHop b y ∧ place = .entry y := by
  obtain ⟨⟨e, name⟩, made, rfl⟩ := Option.map_eq_some_iff.mp h
  unfold entryOf
  rcases shape : hopsOf b.db e with _ | ⟨x, _ | ⟨z, t⟩⟩
  · exact .inr ⟨⟨e, name, made, by simp [shape]⟩, rfl⟩
  · exact .inl ⟨name, ⟨e, x, made, shape⟩, rfl⟩
  · exact .inr ⟨⟨e, name, made, by simp [shape]⟩, rfl⟩

theorem NamedHop.place (h : NamedHop b y name) : hopPlace b y = some (.named name) := by
  obtain ⟨e, x, made, shape⟩ := h
  rw [hopPlace, made, Option.map_some, entryOf, shape]

theorem InnerHop.place (h : InnerHop b y) : hopPlace b y = some (.entry y) := by
  obtain ⟨e, name, made, long⟩ := h
  rw [hopPlace, made, Option.map_some, entryOf]
  split
  · rename_i x shape
    exact absurd shape (long x)
  · rfl

section Stands
variable {stand stand' : Option Int} {own own' : String}

/-- What stands at this hop, or else at an exit of its own, stands at an exit with this name. -/
def StandsAs (b : Build) (stand : Option Int) (own name : String) : Prop :=
  stand = none ∧ name = own ∨ ∃ y, stand = some y ∧ NamedHop b y name

/-- The exit of its own belongs to a chain with more than one hop. -/
def OwnExit (b : Build) (stand : Option Int) (own : String) : Prop :=
  stand = none → ∃ e, (e, own) ∈ chains b b.requests ∧ ∀ h, hopsOf b.db e ≠ [h]

/-- The place is an exit with a name or a hop behind an exit. -/
theorem standPlace_cases {place : Place} (h : standPlace b own stand = some place) :
    (∃ name, StandsAs b stand own name ∧ place = .named name) ∨
      ∃ y, stand = some y ∧ InnerHop b y ∧ place = .entry y := by
  cases stand with
  | none =>
    cases h
    exact .inl ⟨_, .inl ⟨rfl, rfl⟩, rfl⟩
  | some y =>
    rcases hopPlace_cases h with ⟨name, named, rfl⟩ | ⟨inner, rfl⟩
    · exact .inl ⟨name, .inr ⟨y, rfl, named⟩, rfl⟩
    · exact .inr ⟨y, rfl, inner, rfl⟩

theorem StandsAs.place (h : StandsAs b stand own name) :
    standPlace b own stand = some (.named name) := by
  rcases h with ⟨rfl, rfl⟩ | ⟨y, rfl, named⟩
  · rfl
  · exact named.place

/-- The exit of a single hop is not the exit of a longer chain. -/
theorem OwnExit.not_named (h : OwnExit b none own) (named : NamedHop b y own) : False := by
  obtain ⟨e, listed, long⟩ := h rfl
  obtain ⟨d, x, made, shape⟩ := named
  have same := chains_name_inj (List.mem_of_find?_eq_some made) listed
  exact long x (same ▸ shape)

/-- Two that stand at one exit stand at the same hop. -/
theorem StandsAs.same_hop (exit : OwnExit b stand own) (exit' : OwnExit b stand' own')
    (apart : stand = none → stand' = none → own ≠ own') (h : StandsAs b stand own name)
    (g : StandsAs b stand' own' name) : ∃ y, stand = some y ∧ stand' = some y := by
  rcases h with ⟨rfl, rfl⟩ | ⟨y, rfl, named⟩
  · rcases g with ⟨rfl, same⟩ | ⟨z, _, named'⟩
    · exact absurd same (apart rfl rfl)
    · exact (exit.not_named named').elim
  · rcases g with ⟨rfl, rfl⟩ | ⟨z, rfl, named'⟩
    · exact (exit'.not_named named).elim
    · obtain ⟨e, x, made, shape⟩ := named
      obtain ⟨e', x', made', shape'⟩ := named'
      obtain rfl := chains_name_inj (List.mem_of_find?_eq_some made)
        (List.mem_of_find?_eq_some made')
      have dials := List.find?_some made
      have dials' := List.find?_some made'
      rw [dialsFirst, shape] at dials dials'
      have hy : x.id = y := by simpa using dials
      have hz : x.id = z := by simpa using dials'
      exact ⟨y, rfl, by rw [← hz, hy]⟩

/-- Two places have one tag exactly if they are at one hop, or the one is an exit that is spelled
like the hop of the other. -/
theorem standPlace_text_iff {place place' : Place} (exit : OwnExit b stand own)
    (exit' : OwnExit b stand' own')
    (apart : stand = none → stand' = none → own ≠ own') (h : standPlace b own stand = some place)
    (h' : standPlace b own' stand' = some place') : place.text = place'.text ↔
      (∃ y, stand = some y ∧ stand' = some y) ∨
        (∃ y, stand' = some y ∧ InnerHop b y ∧ StandsAs b stand own (Place.entry y).text) ∨
        ∃ y, stand = some y ∧ InnerHop b y ∧ StandsAs b stand' own' (Place.entry y).text := by
  constructor
  · intro same
    rcases standPlace_cases h with ⟨name, named, rfl⟩ | ⟨y, stands, inner, rfl⟩
    · rcases standPlace_cases h' with ⟨name', named', rfl⟩ | ⟨z, stands', inner', rfl⟩
      · cases (same : name = name')
        exact .inl (named.same_hop exit exit' apart named')
      · exact .inr (.inl ⟨z, stands', inner', (same : name = _) ▸ named⟩)
    · rcases standPlace_cases h' with ⟨name', named', rfl⟩ | ⟨z, stands', inner', rfl⟩
      · exact .inr (.inr ⟨y, stands, inner, (same : _ = name') ▸ named'⟩)
      · cases Place.text_inj rfl rfl same
        exact .inl ⟨y, stands, stands'⟩
  · rintro (⟨y, rfl, rfl⟩ | ⟨y, rfl, inner, named⟩ | ⟨y, rfl, inner, named⟩)
    · rw [Option.some.inj (Eq.trans (Eq.symm h) h')]
    · cases named.place.symm.trans h
      cases inner.place.symm.trans h'
      rfl
    · cases named.place.symm.trans h'
      cases inner.place.symm.trans h
      rfl

end Stands

/-- Two profiles of a selector have the same tag exactly if they share an outbound. -/
theorem tag_eq_iff (selector : b.buildSelector = true) {before' : List Profile} {q : Profile}
    (asked : Asked b before p) (asked' : Asked b before' q) (other : q.id ≠ p.id)
    {place place' : Place} (tag : (plan b).tag p.id = some place)
    (tag' : (plan b).tag q.id = some place') : place.text = place'.text ↔
      (∃ y, standIn b before p = some y ∧ standIn b before' q = some y) ∨
        Spelled b before p before' q ∨ Spelled b before' q before p := by
  rw [tag_asked selector asked] at tag
  rw [tag_asked selector asked'] at tag'
  refine standPlace_text_iff (fun own => ⟨p, own_chain asked own⟩)
    (fun own => ⟨q, own_chain asked' own⟩) (fun own own' same => ?_) tag tag'
  have listed' := (own_chain asked' own').1
  rw [← same] at listed'
  exact other (congrArg (·.id) (chains_name_inj listed' (own_chain asked own).1))

end QuinMo.Config
