import QuinMo.Config.Calls

/-!
# Places and how they are spelled

A generated tag can be read back, and apart from the places inside single chains no
place is used twice.
-/

namespace QuinMo.Config

open Text

/-- The builder spells this place itself; other places have the name of a profile. -/
def Place.generated : Place → Bool
  | .named _ => false
  | _ => true

def Place.isInner : Place → Bool
  | .inner _ _ => true
  | _ => false

theorem entry_toList (id : Int) :
    (Place.entry id).text.toList = 'g' :: '-' :: (toString id).toList := by
  simp [Place.text, String.toList_append]

theorem inner_toList (chainId id : Int) : (Place.inner chainId id).text.toList =
    'c' :: '-' :: ((toString chainId).toList ++ '-' :: (toString id).toList) := by
  simp [Place.text, String.toList_append]

theorem mappingTag_toList (chainId : Int) (hop : Profile) : (mappingTag chainId hop).toList =
    'c' :: '-' :: ((toString chainId).toList ++ "-mapping-".toList ++ (toString hop.id).toList) := by
  simp [mappingTag, String.toList_append]

variable {b : Build} {p : Place} {calls : List Call} {c : Call} {q : Plan} {y x : Profile}

/-- A generated tag says which place it spells. -/
theorem Place.text_inj {q : Place} (hp : p.generated = true) (hq : q.generated = true)
    (h : p.text = q.text) : p = q := by
  have chars := congrArg String.toList h
  cases p with
  | named _ => simp [generated] at hp
  | proxy =>
    cases q with
    | named _ => simp [generated] at hq
    | proxy => rfl
    | entry id => simp [Place.text, TAG_PROXY] at chars
    | inner c id => simp [Place.text, TAG_PROXY] at chars
  | entry id =>
    cases q with
    | named _ => simp [generated] at hq
    | proxy => simp [Place.text, TAG_PROXY] at chars
    | entry id' =>
      simp only [entry_toList, List.cons.injEq, true_and, String.toList_inj] at chars
      rw [toString_int_inj chars]
    | inner c id' => simp [entry_toList, inner_toList] at chars
  | inner c id =>
    cases q with
    | named _ => simp [generated] at hq
    | proxy => simp [Place.text, TAG_PROXY] at chars
    | entry id' => simp [entry_toList, inner_toList] at chars
    | inner c' id' =>
      simp only [inner_toList, List.cons.injEq, true_and] at chars
      obtain ⟨rfl, rest⟩ := int_cut (by simp) (by simp) chars
      rw [List.cons.injEq, String.toList_inj] at rest
      rw [toString_int_inj rest.2]

theorem mappingTag_inj {c d : Int} (h : mappingTag c x = mappingTag d y) : c = d ∧ x.id = y.id := by
  have chars := congrArg String.toList h
  simp only [mappingTag_toList, List.cons.injEq, true_and, List.append_assoc] at chars
  obtain ⟨same, rest⟩ := int_cut (by simp) (by simp) chars
  have tail := List.append_cancel_left rest
  exact ⟨same, toString_int_inj (String.toList_inj.mp tail)⟩

/-- No place of a chain is spelled like a built-in outbound, apart from the exit of
the selected profile. -/
theorem Place.text_not_reserved (hp : p.generated = true) (exit : p ≠ .proxy) :
    p.text ∉ reservedSelectorTags := by
  intro h
  have chars : p.text.toList ∈ reservedSelectorTags.map String.toList := List.mem_map_of_mem h
  cases p with
  | named _ => simp [generated] at hp
  | proxy => exact exit rfl
  | entry id =>
    simp [entry_toList, reservedSelectorTags, TAG_PROXY, TAG_DIRECT, TAG_BYPASS, TAG_BLOCK] at chars
  | inner c id =>
    simp [inner_toList, reservedSelectorTags, TAG_PROXY, TAG_DIRECT, TAG_BYPASS, TAG_BLOCK] at chars

theorem legsFrom_places (p : Place) (h : Profile) (t : List (Place × Profile)) :
    (legsFrom p h t).map Leg.place = p :: t.map Prod.fst := by
  induction t generalizing p h with
  | nil => rfl
  | cons a t ih => simp [legsFrom, ih]

theorem legsFrom_hops (p : Place) (h : Profile) (t : List (Place × Profile)) :
    (legsFrom p h t).map Leg.hop = h :: t.map Prod.snd := by
  induction t generalizing p h with
  | nil => rfl
  | cons a t ih => simp [legsFrom, ih]

theorem restPlaces_hops (chainId : Int) (t : List Profile) :
    (restPlaces chainId t).map Prod.snd = t := by
  induction t with
  | nil => rfl
  | cons x t ih =>
    cases t with
    | nil => rfl
    | cons z t => simp [restPlaces, ih]

theorem restPlaces_places (chainId : Int) (t : List Profile) : (restPlaces chainId t).map Prod.fst =
      t.dropLast.map (fun x => .inner chainId x.id) ++
        (t.getLast?.map fun x => .entry x.id).toList := by
  induction t with
  | nil => rfl
  | cons x t ih =>
    cases t with
    | nil => rfl
    | cons z t => simpa [restPlaces] using ih

variable {t : List Profile}

namespace Call

/-- The places a call fills. -/
def places (c : Call) : List Place := c.emitted.map Leg.place

theorem legs_hops (c : Call) : c.legs.map Leg.hop = c.hops := by
  cases hops : c.hops with
  | nil => simp [legs, hops]
  | cons x t => simp only [legs, hops, legsFrom_hops, restPlaces_hops]

/-- The places of a chain with a single hop. -/
theorem places_single {c : Call} {x : Profile} (hops : c.hops = [x]) :
    c.places = if c.reused.isSome then [] else [c.first] := by
  simp only [places, emitted, legs, hops, restPlaces, legsFrom]
  split <;> simp

/-- The places of a longer chain: the exit, the hops between, and the hop dialled
first when it is new. -/
theorem places_chain {c : Call} {x z : Profile} (hops : c.hops = x :: z :: t) {y : Profile}
    (last : c.entryHop = some y) :
    c.places = c.first :: ((z :: t).dropLast.map (fun h => .inner c.chainId h.id) ++
      if c.reused.isSome then [] else [.entry y.id]) := by
  have end_ : (z :: t).getLast? = some y := by simpa [entryHop, hops] using last
  have all : c.legs.map Leg.place =
      c.first :: ((z :: t).dropLast.map (fun h => Place.inner c.chainId h.id) ++ [.entry y.id]) := by
    simp only [legs, hops, legsFrom_places, restPlaces_places, end_, Option.map_some,
      Option.toList_some]
  unfold places emitted
  split
  · rw [List.map_dropLast, all, ← List.cons_append, List.dropLast_concat, List.append_nil]
  · exact all

end Call

/-- All places a list of calls fills. -/
def placesOf (calls : List Call) : List Place := calls.flatMap Call.places

theorem placesOf_append (calls : List Call) (c : Call) :
    placesOf (calls ++ [c]) = placesOf calls ++ c.places := by
  simp [placesOf]

/-- What the places of one planned call can be. -/
theorem planCall_places {chainId : Int} {e : Profile} (h : p ∈ (planCall b calls chainId e).places) :
    p.isInner = true ∨
      (p = (planCall b calls chainId e).first ∧ p.isInner = false ∧ ∀ id, p ≠ .entry id) ∨
      ∃ y, (planCall b calls chainId e).entryHop = some y ∧ p = .entry y.id ∧
        registered calls y.id = none := by
  generalize hc : planCall b calls chainId e = c at h ⊢
  have hops : c.hops = hopsOf b.db e := by rw [← hc]; rfl
  have reused (y : Profile) (last : c.entryHop = some y) : c.reused = registered calls y.id := by
    have last' : (hopsOf b.db e).getLast? = some y := by rw [← hops]; exact last
    rw [← hc]
    simp [planCall, last']
  have first : c.first = firstPlace b chainId e c.hops (issuedNames b calls) := by
    rw [hops, ← hc]
    rfl
  rcases shape : c.hops with _ | ⟨x, _ | ⟨z, t⟩⟩
  · simp [Call.places, Call.emitted, Call.legs, shape] at h
  · have last : c.entryHop = some x := by simp [Call.entryHop, shape]
    rw [Call.places_single shape] at h
    split at h
    · simp at h
    · rename_i fresh
      have fresh : registered calls x.id = none := by
        rw [← reused x last]
        simpa using fresh
      have h : p = c.first := by simpa using h
      rw [shape] at first
      unfold firstPlace at first
      split at first
      · exact .inr (.inl ⟨h, by rw [h, first]; rfl, by rw [h, first]; simp⟩)
      · split at first
        · exact .inr (.inl ⟨h, by rw [h, first]; rfl, by rw [h, first]; simp⟩)
        · exact .inr (.inr ⟨x, last, by rw [h, first], fresh⟩)
  · obtain ⟨y, last⟩ : ∃ y, c.entryHop = some y := by
      simp only [Call.entryHop, shape]
      exact ⟨_, List.getLast?_eq_some_getLast (by simp)⟩
    rw [Call.places_chain shape last] at h
    rcases List.mem_cons.mp h with h | h
    · rw [shape] at first
      unfold firstPlace at first
      split at first
      · exact .inr (.inl ⟨h, by rw [h, first]; rfl, by rw [h, first]; simp⟩)
      · split at first
        · exact .inr (.inl ⟨h, by rw [h, first]; rfl, by rw [h, first]; simp⟩)
        · exact .inl (by rw [h, first]; rfl)
    · rcases List.mem_append.mp h with h | h
      · obtain ⟨g, _, rfl⟩ := List.mem_map.mp h
        exact .inl rfl
      · split at h
        · simp at h
        · rename_i fresh
          refine .inr (.inr ⟨y, last, by simpa using h, ?_⟩)
          rw [← reused y last]
          simpa using fresh

/-! ## Places that others refer to -/

theorem legsFrom_append (p : Place) (h : Profile) (t : List (Place × Profile)) (q : Place)
    (g : Profile) : ∃ front leg, legsFrom p h (t ++ [(q, g)]) = front ++ [leg, ⟨q, g, none⟩] ∧
      leg.next = some q := by
  induction t generalizing p h with
  | nil => exact ⟨[], ⟨p, h, some q⟩, rfl, rfl⟩
  | cons a t ih =>
    obtain ⟨front, leg, eq, next⟩ := ih a.1 a.2
    exact ⟨⟨p, h, some a.1⟩ :: front, leg, by simp [legsFrom, eq], next⟩

theorem restPlaces_append (chainId : Int) (x : Profile) (t : List Profile)
    (last : (x :: t).getLast? = some y) :
    ∃ front, restPlaces chainId (x :: t) = front ++ [(.entry y.id, y)] := by
  induction t generalizing x with
  | nil =>
    cases last
    exact ⟨[], rfl⟩
  | cons z t ih =>
    obtain ⟨front, eq⟩ := ih z (by simpa using last)
    exact ⟨(.inner chainId x.id, x) :: front, by simp [restPlaces, eq]⟩

/-- The last legs of a longer chain. -/
theorem Call.legs_end {z : Profile} (hops : c.hops = x :: z :: t) (last : c.entryHop = some y) :
    ∃ front leg,
      c.legs = front ++ [leg, ⟨.entry y.id, y, none⟩] ∧ leg.next = some (.entry y.id) := by
  obtain ⟨front, eq⟩ := restPlaces_append c.chainId z t (y := y)
    (by simpa [Call.entryHop, hops] using last)
  simp only [Call.legs, hops, eq]
  exact legsFrom_append c.first x front (.entry y.id) y

/-- Some hop with an outbound of its own dials the entry of a longer chain. -/
theorem Call.dials_entry {z : Profile} (hops : c.hops = x :: z :: t) (last : c.entryHop = some y) :
    ∃ leg ∈ c.emitted, leg.next = some (.entry y.id) := by
  obtain ⟨front, leg, eq, next⟩ := c.legs_end hops last
  refine ⟨leg, ?_, next⟩
  unfold Call.emitted
  split
  · rw [eq, show front ++ [leg, (⟨.entry y.id, y, none⟩ : Leg)] =
      (front ++ [leg]) ++ [⟨.entry y.id, y, none⟩] by simp, List.dropLast_concat]
    simp
  · simp [eq]

theorem legsFrom_next {q : Place} {h : Profile} {t : List (Place × Profile)} {leg : Leg}
    (hl : leg ∈ legsFrom p h t) (next : leg.next = some q) : q ∈ t.map Prod.fst := by
  induction t generalizing p h with
  | nil =>
    rw [legsFrom, List.mem_singleton] at hl
    simp [hl] at next
  | cons a t ih =>
    rw [legsFrom, List.mem_cons] at hl
    rcases hl with rfl | hl
    · cases next
      simp
    · exact List.mem_cons_of_mem _ (ih hl)

theorem Call.emitted_sub_legs (c : Call) : c.emitted ⊆ c.legs := by
  unfold Call.emitted
  split
  · exact fun leg h => List.dropLast_subset _ h
  · exact fun leg h => h

/-- A hop dials a place the same call fills, or the entry of its chain. -/
theorem Call.next_cases {leg : Leg} {q : Place} (hl : leg ∈ c.emitted) (next : leg.next = some q) :
    q ∈ c.places ∨ ∃ x z t y, c.hops = x :: z :: t ∧ c.entryHop = some y ∧ q = .entry y.id := by
  have hl := c.emitted_sub_legs hl
  rcases hops : c.hops with _ | ⟨x, _ | ⟨z, t⟩⟩
  · simp [Call.legs, hops] at hl
  · simp only [Call.legs, hops, restPlaces, legsFrom, List.mem_singleton] at hl
    simp [hl] at next
  · obtain ⟨y, last⟩ : ∃ y, c.entryHop = some y := by
      simp only [Call.entryHop, hops]
      exact ⟨_, List.getLast?_eq_some_getLast (by simp)⟩
    have end_ : (z :: t).getLast? = some y := by simpa [Call.entryHop, hops] using last
    simp only [Call.legs, hops] at hl
    have inside := legsFrom_next hl next
    rw [restPlaces_places, end_, List.mem_append] at inside
    rcases inside with inside | inside
    · rw [Call.places_chain hops last]
      exact .inl (List.mem_cons_of_mem _ (List.mem_append_left _ inside))
    · exact .inr ⟨x, z, t, y, rfl, last, by simpa using inside⟩

/-- A new entry gets a leg of its own, in its place. -/
theorem Call.entry_emitted (last : c.entryHop = some y)
    (fresh : c.reused = none) : ⟨c.entryPlace, y, none⟩ ∈ c.emitted := by
  have all : c.emitted = c.legs := by simp [Call.emitted, fresh]
  rw [all]
  rcases hops : c.hops with _ | ⟨x, _ | ⟨z, t⟩⟩
  · simp [Call.entryHop, hops] at last
  · have : x = y := by simpa [Call.entryHop, hops] using last
    subst this
    simp [Call.legs, hops, restPlaces, legsFrom, Call.entryPlace]
  · obtain ⟨front, leg, eq, _⟩ := c.legs_end hops last
    have place : c.entryPlace = .entry y.id := by simp [Call.entryPlace, hops, last]
    rw [eq, place]
    simp

theorem Call.first_emitted {z : Profile} (hops : c.hops = x :: z :: t) : c.first ∈ c.places := by
  obtain ⟨y, last⟩ : ∃ y, c.entryHop = some y := by
    simp only [Call.entryHop, hops]
    exact ⟨_, List.getLast?_eq_some_getLast (by simp)⟩
  rw [Call.places_chain hops last]
  exact List.mem_cons_self

theorem mem_placesOf : p ∈ placesOf calls ↔ ∃ c ∈ calls, p ∈ c.places := List.mem_flatMap

/-- Where a hop is registered there is an outbound. -/
theorem Orderly.registered_filled (h : Orderly b q) {id : Int}
    (known : registered q.calls id = some p) : p ∈ placesOf q.calls := by
  obtain ⟨c, hc, hop, fresh, rfl⟩ := h.built_first known
  obtain ⟨y, last, _⟩ := Option.map_eq_some_iff.mp hop
  exact mem_placesOf.mpr ⟨c, hc, List.mem_map_of_mem (c.entry_emitted last fresh)⟩

/-- The exit of every call is a place with an outbound. -/
theorem Orderly.exit_filled (h : Orderly b q) (hc : c ∈ q.calls)
    (resolved : c.hops ≠ []) : c.exit ∈ placesOf q.calls := by
  rcases hops : c.hops with _ | ⟨x, _ | ⟨z, t⟩⟩
  · exact absurd hops resolved
  · cases reused : c.reused with
    | some p =>
      obtain ⟨y, _, known⟩ := h.reused hc reused
      have exit : c.exit = p := by simp [Call.exit, hops, reused]
      rw [exit]
      exact h.registered_filled known
    | none =>
      have exit : c.exit = c.first := by simp [Call.exit, hops, reused]
      refine mem_placesOf.mpr ⟨c, hc, ?_⟩
      rw [exit, Call.places_single hops]
      simp [reused]
  · have exit : c.exit = c.first := by simp [Call.exit, hops]
    rw [exit]
    exact mem_placesOf.mpr ⟨c, hc, Call.first_emitted hops⟩

/-- Every place given to a profile has an outbound. -/
theorem Orderly.tag_filled (h : Orderly b q) (assigned : Assigned b q)
    (resolved : ∀ c ∈ q.calls, c.hops ≠ []) {id : Int} (tag : q.tag id = some p) :
    p ∈ placesOf q.calls := by
  obtain ⟨e, _, _, ⟨c, hc, _, rfl⟩ | known⟩ := assigned.sound id p (Plan.mem_of_tag tag)
  · exact h.exit_filled hc (resolved c hc)
  · exact h.registered_filled known

/-- A filled entry place is the one its hop is registered at. -/
theorem Orderly.entry_registered (h : Orderly b q) {id : Int}
    (filled : .entry id ∈ placesOf q.calls) : registered q.calls id = some (.entry id) := by
  obtain ⟨c, hc, hp⟩ := mem_placesOf.mp filled
  obtain ⟨pre, post, split⟩ := List.append_of_mem hc
  have planned := h.sequenced pre c post split
  have cases_ := planCall_places (planned ▸ hp)
  rw [← planned] at cases_
  rcases cases_ with inner | ⟨_, _, notEntry⟩ | ⟨y, last, same, fresh⟩
  · simp [Place.isInner] at inner
  · exact absurd rfl (notEntry id)
  · cases same
    have place : c.entryPlace = .entry y.id := by
      rcases hops : c.hops with _ | ⟨x, _ | ⟨z, t⟩⟩
      · simp [Call.entryHop, hops] at last
      · rw [Call.places_single hops] at hp
        split at hp
        · simp at hp
        · have first : Place.entry y.id = c.first := by simpa using hp
          simp [Call.entryPlace, hops, first]
      · simp [Call.entryPlace, hops, last]
    rw [split, show pre ++ c :: post = (pre ++ [c]) ++ post by simp]
    refine registered_mono ?_
    rw [registered_append, fresh]
    simp [last, place]

/-- A tag of the form `g-id` is in use when the hop is registered under it, or when a
selector member is named so. -/
theorem Orderly.entry_text_filled (h : Orderly b q) (id : Int) :
    (Place.entry id).text ∈ (placesOf q.calls).map Place.text ↔
      registered q.calls id = some (.entry id) ∨
        .named (Place.entry id).text ∈ placesOf q.calls := by
  constructor
  · intro used
    obtain ⟨p, hp, same⟩ := List.mem_map.mp used
    cases gen : p.generated with
    | true =>
      rw [Place.text_inj gen rfl same] at hp
      exact .inl (h.entry_registered hp)
    | false =>
      cases p with
      | named name => exact .inr (same ▸ hp)
      | _ => simp [Place.generated] at gen
  · rintro (known | named)
    · exact List.mem_map_of_mem (h.registered_filled known)
    · exact List.mem_map.mpr ⟨_, named, rfl⟩

/-! ## Places that are filled once -/

def plain (places : List Place) : List Place := places.filter (!·.isInner)

theorem mem_plain {places : List Place} : p ∈ plain places ↔ p ∈ places ∧ p.isInner = false := by
  simp [plain, List.mem_filter]

/-- The exit of a longer chain is not the place of a hop dialled first. -/
theorem firstPlace_ne_entry (b : Build) (chainId : Int) (e x z : Profile) (t : List Profile)
    (names : List String) (id : Int) : firstPlace b chainId e (x :: z :: t) names ≠ .entry id := by
  unfold firstPlace
  split
  · simp
  · split <;> simp

theorem planCall_plain_nodup (b : Build) (calls : List Call) (chainId : Int) (e : Profile) :
    (plain (planCall b calls chainId e).places).Nodup := by
  generalize hc : planCall b calls chainId e = c
  have hops : c.hops = hopsOf b.db e := by rw [← hc]; rfl
  have first : c.first = firstPlace b chainId e c.hops (issuedNames b calls) := by
    rw [hops, ← hc]
    rfl
  rcases shape : c.hops with _ | ⟨x, _ | ⟨z, t⟩⟩
  · simp [plain, Call.places, Call.emitted, Call.legs, shape]
  · rw [Call.places_single shape]
    split
    · simp [plain]
    · exact (List.nodup_singleton c.first).sublist List.filter_sublist
  · obtain ⟨y, last⟩ : ∃ y, c.entryHop = some y := by
      simp only [Call.entryHop, shape]
      exact ⟨_, List.getLast?_eq_some_getLast (by simp)⟩
    have inner (l : List Profile) : plain (l.map fun h => Place.inner c.chainId h.id) = [] := by
      simp [plain, Place.isInner]
    have other : c.first ≠ .entry y.id := by
      rw [first, shape]
      exact firstPlace_ne_entry b chainId e x z t _ y.id
    have short : plain c.places =
        plain [c.first] ++ plain (if c.reused.isSome then [] else [.entry y.id]) := by
      rw [Call.places_chain shape last]
      unfold plain at inner ⊢
      rw [← List.singleton_append, List.filter_append, List.filter_append, inner, List.nil_append]
    have bound : (plain [c.first] ++ plain
      (if c.reused.isSome then [] else [Place.entry y.id])).Sublist
        ([c.first] ++ [Place.entry y.id]) := by
      refine List.Sublist.append List.filter_sublist (List.filter_sublist.trans ?_)
      split
      · exact List.nil_sublist _
      · exact List.Sublist.refl _
    rw [short]
    exact List.Nodup.sublist bound (by simp [other])

/-- Which plain places are taken, and that none is taken twice. -/
structure PlainOnce (b : Build) (calls : List Call) : Prop where
  nodup : (plain (placesOf calls)).Nodup
  entry : ∀ id, .entry id ∈ placesOf calls → (registered calls id).isSome
  named : ∀ name, .named name ∈ placesOf calls →
    b.buildSelector = true ∧ name ∈ issuedNames b calls ∧ name ∉ reservedSelectorTags
  proxy : .proxy ∈ placesOf calls → b.buildSelector = false

theorem planCall_first_named {chainId : Int} {e : Profile}
    {name : String} (h : (planCall b calls chainId e).first = .named name) :
    b.buildSelector = true ∧ name ∉ issuedNames b calls ∧ name ∉ reservedSelectorTags := by
  simp only [planCall, firstPlace] at h
  split at h
  · rename_i hs
    cases h
    exact ⟨hs, selectorName_fresh _ _⟩
  · split at h
    · cases h
    · split at h <;> cases h

theorem planCall_first_proxy {chainId : Int} {e : Profile} (resolved : hopsOf b.db e ≠ [])
    (h : (planCall b calls chainId e).first = .proxy) : b.buildSelector = false ∧ chainId = 0 := by
  simp only [planCall, firstPlace] at h
  split at h
  · cases h
  · rename_i hs
    split at h
    · rename_i zero
      exact ⟨by simpa using hs, zero⟩
    · split at h
      · contradiction
      · cases h
      · cases h

/-- One more planned call keeps every plain place filled once. A call under the id 0
without a selector comes first. -/
theorem PlainOnce.snoc (h : PlainOnce b calls) (chainId : Int) (e : Profile)
    (resolved : hopsOf b.db e ≠ []) (start : b.buildSelector = false → chainId = 0 → calls = []) :
    PlainOnce b (calls ++ [planCall b calls chainId e]) := by
  have issued : ∀ name ∈ issuedNames b calls,
      name ∈ issuedNames b (calls ++ [planCall b calls chainId e]) := by
    intro name hn
    unfold issuedNames at hn ⊢
    split at hn
    · rename_i hs
      rw [if_pos hs, List.map_append]
      exact List.mem_append_left _ hn
    · simp at hn
  refine ⟨?_, ?_, ?_, ?_⟩
  · rw [placesOf_append]
    unfold plain
    rw [List.filter_append]
    refine List.Nodup.append h.nodup (planCall_plain_nodup b calls chainId e) ?_
    intro p old new
    obtain ⟨old, plainOld⟩ := mem_plain.mp old
    obtain ⟨new, _⟩ := mem_plain.mp new
    rcases planCall_places new with inner | ⟨first, _, notEntry⟩ | ⟨y, _, rfl, fresh⟩
    · simp [inner] at plainOld
    · cases p with
      | named name => exact (planCall_first_named first.symm).2.1 (h.named name old).2.1
      | proxy =>
        obtain ⟨hs, zero⟩ := planCall_first_proxy resolved first.symm
        rw [start hs zero] at old
        simp [placesOf] at old
      | entry id => exact notEntry id rfl
      | inner c id => simp [Place.isInner] at plainOld
    · have := h.entry y.id old
      simp [fresh] at this
  · intro id hp
    rw [placesOf_append, List.mem_append] at hp
    rw [registered_append]
    rcases hp with hp | hp
    · have := h.entry id hp
      simp [Option.isSome_or, this]
    · rcases planCall_places hp with inner | ⟨_, _, notEntry⟩ | ⟨y, last, same, _⟩
      · simp [Place.isInner] at inner
      · exact absurd rfl (notEntry id)
      · cases same
        simp [last]
  · intro name hp
    rw [placesOf_append, List.mem_append] at hp
    rcases hp with hp | hp
    · obtain ⟨hs, hn, free⟩ := h.named name hp
      exact ⟨hs, issued name hn, free⟩
    · rcases planCall_places hp with inner | ⟨first, _, _⟩ | ⟨y, _, same, _⟩
      · simp [Place.isInner] at inner
      · obtain ⟨hs, _, free⟩ := planCall_first_named first.symm
        refine ⟨hs, ?_, free⟩
        simp [issuedNames, hs, ← first, Place.text]
      · cases same
  · intro hp
    rw [placesOf_append, List.mem_append] at hp
    rcases hp with hp | hp
    · exact h.proxy hp
    · rcases planCall_places hp with inner | ⟨first, _, _⟩ | ⟨y, _, same, _⟩
      · simp [Place.isInner] at inner
      · exact (planCall_first_proxy resolved first.symm).1
      · cases same

/-- In every plan whose calls all resolve, the plain places are filled once. -/
theorem Built.plainOnce (h : Built b q)
    (resolved : ∀ c ∈ q.calls, c.hops ≠ []) : PlainOnce b q.calls := by
  have nil : PlainOnce b [] := ⟨by simp [placesOf, plain], by simp [placesOf], by simp [placesOf],
    by simp [placesOf]⟩
  induction h with
  | members hs => exact nil
  | single hs =>
    exact nil.snoc 0 b.proxy (resolved (planCall b [] 0 b.proxy) (by simp)) fun _ _ => rfl
  | @request q e built stored positive ih =>
    unfold Plan.request at resolved ⊢
    split
    · rename_i place known
      simp only [known] at resolved
      exact ih resolved
    · rename_i known
      simp only [known] at resolved
      refine (ih fun c hc => resolved c (List.mem_append_left _ hc)).snoc e.id e ?_ ?_
      · exact resolved (planCall b q.calls e.id e) (by simp)
      · intro hs zero
        have := positive hs
        omega

/-- The texts of places never spell the selector, `direct` or `bypass`. -/
theorem place_text_free (once : PlainOnce b calls) (hp : p ∈ placesOf calls) :
    p.text ≠ TAG_DIRECT ∧ p.text ≠ TAG_BYPASS ∧ (b.buildSelector = true → p.text ≠ TAG_PROXY) := by
  have free : p.text ∉ reservedSelectorTags ∨ (p = .proxy ∧ b.buildSelector = false) := by
    cases p with
    | named name => exact .inl (once.named name hp).2.2
    | proxy => exact .inr ⟨rfl, once.proxy hp⟩
    | entry id => exact .inl (Place.text_not_reserved rfl (by simp))
    | inner c id => exact .inl (Place.text_not_reserved rfl (by simp))
  rcases free with free | ⟨rfl, hs⟩
  · simp only [reservedSelectorTags, List.mem_cons, List.not_mem_nil, or_false, not_or] at free
    exact ⟨free.2.1, free.2.2.1, fun _ => free.1⟩
  · exact ⟨by decide, by decide, by simp [hs]⟩

end QuinMo.Config
