import QuinMo.Lib.Unfold
import QuinMo.Model.Entity

/-!
# Flattening chain profiles

`resolveChainInternal` walks the members of a chain with the ids of the chains it is inside of on
a stack. It reverses the list of every chain it finishes, the inner ones included.
-/

namespace QuinMo

open Outcome Unfold Relation

/-- The ways a build can fail, with what the message names. -/
inductive BuildError where
  | chainLoop (id : Int) (name : String)
  | noValidMember (id : Int) (displayName : String)
  | cannotReach
  | unsupportedPlugin (pluginId : String)
  | unsupportedDns (address : String)
  | noDirectDns
  | noRemoteDns
  | protocol (message : String)
  | configJson
  | outOfFuel
  deriving DecidableEq, Repr

def BuildError.message : BuildError → String
  | .chainLoop id name => s!"chain loop detected: profile {id} ({name})"
  | .noValidMember id displayName => s!"chain profile {id} ({displayName}) has no valid member"
  | .cannotReach => "can't reach"
  | .unsupportedPlugin pluginId =>
    s!"You are using an unsupported {pluginId}, please download the correct plugin."
  | .unsupportedDns address => s!"unsupported DNS server address: {address}"
  | .noDirectDns => "No direct DNS, check your settings!"
  | .noRemoteDns => "No remote DNS, check your settings!"
  | .protocol message => message
  | .configJson => "malformed custom outbound"
  | .outOfFuel => ""

namespace Chain

/-- The profiles a chain lists, in its order, without the ids that name no row. -/
def members (db : Database) (proxies : List Int) : List Profile :=
  let beans := db.getEntities proxies
  proxies.filterMap fun proxyId => beans.find? (·.id == proxyId)

/-- `visiting` holds the ids of the chains above, `fuel` bounds the nesting. -/
def resolveChainInternal (db : Database) : Nat → List Int → Profile →
    Except BuildError (List Profile)
  | 0, _, _ => .error .outOfFuel
  | fuel + 1, visiting, e =>
    match e.bean.kind with
    | .chain proxies =>
      if e.id ∈ visiting then .error (.chainLoop e.id e.bean.name)
      else do
        let beanList ← gather (resolveChainInternal db fuel (e.id :: visiting)) (members db proxies)
        return beanList.flatten.reverse
    | _ => .ok [e]

/-- One level more than there are profiles. -/
def nesting (db : Database) : Nat := db.proxies.rows.length + 1

/-- The members of a chain profile, none for a profile of another kind. -/
def kids (db : Database) (e : Profile) : Option (List Profile) :=
  match e.bean.kind with
  | .chain proxies => some (members db proxies)
  | _ => none

variable {e : Profile}

theorem members_sub {db : Database} {proxies : List Int}
    (h : e ∈ members db proxies) : e ∈ db.proxies.rows := by
  obtain ⟨k, _, hk⟩ := List.mem_filterMap.mp h
  exact (Database.mem_getEntities.mp (List.mem_of_find?_eq_some hk)).1

theorem edge_sub {db : Database} {d : Profile} (h : Edge (kids db) e d) : d ∈ db.proxies.rows := by
  obtain ⟨as, hk, hd⟩ := h
  cases hb : e.bean.kind with
  | chain proxies =>
    simp only [kids, hb, Option.some.injEq] at hk
    exact members_sub (hk ▸ hd)
  | _ => simp [kids, hb] at hk

/-- The flattened list of a walk, and its failures as the builder reports them. -/
def reading : Except (Stop Profile) (Unfold.Tree Profile) → Except BuildError (List Profile)
  | .ok t => .ok t.weave
  | .error (.loop e) => .error (.chainLoop e.id e.bean.name)
  | .error .fuel => .error .outOfFuel

theorem flatten_weave (ts : List (Unfold.Tree Profile)) :
    (ts.map Tree.weave).flatten = weaveAll ts := by
  induction ts with
  | nil => rfl
  | cons t ts ih => simp [weaveAll, ih]

/-- Flattening the members one by one is reading the trees of their walks. -/
theorem gather_reading {f : Profile → Except BuildError (List Profile)}
    {g : Profile → Except (Stop Profile) (Unfold.Tree Profile)} {as : List Profile}
    (each : ∀ a ∈ as, f a = reading (g a)) :
    (gather f as).map (fun parts => parts.flatten.reverse) = reading ((gather g as).map .node) := by
  have parts : gather f as = match gather g as with
      | .ok ts => .ok (ts.map Tree.weave)
      | .error (.loop e) => .error (.chainLoop e.id e.bean.name)
      | .error .fuel => .error .outOfFuel := by
    induction as with
    | nil => rfl
    | cons a as ih =>
      have rest := ih fun b hb => each b (List.mem_cons_of_mem a hb)
      simp only [gather, each a (by simp), rest]
      rcases g a with (_ | _) | t <;> try rfl
      rcases gather g as with (_ | _) | ts <;> rfl
  rw [parts]
  rcases gather g as with (_ | _) | ts <;> try rfl
  simp [Except.map, reading, Tree.weave, flatten_weave]

theorem resolve_eq_walk (db : Database) (fuel : Nat) (path : List Profile)
    (he : e ∈ db.proxies.rows) (inside : path ⊆ db.proxies.rows) :
    resolveChainInternal db fuel (path.map (·.id)) e = reading (walk (kids db) fuel path e) := by
  induction fuel generalizing path e with
  | zero => rfl
  | succ fuel ih =>
    have visiting : e.id ∈ path.map (·.id) ↔ e ∈ path := by
      constructor
      · intro h
        obtain ⟨p, hp, same⟩ := List.mem_map.mp h
        exact db.proxies.key_inj (inside hp) he same ▸ hp
      · exact List.mem_map_of_mem
    cases hb : e.bean.kind with
    | chain proxies =>
      simp only [resolveChainInternal, walk, kids, hb, visiting]
      split
      · rfl
      · rw [← gather_reading (fun a ha => ih (e :: path) (members_sub ha)
          (List.cons_subset.mpr ⟨he, inside⟩))]
        rfl
    | _ => simp [resolveChainInternal, walk, kids, hb, reading, Tree.weave]

/-- Flatten a stored profile. -/
def resolve (db : Database) (e : Profile) : Except BuildError (List Profile) :=
  resolveChainInternal db (nesting db) [] e

theorem resolve_eq (db : Database) (he : e ∈ db.proxies.rows) :
    resolve db e = reading (walk (kids db) (nesting db) [] e) :=
  resolve_eq_walk db (nesting db) [] he (List.nil_subset _)

theorem walk_has_fuel (db : Database) (he : e ∈ db.proxies.rows) :
    walk (kids db) (nesting db) [] e ≠ .error .fuel := by
  apply walk_fuel db.proxies.rows (fun _ _ _ edge => edge_sub edge) he
    (List.nil_subset _) List.nodup_nil
  simp [nesting]

/-- Some chain that `e` reaches, `e` itself included, lies on a cycle of references. -/
def ReachesCycle (db : Database) (e : Profile) : Prop :=
  ∃ d, ReflTransGen (Edge (kids db)) e d ∧ TransGen (Edge (kids db)) d d

/-- A profile flattens to the woven reading of its tree, or reaches a cycle and fails. -/
theorem resolve_cases (db : Database) (he : e ∈ db.proxies.rows) :
    (∃ t, Unfolds (kids db) e t ∧ resolve db e = .ok t.weave ∧ ¬ ReachesCycle db e) ∨
      (∃ d : Profile, resolve db e = .error (.chainLoop d.id d.bean.name) ∧
        ReachesCycle db e) := by
  rw [resolve_eq db he]
  cases hw : walk (kids db) (nesting db) [] e with
  | ok t =>
    have unfolds := walk_ok hw
    refine .inl ⟨t, unfolds, rfl, ?_⟩
    rintro ⟨d, reach, cycle⟩
    exact unfolds.acyclic reach cycle
  | error stop =>
    cases stop with
    | loop d => exact .inr ⟨d, rfl, d, walk_loop (by simp) hw⟩
    | fuel => exact absurd hw (walk_has_fuel db he)

/-- Every hop of a flattened profile is a stored profile that is no chain. -/
theorem resolve_hops {db : Database} {hops : List Profile} (he : e ∈ db.proxies.rows)
    (h : resolve db e = .ok hops) : ∀ x ∈ hops, x ∈ db.proxies.rows ∧ kids db x = none := by
  rcases resolve_cases db he with ⟨t, unfolds, ok, _⟩ | ⟨d, fail, _⟩
  · rw [ok, Except.ok.injEq] at h
    subst h
    intro x hx
    obtain ⟨leaf, reach⟩ := unfolds.mem_flat ((t.mem_weave x).mp hx)
    refine ⟨?_, leaf⟩
    cases reach with
    | refl => exact he
    | tail _ edge => exact edge_sub edge
  · rw [fail] at h
    cases h

/-- What flattening `e` is for: it ends, it fails exactly on a reachable cycle, and
otherwise every nested chain stands, in the reversed list, for its own members in
their stored order. -/
def DialledInPlace (db : Database) (e : Profile) : Prop :=
  resolve db e ≠ .error .outOfFuel ∧
    ((∃ failure, resolve db e = .error failure) ↔ ReachesCycle db e) ∧
    ∀ t, Unfolds (kids db) e t → resolve db e = .ok t.flat.reverse

/-- Every member of `e`, read first to last with the direction changing at each
further level of nesting, reads as its own hops in reverse. A member that is no chain
does, and so does a chain with a single hop. -/
def MembersTurnBack (db : Database) (e : Profile) : Prop :=
  ∀ ts, Unfolds (kids db) e (.node ts) → ∀ t ∈ ts, t.alternating false = t.flat.reverse

theorem weave_eq_reverse (db : Database) {t : Unfold.Tree Profile}
    (unfolds : Unfolds (kids db) e t) :
    t.weave = t.flat.reverse ↔ MembersTurnBack db e := by
  cases t with
  | leaf a =>
    refine ⟨fun _ ts h => ?_, fun _ => rfl⟩
    cases unfolds.unique h
  | node ts =>
    rw [Tree.weave_eq_reverse_iff]
    constructor
    · intro h us hus
      cases unfolds.unique hus
      exact h
    · intro h
      exact h ts unfolds

/-- The flattening of a chain ends, and fails on cycles only. It lists the nested
chains in place exactly when each of them turns back. -/
theorem resolve_dialledInPlace_iff (db : Database) (e : Profile) (he : e ∈ db.proxies.rows) :
    DialledInPlace db e ↔ MembersTurnBack db e := by
  rcases resolve_cases db he with ⟨t, unfolds, ok, acyclic⟩ | ⟨d, fail, cyclic⟩
  · rw [← weave_eq_reverse db unfolds]
    constructor
    · rintro ⟨_, _, inPlace⟩
      have := inPlace t unfolds
      rw [ok, Except.ok.injEq] at this
      exact this
    · intro turned
      refine ⟨by simp [ok], ?_, ?_⟩
      · simp [ok, acyclic]
      · intro u hu
        rw [hu.unique unfolds, ok, turned]
  · have noTree : ∀ t, ¬ Unfolds (kids db) e t := by
      intro t unfolds
      obtain ⟨c, reach, cycle⟩ := cyclic
      exact unfolds.acyclic reach cycle
    refine ⟨fun _ ts h => absurd h (noTree _), fun _ => ⟨by simp [fail], ?_, ?_⟩⟩
    · simp [fail, cyclic]
    · intro t unfolds
      exact absurd unfolds (noTree t)

/-- The chain 3 dials the SSH nodes 1 and 2, the chain 4 has the chain 3 as its only member, and the
chain 5 has the chain 6, which is the node 1 alone, and the node 2. -/
def nested : Database where
  proxies := {
    rows := [
      .fresh 1 1 1 (.default .ssh "one" "one.example"),
      .fresh 2 1 2 (.default .ssh "two" "two.example"),
      .fresh 3 1 3 (.default (.chain [1, 2]) "inner" "127.0.0.1"),
      .fresh 4 1 4 (.default (.chain [3]) "outer" "127.0.0.1"),
      .fresh 5 1 5 (.default (.chain [6, 2]) "mixed" "127.0.0.1"),
      .fresh 6 1 6 (.default (.chain [1]) "single" "127.0.0.1")]
    unique := by decide }
  groups := .empty
  rules := []

def hopOne : Profile := .fresh 1 1 1 (.default .ssh "one" "one.example")
def hopTwo : Profile := .fresh 2 1 2 (.default .ssh "two" "two.example")
def outer : Profile := .fresh 4 1 4 (.default (.chain [3]) "outer" "127.0.0.1")
def mixed : Profile := .fresh 5 1 5 (.default (.chain [6, 2]) "mixed" "127.0.0.1")

/-- The chain around the chain 3 dials its two nodes in the order opposite to the one
they are written in. -/
theorem outer_not_dialledInPlace : outer ∈ nested.proxies.rows ∧
    resolve nested outer = .ok [hopOne, hopTwo] ∧ ¬ DialledInPlace nested outer := by
  refine ⟨by decide, by rfl, ?_⟩
  rintro ⟨_, _, inPlace⟩
  have walked : walk (kids nested) (nesting nested) [] outer =
      .ok (.node [.node [.leaf hopOne, .leaf hopTwo]]) := rfl
  have := inPlace _ (walk_ok walked)
  revert this
  decide

/-- A nested chain with a single hop does no harm. -/
theorem mixed_dialledInPlace : DialledInPlace nested mixed := by
  refine (resolve_dialledInPlace_iff nested mixed (by decide)).mpr ?_
  intro ts unfolds
  have walked : walk (kids nested) (nesting nested) [] mixed =
      .ok (.node [.node [.leaf hopOne], .leaf hopTwo]) := rfl
  cases unfolds.unique (walk_ok walked)
  simp [Tree.alternating, alternatingAll, Tree.flat, flatAll]

end Chain

end QuinMo
