import Mathlib.Logic.Function.Basic
import Mathlib.Data.List.Basic
import QuinMo.Lib.Loop

/-!
# The DNS router

`exchangeWithRules` walks the DNS rules in their order. A rule can start an evaluation, a query in
the background whose response later rules look at. A rule that needs a response which is not there
yet suspends the walk; a race rule is armed instead, and looked at again whenever an evaluation
completes. Every look at something that another goroutine changes lets time pass. What queries
give, and when, is fixed for a call.
-/

namespace QuinMo.Libcore.Dns

structure Msg where
  id : Nat
  rcode : Int
  response : Bool
  question : String
  records : List String
  deriving DecidableEq, Repr

inductive Failure where
  | respondMissingResponse
  | drop
  | context (text : String)
  | query (text : String)
  deriving DecidableEq, Repr

def Failure.message : Failure → String
  | .respondMissingResponse =>
    "respond action requires an evaluated response from a preceding evaluate action"
  | .drop => "packet dropped"
  | .context text => text
  | .query text => text

structure DNSTransport where
  tag : String
  type : String
  deriving DecidableEq, Repr

structure DNSQueryOptions where
  strategy : Nat := 0
  lookupStrategy : Nat := 0
  disableCache : Bool := false
  disableOptimisticCache : Bool := false
  rewriteTTL : Option Nat := none
  timeout : Int := 0
  clientSubnet : Option String := none
  removeClientSubnet : Bool := false
  deriving DecidableEq, Repr

structure DNSRouteOptions where
  timeout : Int := 0
  disableCache : Bool := false
  disableOptimisticCache : Bool := false
  rewriteTTL : Option Nat := none
  clientSubnet : Option String := none
  removeClientSubnet : Bool := false
  deriving DecidableEq, Repr

/-- The strategy of a rule is left out: one that sets it is not walked here. -/
def applyDNSRouteOptions (options : DNSQueryOptions) (route : DNSRouteOptions) :
    DNSQueryOptions where
  strategy := options.strategy
  lookupStrategy := options.lookupStrategy
  disableCache := options.disableCache || route.disableCache
  disableOptimisticCache := options.disableOptimisticCache || route.disableOptimisticCache
  rewriteTTL := route.rewriteTTL.or options.rewriteTTL
  timeout := if 0 < route.timeout then route.timeout else options.timeout
  clientSubnet :=
    if route.removeClientSubnet then none else route.clientSubnet.or options.clientSubnet
  removeClientSubnet := route.removeClientSubnet ||
    options.removeClientSubnet && route.clientSubnet.isNone

inductive RejectMethod where
  | default
  | drop
  | reply
  deriving DecidableEq, Repr

inductive RuleAction where
  | routeOptions (options : DNSRouteOptions)
  | evaluate (server tag : String) (speculative : Bool) (options : DNSRouteOptions)
  | respond
  | route (server : String) (speculative fallback : Bool) (options : DNSRouteOptions)
  | reject (method : RejectMethod)
  | predefined (response : Msg → Msg)
  | other

/-- The responses of the evaluations with a tag. That of a failed one is nil. -/
abbrev NamedResponses := String → Option (Option Msg)

/-- Whether a rule matches depends on the query and on the responses it is shown. -/
structure DNSRule where
  matchResponseTag : String
  matchResponseTags : List String
  matchResponseAnonymous : Bool
  race : Bool
  isMatch : Option Msg → NamedResponses → Bool
  action : RuleAction

def DNSRule.hasBindings (rule : DNSRule) : Bool :=
  !rule.matchResponseTags.isEmpty || rule.matchResponseAnonymous

structure ExchangeResult where
  response : Option Msg := none
  transport : Option DNSTransport := none
  rejectAction : Option RejectMethod := none
  err : Option Failure := none
  deriving DecidableEq, Repr

/-- The router, the query and everything that happens outside the walk: what the n-th query gives
(`outcome`), how long it takes (`delay`) and how long it takes from then on to wake the walk
(`lag`), how the k-th evaluation ends, and after what time, when it is cancelled before it is
done (`onCancel`; none when it goes on as it was), when the caller's context ends, if it does,
and what a select takes when both of its channels are ready. -/
structure Call where
  transport : String → Option DNSTransport
  defaultTransport : DNSTransport
  defaultDomainStrategy : Nat
  message : Msg
  options : DNSQueryOptions
  allowFakeIP : Bool
  rules : List DNSRule
  outcome : Nat → DNSTransport → DNSQueryOptions → Option Msg × Option Failure
  delay : Nat → Nat
  lag : Nat → Nat
  onCancel : Nat → Option (Option Msg × Option Failure × Nat)
  ctxDone : Option Nat
  ctxErr : Failure
  selectsWake : Nat → Bool

/-- An evaluation, with the response or error it ends with. Nobody looks at those before. -/
structure Future where
  tag : String
  terminal : Bool
  transport : DNSTransport
  response : Option Msg
  err : Option Failure
  /-- When `done` is closed. -/
  doneAt : Nat
  /-- When the walk is woken. -/
  signalAt : Nat
  deriving DecidableEq, Repr

/-- A race rule that waits for evaluations. Futures are named by their place in the list. -/
structure ArmedRule where
  rule : DNSRule
  futures : List Nat
  anonymousFuture : Option Nat
  bindsAnonymous : Bool
  options : DNSQueryOptions

structure State where
  ruleIndex : Nat := 0
  effectiveOptions : DNSQueryOptions
  anonymousFuture : Option Nat := none
  namedFutures : String → Option Nat := fun _ => none
  namedResponses : NamedResponses := fun _ => none
  namedTransports : String → Option DNSTransport := fun _ => none
  futures : List Future := []
  settled : List Nat := []
  cancelled : List Nat := []
  armedRules : List ArmedRule := []
  terminalFuture : Option Nat := none
  terminalIndex : Nat := 0
  clock : Nat := 1
  /-- Every signal up to this time has been received on `wake`. -/
  woken : Nat := 0
  /-- How many queries were sent. -/
  queries : Nat := 0

structure PendingExchange where
  transport : DNSTransport
  options : DNSQueryOptions
  future : Option Nat := none
  fallback : Bool := false
  deriving DecidableEq, Repr

inductive Suspension where
  | await (future : Nat)
  | drain
  | pending (exchange : PendingExchange)
  deriving DecidableEq, Repr

namespace State

def tick (s : State) : State := { s with clock := s.clock + 1 }

def isDone (s : State) (k : Nat) : Bool :=
  match s.futures[k]? with
  | some f => decide (f.doneAt ≤ s.clock)
  | none => false

def resolved (s : State) (k : Nat) : Bool × State := (s.isDone k, s.tick)

def responseOf (s : State) (k : Nat) : Option Msg :=
  match s.futures[k]? with
  | some f => if f.err.isSome then none else f.response
  | none => none

def view (s : State) (k : Nat) : Option Msg × State :=
  let (done, s) := s.resolved k
  (if done then s.responseOf k else none, s)

def anonymousResponse (s : State) : Option Msg × State :=
  match s.anonymousFuture with
  | some k => s.view k
  | none => (none, s)

def transportOf (s : State) (k : Nat) : Option DNSTransport := (s.futures[k]?).map (·.transport)

/-- The futures a rule is bound to, as far as they were launched. -/
def bindings (s : State) (rule : DNSRule) : List Nat :=
  rule.matchResponseTags.filterMap s.namedFutures ++
    if rule.matchResponseAnonymous then s.anonymousFuture.toList else []

/-- The futures that are not resolved. -/
def unresolved (s : State) : List Nat → List Nat × State
  | [] => ([], s)
  | k :: ks =>
    let (done, s) := s.resolved k
    let (rest, s) := s.unresolved ks
    (if done then rest else k :: rest, s)

/-- The first one that is not resolved; none after it is looked at. -/
def firstUnresolved (s : State) : List Nat → Option Nat × State
  | [] => (none, s)
  | k :: ks =>
    let (done, s) := s.resolved k
    if done then s.firstUnresolved ks else (some k, s)

def settleOne (s : State) (k : Nat) : State :=
  match s.futures[k]? with
  | none => s
  | some f =>
    if k ∈ s.settled then s
    else
      let (done, s) := s.resolved k
      if done then
        let s := { s with settled := k :: s.settled }
        if f.tag = "" then s
        else
          let (response, s) := s.view k
          { s with
            namedResponses := Function.update s.namedResponses f.tag (some response)
            namedTransports := Function.update s.namedTransports f.tag (some f.transport) }
      else s

def settleDNSFutures (s : State) : State := (List.range s.futures.length).foldl settleOne s

end State

/-! ## Queries -/

namespace Call

variable (c : Call)

def finalizeExchangeOptions (options : DNSQueryOptions) : DNSQueryOptions :=
  if options.strategy = 0 then { options with strategy := c.defaultDomainStrategy } else options

/-- What the next query gives. -/
def query (s : State) (transport : DNSTransport) (options : DNSQueryOptions) :
    Option Msg × Option Failure :=
  c.outcome s.queries transport (c.finalizeExchangeOptions options)

def launchDNSEvaluate (s : State) (tag : String) (terminal : Bool) (transport : DNSTransport)
    (options : DNSQueryOptions) : Nat × State :=
  let (response, err) := c.query s transport options
  let doneAt := s.clock + c.delay s.queries
  let future : Future :=
    { tag, terminal, transport, response, err, doneAt, signalAt := doneAt + c.lag s.queries }
  (s.futures.length, { s with futures := s.futures ++ [future], queries := s.queries + 1 })

/-- The client calls back once, with what the query gives. -/
def exchangeAsync {α : Type} (s : State) (transport : DNSTransport) (options : DNSQueryOptions)
    (callback : Option Msg → Option Failure → α) : List α :=
  let (response, err) := c.query s transport options
  [callback response err]

/-- Cancelling an evaluation that is done, or was cancelled before, has no effect on it. -/
def cancel (s : State) (k : Nat) : State :=
  if k ∈ s.cancelled then s
  else
    let s' := { s with cancelled := k :: s.cancelled }
    match s.futures[k]?, c.onCancel k with
    | some f, some (response, err, delay) =>
      if s.isDone k then s'
      else
        let doneAt := s.clock + delay
        let f := { f with response, err, doneAt, signalAt := doneAt + c.lag k }
        { s' with futures := s.futures.set k f }
    | _, _ => s'

def cancelDNSFutures (s : State) : State := (List.range s.futures.length).foldl c.cancel s

inductive Route where
  | missing
  | skipped
  | resolved (transport : DNSTransport) (options : DNSQueryOptions)

def resolveDNSRoute (server : String) (route : DNSRouteOptions) (options : DNSQueryOptions) :
    Route :=
  match c.transport server with
  | none => .missing
  | some transport =>
    let isFakeIP := decide (transport.type = "fakeip")
    if isFakeIP && !c.allowFakeIP then .skipped
    else
      let options := applyDNSRouteOptions options route
      .resolved transport (if isFakeIP then { options with disableCache := true } else options)

def dnsRefusedResponse : Msg where
  id := c.message.id
  rcode := 5
  response := true
  question := c.message.question
  records := []

inductive Commit where
  | result (result : ExchangeResult)
  | pending (exchange : PendingExchange)

/-- The response and transport an armed respond rule gives. -/
def armedResponse (armed : ArmedRule) (s : State) : Option Msg × Option DNSTransport × State :=
  if armed.rule.matchResponseTag ≠ "" then
    ((s.namedResponses armed.rule.matchResponseTag).join,
      s.namedTransports armed.rule.matchResponseTag, s)
  else
    match armed.anonymousFuture.or s.anonymousFuture with
    | some k =>
      let (response, s) := s.view k
      (response, s.transportOf k, s)
    | none => (none, none, s)

/-- What an armed rule whose evaluations are there does. -/
def trigger (armed : ArmedRule) (s : State) : Option Commit × State :=
  let (response, s) :=
    if armed.bindsAnonymous then
      match armed.anonymousFuture with
      | some k => s.view k
      | none => (none, s)
    else s.anonymousResponse
  if !armed.rule.isMatch response s.namedResponses then (none, s)
  else
    match armed.rule.action with
    | .respond =>
      let (response, transport, s) := armedResponse armed s
      match response with
      | none => (some (.result { err := some .respondMissingResponse }), s)
      | some response => (some (.result { response := some response, transport }), s)
    | .route server _ _ options =>
      match c.resolveDNSRoute server options armed.options with
      | .missing | .skipped => (none, s)
      | .resolved transport options => (some (.pending { transport, options }), s)
    | .reject .default =>
      (some (.result { response := some c.dnsRefusedResponse, rejectAction := some .default }), s)
    | .reject .drop => (some (.result { rejectAction := some .drop, err := some .drop }), s)
    | .predefined response => (some (.result { response := some (response c.message) }), s)
    | .reject .reply | .routeOptions _ | .evaluate _ _ _ _ | .other => (none, s)

/-- The armed rules in their order; `kept` are the ones before that still wait. -/
def sweepFrom (kept : List ArmedRule) : List ArmedRule → State → Option Commit × State
  | [], s => (none, { s with armedRules := kept })
  | armed :: rest, s =>
    let (waiting, s) := s.firstUnresolved armed.futures
    if waiting.isSome then sweepFrom (kept ++ [armed]) rest s
    else
      match c.trigger armed { s with armedRules := kept ++ rest } with
      | (some commit, s) => (some commit, s)
      | (none, s) => sweepFrom kept rest s

def sweepArmedDNSRules (s : State) : Option Commit × State := c.sweepFrom [] s.armedRules s

/-! ## The walk -/

inductive Step where
  | next (s : State)
  | deliver (result : ExchangeResult) (s : State)
  | suspend (suspension : Suspension) (s : State)

/-- A race rule is armed. When nothing is missing all armed rules are looked at. -/
def arm (rule : DNSRule) (s : State) : Step :=
  let (pendingFutures, s) := s.unresolved (s.bindings rule)
  let armed : ArmedRule :=
    { rule
      futures := pendingFutures
      anonymousFuture := if rule.matchResponseAnonymous then s.anonymousFuture else none
      bindsAnonymous := rule.matchResponseAnonymous
      options := s.effectiveOptions }
  let s := { s with armedRules := s.armedRules ++ [armed] }
  if pendingFutures.isEmpty then
    match c.sweepArmedDNSRules s with
    | (some (.pending exchange), s) => .suspend (.pending exchange) { s with armedRules := [] }
    | (some (.result result), s) => .deliver result s
    | (none, s) => .next s
  else .next s

def evaluate (server tag : String) (speculative : Bool) (options : DNSRouteOptions) (s : State) :
    Step :=
  match c.transport server with
  | none => .next (if tag = "" then { s with anonymousFuture := none } else s)
  | some transport =>
    if !speculative && !s.armedRules.isEmpty then .suspend .drain s
    else
      let (k, s) := c.launchDNSEvaluate s tag false transport
        (applyDNSRouteOptions s.effectiveOptions options)
      .next
        (if tag = "" then { s with anonymousFuture := some k }
        else { s with namedFutures := Function.update s.namedFutures tag (some k) })

/-- The response of the anonymous evaluation; only a rule that is not bound to it waits here. -/
def respondAnonymous (hasBindings : Bool) (s : State) : Step :=
  match s.anonymousFuture with
  | none => .deliver { err := some .respondMissingResponse } s
  | some k =>
    let (waiting, s) := if hasBindings then (none, s) else s.firstUnresolved [k]
    if waiting.isSome then .suspend (.await k) s
    else
      let (response, s) := s.view k
      match response with
      | none => .deliver { err := some .respondMissingResponse } s
      | some response => .deliver { response := some response, transport := s.transportOf k } s

def respond (rule : DNSRule) (s : State) : Step :=
  if !s.armedRules.isEmpty then .suspend .drain s
  else if rule.matchResponseTag ≠ "" then
    match (s.namedResponses rule.matchResponseTag).join with
    | none => .deliver { err := some .respondMissingResponse } s
    | some response =>
      .deliver
        { response := some response, transport := s.namedTransports rule.matchResponseTag } s
  else respondAnonymous rule.hasBindings s

def route (server : String) (speculative fallback : Bool) (options : DNSRouteOptions) (s : State) :
    Step :=
  match c.resolveDNSRoute server options s.effectiveOptions with
  | .missing | .skipped => .next s
  | .resolved transport options =>
    if !s.armedRules.isEmpty then
      if speculative && s.terminalFuture.isNone then
        let (k, s) := c.launchDNSEvaluate s "" true transport options
        .suspend .drain { s with terminalFuture := some k, terminalIndex := s.ruleIndex }
      else .suspend .drain s
    else
      match s.terminalFuture with
      | some k =>
        if s.terminalIndex = s.ruleIndex then
          .suspend (.pending
            { transport := (s.transportOf k).getD transport, options := {}, future := some k }) s
        else .suspend (.pending { transport, options, fallback }) s
      | none => .suspend (.pending { transport, options, fallback }) s

def act (rule : DNSRule) (s : State) : Step :=
  match rule.action with
  | .routeOptions options =>
    .next { s with effectiveOptions := applyDNSRouteOptions s.effectiveOptions options }
  | .evaluate server tag speculative options => c.evaluate server tag speculative options s
  | .respond => respond rule s
  | .route server speculative fallback options => c.route server speculative fallback options s
  | .reject method =>
    if !s.armedRules.isEmpty then .suspend .drain s
    else
      match method with
      | .default =>
        .deliver { response := some c.dnsRefusedResponse, rejectAction := some .default } s
      | .drop => .deliver { rejectAction := some .drop, err := some .drop } s
      | .reply => .next s
  | .predefined response =>
    if !s.armedRules.isEmpty then .suspend .drain s
    else .deliver { response := some (response c.message) } s
  | .other => .next s

/-- Match a rule, with the responses that are there now. -/
def consider (rule : DNSRule) (s : State) : Step :=
  let (response, s) := s.anonymousResponse
  if !rule.isMatch response s.namedResponses then .next s else c.act rule s

def visit (rule : DNSRule) (s : State) : Step :=
  if rule.hasBindings then
    let s := s.settleDNSFutures
    if rule.race then c.arm rule s
    else
      match s.firstUnresolved (s.bindings rule) with
      | (some k, s) => .suspend (.await k) s
      | (none, s) => c.consider rule s
  else c.consider rule s

inductive Walked where
  | deliver (result : ExchangeResult) (s : State)
  | suspend (suspension : Suspension) (s : State)

/-- The rules from the current one on. -/
def walkFrom : List DNSRule → State → Walked
  | [], s =>
    if !s.armedRules.isEmpty then .suspend .drain s
    else .suspend (.pending { transport := c.defaultTransport, options := s.effectiveOptions }) s
  | rule :: rules, s =>
    match c.visit rule s with
    | .next s => walkFrom rules { s with ruleIndex := s.ruleIndex + 1 }
    | .deliver result s => .deliver result s
    | .suspend suspension s => .suspend suspension s

def walkDNSRules (s : State) : Walked := c.walkFrom (c.rules.drop s.ruleIndex) s

/-- Which of two things comes first, and when; none when neither ever comes. -/
def select (now : Nat) (event : Option Nat) : Option (Bool × Nat) :=
  match event, c.ctxDone with
  | none, none => none
  | some t, none => some (true, max now t)
  | none, some t => some (false, max now t)
  | some t, some u =>
    if max now t < max now u then some (true, max now t)
    else if max now u < max now t then some (false, max now u)
    else some (c.selectsWake now, max now t)

/-- When the next signal arrives that has not been received: `wake` has room for one. -/
def nextSignal (s : State) : Option Nat :=
  ((s.futures.map (·.signalAt)).filter (s.woken < ·)).min?

/-- Wait for `wake` or for the end of the context. -/
def wait (s : State) : Option (Bool × State) :=
  (c.select s.clock (nextSignal s)).map fun (wakes, t) =>
    if wakes then (true, { s with clock := t + 1, woken := t })
    else (false, { s with clock := t + 1 })

def ctxEnded (s : State) : Bool :=
  match c.ctxDone with
  | some t => decide (t ≤ s.clock)
  | none => false

def failed (result : ExchangeResult) : Bool :=
  result.err.isSome || result.response.any (·.rcode != 0)

/-- Cancel the other evaluations and get the answer of the query that decides; none when it
waits for ever. -/
def finishPendingExchange (s : State) (pending : PendingExchange) :
    Option (ExchangeResult × State) :=
  let s := ((List.range s.futures.length).filter (some · ≠ pending.future)).foldl c.cancel s
  match pending.future with
  | some k =>
    (c.select s.clock ((s.futures[k]?).map (·.doneAt))).map fun (done, t) =>
      let s := { s with clock := t + 1 }
      if done then
        let (response, s) := s.view k
        ({ response, transport := s.transportOf k, err := (s.futures[k]?).bind (·.err) }, s)
      else ({ err := some c.ctxErr }, s)
  | none =>
    let (response, err) := c.query s pending.transport pending.options
    some ({ response, transport := some pending.transport, err },
      { s with clock := s.clock + c.delay s.queries + 1, queries := s.queries + 1 })

/-- The state of the loop of the resumed walk. After a fallback there is no suspension. -/
abbrev Resumed := State × Option Suspension

abbrev Turn := Loop.Turn Resumed (ExchangeResult × State)

/-- Walk on from the current rule. -/
def walkOn (s : State) : Turn :=
  match c.walkDNSRules s with
  | .deliver result s => .done (result, s)
  | .suspend suspension s => .again (s, some suspension)

def waitOn (s : State) (suspension : Suspension) : Option Turn :=
  (c.wait s).map fun (wakes, s) =>
    if wakes then .again (s, some suspension) else .done ({ err := some c.ctxErr }, s)

/-- The query that decides is sent. A rule with `fallback` lets the next one have its turn when
the query fails, unless the caller has gone. -/
def settlePending (s : State) (pending : PendingExchange) : Option Turn :=
  (c.finishPendingExchange s pending).map fun (result, s) =>
    if pending.fallback && !c.ctxEnded s && failed result then
      .again ({ s.tick with ruleIndex := s.ruleIndex + 1 }, none)
    else .done (result, s)

def continueWith (s : State) : Option Suspension → Option Turn
  | some (.pending pending) => c.settlePending s pending
  | some (.await k) =>
    let (done, s) := s.resolved k
    if done then some (c.walkOn s) else c.waitOn s (.await k)
  | some .drain => if s.armedRules.isEmpty then some (c.walkOn s) else c.waitOn s .drain
  | none => some (c.walkOn s)

def turn (loop : Resumed) : Option Turn :=
  match c.sweepArmedDNSRules loop.1.settleDNSFutures with
  | (some (.pending exchange), s) => (c.finishPendingExchange s exchange).map .done
  | (some (.result result), s) => some (.done (result, s))
  | (none, s) => c.continueWith s loop.2

/-- The evaluations are cancelled when the function returns. -/
def resumeExchangeWithRules (fuel : Nat) (s : State) (suspension : Suspension) :
    Option (ExchangeResult × State) :=
  (Loop.run c.turn fuel (s, some suspension)).map fun (result, s) =>
    (result, c.cancelDNSFutures s)

def start : State where
  effectiveOptions := c.options

/-- `fuel` bounds the turns of the resumed walk. -/
def exchangeWithRules (fuel : Nat) : Option (ExchangeResult × State) :=
  match c.walkDNSRules c.start with
  | .deliver result s => some (result, c.cancelDNSFutures s)
  | .suspend suspension s => c.resumeExchangeWithRules fuel s suspension

/-- The calls of the callback, with the state each of them finds. -/
def exchangeWithRulesAsync (fuel : Nat) : Option (List (ExchangeResult × State)) :=
  let resumed (s : State) (suspension : Suspension) :=
    (c.resumeExchangeWithRules fuel s suspension).map ([·])
  match c.walkDNSRules c.start with
  | .deliver result s => some [(result, c.cancelDNSFutures s)]
  | .suspend (.pending pending) s =>
    if pending.future.isNone && !pending.fallback then
      let s := c.cancelDNSFutures s
      some (c.exchangeAsync s pending.transport pending.options fun response err =>
        ({ response, transport := some pending.transport, err }, s))
    else resumed s (.pending pending)
  | .suspend suspension s => resumed s suspension

end Call

end QuinMo.Libcore.Dns
