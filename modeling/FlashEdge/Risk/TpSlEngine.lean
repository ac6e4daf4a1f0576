import FlashEdge.Js
import FlashEdge.Theory.Machine
import FlashEdge.Theory.OrderedMap

/-!
# The take-profit / stop-loss engine (`risk/tp-sl-engine.ts`)

Targets are kept per market and side. `evaluate` reads the price of every open
position that has a target, counts the consecutive readings at which one of the
target's conditions held, and starts a close at the second. It has no suspension
point, so it is one step; the close executor is asynchronous, so a close starts
(`triggered`) and ends later (`closeDone`).

Of a position the engine reads the market, the side and the two prices. Its
`pubkey` and opening time are kept in the events: they tell a position from a
later one of the same market and side. The session circuit breaker and the kill
switch are other components: `evaluate` takes their answers as an argument.
-/

namespace FlashEdge

structure TpSlTarget where
  tp : Option JsNumber
  sl : Option JsNumber
  triggered : Bool
  confirmationTicks : ℕ
deriving DecidableEq, Repr

inductive CloseReason where
  | TAKE_PROFIT
  | STOP_LOSS
deriving DecidableEq, Repr

namespace TpSlEngine

def REQUIRED_CONFIRMATION_TICKS : ℕ := 2

/-- What the engine is given of an open position. -/
structure Position where
  pubkey : String
  market : String
  side : TradeSide
  currentPrice : JsNumber
  markPrice : JsNumber
  timestamp : ℚ
deriving DecidableEq, Repr

/-- What tells an open position from any other, a later one at the same address
included. -/
structure PositionId where
  pubkey : String
  timestamp : ℚ
deriving DecidableEq, Repr

def Position.id (pos : Position) : PositionId := { pubkey := pos.pubkey, timestamp := pos.timestamp }

/-- What an observer sees: the calls that change a target, the start of an
evaluation, each price it reads (with the reasons whose own condition held), and
the closes. -/
inductive Event where
  | targetSet (key : String)
  | targetChanged (key : String)
  | targetDeleted (key : String)
  | evaluation
  | read (key : String) (position : PositionId) (met : List CloseReason)
  | triggered (key : String) (position : PositionId) (reason : CloseReason)
  | closeDone (key : String) (ok : Bool)
deriving DecidableEq, Repr

/-- The answers of `getCircuitBreaker().check()` and
`getTradingGate().checkKillSwitch()` when they are asked about a key. -/
structure Gates where
  breakerAllowed : String → Bool
  killSwitchAllowed : String → Bool

end TpSlEngine

open TpSlEngine in
/-- The engine. `closes` is not a field of the code: it lists the calls of
`executeClose` that are waiting for their executor. -/
structure TpSlEngine where
  targets : OrderedMap String TpSlTarget := .empty
  closeExecutor : Bool := false
  closingKeys : List String := []
  client : Bool := false
  pollTimer : Bool := false
  pollInProgress : Bool := false
  closes : List String := []
deriving DecidableEq

namespace TpSlEngine

def setCloseExecutor (e : TpSlEngine) : TpSlEngine := { e with closeExecutor := true }

def setClient (e : TpSlEngine) : TpSlEngine := { e with client := true }

def stop (e : TpSlEngine) : TpSlEngine := { e with pollTimer := false }

def makeKey (market side : String) : String := toUpperCase market ++ "-" ++ toLowerCase side

def Position.key (pos : Position) : String := makeKey pos.market pos.side.value

def hasActiveTargets (e : TpSlEngine) : Bool :=
  e.targets.entries.any fun t => !t.2.triggered

def ensurePolling (e : TpSlEngine) : TpSlEngine :=
  if e.pollTimer then e
  else if !e.client then e
  else { e with pollTimer := true }

def maybeStopPolling (e : TpSlEngine) : TpSlEngine :=
  if !e.hasActiveTargets then e.stop else e

/-- Set a target; a value that is not given is kept from the existing one. -/
def setTarget (e : TpSlEngine) (market side : String) (tp sl : Option JsNumber) :
    TpSlEngine × List Event :=
  let key := makeKey market side
  let existing := e.targets.get? key
  let target : TpSlTarget :=
    { tp := tp.or (existing.bind TpSlTarget.tp)
      sl := sl.or (existing.bind TpSlTarget.sl)
      triggered := false
      confirmationTicks := 0 }
  if target.tp.isNone && target.sl.isNone then (e, [])
  else ({ e with targets := e.targets.set key target }.ensurePolling, [.targetSet key])

/-- `'tp' | 'sl'`. -/
inductive TargetType where
  | tp
  | sl
deriving DecidableEq, Repr

/-- A target without one of its two values, waiting again from the start. -/
def clearedTarget (existing : TpSlTarget) (type : TargetType) : TpSlTarget :=
  { tp := match type with | .tp => none | .sl => existing.tp
    sl := match type with | .tp => existing.sl | .sl => none
    triggered := false
    confirmationTicks := 0 }

def removeTarget (e : TpSlEngine) (market side : String) (type : TargetType) :
    TpSlEngine × List Event :=
  let key := makeKey market side
  match e.targets.get? key with
  | none => (e, [])
  | some existing =>
    let target := clearedTarget existing type
    if target.tp.isNone && target.sl.isNone then
      ({ e with targets := e.targets.delete key }.maybeStopPolling, [.targetDeleted key])
    else
      ({ e with targets := e.targets.modify key fun t => clearedTarget t type },
        [.targetChanged key])

/-- The mark price when it is positive and the current price otherwise, if that
is finite and positive. -/
def valuationPrice (pos : Position) : Option ℚ :=
  (if pos.markPrice.isPositive then pos.markPrice else pos.currentPrice).finitePositive?

/-- The take-profit condition: the price has risen to it (long) or dropped to it
(short). -/
def tpMet (target : TpSlTarget) (side : TradeSide) (valuationPrice : ℚ) : Bool :=
  target.tp.any fun tp =>
    match side with
    | .Long => tp.leRat valuationPrice
    | .Short => tp.geRat valuationPrice

/-- The stop-loss condition: the price has dropped to it (long) or risen to it
(short). -/
def slMet (target : TpSlTarget) (side : TradeSide) (valuationPrice : ℚ) : Bool :=
  target.sl.any fun sl =>
    match side with
    | .Long => sl.geRat valuationPrice
    | .Short => sl.leRat valuationPrice

/-- The reason the code goes by: the take profit is looked at first. -/
def reason? (target : TpSlTarget) (side : TradeSide) (valuationPrice : ℚ) : Option CloseReason :=
  if tpMet target side valuationPrice then some .TAKE_PROFIT
  else if slMet target side valuationPrice then some .STOP_LOSS
  else none

/-- All the reasons whose own condition holds. -/
def metReasons (target : TpSlTarget) (side : TradeSide) (valuationPrice : ℚ) : List CloseReason :=
  (if tpMet target side valuationPrice then [.TAKE_PROFIT] else []) ++
    (if slMet target side valuationPrice then [.STOP_LOSS] else [])

/-- `target.confirmationTicks = ticks`. -/
def countTicks (e : TpSlEngine) (key : String) (ticks : ℕ) : TpSlEngine :=
  { e with targets := e.targets.modify key fun t => { t with confirmationTicks := ticks } }

/-- The trigger: the target is marked, its key locked, and the close started. -/
def startClose (e : TpSlEngine) (key : String) : TpSlEngine :=
  { e with
    targets := e.targets.modify key fun t => { t with triggered := true }
    closingKeys := key :: e.closingKeys
    closes := key :: e.closes }

/-- One iteration of the loop in `evaluate`. -/
def evaluatePosition (e : TpSlEngine) (gates : Gates) (pos : Position) :
    TpSlEngine × List Event :=
  let key := pos.key
  match e.targets.get? key with
  | none => (e, [])
  | some target =>
    if target.triggered then (e, [])
    else
      match valuationPrice pos with
      | none => (e, [])
      | some price =>
        let read : Event := .read key pos.id (metReasons target pos.side price)
        match reason? target pos.side price with
        | none => (e.countTicks key 0, [read])
        | some reason =>
          -- one counter for both reasons, and for whichever position of the key is read
          let ticks := target.confirmationTicks + 1
          let e := e.countTicks key ticks
          if ticks < REQUIRED_CONFIRMATION_TICKS then (e, [read])
          -- the guards leave the counted tick
          else if key ∈ e.closingKeys then (e, [read])
          else if !gates.breakerAllowed key then (e, [read])
          else if !gates.killSwitchAllowed key then (e, [read])
          else if !e.closeExecutor then (e, [read])
          else (e.startClose key, [read, .triggered key pos.id reason])

/-- The loop of `evaluate`. -/
def evaluatePositions (e : TpSlEngine) (gates : Gates) : List Position → TpSlEngine × List Event
  | [] => (e, [])
  | pos :: rest =>
    let r := e.evaluatePosition gates pos
    let r' := r.1.evaluatePositions gates rest
    (r'.1, r.2 ++ r'.2)

def evaluate (e : TpSlEngine) (gates : Gates) (positions : List Position) :
    TpSlEngine × List Event :=
  -- an evaluation without targets reads nothing, but it is one
  if e.targets.size = 0 then (e, [.evaluation])
  else
    let r := e.evaluatePositions gates positions
    (r.1.maybeStopPolling, .evaluation :: r.2)

/-- The executor of a close has answered; the target stays triggered either way. -/
def executeCloseDone (e : TpSlEngine) (key : String) (ok : Bool) : TpSlEngine × List Event :=
  ({ e with
      closingKeys := e.closingKeys.filter (· ≠ key)
      closes := e.closes.erase key },
    [.closeDone key ok])

/-- The start of a poll tick, up to the request for the positions. -/
def pollTick (e : TpSlEngine) : TpSlEngine :=
  if e.pollInProgress || !e.client then e
  else if !e.hasActiveTargets then e.stop
  else { e with pollInProgress := true }

/-- The end of a poll tick: the positions have come (or the request has failed). -/
def pollResume (e : TpSlEngine) (gates : Gates) (answer : Option (List Position)) :
    TpSlEngine × List Event :=
  let r := match answer with
    | some positions => e.evaluate gates positions
    | none => (e, [])
  ({ r.1 with pollInProgress := false }, r.2)

/-- What can happen to the engine. -/
inductive Action where
  | setCloseExecutor
  | setClient
  | stop
  | setTarget (market side : String) (tp sl : Option JsNumber)
  | removeTarget (market side : String) (type : TargetType)
  | evaluate (gates : Gates) (positions : List Position)
  | pollTick
  | positions (gates : Gates) (answer : Option (List Position))
  | executorDone (key : String) (ok : Bool)

/-- One step. The timer ticks only while it is set, positions come only for a
poll in progress, and an executor answers only for a close that waits. -/
def step (e : TpSlEngine) : Action → Option (TpSlEngine × List Event)
  | .setCloseExecutor => some (e.setCloseExecutor, [])
  | .setClient => some (e.setClient, [])
  | .stop => some (e.stop, [])
  | .setTarget market side tp sl => some (e.setTarget market side tp sl)
  | .removeTarget market side type => some (e.removeTarget market side type)
  | .evaluate gates positions => some (e.evaluate gates positions)
  | .pollTick => if e.pollTimer then some (e.pollTick, []) else none
  | .positions gates answer => if e.pollInProgress then some (e.pollResume gates answer) else none
  | .executorDone key ok => if key ∈ e.closes then some (e.executeCloseDone key ok) else none

/-! ## What one reading can do -/

/-- The position is read: its target waits and its price is valid. -/
structure Reads (e : TpSlEngine) (pos : Position) (target : TpSlTarget) (price : ℚ) : Prop where
  get? : e.targets.get? pos.key = some target
  waiting : target.triggered = false
  valid : valuationPrice pos = some price

/-- The counter after a reading. -/
def ticksAfter (target : TpSlTarget) (side : TradeSide) (price : ℚ) : ℕ :=
  if (reason? target side price).isSome then target.confirmationTicks + 1 else 0

/-- The code goes by a reason whose own condition holds. -/
theorem reason?_mem_metReasons {target : TpSlTarget} {side : TradeSide} {price : ℚ}
    {reason : CloseReason} (h : reason? target side price = some reason) :
    reason ∈ metReasons target side price := by
  unfold reason? at h
  unfold metReasons
  split_ifs at h with htp hsl
  · obtain rfl := Option.some.inj h
    rw [if_pos htp]
    exact List.mem_append_left _ List.mem_cons_self
  · obtain rfl := Option.some.inj h
    rw [if_pos hsl]
    exact List.mem_append_right _ List.mem_cons_self

/-- Some condition holds exactly when the code finds a reason. -/
theorem reason?_eq_none_iff {target : TpSlTarget} {side : TradeSide} {price : ℚ} :
    reason? target side price = none ↔ metReasons target side price = [] := by
  unfold reason? metReasons
  cases tpMet target side price <;> cases slMet target side price <;> simp

/-- Everything an iteration of the loop can do: skip the position, count the
reading, or count it and trigger. -/
theorem evaluatePosition_cases (e : TpSlEngine) (gates : Gates) (pos : Position) :
    ((∀ target price, ¬ e.Reads pos target price) ∧ e.evaluatePosition gates pos = (e, [])) ∨
    ∃ target price, e.Reads pos target price ∧
      (e.evaluatePosition gates pos =
          (e.countTicks pos.key (ticksAfter target pos.side price),
            [.read pos.key pos.id (metReasons target pos.side price)]) ∨
        ∃ reason, reason? target pos.side price = some reason ∧
          1 ≤ target.confirmationTicks ∧ pos.key ∉ e.closingKeys ∧
          e.evaluatePosition gates pos =
            ((e.countTicks pos.key (ticksAfter target pos.side price)).startClose pos.key,
              [.read pos.key pos.id (metReasons target pos.side price),
                .triggered pos.key pos.id reason])) := by
  unfold evaluatePosition
  dsimp only
  cases htarget : e.targets.get? pos.key with
  | none =>
    refine .inl ⟨fun target price hreads => ?_, rfl⟩
    rw [hreads.get?] at htarget
    cases htarget
  | some target =>
    dsimp only
    split
    · next htr =>
      refine .inl ⟨fun target' price hreads => ?_, rfl⟩
      rw [hreads.get?] at htarget
      obtain rfl := Option.some.inj htarget
      rw [hreads.waiting] at htr
      cases htr
    · next htr =>
      cases hprice : valuationPrice pos with
      | none =>
        refine .inl ⟨fun target' price hreads => ?_, rfl⟩
        rw [hreads.valid] at hprice
        cases hprice
      | some price =>
        refine .inr ⟨target, price, ⟨htarget, Bool.eq_false_iff.mpr htr, hprice⟩, ?_⟩
        dsimp only
        cases hreason : reason? target pos.side price with
        | none =>
          left
          simp only [ticksAfter, hreason, Option.isSome_none, Bool.false_eq_true, if_false]
        | some reason =>
          have hticks : ticksAfter target pos.side price = target.confirmationTicks + 1 := by
            rw [ticksAfter, hreason]
            rfl
          rw [hticks]
          dsimp only
          split_ifs with hfew hclosing
          · exact .inl rfl
          · exact .inl rfl
          · exact .inl rfl
          · exact .inl rfl
          · exact .inl rfl
          · refine .inr ⟨reason, rfl, ?_, hclosing, rfl⟩
            rw [REQUIRED_CONFIRMATION_TICKS] at hfew
            omega

/-! ## What a look-up sees after it -/

theorem countTicks_get? (e : TpSlEngine) (key k : String) (ticks : ℕ) :
    (e.countTicks key ticks).targets.get? k =
      if k = key then (e.targets.get? k).map fun t => { t with confirmationTicks := ticks }
      else e.targets.get? k :=
  OrderedMap.get?_modify _ _ _ _

theorem startClose_get? (e : TpSlEngine) (key k : String) :
    (e.startClose key).targets.get? k =
      if k = key then (e.targets.get? k).map fun t => { t with triggered := true }
      else e.targets.get? k :=
  OrderedMap.get?_modify _ _ _ _

theorem ensurePolling_eq (e : TpSlEngine) :
    ∃ b, e.ensurePolling = { e with pollTimer := b } := by
  unfold ensurePolling
  split_ifs
  · exact ⟨e.pollTimer, rfl⟩
  · exact ⟨e.pollTimer, rfl⟩
  · exact ⟨true, rfl⟩

theorem maybeStopPolling_eq (e : TpSlEngine) :
    ∃ b, e.maybeStopPolling = { e with pollTimer := b } := by
  unfold maybeStopPolling
  split_ifs
  · exact ⟨false, rfl⟩
  · exact ⟨e.pollTimer, rfl⟩

theorem pollTick_eq (e : TpSlEngine) :
    ∃ b c, e.pollTick = { e with pollTimer := b, pollInProgress := c } := by
  unfold pollTick
  split_ifs
  · exact ⟨e.pollTimer, e.pollInProgress, rfl⟩
  · exact ⟨false, e.pollInProgress, rfl⟩
  · exact ⟨e.pollTimer, true, rfl⟩

end TpSlEngine

/-- The engine and everything around it, as a machine. -/
def tpSl : Machine TpSlEngine TpSlEngine.Action TpSlEngine.Event where
  init := {}
  step := TpSlEngine.step

end FlashEdge
