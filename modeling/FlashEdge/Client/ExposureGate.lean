import FlashEdge.Client.AnsweredTrades

/-!
# The signing guard in front of exposure (`client/magic-client.ts`)

"Every instruction array passes through … `signing-guard.ts` (caps + rate limit +
audit log) before being signed." The guard is asked in each operation separately,
and `guardAnswers` is what it is asked there, in order. To the trades of the client
come two of its orders, a limit order and a trigger: they take no lock and do not
ask the guard.

`acceptedBefore_iff` says on which runs a transaction that raises exposure is
submitted only after the guard has accepted both the limits and the rate: those
on which it is submitted by `openPosition` only.
-/

namespace FlashEdge

namespace MagicTradeClient

/-! ## What the guard is asked -/

inductive GuardAnswer where
  | limitsAccepted
  | limitsRefused (reason : SigningRefusal)
  | rateAccepted
  | rateRefused (reason : SigningRefusal)
deriving DecidableEq, Repr

/-- The limits are asked by an open position only. -/
def limitAnswers (guard : SigningGuard) : Operation → List GuardAnswer
  | .openPosition _ collateralAmount leverage =>
    match guard.checkTradeLimits collateralAmount leverage (collateralAmount * leverage) with
    | .error reason => [.limitsRefused reason]
    | .ok () => [.limitsAccepted]
  | _ => []

def rateAnswers (guard : SigningGuard) (now : ℚ) : List GuardAnswer :=
  match (guard.checkRateLimit now).2 with
  | some reason => [.rateRefused reason]
  | none => [.rateAccepted]

/-- What the guard answers in the course of `enter`. -/
def guardAnswers (pool : MagicPool) (s : MagicTradeClient) (market : String) (side : TradeSide)
    (operation : Operation) (now : ℚ) : List GuardAnswer :=
  match resolveMarket pool (toUpperCase market) side with
  | .error _ => []
  | .ok _ =>
    limitAnswers s.guard operation ++
      match precheck pool s.guard operation with
      | .error _ => []
      | .ok () => rateAnswers s.guard now

/-- Whether a call comes to `enter`: a change of the size needs the oracle's price,
which it fetches once its market is resolved. -/
def asksGuard (pool : MagicPool) : Call → Bool
  | .decreasePosition market side _ _ oraclePrice =>
    (resolveMarket pool (toUpperCase market) side).toOption.isNone ||
      oraclePrice.finitePositive?.isSome
  | .increasePosition market side _ _ _ oraclePrice =>
    (resolveMarket pool (toUpperCase market) side).toOption.isNone ||
      oraclePrice.finitePositive?.isSome
  | _ => true

/-- What the guard answers to a call. -/
def callAnswers (pool : MagicPool) (s : MagicTradeClient) (now : ℚ) (c : Call) :
    List GuardAnswer :=
  if asksGuard pool c then guardAnswers pool s c.market c.side c.operation now else []

/-! ## Orders -/

/-- An order that is not a trade: it is placed on the rollup at once. -/
inductive MagicOrder where
  | placeLimit (targetSymbol lockSymbol : String) (side : TradeSide)
      (limitPriceUsd collateralUsd leverage : ℚ) (tpUsd slUsd : Option ℚ)
      (collateralSymbol : String)
  | placeTrigger (targetSymbol lockSymbol : String) (side : TradeSide) (triggerPriceUsd : ℚ)
      (isStopLoss : Bool) (closeUsd : ℚ)
deriving DecidableEq, Repr

def placeLimit (pool : MagicPool) (market : String) (side : TradeSide)
    (limitPriceUsd collateralUsd leverage : ℚ) (tpUsd slUsd : Option ℚ)
    (collateralToken : Option String) : Except MagicError MagicOrder :=
  let targetSymbol := toUpperCase market
  match resolveMarket pool targetSymbol side with
  | .error error => .error error
  | .ok lockSymbol =>
    match custodyDecimals pool (tokenOrUsdc collateralToken) with
    | .error error => .error error
    | .ok _ =>
      .ok (.placeLimit targetSymbol lockSymbol side limitPriceUsd collateralUsd leverage tpUsd slUsd
        (tokenOrUsdc collateralToken))

/-- `fullSize` is the size of the open position, if there is one. -/
def placeTrigger (pool : MagicPool) (market : String) (side : TradeSide) (triggerPriceUsd : ℚ)
    (isStopLoss : Bool) (deltaSizeUsd fullSize : Option ℚ) : Except MagicError MagicOrder :=
  let targetSymbol := toUpperCase market
  match resolveMarket pool targetSymbol side with
  | .error error => .error error
  | .ok lockSymbol =>
    let closeUsd := (deltaSizeUsd.or fullSize).getD 0
    if closeUsd ≤ 0 then
      .error (.message "[magic-mode] no open position to attach trigger to (or zero size)")
    else .ok (.placeTrigger targetSymbol lockSymbol side triggerPriceUsd isStopLoss closeUsd)

/-- An order that waits for the rollup. -/
structure PendingOrder where
  order : MagicOrder
  signatures : List String := []
deriving DecidableEq, Repr

/-- The client with the orders that wait; orders and trades are numbered together. -/
structure Session where
  client : MagicTradeClient
  orders : OrderedMap ℕ PendingOrder := .empty
deriving DecidableEq

/-- What an observer of client and guard sees. -/
inductive SessionEvent where
  | guard (call : ℕ) (answer : GuardAnswer)
  | trade (event : Event)
  | orderSubmitted (call : ℕ) (order : MagicOrder) (sig : String)
  | orderPlaced (call : ℕ) (sig : String)
  | orderThrown (call : ℕ) (error : MagicError)
deriving DecidableEq, Repr

inductive SessionAction where
  | trade (a : Action)
  | placeLimit (market : String) (side : TradeSide) (limitPriceUsd collateralUsd leverage : ℚ)
      (tpUsd slUsd : Option ℚ) (collateralToken : Option String)
  | placeTrigger (market : String) (side : TradeSide) (triggerPriceUsd : ℚ) (isStopLoss : Bool)
      (deltaSizeUsd fullSize : Option ℚ)
  | submitOrder (call : ℕ) (sig : String)
  | finishOrder (call : ℕ)
  | failOrder (call : ℕ) (message : String)

namespace Session

/-- The answers of the guard in a step of the client. -/
def answers (pool : MagicPool) (s : Session) : Action → List SessionEvent
  | .call c now => (callAnswers pool s.client now c).map (.guard s.client.calls)
  | _ => []

/-- An order begins to wait, or throws. -/
def placeOrder (s : Session) (r : Except MagicError MagicOrder) : Session × List SessionEvent :=
  let call := s.client.calls
  let s := { s with client := { s.client with calls := call + 1 } }
  match r with
  | .error error => (s, [.orderThrown call error])
  | .ok order => ({ s with orders := s.orders.set call { order } }, [])

def step (pool : MagicPool) (s : Session) : SessionAction → Option (Session × List SessionEvent)
  | .trade a =>
    (s.client.step pool a).map fun r =>
      ({ s with client := r.1 }, s.answers pool a ++ r.2.map .trade)
  | .placeLimit market side limitPriceUsd collateralUsd leverage tpUsd slUsd collateralToken =>
    some (s.placeOrder (placeLimit pool market side limitPriceUsd collateralUsd leverage tpUsd slUsd
      collateralToken))
  | .placeTrigger market side triggerPriceUsd isStopLoss deltaSizeUsd fullSize =>
    some (s.placeOrder (placeTrigger pool market side triggerPriceUsd isStopLoss deltaSizeUsd
      fullSize))
  | .submitOrder call sig =>
    (s.orders.get? call).bind fun o =>
      -- one retry at most
      if 2 ≤ o.signatures.length then none
      else
        some ({ s with
            orders := s.orders.set call { o with signatures := o.signatures ++ [sig] } },
          [.orderSubmitted call o.order sig])
  | .finishOrder call =>
    (s.orders.get? call).bind fun o =>
      o.signatures.getLast?.map fun sig =>
        ({ s with orders := s.orders.delete call }, [.orderPlaced call sig])
  | .failOrder call message =>
    (s.orders.get? call).map fun _ =>
      ({ s with orders := s.orders.delete call }, [.orderThrown call (.message message)])

end Session

end MagicTradeClient

open MagicTradeClient in
/-- A session with the client of a pool. -/
def magicSession (pool : MagicPool) (config : SigningGuardConfig) :
    Machine Session SessionAction MagicTradeClient.SessionEvent where
  init := { client := (magicTradeClient pool config).init }
  step := Session.step pool

namespace MagicTradeClient

/-! ## The rule -/

/-- The operations that open a position or add to its size or its collateral. -/
def Operation.raisesExposure : Operation → Bool
  | .openPosition _ _ _ => true
  | .increasePosition _ _ _ => true
  | .addCollateral _ => true
  | _ => false

def MagicOrder.raisesExposure : MagicOrder → Bool
  | .placeLimit .. => true
  | .placeTrigger .. => false

def Operation.isOpen : Operation → Bool
  | .openPosition _ _ _ => true
  | _ => false

/-- The guard has accepted the limits and the rate of a call. -/
def Accepted (h : List SessionEvent) (call : ℕ) : Prop :=
  .guard call .limitsAccepted ∈ h ∧ .guard call .rateAccepted ∈ h

/-- A transaction that raises exposure is submitted after the guard has accepted
its call. -/
def AcceptedBefore (h : List SessionEvent) : SessionEvent → Prop
  | .trade (.submitted call trade _) =>
    Operation.raisesExposure trade.operation = true → Accepted h call
  | .orderSubmitted call order _ => order.raisesExposure = true → Accepted h call
  | _ => True

/-- The condition on a step: neither an increase of the size, nor added collateral,
nor a limit order submits a transaction. -/
def OnlyOpens (s : Session) (_ : List SessionEvent) : SessionAction → Prop
  | .trade (.submit call _) => ∀ p, s.client.pending.get? call = some p →
    Operation.raisesExposure p.trade.operation = true → Operation.isOpen p.trade.operation = true
  | .submitOrder call _ => ∀ o, s.orders.get? call = some o → o.order.raisesExposure = false
  | _ => True

/-! ## Calls and their answers -/

variable {pool : MagicPool}

/-- Only an open position has its limits accepted. -/
theorem isOpen_of_limitsAccepted {s : MagicTradeClient} {market : String} {side : TradeSide}
    {operation : Operation} {now : ℚ}
    (hmem : .limitsAccepted ∈ guardAnswers pool s market side operation now) :
    Operation.isOpen operation = true := by
  unfold guardAnswers at hmem
  split at hmem
  · cases hmem
  · rcases List.mem_append.mp hmem with hlimits | hrate
    · unfold limitAnswers at hlimits
      split at hlimits
      · rfl
      · cases hlimits
    · -- the rate limit gives other answers
      split at hrate
      · cases hrate
      · unfold rateAnswers at hrate
        split at hrate
        · simp at hrate
        · simp at hrate

/-- An open position that passes its check has its limits accepted. -/
theorem limitsAccepted_of_precheck {guard : SigningGuard} {operation : Operation}
    (hopen : Operation.isOpen operation = true) (hok : precheck pool guard operation = .ok ()) :
    .limitsAccepted ∈ limitAnswers guard operation := by
  cases operation with
  | openPosition collateralSymbol collateralAmount leverage =>
    rw [precheck] at hok
    rw [limitAnswers]
    cases hlimits : guard.checkTradeLimits collateralAmount leverage
        (collateralAmount * leverage) with
    | error reason =>
      rw [hlimits] at hok
      cases hok
    | ok => exact List.mem_singleton_self _
  | closePosition => cases hopen
  | addCollateral => cases hopen
  | removeCollateral => cases hopen
  | decreasePosition => cases hopen
  | increasePosition => cases hopen

/-- A trade that is admitted has had its rate accepted, and its limits if it is an
open position. -/
theorem answers_of_enter {s s' : MagicTradeClient} {market : String} {side : TradeSide}
    {operation : Operation} {now : ℚ} {trade : Trade}
    (henter : enter pool s market side operation now = (s', .ok trade)) :
    .rateAccepted ∈ guardAnswers pool s market side operation now ∧
      (Operation.isOpen operation = true →
        .limitsAccepted ∈ guardAnswers pool s market side operation now) := by
  unfold enter at henter
  unfold guardAnswers
  dsimp only at henter
  cases hresolve : resolveMarket pool (toUpperCase market) side with
  | error error =>
    rw [hresolve] at henter
    cases henter
  | ok lockSymbol =>
    rw [hresolve] at henter
    cases hprecheck : precheck pool s.guard operation with
    | error error =>
      simp only [hprecheck] at henter
      cases henter
    | ok =>
      simp only [hprecheck] at henter
      cases hrate : (s.guard.checkRateLimit now).2 with
      | some reason =>
        simp only [hrate] at henter
        cases henter
      | none =>
        have hanswers : rateAnswers s.guard now = [.rateAccepted] := by
          rw [rateAnswers, hrate]
        dsimp only
        rw [hanswers]
        exact ⟨List.mem_append_right _ (List.mem_singleton_self _),
          fun hopen => List.mem_append_left _ (limitsAccepted_of_precheck hopen hprecheck)⟩

/-- A change of the size without the oracle's price throws before it is asked for;
every other call takes the common course. -/
theorem changeSize_eq (s : MagicTradeClient) (market : String) (side : TradeSide)
    (operation : Operation) (purpose : String) (oraclePrice : JsNumber) (now : ℚ) :
    (((resolveMarket pool (toUpperCase market) side).toOption.isNone ||
        oraclePrice.finitePositive?.isSome) = true ∧
      changeSize pool s market side operation purpose oraclePrice now =
        startTrade pool s market side operation now) ∨
    ∃ error, changeSize pool s market side operation purpose oraclePrice now =
      ({ s with calls := s.calls + 1 }, [.thrown s.calls error]) := by
  unfold changeSize
  cases resolveMarket pool (toUpperCase market) side with
  | error error => exact .inl ⟨rfl, rfl⟩
  | ok lockSymbol =>
    cases oraclePrice.finitePositive? with
    | none => exact .inr ⟨_, rfl⟩
    | some price => exact .inl ⟨rfl, rfl⟩

theorem perform_course (pool : MagicPool) (s : MagicTradeClient) (c : Call) (now : ℚ) :
    (asksGuard pool c = true ∧
      perform pool s now c = startTrade pool s c.market c.side c.operation now) ∨
    ∃ error, perform pool s now c =
      ({ s with calls := s.calls + 1 }, [.thrown s.calls error]) := by
  cases c with
  | openPosition => exact .inl ⟨rfl, rfl⟩
  | closePosition => exact .inl ⟨rfl, rfl⟩
  | addCollateral => exact .inl ⟨rfl, rfl⟩
  | removeCollateral => exact .inl ⟨rfl, rfl⟩
  | decreasePosition market side closeUsd receiveToken oraclePrice =>
    exact changeSize_eq s market side _ _ oraclePrice now
  | increasePosition market side addUsd addCollateralUsd collateralToken oraclePrice =>
    exact changeSize_eq s market side _ _ oraclePrice now

/-- What a call does: it submits nothing, and if it begins to wait, the guard has
accepted its rate, and its limits exactly if it is an open position. -/
theorem perform_waits {s s' : MagicTradeClient} {c : Call} {now : ℚ} {es : List Event}
    (hs : perform pool s now c = (s', es)) :
    s'.calls = s.calls + 1 ∧ (∀ call trade sig, .submitted call trade sig ∉ es) ∧
      (s'.pending = s.pending ∨
        ∃ trade : Trade, s'.pending = s.pending.set s.calls { trade } ∧
          .rateAccepted ∈ callAnswers pool s now c ∧
          (.limitsAccepted ∈ callAnswers pool s now c ↔
            Operation.isOpen trade.operation = true)) := by
  rcases perform_course pool s c now with ⟨hasks, hstart⟩ | ⟨error, herror⟩
  · rw [hstart] at hs
    unfold startTrade at hs
    dsimp only at hs
    split at hs
    · next s₁ error henter =>
      obtain ⟨rfl, rfl⟩ := Prod.mk.inj hs
      rw [enter_error henter]
      exact ⟨rfl, by simp, .inl rfl⟩
    · next s₁ trade henter =>
      obtain ⟨hoperation, -, hs₁⟩ := enter_ok henter
      obtain ⟨hrate, hlimits⟩ := answers_of_enter henter
      split at hs
      · next s₂ sig hcached =>
        obtain ⟨rfl, rfl⟩ := Prod.mk.inj hs
        obtain ⟨hs₂, -⟩ := cached_state hcached
        rw [hs₂, hs₁]
        exact ⟨rfl, by simp, .inl rfl⟩
      · next s₂ hcached =>
        obtain ⟨rfl, rfl⟩ := Prod.mk.inj hs
        obtain ⟨hs₂, -⟩ := cached_state hcached
        rw [hs₂, hs₁]
        refine ⟨rfl, by simp, .inr ⟨trade, rfl, ?_⟩⟩
        rw [callAnswers, if_pos hasks, hoperation]
        exact ⟨hrate, isOpen_of_limitsAccepted, hlimits⟩
  · rw [herror] at hs
    obtain ⟨rfl, rfl⟩ := Prod.mk.inj hs
    exact ⟨rfl, by simp, .inl rfl⟩

/-! ## The invariant -/

/-- Numbers are not used twice; a trade that waits has had its rate accepted, and its
limits exactly if it is an open position; an order has not had its limits accepted. -/
structure GuardInv (s : Session) (h : List SessionEvent) : Prop where
  accepted : Each AcceptedBefore h
  asked : ∀ call answer, .guard call answer ∈ h → call < s.client.calls
  waiting_lt : ∀ call p, s.client.pending.get? call = some p → call < s.client.calls
  orders_lt : ∀ call o, s.orders.get? call = some o → call < s.client.calls
  waiting : ∀ call p, s.client.pending.get? call = some p → .guard call .rateAccepted ∈ h ∧
    (.guard call .limitsAccepted ∈ h ↔ Operation.isOpen p.trade.operation = true)
  orders : ∀ call o, s.orders.get? call = some o → .guard call .limitsAccepted ∉ h

variable {s s' : Session} {h es : List SessionEvent}

theorem guardInv_init (config : SigningGuardConfig) :
    GuardInv (magicSession pool config).init [] where
  accepted := .nil
  asked _ _ hmem := by cases hmem
  waiting_lt _ _ hp := by cases hp
  orders_lt _ _ ho := by cases ho
  waiting _ _ hp := by cases hp
  orders _ _ ho := by cases ho

/-- A step that starts nothing: the guard is not asked, and no call or order is new. -/
theorem GuardInv.quiet (hI : GuardInv s h) (hcalls : s.client.calls ≤ s'.client.calls)
    (hwaiting : ∀ call p', s'.client.pending.get? call = some p' →
      ∃ p, s.client.pending.get? call = some p ∧ p'.trade = p.trade)
    (horders : ∀ call o', s'.orders.get? call = some o' → ∃ o, s.orders.get? call = some o)
    (hes : ∀ call answer, .guard call answer ∉ es) (haccepted : Each AcceptedBefore (h ++ es)) :
    GuardInv s' (h ++ es) := by
  have hold : ∀ call answer, .guard call answer ∈ h ++ es ↔ .guard call answer ∈ h := by
    intro call answer
    rw [List.mem_append, or_iff_left (hes call answer)]
  refine ⟨haccepted, fun call answer hmem => ?_, fun call p' hp' => ?_, fun call o' ho' => ?_,
    fun call p' hp' => ?_, fun call o' ho' => ?_⟩
  · exact lt_of_lt_of_le (hI.asked call answer ((hold call answer).mp hmem)) hcalls
  · obtain ⟨p, hp, -⟩ := hwaiting call p' hp'
    exact lt_of_lt_of_le (hI.waiting_lt call p hp) hcalls
  · obtain ⟨o, ho⟩ := horders call o' ho'
    exact lt_of_lt_of_le (hI.orders_lt call o ho) hcalls
  · obtain ⟨p, hp, htrade⟩ := hwaiting call p' hp'
    rw [hold, hold, htrade]
    exact hI.waiting call p hp
  · obtain ⟨o, ho⟩ := horders call o' ho'
    rw [hold]
    exact hI.orders call o ho

/-- A call asks the guard, and waits at most. -/
theorem guardInv_call {c : Call} {now : ℚ} (hI : GuardInv s h)
    (hs : s.step pool (.trade (.call c now)) = some (s', es)) : GuardInv s' (h ++ es) := by
  simp only [Session.step, MagicTradeClient.step, Option.map_some] at hs
  obtain ⟨rfl, rfl⟩ := Machine.some_pair hs
  generalize hr : perform pool s.client now c = r
  obtain ⟨hcalls, hnone, hpending⟩ := perform_waits hr
  have hmem : ∀ call answer, .guard call answer ∈ h ++ (s.answers pool (.call c now) ++
      r.2.map .trade) ↔ .guard call answer ∈ h ∨
        (call = s.client.calls ∧ answer ∈ callAnswers pool s.client now c) := by
    intro call answer
    simp [Session.answers, and_comm, eq_comm]
  -- the guard has not been asked for this number before
  have hnew : ∀ answer, .guard s.client.calls answer ∉ h := fun answer hm =>
    absurd (hI.asked _ _ hm) (lt_irrefl _)
  have hold : ∀ call answer, call < s.client.calls →
      (.guard call answer ∈ h ++ (s.answers pool (.call c now) ++ r.2.map .trade) ↔
        .guard call answer ∈ h) := by
    intro call answer hlt
    rw [hmem, or_iff_left]
    exact fun hboth => absurd hboth.1 hlt.ne
  have hwaits : ∀ call p', r.1.pending.get? call = some p' →
      s.client.pending.get? call = some p' ∨ (call = s.client.calls ∧
        .rateAccepted ∈ callAnswers pool s.client now c ∧
        (.limitsAccepted ∈ callAnswers pool s.client now c ↔
          Operation.isOpen p'.trade.operation = true)) := by
    intro call p' hp'
    rcases hpending with hsame | ⟨trade, hset, hrate, hlimits⟩
    · exact .inl (hsame ▸ hp')
    · rw [hset] at hp'
      rcases OrderedMap.get?_set_eq_some.mp hp' with ⟨heq, rfl⟩ | ⟨-, hp⟩
      · exact .inr ⟨heq, hrate, hlimits⟩
      · exact .inl hp
  refine ⟨hI.accepted.append_of_forall fun pre e he => ?_, fun call answer hm => ?_,
    fun call p' hp' => ?_, fun call o ho => ?_, fun call p' hp' => ?_, fun call o ho => ?_⟩
  · -- nothing is submitted
    rcases List.mem_append.mp he with hguard | htrade
    · obtain ⟨answer, -, rfl⟩ := List.mem_map.mp hguard
      trivial
    · obtain ⟨e', he', rfl⟩ := List.mem_map.mp htrade
      cases e' with
      | submitted call trade sig => exact absurd he' (hnone call trade sig)
      | resolved => trivial
      | thrown => trivial
  · rw [hcalls]
    rcases (hmem call answer).mp hm with hm | ⟨rfl, -⟩
    · exact Nat.lt_succ_of_lt (hI.asked call answer hm)
    · exact Nat.lt_succ_self _
  · rw [hcalls]
    rcases hwaits call p' hp' with hp | ⟨rfl, -⟩
    · exact Nat.lt_succ_of_lt (hI.waiting_lt call p' hp)
    · exact Nat.lt_succ_self _
  · rw [hcalls]
    exact Nat.lt_succ_of_lt (hI.orders_lt call o ho)
  · rcases hwaits call p' hp' with hp | ⟨rfl, hrate, hlimits⟩
    · have hlt := hI.waiting_lt call p' hp
      rw [hold _ _ hlt, hold _ _ hlt]
      exact hI.waiting call p' hp
    · rw [hmem, hmem]
      refine ⟨.inr ⟨rfl, hrate⟩, ?_⟩
      rw [or_iff_right (hnew _), and_iff_right rfl]
      exact hlimits
  · rw [hold _ _ (hI.orders_lt call o ho)]
    exact hI.orders call o ho

/-- An order takes a number for which the guard is not asked. -/
theorem guardInv_placeOrder {r : Except MagicError MagicOrder} (hI : GuardInv s h)
    (hs : s.placeOrder r = (s', es)) : GuardInv s' (h ++ es) := by
  unfold Session.placeOrder at hs
  dsimp only at hs
  split at hs
  · obtain ⟨rfl, rfl⟩ := Prod.mk.inj hs
    exact hI.quiet (Nat.le_succ _) (fun _ p hp => ⟨p, hp, rfl⟩) (fun _ o ho => ⟨o, ho⟩)
      (by simp) (hI.accepted.snoc trivial)
  · next order =>
    obtain ⟨rfl, rfl⟩ := Prod.mk.inj hs
    rw [List.append_nil]
    refine ⟨hI.accepted, fun call answer hm => Nat.lt_succ_of_lt (hI.asked call answer hm),
      fun call p hp => Nat.lt_succ_of_lt (hI.waiting_lt call p hp), fun call o ho => ?_,
      hI.waiting, fun call o ho => ?_⟩
    · rcases OrderedMap.get?_set_eq_some.mp ho with ⟨rfl, -⟩ | ⟨-, ho⟩
      · exact Nat.lt_succ_self _
      · exact Nat.lt_succ_of_lt (hI.orders_lt call o ho)
    · rcases OrderedMap.get?_set_eq_some.mp ho with ⟨rfl, -⟩ | ⟨-, ho⟩
      · exact fun hm => absurd (hI.asked _ _ hm) (lt_irrefl _)
      · exact hI.orders call o ho

/-- What a submission of the client does. -/
theorem submit_cases {call : ℕ} {sig : String}
    (hs : s.step pool (.trade (.submit call sig)) = some (s', es)) :
    ∃ p, s.client.pending.get? call = some p ∧ es = [.trade (.submitted call p.trade sig)] ∧
      s' = { s with client := { s.client with
        pending := s.client.pending.set call { p with signatures := p.signatures ++ [sig] } } } := by
  obtain ⟨r, hr, hs⟩ := Option.map_eq_some_iff.mp hs
  simp only [MagicTradeClient.step, MagicTradeClient.submit] at hr
  split at hr
  · cases hr
  · next p hp =>
    split at hr
    · cases hr
    · obtain rfl := Option.some.inj hr
      obtain ⟨rfl, rfl⟩ := Prod.mk.inj hs
      exact ⟨p, hp, rfl, rfl⟩

theorem guardInv_submit {call : ℕ} {sig : String} (hI : GuardInv s h)
    (hC : OnlyOpens s h (.trade (.submit call sig)))
    (hs : s.step pool (.trade (.submit call sig)) = some (s', es)) : GuardInv s' (h ++ es) := by
  obtain ⟨p, hp, rfl, rfl⟩ := submit_cases hs
  obtain ⟨hrate, hlimits⟩ := hI.waiting call p hp
  refine hI.quiet le_rfl (fun call' p' hp' => ?_) (fun _ o ho => ⟨o, ho⟩) (by simp)
    (hI.accepted.snoc fun hraises => ⟨hlimits.mpr (hC p hp hraises), hrate⟩)
  -- the call stays what it is
  rcases OrderedMap.get?_set_eq_some.mp hp' with ⟨rfl, rfl⟩ | ⟨-, hp'⟩
  · exact ⟨p, hp, rfl⟩
  · exact ⟨p', hp', rfl⟩

theorem guardInv_finish {call : ℕ} {now : ℚ} (hI : GuardInv s h)
    (hs : s.step pool (.trade (.finish call now)) = some (s', es)) : GuardInv s' (h ++ es) := by
  obtain ⟨r, hr, hs⟩ := Option.map_eq_some_iff.mp hs
  obtain ⟨s₁, es₁⟩ := r
  obtain ⟨rfl, rfl⟩ := Prod.mk.inj hs
  obtain ⟨p, sig, hp, -, rfl, hpending, -, hcalls, -⟩ := finish_cases hr
  refine hI.quiet hcalls.ge (fun call' p' hp' => ⟨p', ?_, rfl⟩) (fun _ o ho => ⟨o, ho⟩)
    (by simp [Session.answers]) (hI.accepted.snoc trivial)
  change s₁.pending.get? call' = some p' at hp'
  rw [hpending] at hp'
  exact (OrderedMap.get?_delete_eq_some.mp hp').2

theorem guardInv_fail {call : ℕ} {message : String} (hI : GuardInv s h)
    (hs : s.step pool (.trade (.fail call message)) = some (s', es)) : GuardInv s' (h ++ es) := by
  obtain ⟨r, hr, hs⟩ := Option.map_eq_some_iff.mp hs
  obtain ⟨p, hp, rfl⟩ := Option.map_eq_some_iff.mp hr
  obtain ⟨rfl, rfl⟩ := Prod.mk.inj hs
  exact hI.quiet le_rfl
    (fun _ p' hp' => ⟨p', (OrderedMap.get?_delete_eq_some.mp hp').2, rfl⟩)
    (fun _ o ho => ⟨o, ho⟩) (by simp [Session.answers]) (hI.accepted.snoc trivial)

/-- What the submission of an order does. -/
theorem submitOrder_cases {call : ℕ} {sig : String}
    (hs : s.step pool (.submitOrder call sig) = some (s', es)) :
    ∃ o, s.orders.get? call = some o ∧ es = [.orderSubmitted call o.order sig] ∧
      s' = { s with
        orders := s.orders.set call { o with signatures := o.signatures ++ [sig] } } := by
  obtain ⟨o, ho, hs⟩ := Option.bind_eq_some_iff.mp hs
  split at hs
  · cases hs
  · obtain ⟨rfl, rfl⟩ := Machine.some_pair hs
    exact ⟨o, ho, rfl, rfl⟩

theorem guardInv_submitOrder {call : ℕ} {sig : String} (hI : GuardInv s h)
    (hC : OnlyOpens s h (.submitOrder call sig))
    (hs : s.step pool (.submitOrder call sig) = some (s', es)) : GuardInv s' (h ++ es) := by
  obtain ⟨o, ho, rfl, rfl⟩ := submitOrder_cases hs
  have hlower := hC o ho
  refine hI.quiet le_rfl (fun _ p hp => ⟨p, hp, rfl⟩) (fun call' o' ho' => ?_) (by simp)
    (hI.accepted.snoc fun hraises => absurd hraises (by simp [hlower]))
  rcases OrderedMap.get?_set_eq_some.mp ho' with ⟨rfl, -⟩ | ⟨-, ho'⟩
  · exact ⟨o, ho⟩
  · exact ⟨o', ho'⟩

/-- An order that is placed or fails is waited for no longer. -/
theorem guardInv_orderEnded {call : ℕ} {e : SessionEvent} (hI : GuardInv s h)
    (he : ∀ pre, AcceptedBefore pre e) (hguard : ∀ call answer, e ≠ .guard call answer) :
    GuardInv { s with orders := s.orders.delete call } (h ++ [e]) :=
  hI.quiet le_rfl (fun _ p hp => ⟨p, hp, rfl⟩)
    (fun _ o ho => ⟨o, (OrderedMap.get?_delete_eq_some.mp ho).2⟩)
    (fun call answer hmem => hguard call answer (List.mem_singleton.mp hmem).symm)
    (hI.accepted.snoc (he h))

/-! ## Steps and runs -/

theorem guardInv_step {a : SessionAction} (hI : GuardInv s h) (hC : OnlyOpens s h a)
    (hs : s.step pool a = some (s', es)) : GuardInv s' (h ++ es) := by
  cases a with
  | trade a =>
    cases a with
    | call c now => exact guardInv_call hI hs
    | submit call sig => exact guardInv_submit hI hC hs
    | finish call now => exact guardInv_finish hI hs
    | fail call message => exact guardInv_fail hI hs
  | placeLimit => exact guardInv_placeOrder hI (Option.some.inj hs)
  | placeTrigger => exact guardInv_placeOrder hI (Option.some.inj hs)
  | submitOrder call sig => exact guardInv_submitOrder hI hC hs
  | finishOrder call =>
    obtain ⟨o, ho, hs⟩ := Option.bind_eq_some_iff.mp hs
    obtain ⟨sig, -, hs⟩ := Option.map_eq_some_iff.mp hs
    obtain ⟨rfl, rfl⟩ := Prod.mk.inj hs
    exact guardInv_orderEnded hI (fun _ => trivial) (by simp)
  | failOrder call message =>
    obtain ⟨o, ho, hs⟩ := Option.map_eq_some_iff.mp hs
    obtain ⟨rfl, rfl⟩ := Prod.mk.inj hs
    exact guardInv_orderEnded hI (fun _ => trivial) (by simp)

/-- A step that does not meet the condition submits a transaction whose limits the
guard was not asked about. -/
theorem not_acceptedBefore_step {a : SessionAction} (hI : GuardInv s h) (hC : ¬ OnlyOpens s h a)
    (hs : s.step pool a = some (s', es)) : ¬ Each AcceptedBefore (h ++ es) := by
  unfold OnlyOpens at hC
  split at hC
  · next call sig =>
    obtain ⟨p, hp, rfl, -⟩ := submit_cases hs
    push Not at hC
    obtain ⟨p', hp', hraises, hnot⟩ := hC
    obtain rfl := Option.some.inj (hp.symm.trans hp')
    intro hall
    have haccepted : AcceptedBefore h (.trade (.submitted call p.trade sig)) :=
      hall.of_split rfl
    exact hnot ((hI.waiting call p hp).2.mp (haccepted hraises).1)
  · next call sig =>
    obtain ⟨o, ho, rfl, -⟩ := submitOrder_cases hs
    push Not at hC
    obtain ⟨o', ho', hraises⟩ := hC
    obtain rfl := Option.some.inj (ho.symm.trans ho')
    intro hall
    have haccepted : AcceptedBefore h (.orderSubmitted call o.order sig) := hall.of_split rfl
    exact hI.orders call o ho (haccepted (by simpa using hraises)).1
  · exact absurd trivial hC

/-- **When exposure is raised behind the guard only.** Along any run, every submitted
transaction that raises exposure comes after the guard's acceptance of the limits
and the rate, if and only if no increase of a size, no added collateral and no
limit order submits one. -/
theorem acceptedBefore_iff (pool : MagicPool) (config : SigningGuardConfig)
    (as : List SessionAction) :
    (magicSession pool config).Always (fun _ h => Each AcceptedBefore h)
        (magicSession pool config).init [] as ↔
      (magicSession pool config).Along OnlyOpens (magicSession pool config).init [] as :=
  Machine.always_iff_along (M := magicSession pool config) (I := GuardInv)
    (fun hI => hI.accepted) (fun hI hC hs => guardInv_step hI hC hs)
    (fun hI hC hs => not_acceptedBefore_step hI hC hs) (guardInv_init config) as

/-- A limit order of a million dollars is submitted, with caps of a hundred dollars
and two times leverage, and the guard is not asked at all. -/
theorem not_acceptedBefore :
    ¬ ∀ (pool : MagicPool) (config : SigningGuardConfig) (s : Session) (h : List SessionEvent),
      (magicSession pool config).Reachable s h → Each AcceptedBefore h := by
  intro hall
  let config : SigningGuardConfig :=
    { maxCollateralPerTrade := 100, maxPositionSize := 100, maxLeverage := 2 }
  let order : MagicOrder :=
    .placeLimit "SOL" "SOL" .Long 100 10000 100 none none "SOL"
  let as : List SessionAction :=
    [.placeLimit "SOL" .Long 100 10000 100 none none (some "SOL"), .submitOrder 0 "sig"]
  have hrun : ((magicSession solPool config).run as).map Prod.snd =
      some [.orderSubmitted 0 order "sig"] := by
    decide +kernel
  obtain ⟨⟨s, h⟩, hs, hh⟩ := Option.map_eq_some_iff.mp hrun
  obtain rfl : h = [.orderSubmitted 0 order "sig"] := hh
  have haccepted := hall solPool config s _ (Machine.reachable_of_run hs) [] _ [] rfl
  have hmem := (haccepted rfl).1
  cases hmem

end MagicTradeClient

end FlashEdge
