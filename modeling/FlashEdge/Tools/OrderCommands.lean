import FlashEdge.Ai.ParserOutcomes
import FlashEdge.Tools.TradeTools

/-!
# Cancelling and editing limit orders (`ai/interpreter.ts`, `tools/order-tools.ts`)

Limit orders are numbered by market and side, so that several can have one number. A command may
give the number alone. Then the tool that cancels takes the first order with that number, and
an edit is parsed as one of a SOL long.

- `orderIntent_localParse`: what such a command is parsed as.
- `clientCall`, `settled`: the call that it leads to, and the orders behind it.
- `actsOnce_cancel`, `actsOnce_edit`: when the call is about the only order with the number.
- `actsOnce_iff`: when a command acts on the only order with its number, or on none.
-/

namespace FlashEdge

namespace OrderCommands

open Interpreter Pattern TradeTools

/-! ## The commands -/

/-- The expression for "edit limit 0 price $85"; a market and a side may stand before the price. -/
def editLimit : Pattern :=
  whole [lit "edit", spaces, lit "limit", spaces, optional (seq (lit "order") spaces),
    optional (lit "#"), group 1 digits, spaces,
    optional (seqs [group 2 letters, spaces, group 3 longOrShort, spaces]),
    optional (seq (lit "price") spaces), dollar, group 4 (many1 fun c => c.isDigit || c = '.')]

/-- The text that the expressions see. -/
def commandText (data : ParserData) (input : List Char) : List Char :=
  lowerCase (normalize data input)

/-- An edit that gives neither a market nor a side. -/
def Unaddressed (data : ParserData) (input : List Char) : Prop :=
  ∀ m, editLimit.exec (commandText data input) = some m → m.group? 2 = none ∧ m.group? 3 = none

/-- The intent of a cancel. -/
def cancelIntent (digits : List Char) : ParsedIntent :=
  { action := .CancelOrder, orderId := some (.inr digits) }

/-- The intent of an edit without a market and a side. -/
def editIntent (orderId limitPrice : SdkNumber) : ParsedIntent :=
  { action := .EditLimitOrder, orderId := some (.inl orderId), market := some "SOL".toList,
    side := some .Long, limitPrice := some limitPrice }

/-- What an intent for a limit order is. -/
def IsOrderIntent (data : ParserData) (input : List Char) (intent : ParsedIntent) : Prop :=
  (intent.action = .CancelOrder → ∃ digits, intent = cancelIntent digits) ∧
    (intent.action = .EditLimitOrder → Unaddressed data input →
      ∃ orderId limitPrice, intent = editIntent orderId limitPrice)

theorem action_parseLimitOrder (data : ParserData) (input : List Char) :
    Yields (fun intent => intent.action = .LimitOrder) (parseLimitOrder data input) := by
  unfold parseLimitOrder
  dsimp only
  refine .ite (fun _ => .none) fun _ => .bind fun priceMatch _ => .bind fun sideMatch _ =>
    .bind fun side _ => .bind fun levMatch _ => .bind fun colMatch _ => ?_
  exact .ite (fun _ => .none) fun _ => .ite (fun _ => .none) fun _ => .some rfl

theorem orderIntent_limitCommands (data : ParserData) (input : List Char) :
    Yields (IsOrderIntent data input) (limitCommands data (commandText data input)) := by
  have hother : ∀ {intent : ParsedIntent}, intent.action ≠ .CancelOrder →
      intent.action ≠ .EditLimitOrder → IsOrderIntent data input intent :=
    fun hcancel hedit => ⟨fun h => absurd h hcancel, fun h => absurd h hedit⟩
  unfold limitCommands
  refine .cons (.ite (fun _ => .cons ((action_parseLimitOrder data _).mono fun _ h =>
    hother (by rw [h]; decide) (by rw [h]; decide)) (.cons (.some (hother (by decide) (by decide)))
      .nil)) fun _ => .none) ?_
  refine .cons (.onMatch fun m hm => ?_) (.cons (.onMatch fun m _ => .some ?_) .nil)
  · dsimp only
    split
    · refine .some ⟨fun h => (by cases h), fun _ hplain => ?_⟩
      obtain ⟨hmarket, hside⟩ := hplain m hm
      refine ⟨parseInt (m.group 1), parseFloat (m.group 4), ?_⟩
      rw [hmarket, hside]
      rfl
    · exact .none
  · exact ⟨fun _ => ⟨m.group 1, rfl⟩, fun h => (by cases h)⟩

/-- The other groups have other actions. -/
theorem orderIntent_of_shaped {data : ParserData} {input : List Char} {g : CommandGroup}
    {o : Option ParsedIntent} (hg : g ≠ .limit) (h : Yields (Shaped g) o) :
    Yields (IsOrderIntent data input) o := by
  refine h.mono fun intent hi => ?_
  have hnot : ∀ a : ActionType, a.group = .limit → intent.action ≠ a := by
    rintro a ha rfl
    rcases hi.group with hhelp | hgroup
    · rw [hhelp] at ha
      cases ha
    · exact hg (hgroup.symm.trans ha)
  exact ⟨fun h => absurd h (hnot _ rfl), fun h => absurd h (hnot _ rfl)⟩

/-- **What a command for a limit order is parsed as.** -/
theorem orderIntent_localParse (data : ParserData) (input : List Char) :
    Yields (IsOrderIntent data input) (localParse data input) := by
  unfold localParse
  refine .cons (orderIntent_of_shaped (g := .help) (by decide)
    (.test (.plain rfl rfl rfl rfl) _)) ?_
  refine .cons (orderIntent_of_shaped (by decide) (shaped_wallet _ _)) ?_
  refine .cons (orderIntent_of_shaped (by decide) (shaped_data _ _)) ?_
  refine .cons (orderIntent_of_shaped (by decide) (shaped_open _ _)) ?_
  refine .cons (orderIntent_of_shaped (by decide) (shaped_trigger _ _)) ?_
  refine .cons (orderIntent_limitCommands data input) ?_
  refine .cons (orderIntent_of_shaped (by decide) (shaped_close _ _)) ?_
  refine .cons (orderIntent_of_shaped (by decide) (shaped_collateral _ _)) ?_
  refine .cons (orderIntent_of_shaped (by decide) (shaped_agent _ _)) ?_
  refine .cons (orderIntent_of_shaped (by decide) (shaped_swap _ _)) ?_
  refine .cons (orderIntent_of_shaped (by decide) (shaped_faf _)) ?_
  exact .cons (orderIntent_of_shaped (by decide) (shaped_earn _ _)) .nil

/-! ## The call of a command -/

/-- A limit order that is open, with its price. -/
structure LimitOrder extends OnChainOrder where
  limitPrice : ℚ
deriving DecidableEq

/-- A number that is a whole one, as the schema of the tool wants it. -/
def wholeNumber : SdkNumber → Option ℕ
  | .finite n => if n.toRat.den = 1 ∧ 0 ≤ n.toRat then some n.toRat.num.toNat else none
  | _ => none

def rational : SdkNumber → Option ℚ
  | .finite n => some n.toRat
  | _ => none

/-- The tool of an intent, with its parameters (`tools/engine.ts`). -/
def orderTool (intent : ParsedIntent) : Option OrderTool :=
  match intent.action, intent.orderId with
  | .CancelOrder, some (.inr digits) =>
    some (.limitOrderCancelTool (String.ofList digits) (intent.market.map String.ofList)
      intent.side)
  | .EditLimitOrder, some (.inl n) =>
    match wholeNumber n, intent.market, intent.side with
    | some orderId, some market, some side =>
      some (.limitOrderEditTool orderId (String.ofList market) side
        (intent.limitPrice.bind rational))
    | _, _, _ => none
  | _, _ => none

/-- The call of the client, if there is one. -/
def clientCall (context : ToolContext) (orders : List LimitOrder) (intent : ParsedIntent) :
    Option ClientCall :=
  (orderTool intent).bind fun tool =>
    (directCall context (.ok (orders.map LimitOrder.toOnChainOrder)) tool).toOption

/-- The market, the side and the number that a call gives. -/
def target : ClientCall → Option (String × TradeSide × ℕ)
  | .cancelLimitOrder market side orderId => some (market, side, orderId)
  | .editLimitOrder market side orderId _ => some (market, side, orderId)
  | _ => none

def LimitOrder.key (o : LimitOrder) : String × TradeSide × ℕ := (o.market, o.side, o.orderId)

/-- The orders that a command acts on. -/
def touched (orders : List LimitOrder) (call : Option ClientCall) : List LimitOrder :=
  orders.filter fun o => call.bind target = some o.key

/-- The orders when the transaction of a call has landed. -/
def settled (orders : List LimitOrder) : Option ClientCall → List LimitOrder
  | some (.cancelLimitOrder market side orderId) =>
    orders.filter fun o => o.key ≠ (market, side, orderId)
  | some (.editLimitOrder market side orderId limitPrice) =>
    orders.map fun o => if o.key = (market, side, orderId) then { o with limitPrice } else o
  | _ => orders

/-- The number that a command gives. -/
def commandId (intent : ParsedIntent) : Option ℕ :=
  match intent.orderId with
  | some (.inr digits) => parseOrderId (String.ofList digits)
  | some (.inl n) => wholeNumber n
  | none => none

/-- The open orders with a number. -/
def withId (orders : List LimitOrder) (id : ℕ) : List LimitOrder :=
  orders.filter fun o => o.orderId = id

/-- A command acts on orders with its number alone, and only if there is exactly one; otherwise
no order is changed. -/
structure ActsOnce (orders : List LimitOrder) (call : Option ClientCall) (id : ℕ) : Prop where
  matching : ∀ o ∈ touched orders call, o.orderId = id
  single : touched orders call ≠ [] → (withId orders id).length = 1
  unchanged : touched orders call = [] → settled orders call = orders

/-- The client is there to cancel an order. -/
def ToolContext.cancels (context : ToolContext) : Prop :=
  ¬ context.simulationMode ∧ context.client.cancelLimitOrder ∧ context.client.getUserOrders

/-- The client is there to edit an order, and there is a price. -/
def ToolContext.edits (context : ToolContext) (intent : ParsedIntent) : Prop :=
  ¬ context.simulationMode ∧ context.client.editLimitOrder ∧
    ∃ price ≠ 0, intent.limitPrice.bind rational = some price

/-- Cancels: the number is that of one order at most. Edits: if it is that of a SOL long, it is
that of no other order. -/
def Unambiguous (context : ToolContext) (orders : List LimitOrder) (intent : ParsedIntent)
    (id : ℕ) : Prop :=
  (intent.action = .CancelOrder → ToolContext.cancels context → (withId orders id).length ≤ 1) ∧
    (intent.action = .EditLimitOrder → ToolContext.edits context intent →
      ∀ o ∈ withId orders id, o.market = "SOL" → o.side = .Long → withId orders id = [o])

variable {context : ToolContext} {orders : List LimitOrder} {id : ℕ} {call : ClientCall}
  {key : String × TradeSide × ℕ}

/-- What is not touched stays. -/
theorem settled_of_untouched (h : touched orders (some call) = []) :
    settled orders (some call) = orders := by
  have hnone : ∀ o ∈ orders, target call ≠ some o.key := by
    intro o ho hkey
    exact List.filter_eq_nil_iff.mp h o ho (decide_eq_true hkey)
  cases call with
  | cancelLimitOrder market side orderId =>
    refine List.filter_eq_self.mpr fun o ho => decide_eq_true fun hkey => ?_
    exact hnone o ho (congrArg some hkey.symm)
  | editLimitOrder market side orderId limitPrice =>
    refine (List.map_congr_left fun o ho => if_neg fun hkey => ?_).trans (List.map_id _)
    exact hnone o ho (congrArg some hkey.symm)
  | _ => rfl

theorem actsOnce_none : ActsOnce orders none id where
  matching o ho := by
    have hnone := (List.mem_filter.mp ho).2
    simp at hnone
  single h := by
    refine absurd (List.filter_eq_nil_iff.mpr fun o _ => ?_) h
    simp
  unchanged _ := rfl

theorem mem_touched {o : LimitOrder} (hkey : target call = some key) :
    o ∈ touched orders (some call) ↔ o ∈ orders ∧ o.key = key := by
  unfold touched
  rw [List.mem_filter, decide_eq_true_eq, Option.bind_some, hkey, Option.some_inj, eq_comm]

/-- A call with the number acts once exactly if there is one order with the number, or if the
call touches none. -/
theorem actsOnce_some (hkey : target call = some key) (hid : key.2.2 = id) :
    ActsOnce orders (some call) id ↔
      ∀ o ∈ orders, o.key = key → (withId orders id).length = 1 := by
  constructor
  · intro hacts o ho hsame
    exact hacts.single (List.ne_nil_of_mem ((mem_touched hkey).mpr ⟨ho, hsame⟩))
  · intro hsingle
    refine ⟨fun o ho => ?_, fun hne => ?_, settled_of_untouched⟩
    · obtain ⟨_, hsame⟩ := (mem_touched hkey).mp ho
      rw [← hid, ← hsame]
      rfl
    · obtain ⟨o, ho⟩ := List.exists_mem_of_ne_nil _ hne
      obtain ⟨ho, hsame⟩ := (mem_touched hkey).mp ho
      exact hsingle o ho hsame

theorem mem_withId {o : LimitOrder} : o ∈ withId orders id ↔ o ∈ orders ∧ o.orderId = id := by
  unfold withId
  rw [List.mem_filter, decide_eq_true_eq]

/-! ## Cancels -/

/-- A cancel goes to the first order with the number. -/
theorem clientCall_cancel {digits : List Char} (hlive : ToolContext.cancels context)
    (hid : parseOrderId (String.ofList digits) = some id) :
    clientCall context orders (cancelIntent digits) =
      (orders.find? fun o => o.orderId = id).map fun o => .cancelLimitOrder o.market o.side id := by
  obtain ⟨hmode, hclient⟩ := hlive
  have hcall : clientCall context orders (cancelIntent digits) =
      (cancelTarget (.ok (orders.map LimitOrder.toOnChainOrder)) (String.ofList digits) none
        none).toOption := by
    unfold clientCall
    show (directCall context _ (.limitOrderCancelTool _ none none)).toOption = _
    dsimp only [directCall]
    rw [if_neg hmode, if_neg (not_not.mpr hclient)]
  have hfind : (orders.map LimitOrder.toOnChainOrder).find? (fun o => o.orderId = id) =
      (orders.find? fun o => o.orderId = id).map LimitOrder.toOnChainOrder := List.find?_map ..
  rw [hcall]
  unfold cancelTarget
  rw [hid]
  dsimp only [Option.filter_none]
  rw [hfind]
  cases orders.find? fun o => o.orderId = id with
  | none => rfl
  | some o => rfl

/-- A client that is not there for it cancels nothing. -/
theorem clientCall_cancel_none {digits : List Char} (hlive : ¬ ToolContext.cancels context) :
    clientCall context orders (cancelIntent digits) = none := by
  unfold clientCall
  show (directCall context _ (.limitOrderCancelTool _ none none)).toOption = _
  dsimp only [directCall]
  by_cases hmode : context.simulationMode
  · rw [if_pos hmode]
    rfl
  · rw [if_neg hmode, if_pos fun hclient => hlive ⟨hmode, hclient⟩]
    rfl

theorem actsOnce_cancel {digits : List Char}
    (hid : parseOrderId (String.ofList digits) = some id) :
    ActsOnce orders (clientCall context orders (cancelIntent digits)) id ↔
      (ToolContext.cancels context → (withId orders id).length ≤ 1) := by
  by_cases hlive : ToolContext.cancels context
  · rw [clientCall_cancel hlive hid]
    cases hfind : orders.find? fun o => o.orderId = id with
    | none =>
      have hnone : withId orders id = [] := List.filter_eq_nil_iff.mpr (List.find?_eq_none.mp hfind)
      refine iff_of_true actsOnce_none fun _ => ?_
      rw [hnone]
      exact Nat.zero_le 1
    | some o =>
      have ho := List.mem_of_find?_eq_some hfind
      have hoid : o.orderId = id := of_decide_eq_true
        (@List.find?_some _ (fun o : LimitOrder => o.orderId = id) _ _ hfind)
      rw [Option.map_some, @actsOnce_some _ _ _ (o.market, o.side, id) rfl rfl]
      constructor
      · intro hsingle _
        exact (hsingle o ho (by rw [LimitOrder.key, hoid])).le
      · intro hle _ _ _
        exact le_antisymm (hle hlive) (List.length_pos_of_mem (mem_withId.mpr ⟨ho, hoid⟩))
  · rw [clientCall_cancel_none hlive]
    exact iff_of_true actsOnce_none fun h => absurd h hlive

/-! ## Edits -/

/-- The tool of an edit, and what it finds. -/
theorem clientCall_edit {n limitPrice : SdkNumber} (hid : wholeNumber n = some id) :
    clientCall context orders (editIntent n limitPrice) =
      (directCall context (.ok (orders.map LimitOrder.toOnChainOrder))
        (.limitOrderEditTool id "SOL" .Long (rational limitPrice))).toOption := by
  have htool : orderTool (editIntent n limitPrice) =
      some (.limitOrderEditTool id "SOL" .Long (rational limitPrice)) := by
    unfold orderTool editIntent
    dsimp only
    rw [hid]
    rfl
  unfold clientCall
  rw [htool, Option.bind_some]

/-- An edit goes to the SOL long with the number. -/
theorem clientCall_edit_some {n limitPrice : SdkNumber} (hid : wholeNumber n = some id)
    (hlive : ToolContext.edits context (editIntent n limitPrice)) :
    ∃ price, clientCall context orders (editIntent n limitPrice) =
      some (.editLimitOrder "SOL" .Long id price) := by
  obtain ⟨hmode, hclient, price, hne, hprice⟩ := hlive
  have hprice : rational limitPrice = some price := hprice
  have hfilter : (some price).filter (· ≠ 0) = some price := by simpa using hne
  refine ⟨price, ?_⟩
  rw [clientCall_edit hid, hprice]
  dsimp only [directCall]
  rw [if_neg hmode, hfilter]
  dsimp only
  rw [if_neg (not_not.mpr hclient)]
  rfl

/-- In simulation mode, without a price or with a client that cannot nothing is edited. -/
theorem clientCall_edit_none {n limitPrice : SdkNumber} (hid : wholeNumber n = some id)
    (hlive : ¬ ToolContext.edits context (editIntent n limitPrice)) :
    clientCall context orders (editIntent n limitPrice) = none := by
  rw [clientCall_edit hid]
  dsimp only [directCall]
  by_cases hmode : context.simulationMode
  · rw [if_pos hmode]
    rfl
  rw [if_neg hmode]
  cases hprice : (rational limitPrice).filter (· ≠ 0) with
  | none => rfl
  | some price =>
    obtain ⟨hprice, hne⟩ := Option.filter_eq_some_iff.mp hprice
    dsimp only
    refine (congrArg Except.toOption (if_pos fun hclient => hlive ?_)).trans rfl
    exact ⟨hmode, hclient, price, of_decide_eq_true hne, hprice⟩

theorem actsOnce_edit {n limitPrice : SdkNumber} (hid : wholeNumber n = some id) :
    ActsOnce orders (clientCall context orders (editIntent n limitPrice)) id ↔
      (ToolContext.edits context (editIntent n limitPrice) →
        ∀ o ∈ withId orders id, o.market = "SOL" → o.side = .Long → withId orders id = [o]) := by
  by_cases hlive : ToolContext.edits context (editIntent n limitPrice)
  · obtain ⟨price, hcall⟩ := @clientCall_edit_some context orders _ _ _ hid hlive
    rw [hcall, @actsOnce_some _ _ _ ("SOL", .Long, id) rfl rfl]
    constructor
    · intro hsingle _ o ho hmarket hside
      obtain ⟨ho', hoid⟩ := mem_withId.mp ho
      obtain ⟨o', honly⟩ := List.length_eq_one_iff.mp
        (hsingle o ho' (by rw [LimitOrder.key, hmarket, hside, hoid]))
      rw [honly, List.mem_singleton] at ho
      rw [honly, ho]
    · intro honly o ho hkey
      obtain ⟨hmarket, hside, hoid⟩ : o.market = "SOL" ∧ o.side = .Long ∧ o.orderId = id := by
        simpa [LimitOrder.key] using hkey
      rw [honly hlive o (mem_withId.mpr ⟨ho, hoid⟩) hmarket hside, List.length_singleton]
  · rw [clientCall_edit_none hid hlive]
    exact iff_of_true actsOnce_none fun h => absurd h hlive

/-! ## Both -/

/-- **A command acts on the only order with its number, or on none, exactly if it is a cancel and
no two orders have the number, or an edit, and if the number is that of a SOL long it is that of
no other order.** -/
theorem actsOnce_iff (data : ParserData) (context : ToolContext) (orders : List LimitOrder)
    (input : List Char) (intent : ParsedIntent) (id : ℕ)
    (hparse : localParse data input = some intent)
    (haction : intent.action = .CancelOrder ∨ intent.action = .EditLimitOrder)
    (hplain : Unaddressed data input) (hid : commandId intent = some id) :
    ActsOnce orders (clientCall context orders intent) id ↔
      Unambiguous context orders intent id := by
  obtain ⟨hcancel, hedit⟩ := orderIntent_localParse data input intent hparse
  rcases haction with haction | haction
  · obtain ⟨digits, rfl⟩ := hcancel haction
    rw [actsOnce_cancel hid]
    exact ⟨fun h => ⟨fun _ => h, fun hother => (by cases hother)⟩, fun h => h.1 haction⟩
  · obtain ⟨orderId, limitPrice, rfl⟩ := hedit haction hplain
    rw [actsOnce_edit hid]
    exact ⟨fun h => ⟨fun hother => (by cases hother), fun _ => h⟩, fun h => h.2 haction⟩

/-- One market of one pool; the user has defined nothing. -/
def solMarket : ParserData where
  markets := ["SOL".toList]
  registered := ["SOL".toList]
  pools := ["Crypto.1".toList]
  market_name := by decide
  pool_name := isName_crypto
  shortcut := isShortcut_nil

def openOrder (orderId : ℕ) (market : String) (side : TradeSide) : LimitOrder :=
  { orderId, market, side, collateral := 100, leverage := (2 : ℕ), limitPrice := 80 }

/-- No edit, so none that gives a market. -/
theorem unaddressed_of_exec {data : ParserData} {input : List Char}
    (h : editLimit.exec (commandText data input) = none) : Unaddressed data input := by
  intro m hm
  rw [h] at hm
  cases hm

theorem actsOnce_cancelThree :
    ActsOnce [openOrder 3 "SOL" .Long, openOrder 1 "SOL" .Short]
      (clientCall {} [openOrder 3 "SOL" .Long, openOrder 1 "SOL" .Short]
        (cancelIntent "3".toList)) 3 := by
  have hread : localParse solMarket "cancel order 3".toList = some (cancelIntent "3".toList) ∧
      editLimit.exec (commandText solMarket "cancel order 3".toList) = none ∧
      commandId (cancelIntent "3".toList) = some 3 := by
    decide +kernel
  exact (actsOnce_iff solMarket {} _ "cancel order 3".toList (cancelIntent "3".toList) 3
    hread.1 (.inl rfl) (unaddressed_of_exec hread.2.1) hread.2.2).mpr
    ⟨fun _ _ => by decide, fun h => by cases h⟩

/-- Of two orders with one number the first is cancelled, and the SOL long is edited. -/
theorem not_actsOnce_twice :
    ¬ ∀ (orders : List LimitOrder) (input : List Char) (intent : ParsedIntent) (id : ℕ),
      localParse solMarket input = some intent → Unaddressed solMarket input →
        commandId intent = some id → ActsOnce orders (clientCall {} orders intent) id := by
  intro hall
  have hread : localParse solMarket "cancel order 0".toList = some (cancelIntent "0".toList) ∧
      editLimit.exec (commandText solMarket "cancel order 0".toList) = none ∧
      parseOrderId (String.ofList "0".toList) = some 0 := by
    decide +kernel
  have hacts := hall [openOrder 0 "SOL" .Short, openOrder 0 "SOL" .Long] "cancel order 0".toList
    (cancelIntent "0".toList) 0 hread.1 (unaddressed_of_exec hread.2.1) hread.2.2
  have hmany := (actsOnce_cancel hread.2.2).mp hacts ⟨by decide, rfl, rfl⟩
  exact absurd hmany (by decide)

end OrderCommands

end FlashEdge
