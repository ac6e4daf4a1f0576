import FlashEdge.Ai.OfflineInterpreter
import FlashEdge.Ai.ParserOutcomes
import FlashEdge.Theory.Regex

/-!
# Follow-ups

The intents that a follow-up can resolve to, and which texts resolve: the expressions of the
follow-ups exclude each other by what they begin and end with.
-/

namespace FlashEdge

open Interpreter Pattern

namespace OfflineInterpreter

/-- What a follow-up resolves to. -/
inductive FollowUp (ctx : CommandContext) (lower : List Char) : ParsedIntent → Prop where
  | closed {market : List Char} {side : TradeSide} (text : closeIt.test lower = true)
      (hmarket : CommandContext.market ctx = some market) (hside : ctx.lastSide = some side) :
      FollowUp ctx lower { action := .ClosePosition, market := some market, side := some side }
  | increased {market : List Char} {side : TradeSide} {collateral : SdkNumber} {m : Match}
      (text : increaseTo.exec lower = some m)
      (hmarket : CommandContext.market ctx = some market) (hside : ctx.lastSide = some side)
      (hcollateral : ctx.lastCollateral = some collateral) (truthy : collateral.truthy = true)
      (more : ((parseFloat (m.group 1)).sub collateral).positive = true) :
      FollowUp ctx lower { action := .AddCollateral, market := some market, side := some side,
                           amount := some ((parseFloat (m.group 1)).sub collateral) }
  | added {market : List Char} {side : TradeSide} {m : Match} (text : addMore.exec lower = some m)
      (hmarket : CommandContext.market ctx = some market) (hside : ctx.lastSide = some side) :
      FollowUp ctx lower { action := .AddCollateral, market := some market, side := some side,
                           amount := some (parseFloat (m.group 1)) }
  | analyzed {market : List Char} (text : analyzeIt.test lower = true)
      (hmarket : CommandContext.market ctx = some market) :
      FollowUp ctx lower { action := .Analyze, market := some market }

theorem market_ne_nil {ctx : CommandContext} {market : List Char}
    (h : CommandContext.market ctx = some market) : market ≠ [] := by
  obtain ⟨-, hne⟩ := Option.filter_eq_some_iff.mp h
  simpa using hne

/-- The context is still fresh. -/
def InTime (ctx : CommandContext) (request : Request) : Prop :=
  request.now - ctx.updatedAt ≤ CONTEXT_TTL_MS

theorem firstOf_eq_some {os : List (Option ParsedIntent)} {intent : ParsedIntent}
    (h : firstOf os = some intent) : some intent ∈ os := by
  induction os with
  | nil => cases h
  | cons o os ih =>
    cases o with
    | none => exact List.mem_cons_of_mem _ (ih h)
    | some i => exact h ▸ List.mem_cons_self

theorem followUp_of_tryContextualParse {ctx : CommandContext} {request : Request}
    {intent : ParsedIntent} (h : tryContextualParse ctx request = some intent) :
    InTime ctx request ∧ FollowUp ctx (followUpText request) intent := by
  unfold tryContextualParse at h
  obtain ⟨htime, h⟩ := Option.ite_none_left_eq_some.mp h
  refine ⟨Nat.le_of_not_lt htime, ?_⟩
  have hmem := firstOf_eq_some h
  simp only [List.mem_cons, List.not_mem_nil, or_false] at hmem
  rcases hmem with hclose | hincrease | hadd | hanalyze
  · obtain ⟨htext, hclose⟩ := Option.ite_none_right_eq_some.mp hclose.symm
    obtain ⟨market, hmarket, hclose⟩ := Option.bind_eq_some_iff.mp hclose
    obtain ⟨side, hside, hclose⟩ := Option.bind_eq_some_iff.mp hclose
    obtain rfl := Option.some.inj hclose
    exact .closed htext hmarket hside
  · obtain ⟨m, htext, hincrease⟩ := Option.bind_eq_some_iff.mp hincrease.symm
    obtain ⟨market, hmarket, hincrease⟩ := Option.bind_eq_some_iff.mp hincrease
    obtain ⟨side, hside, hincrease⟩ := Option.bind_eq_some_iff.mp hincrease
    obtain ⟨collateral, hcollateral, hincrease⟩ := Option.bind_eq_some_iff.mp hincrease
    obtain ⟨hmore, hincrease⟩ := Option.ite_none_right_eq_some.mp hincrease
    obtain ⟨hlast, htruthy⟩ := Option.filter_eq_some_iff.mp hcollateral
    obtain rfl := Option.some.inj hincrease
    exact .increased htext hmarket hside hlast htruthy hmore
  · obtain ⟨m, htext, hadd⟩ := Option.bind_eq_some_iff.mp hadd.symm
    obtain ⟨market, hmarket, hadd⟩ := Option.bind_eq_some_iff.mp hadd
    obtain ⟨side, hside, hadd⟩ := Option.bind_eq_some_iff.mp hadd
    obtain rfl := Option.some.inj hadd
    exact .added htext hmarket hside
  · obtain ⟨htext, hanalyze⟩ := Option.ite_none_right_eq_some.mp hanalyze.symm
    obtain ⟨market, hmarket, hanalyze⟩ := Option.bind_eq_some_iff.mp hanalyze
    obtain rfl := Option.some.inj hanalyze
    exact .analyzed htext hmarket

/-! ## The texts exclude each other -/

theorem others_of_increaseTo {lower : List Char} {m : Match}
    (h : increaseTo.exec lower = some m) :
    closeIt.test lower = false ∧ analyzeIt.test lower = false := by
  have hlast : ∀ {q : Pattern}, q.closed = true →
      (∀ c, c.isDigit = true → q.lastAllows c = false) → (seq start q).test lower = false := by
    intro q hq hlast
    refine Option.isSome_eq_false_iff.mpr (Option.isNone_iff_eq_none.mpr ?_)
    refine exec_none_of_last h rfl (by decide) hq fun c hc => hlast c ?_
    simpa [seqs, lastAllows, nullable, number, digits, many1, lit, literal] using hc
  exact ⟨hlast rfl fun c => forall_digit (P := fun c => lastAllows _ c = false) (by decide),
    hlast rfl fun c => forall_digit (P := fun c => lastAllows _ c = false) (by decide)⟩

theorem others_of_addMore {lower : List Char} {m : Match} (h : addMore.exec lower = some m) :
    closeIt.test lower = false ∧ increaseTo.exec lower = none := by
  refine ⟨Option.isSome_eq_false_iff.mpr (Option.isNone_iff_eq_none.mpr ?_), ?_⟩
  · refine exec_none_of_first h (by decide) (by decide) fun c hc => ?_
    obtain rfl : c = 'a' := by
      simpa [seqs, firstAllows, nullable, lit, literal] using hc
    decide
  · refine exec_none_of_first h (by decide) (by decide) fun c hc => ?_
    obtain rfl : c = 'a' := by
      simpa [seqs, firstAllows, nullable, lit, literal] using hc
    decide

/-! ## The answers -/

theorem closed_resolves {ctx : CommandContext} {request : Request} {market : List Char}
    {side : TradeSide} (htime : InTime ctx request)
    (htext : closeIt.test (followUpText request) = true)
    (hmarket : CommandContext.market ctx = some market) (hside : ctx.lastSide = some side) :
    tryContextualParse ctx request =
      some { action := .ClosePosition, market := some market, side := some side } := by
  unfold tryContextualParse
  rw [if_neg (Nat.not_lt.mpr htime)]
  dsimp only
  rw [if_pos htext, hmarket, hside]
  rfl

theorem increased_resolves {ctx : CommandContext} {request : Request} {market : List Char}
    {side : TradeSide} {collateral : SdkNumber} {m : Match} (htime : InTime ctx request)
    (htext : increaseTo.exec (followUpText request) = some m)
    (hmarket : CommandContext.market ctx = some market) (hside : ctx.lastSide = some side)
    (hcollateral : ctx.lastCollateral = some collateral) (htruthy : collateral.truthy = true)
    (hmore : ((parseFloat (m.group 1)).sub collateral).positive = true) :
    tryContextualParse ctx request =
      some { action := .AddCollateral, market := some market, side := some side,
             amount := some ((parseFloat (m.group 1)).sub collateral) } := by
  have hclose := (others_of_increaseTo htext).1
  have hfilter : ctx.lastCollateral.filter SdkNumber.truthy = some collateral :=
    Option.filter_eq_some_iff.mpr ⟨hcollateral, htruthy⟩
  unfold tryContextualParse onMatch
  rw [if_neg (Nat.not_lt.mpr htime)]
  dsimp only
  rw [if_neg (by rw [hclose]; exact Bool.false_ne_true), htext, hmarket, hside, hfilter]
  simp only [Option.bind_some, Option.bind_eq_bind, hmore, if_true]
  rfl

theorem added_resolves {ctx : CommandContext} {request : Request} {market : List Char}
    {side : TradeSide} {m : Match} (htime : InTime ctx request)
    (htext : addMore.exec (followUpText request) = some m)
    (hmarket : CommandContext.market ctx = some market) (hside : ctx.lastSide = some side) :
    tryContextualParse ctx request =
      some { action := .AddCollateral, market := some market, side := some side,
             amount := some (parseFloat (m.group 1)) } := by
  obtain ⟨hclose, hincrease⟩ := others_of_addMore htext
  unfold tryContextualParse onMatch
  rw [if_neg (Nat.not_lt.mpr htime)]
  dsimp only
  rw [if_neg (by rw [hclose]; exact Bool.false_ne_true), hincrease, htext, hmarket, hside]
  rfl

/-- What `parseIntent` can do. -/
theorem parseIntent_cases (ctx : CommandContext) (request : Request) :
    (∃ intent, localParse request.data request.userInput = some intent ∧
      validateIntent request.data intent = none ∧
      parseIntent ctx request = (updateContext ctx request.now intent, .parsed intent)) ∨
    (∃ intent, localParse request.data request.userInput = none ∧
      tryContextualParse ctx request = some intent ∧ validateIntent request.data intent = none ∧
      parseIntent ctx request = (updateContext ctx request.now intent, .resolved intent)) ∨
    ∃ alert, parseIntent ctx request = (ctx, .help alert) := by
  unfold parseIntent
  cases localParse request.data request.userInput with
  | some result =>
    dsimp only
    cases hvalid : validateIntent request.data result with
    | some alert => exact .inr (.inr ⟨some alert, rfl⟩)
    | none => exact .inl ⟨result, rfl, hvalid, rfl⟩
  | none =>
    dsimp only
    cases tryContextualParse ctx request with
    | none => exact .inr (.inr ⟨_, rfl⟩)
    | some result =>
      dsimp only
      cases hvalid : validateIntent request.data result with
      | some alert => exact .inr (.inr ⟨some alert, rfl⟩)
      | none => exact .inr (.inl ⟨result, rfl, rfl, hvalid, rfl⟩)

/-- An intent of the parser is remembered. -/
theorem parsed_of_parseIntent {ctx : CommandContext} {request : Request} {intent : ParsedIntent}
    (h : (parseIntent ctx request).2 = .parsed intent) :
    localParse request.data request.userInput = some intent ∧
      validateIntent request.data intent = none ∧
      (parseIntent ctx request).1 = updateContext ctx request.now intent := by
  obtain ⟨i, hparse, hvalid, hresult⟩ | ⟨i, -, -, -, hresult⟩ | ⟨alert, hresult⟩ :=
    parseIntent_cases ctx request
  · rw [hresult] at h ⊢
    obtain rfl : i = intent := Answer.parsed.inj h
    exact ⟨hparse, hvalid, rfl⟩
  · rw [hresult] at h
    cases h
  · rw [hresult] at h
    cases h

/-- A follow-up that resolves to a valid intent is answered with it. -/
theorem parseIntent_of_resolved {ctx : CommandContext} {request : Request} {intent : ParsedIntent}
    (hparse : localParse request.data request.userInput = none)
    (hresult : tryContextualParse ctx request = some intent)
    (hvalid : validateIntent request.data intent = none) :
    parseIntent ctx request = (updateContext ctx request.now intent, .resolved intent) := by
  unfold parseIntent
  rw [hparse, hresult]
  dsimp only
  rw [hvalid]

/-! ## Valid intents -/

theorem alertUnless_eq_none {valid : SdkNumber → Bool} {alert : SdkNumber → CommandAlert}
    {value : Option SdkNumber} :
    alertUnless valid alert value = none ↔ ∀ v, value = some v → valid v = true := by
  unfold alertUnless
  cases value with
  | none => simp
  | some v =>
    rw [Option.bind_some, ite_eq_left_iff]
    simp

theorem validateMarket_eq_none {data : ParserData} {intent : ParsedIntent} {market : List Char}
    (hmarket : intent.market = some market) (hne : market ≠ [])
    (haction : intent.action ∈ tradingActions) :
    validateMarket data intent = none ↔ market ∈ data.markets := by
  unfold validateMarket
  rw [hmarket]
  simp [hne, haction]

theorem validateIntent_eq_none {data : ParserData} {i : ParsedIntent} :
    validateIntent data i = none ↔
      (∀ v, i.leverage = some v → SdkNumber.within (11 / 10) 1000 v = true) ∧
      (∀ v, i.collateral = some v → finitePositive v = true) ∧
      (∀ v, i.amount = some v → finitePositive v = true) ∧
      (∀ v, i.closePercent = some v → SdkNumber.within 1 100 v = true) ∧
      (∀ v, i.closeAmount = some v → finitePositive v = true) ∧
      (∀ v, i.price = some v → finitePositive v = true) ∧
      (∀ v, i.limitPrice = some v → finitePositive v = true) ∧
      (∀ v, i.takeProfit = some v → finitePositive v = true) ∧
      (∀ v, i.stopLoss = some v → finitePositive v = true) ∧ validateMarket data i = none := by
  simp [validateIntent, alertUnless_eq_none]

theorem valid_close {data : ParserData} {market : List Char} (hne : market ≠ [])
    (side : TradeSide) :
    validateIntent data
        { action := .ClosePosition, market := some market, side := some side } = none ↔
      market ∈ data.markets := by
  rw [validateIntent_eq_none, validateMarket_eq_none rfl hne (by simp [tradingActions])]
  simp

theorem valid_addCollateral {data : ParserData} {market : List Char} (hne : market ≠ [])
    (side : TradeSide) (amount : SdkNumber) :
    validateIntent data
        { action := .AddCollateral, market := some market, side := some side,
          amount := some amount } = none ↔
      finitePositive amount = true ∧ market ∈ data.markets := by
  rw [validateIntent_eq_none, validateMarket_eq_none rfl hne (by simp [tradingActions])]
  simp

/-! ## A session -/

/-- What is known in a session with two markets. -/
def twoMarkets : ParserData where
  markets := ["SOL".toList, "BTC".toList]
  registered := ["SOL".toList, "BTC".toList]
  pools := ["Crypto.1".toList]
  market_name := by decide
  pool_name := isName_crypto
  shortcut := isShortcut_nil

/-- A text, some seconds into the session. -/
def said (userInput : String) (seconds : ℕ) : Request where
  data := twoMarkets
  userInput := userInput.toList
  now := 1700000000000 + 1000 * seconds

/-- A decimal of whole dollars. -/
def dollars (n : ℕ) : Decimal := Decimal.ofScaled false n 0

/-- The intent of "open sol long 2x $10". -/
def openTen : ParsedIntent where
  action := .OpenPosition
  market := some "SOL".toList
  side := some .Long
  collateral := some (.finite (dollars 10))
  leverage := some (.finite (dollars 2))

end OfflineInterpreter

end FlashEdge
