import FlashEdge.Client.TradeExecution

/-!
# The command that closes a position (`tools/flash-tools.ts`)

`flash_close_position` checks the two numbers it is given, then the gates that do
not depend on them (the context, the market, the kill switch, the breaker, the
rate limit), then the position itself. What it accepts goes to the client as it
is.
-/

namespace FlashEdge

/-- Why the command does not go to the client. -/
inductive CloseRefusal where
  | message (text : String)
  | noOpenPosition (side : TradeSide) (market : String)
  | closeAmountExceedsSize (closeAmount sizeUsd : ℚ)
deriving DecidableEq, Repr

/-- A percentage that is given is finite and between 1 and 100. -/
def checkClosePercent : Option JsNumber → Except CloseRefusal (Option ℚ)
  | none => .ok none
  | some (.finite q) =>
    if q < 1 ∨ 100 < q then .error (.message "  Invalid close percentage. Must be 1-100.")
    else .ok (some q)
  | some _ => .error (.message "  Invalid close percentage. Must be 1-100.")

/-- An amount that is given is finite and positive. -/
def checkCloseAmount : Option JsNumber → Except CloseRefusal (Option ℚ)
  | none => .ok none
  | some (.finite q) =>
    if q ≤ 0 then .error (.message "  Invalid close amount. Must be positive.") else .ok (some q)
  | some _ => .error (.message "  Invalid close amount. Must be positive.")

/-- The pre-check: there is a position, and the amount is not larger than it. -/
def preCheckClose (position : Except String (Option FlashTrades.Position)) (market : String)
    (side : TradeSide) (closeAmount : Option ℚ) : Except CloseRefusal Unit :=
  match position with
  -- the positions could not be read: a warning, and the attempt goes on
  | .error _ => .ok ()
  | .ok none => .error (.noOpenPosition side market)
  | .ok (some pos) =>
    match closeAmount with
    | none => .ok ()
    | some closeAmount =>
      if pos.sizeUsd < closeAmount then .error (.closeAmountExceedsSize closeAmount pos.sizeUsd)
      else .ok ()

/-- The command up to the confirmation: the two numbers that the client is called
with. `gates` is what the checks that do not read them say, `position` the
position that `getPositions` lists for this market and side. -/
def flashClosePosition (gates : Except CloseRefusal Unit)
    (position : Except String (Option FlashTrades.Position)) (market : String) (side : TradeSide)
    (closePercent closeAmount : Option JsNumber) :
    Except CloseRefusal (Option ℚ × Option ℚ) := do
  let closePercent ← checkClosePercent closePercent
  let closeAmount ← checkCloseAmount closeAmount
  gates
  preCheckClose position market side closeAmount
  return (closePercent, closeAmount)

/-! ## What is accepted -/

theorem checkClosePercent_ok {closePercent : Option JsNumber} {percent : Option ℚ}
    (hok : checkClosePercent closePercent = .ok percent) :
    ∀ q, percent = some q → 1 ≤ q ∧ q ≤ 100 := by
  intro q hq
  subst hq
  unfold checkClosePercent at hok
  split at hok
  · cases hok
  · split at hok
    · cases hok
    · next hrange =>
      obtain rfl : _ = q := Option.some.inj (Except.ok.inj hok)
      rw [not_or, not_lt, not_lt] at hrange
      exact hrange
  · cases hok

theorem checkCloseAmount_ok {closeAmount : Option JsNumber} {amount : Option ℚ}
    (hok : checkCloseAmount closeAmount = .ok amount) : ∀ q, amount = some q → 0 < q := by
  intro q hq
  subst hq
  unfold checkCloseAmount at hok
  split at hok
  · cases hok
  · split at hok
    · cases hok
    · next hpos =>
      obtain rfl : _ = q := Option.some.inj (Except.ok.inj hok)
      exact not_le.mp hpos
  · cases hok

theorem preCheckClose_ok {pos : FlashTrades.Position} {market : String} {side : TradeSide}
    {closeAmount : Option ℚ}
    (hok : preCheckClose (.ok (some pos)) market side closeAmount = .ok ()) :
    ∀ q, closeAmount = some q → q ≤ pos.sizeUsd := by
  intro q hq
  subst hq
  simp only [preCheckClose] at hok
  split at hok
  · cases hok
  · next hle => exact not_lt.mp hle

/-- A command that is accepted has a percentage from 1 to 100 or none and an
amount above zero or none, and has passed the pre-check. -/
theorem flashClosePosition_ok {gates : Except CloseRefusal Unit}
    {position : Except String (Option FlashTrades.Position)} {market : String} {side : TradeSide}
    {closePercent closeAmount : Option JsNumber} {percent amount : Option ℚ}
    (hok : flashClosePosition gates position market side closePercent closeAmount =
      .ok (percent, amount)) :
    (∀ q, percent = some q → 1 ≤ q ∧ q ≤ 100) ∧ (∀ q, amount = some q → 0 < q) ∧
      preCheckClose position market side amount = .ok () := by
  simp only [flashClosePosition, bind, Except.bind] at hok
  split at hok
  · cases hok
  · next percent' hpercent =>
    split at hok
    · cases hok
    · next amount' hamount =>
      split at hok
      · cases hok
      · split at hok
        · cases hok
        · next hpre =>
          obtain ⟨rfl, rfl⟩ := Prod.mk.inj (Except.ok.inj hok)
          exact ⟨checkClosePercent_ok hpercent, checkCloseAmount_ok hamount, hpre⟩

end FlashEdge
