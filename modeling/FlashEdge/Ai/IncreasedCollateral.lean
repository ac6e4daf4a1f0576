import FlashEdge.Ai.FollowUps
import Mathlib.Algebra.Order.BigOperators.Group.List

/-!
# Collateral that follow-ups add

"increase to X" adds what is missing to X from the collateral that is remembered. An intent that
adds collateral has an `amount`, and what is remembered is replaced by a `collateral` alone: so
after an open with collateral C every follow-up adds its X less C, whatever the follow-ups
before have added.

- `added_of_run`: what a list of follow-ups adds.
- `addedCollateral_iff`: it is the last target less C exactly for at most one follow-up.
-/

namespace FlashEdge

open Interpreter Pattern

namespace OfflineInterpreter

/-! ## What is added -/

/-- The target of a text that asks for more collateral and is no command of its own. -/
def target (request : Request) : Option Decimal :=
  if (localParse request.data request.userInput).isSome then none
  else
    match (increaseTo.exec (followUpText request)).map fun m => parseFloat (m.group 1) with
    | some (.finite n) => some n
    | _ => none

/-- The collateral that an answer adds to a position. -/
def added : Answer → ℚ
  | .parsed intent => ofIntent intent
  | .resolved intent => ofIntent intent
  | .help _ => 0
where
  ofIntent (intent : ParsedIntent) : ℚ :=
    match intent.action, intent.amount with
    | .AddCollateral, some (.finite n) => n.toRat
    | _, _ => 0

/-- All the collateral that the answers add. -/
def addedCollateral (exchanges : List Exchange) : ℚ :=
  (exchanges.map fun e => added e.answer).sum

/-- Each text comes before the context is stale that the text before it has left. -/
def Timely : ℕ → List Request → Prop
  | _, [] => True
  | updatedAt, request :: requests =>
    request.now - updatedAt ≤ CONTEXT_TTL_MS ∧ Timely request.now requests

/-- The context remembers a position and its collateral. -/
structure Remembers (ctx : CommandContext) (market : List Char) (side : TradeSide)
    (collateral : Decimal) : Prop where
  market : CommandContext.market ctx = some market
  side : ctx.lastSide = some side
  collateral : ctx.lastCollateral = some (.finite collateral)

theorem target_eq_some {request : Request} {n : Decimal} (h : target request = some n) :
    localParse request.data request.userInput = none ∧
      ∃ m, increaseTo.exec (followUpText request) = some m ∧
        parseFloat (m.group 1) = .finite n := by
  unfold target at h
  obtain ⟨hparse, h⟩ := Option.ite_none_left_eq_some.mp h
  refine ⟨Option.not_isSome_iff_eq_none.mp hparse, ?_⟩
  cases hexec : increaseTo.exec (followUpText request) with
  | none =>
    rw [hexec] at h
    cases h
  | some m =>
    rw [hexec] at h
    refine ⟨m, rfl, ?_⟩
    dsimp only [Option.map_some] at h
    split at h
    · next k hk =>
      obtain rfl := Option.some.inj h
      exact Option.some.inj hk
    · cases h

/-- One follow-up adds its target less the remembered collateral, which stays remembered. -/
theorem parseIntent_of_target {ctx : CommandContext} {market : List Char} {side : TradeSide}
    {collateral n : Decimal} (hctx : Remembers ctx market side collateral) {request : Request}
    (htime : InTime ctx request) (htarget : target request = some n)
    (hlisted : market ∈ request.data.markets) (hpositive : 0 < collateral.toRat)
    (hmore : collateral.toRat < n.toRat) :
    ∃ ctx', parseIntent ctx request = (ctx', .resolved {
        action := .AddCollateral, market := some market, side := some side,
        amount := some (.finite (n.sub collateral)) }) ∧
      Remembers ctx' market side collateral ∧ ctx'.updatedAt = request.now := by
  obtain ⟨hparse, m, htext, hn⟩ := target_eq_some htarget
  have hdiff : (parseFloat (m.group 1)).sub (.finite collateral) =
      .finite (n.sub collateral) := by
    rw [hn]
    rfl
  have hdigits : collateral.digits ≠ 0 := by
    intro hzero
    have hnone : collateral.toRat = 0 := by
      unfold Decimal.toRat
      rw [hzero, Nat.cast_zero, mul_zero, zero_mul]
    rw [hnone] at hpositive
    exact lt_irrefl 0 hpositive
  have hdiffPositive : 0 < (n.sub collateral).toRat := by
    rw [Decimal.toRat_sub]
    exact sub_pos.mpr hmore
  have hne := market_ne_nil hctx.market
  have hresult := increased_resolves htime htext hctx.market hctx.side hctx.collateral
    (by simp [SdkNumber.truthy, hdigits]) (by
      rw [hdiff]
      exact decide_eq_true hdiffPositive)
  rw [hdiff] at hresult
  have hvalid := (valid_addCollateral hne side (.finite (n.sub collateral))).mpr
    ⟨decide_eq_true hdiffPositive, hlisted⟩
  refine ⟨_, parseIntent_of_resolved hparse hresult hvalid, ⟨?_, rfl, ?_⟩, rfl⟩
  · simp [CommandContext.market, updateContext, hne]
  · exact hctx.collateral

theorem runFrom_cons (ctx : CommandContext) (h : List Exchange) (request : Request)
    (requests : List Request) :
    interpreter.runFrom ctx h (request :: requests) =
      interpreter.runFrom (parseIntent ctx request).1
        (h ++ [{ request, answer := (parseIntent ctx request).2 }]) requests := rfl

/-- **Every follow-up adds its target less the collateral of the open.** -/
theorem added_of_run {ctx : CommandContext} {market : List Char} {side : TradeSide}
    {collateral : Decimal} (hctx : Remembers ctx market side collateral)
    (hpositive : 0 < collateral.toRat) {requests : List Request} {targets : List Decimal}
    (htargets : requests.map target = targets.map some)
    (hmore : ∀ n ∈ targets, collateral.toRat < n.toRat)
    (hlisted : ∀ r ∈ requests, market ∈ r.data.markets) (htime : Timely ctx.updatedAt requests)
    (h : List Exchange) :
    ∃ ctx' exchanges, interpreter.runFrom ctx h requests = some (ctx', h ++ exchanges) ∧
      addedCollateral exchanges = (targets.map fun n => n.toRat - collateral.toRat).sum := by
  induction requests generalizing ctx targets h with
  | nil =>
    obtain rfl : targets = [] := List.map_eq_nil_iff.mp htargets.symm
    exact ⟨ctx, [], by rw [List.append_nil]; rfl, rfl⟩
  | cons request requests ih =>
    cases targets with
    | nil => cases htargets
    | cons n targets =>
      obtain ⟨htarget, htargets⟩ := List.cons.inj htargets
      obtain ⟨ctx₁, hanswer, hctx₁, hupdated⟩ := parseIntent_of_target hctx htime.1 htarget
        (hlisted request List.mem_cons_self) hpositive (hmore n List.mem_cons_self)
      obtain ⟨ctx', exchanges, hrun, hadded⟩ := ih hctx₁ htargets
        (fun k hk => hmore k (List.mem_cons_of_mem n hk))
        (fun r hr => hlisted r (List.mem_cons_of_mem request hr)) (by
          rw [hupdated]
          exact htime.2) (h ++ [{ request, answer := (parseIntent ctx request).2 }])
      refine ⟨ctx', { request, answer := (parseIntent ctx request).2 } :: exchanges, ?_, ?_⟩
      · rw [List.append_cons, ← hrun, runFrom_cons, hanswer]
      · unfold addedCollateral at hadded ⊢
        rw [List.map_cons, List.sum_cons, hadded, List.map_cons, List.sum_cons, hanswer]
        show (n.sub collateral).toRat + _ = _
        rw [Decimal.toRat_sub]

/-- What several targets above a number exceed it by adds up to more than what the last does. -/
theorem sum_excess_iff {c : ℚ} {targets : List ℚ} (hmore : ∀ n ∈ targets, c < n) :
    (targets.map fun n => n - c).sum = targets.getLastD c - c ↔ targets.length ≤ 1 := by
  rcases List.eq_nil_or_concat targets with rfl | ⟨init, last, rfl⟩
  · simp
  · rw [List.concat_eq_append, List.getLastD_concat, List.map_append, List.sum_append,
      List.map_singleton, List.sum_singleton, add_eq_right, List.length_append,
      List.length_singleton]
    constructor
    · intro hsum
      cases init with
      | nil => exact le_refl 1
      | cons n init =>
        have hpositive : 0 < ((n :: init).map fun n => n - c).sum := by
          refine List.sum_pos _ (fun x hx => ?_) (by simp)
          obtain ⟨k, hk, rfl⟩ := List.mem_map.mp hx
          refine sub_pos.mpr (hmore k ?_)
          rw [List.concat_eq_append]
          exact List.mem_append_left [last] hk
        rw [hsum] at hpositive
        exact absurd hpositive (lt_irrefl 0)
    · intro hlength
      obtain rfl := List.length_eq_zero_iff.mp (Nat.le_zero.mp (Nat.le_of_succ_le_succ hlength))
      rfl

/-- The context after an open. -/
theorem remembers_of_open {ctx : CommandContext} {request : Request} {intent : ParsedIntent}
    {market : List Char} {collateral : Decimal}
    (h : (parseIntent ctx request).2 = .parsed intent) (haction : intent.action = .OpenPosition)
    (hmarket : intent.market = some market)
    (hcollateral : intent.collateral = some (.finite collateral)) :
    (∃ side, Remembers (parseIntent ctx request).1 market side collateral) ∧
      0 < collateral.toRat ∧ (parseIntent ctx request).1.updatedAt = request.now := by
  obtain ⟨hparse, hvalid, hctx⟩ := parsed_of_parseIntent h
  have hpaired := paired_localParse request.data request.userInput intent hparse
  obtain ⟨side, hside⟩ := Option.ne_none_iff_exists'.mp (hpaired.opened haction).1
  obtain ⟨m, hm, hne⟩ := hpaired.side (hpaired.opened haction).1
  obtain rfl : m = market := Option.some.inj (hm.symm.trans hmarket)
  rw [hctx]
  refine ⟨⟨side, ?_, ?_, ?_⟩, ?_, rfl⟩
  · simp [CommandContext.market, updateContext, hmarket, hne]
  · simp [updateContext, hside]
  · simp [updateContext, hcollateral]
  · have hpositive := (validateIntent_eq_none.mp hvalid).2.1 _ hcollateral
    exact of_decide_eq_true hpositive

/-- **After an open with collateral C, follow-ups with increasing targets add the last target
less C if and only if there is at most one of them.** -/
theorem addedCollateral_iff {ctx ctx' : CommandContext} {h exchanges : List Exchange}
    {opening : Request} {followUps : List Request} {intent : ParsedIntent} {market : List Char}
    {collateral : Decimal} {targets : List Decimal}
    (hrun : interpreter.runFrom ctx h (opening :: followUps) =
      some (ctx', h ++ { request := opening, answer := .parsed intent } :: exchanges))
    (haction : intent.action = .OpenPosition) (hmarket : intent.market = some market)
    (hcollateral : intent.collateral = some (.finite collateral))
    (htargets : followUps.map target = targets.map some)
    (hincreasing : ((collateral :: targets).map Decimal.toRat).Pairwise (· < ·))
    (hlisted : ∀ r ∈ followUps, market ∈ r.data.markets)
    (htime : Timely opening.now followUps) :
    addedCollateral exchanges =
        (targets.map Decimal.toRat).getLastD collateral.toRat - collateral.toRat ↔
      followUps.length ≤ 1 := by
  have hlength : followUps.length = (targets.map Decimal.toRat).length := by
    have hlengths := congrArg List.length htargets
    rwa [List.length_map, List.length_map, ← List.length_map (f := Decimal.toRat)] at hlengths
  have hmore := (List.pairwise_cons.mp hincreasing).1
  -- the answer to the open is the first that the run has emitted
  have hprefix : h ++ [{ request := opening, answer := (parseIntent ctx opening).2 }] <+:
      h ++ { request := opening, answer := .parsed intent } :: exchanges :=
    Machine.invariant_of_runFrom (M := interpreter)
      (I := fun _ h' => h ++ [{ request := opening, answer := (parseIntent ctx opening).2 }] <+: h')
      (fun hI hs => by
        obtain ⟨-, rfl⟩ := Machine.some_pair hs
        exact hI.trans (List.prefix_append _ _)) (List.prefix_refl _)
      ((runFrom_cons ctx h opening followUps).symm.trans hrun)
  have hanswer : (parseIntent ctx opening).2 = .parsed intent := by
    obtain ⟨hfirst, -⟩ := List.cons_prefix_cons.mp ((List.prefix_append_right_inj h).mp hprefix)
    exact congrArg Exchange.answer hfirst
  obtain ⟨⟨side, hctx⟩, hpositive, hupdated⟩ :=
    remembers_of_open hanswer haction hmarket hcollateral
  rw [runFrom_cons, hanswer] at hrun
  obtain ⟨ctx'', exchanges', hrun', hadded⟩ := added_of_run hctx hpositive htargets
    (fun n hn => hmore _ (List.mem_map_of_mem hn)) hlisted (by rw [hupdated]; exact htime)
    (h ++ [{ request := opening, answer := .parsed intent }])
  rw [hrun] at hrun'
  have hexchanges : exchanges = exchanges' := by
    have hhistories := congrArg Prod.snd (Option.some.inj hrun')
    rw [List.append_cons] at hhistories
    exact List.append_cancel_left hhistories
  rw [hexchanges, hadded, hlength, ← sum_excess_iff hmore, List.map_map]
  rfl

/-! ## A session -/

theorem openTen_parsed : (parseIntent interpreter.init (said "open sol long 2x $10" 0)).2 =
    .parsed openTen := by decide +kernel

/-- One follow-up adds what is missing. -/
theorem addedCollateral_once : ∃ ctx exchanges,
    interpreter.runFrom interpreter.init []
        [said "open sol long 2x $10" 0, said "increase to 25" 30] =
      some (ctx, { request := said "open sol long 2x $10" 0, answer := .parsed openTen } ::
        exchanges) ∧
    (addedCollateral exchanges = (dollars 25).toRat - (dollars 10).toRat ↔ 1 ≤ 1) := by
  let ctx := (parseIntent interpreter.init (said "open sol long 2x $10" 0)).1
  let answer := (parseIntent ctx (said "increase to 25" 30)).2
  have hrun : interpreter.runFrom interpreter.init []
      [said "open sol long 2x $10" 0, said "increase to 25" 30] =
      some ((parseIntent ctx (said "increase to 25" 30)).1,
        [] ++ { request := said "open sol long 2x $10" 0, answer := .parsed openTen } ::
          [{ request := said "increase to 25" 30, answer }]) := by
    rw [runFrom_cons, runFrom_cons, openTen_parsed]
    rfl
  have htargets : [said "increase to 25" 30].map target = [dollars 25].map some := by
    decide +kernel
  exact ⟨_, _, hrun, addedCollateral_iff hrun rfl rfl rfl htargets (by decide +kernel)
    (by decide) ⟨by decide, trivial⟩⟩

/-- Two follow-ups, to $20 and to $30 after an open with $10, add $30. -/
theorem added_past_target :
    [said "increase to 20" 30, said "increase to 30" 60].map target =
      [some (dollars 20), some (dollars 30)] ∧
    ((interpreter.run [said "open sol long 2x $10" 0, said "increase to 20" 30,
      said "increase to 30" 60]).map fun r => addedCollateral r.2) = some 30 ∧
    (30 : ℚ) ≠ (dollars 30).toRat - (dollars 10).toRat := by
  decide +kernel

end OfflineInterpreter

end FlashEdge
