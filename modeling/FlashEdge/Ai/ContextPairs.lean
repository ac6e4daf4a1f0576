import FlashEdge.Ai.FollowUps
import FlashEdge.Theory.Machine

/-!
# The position that a follow-up is about

The market, the side and the collateral are remembered one by one, each from the last intent
that has it. The market that is remembered is that of the last command that named one; its side
and collateral are that command's own if it has any, and those of an earlier one if not.

- `OneSource`: every follow-up so far was about the position of one command.
- `Unmixed`: the last command that named a market has what the follow-up needs.
- `oneSource_iff`: the first holds all along a session exactly if the second does.
-/

namespace FlashEdge

open Interpreter Pattern

namespace OfflineInterpreter

/-- The intent of a command that named a market. -/
def naming : Answer → Option ParsedIntent
  | .parsed intent =>
    if intent.market = none ∨ intent.market = some [] then none else some intent
  | _ => none

/-- The intent of the last command that named a market. -/
def lastNamed (h : List Exchange) : Option ParsedIntent :=
  (h.filterMap fun e => naming e.answer).getLast?

/-- What was resolved is about the position of one command, and a target is measured against
the collateral of that command. -/
def AboutOne (lower : List Char) (last : Option ParsedIntent) (intent : ParsedIntent) : Prop :=
  ∃ origin, last = some origin ∧ intent.market = origin.market ∧
    (intent.side ≠ none → intent.side = origin.side) ∧
    ∀ m, increaseTo.exec lower = some m → ∃ collateral, origin.collateral = some collateral ∧
      intent.amount = some ((parseFloat (m.group 1)).sub collateral)

/-- Every follow-up so far was about the position of the last command that named a market. -/
def OneSource (h : List Exchange) : Prop :=
  Each (fun before e => ∀ intent, e.answer = .resolved intent →
    AboutOne (followUpText e.request) (lastNamed before) intent) h

/-! ## The condition on a text -/

/-- A follow-up for a position would be resolved and pass. -/
structure Due (ctx : CommandContext) (request : Request) : Prop where
  unparsed : localParse request.data request.userInput = none
  time : InTime ctx request
  side : ctx.lastSide ≠ none
  listed : ∃ market ∈ request.data.markets, CommandContext.market ctx = some market

/-- "add $X to it", for an amount that is valid. -/
def AddsMore (lower : List Char) : Prop :=
  ∃ m, addMore.exec lower = some m ∧ finitePositive (parseFloat (m.group 1)) = true

/-- "increase to X", for an X above the collateral that is remembered. -/
def Increases (ctx : CommandContext) (lower : List Char) : Prop :=
  ∃ m collateral, increaseTo.exec lower = some m ∧ ctx.lastCollateral = some collateral ∧
    collateral.truthy = true ∧ finitePositive ((parseFloat (m.group 1)).sub collateral) = true

/-- The last command that named a market named the side too, and for a target the collateral. -/
structure Unmixed (ctx : CommandContext) (h : List Exchange) (request : Request) : Prop where
  pair : Due ctx request →
    closeIt.test (followUpText request) = true ∨ AddsMore (followUpText request) →
      ∃ origin, lastNamed h = some origin ∧ origin.side ≠ none
  collateral : Due ctx request → Increases ctx (followUpText request) →
    ∃ origin, lastNamed h = some origin ∧ origin.side ≠ none ∧ origin.collateral ≠ none

/-! ## What is remembered -/

/-- What is remembered of the last command that named a market. -/
structure Linked (ctx : CommandContext) (h : List Exchange) : Prop where
  market : CommandContext.market ctx = (lastNamed h).bind fun origin => origin.market
  side : ∀ origin side, lastNamed h = some origin → origin.side = some side →
    ctx.lastSide = some side
  collateral : ∀ origin collateral, lastNamed h = some origin →
    origin.collateral = some collateral → ctx.lastCollateral = some collateral

theorem positive_of_finitePositive {n : SdkNumber} (h : finitePositive n = true) :
    n.positive = true := by
  cases n with
  | finite n => exact h
  | _ => cases h

theorem lastNamed_snoc (h : List Exchange) (e : Exchange) :
    lastNamed (h ++ [e]) = (naming e.answer).or (lastNamed h) := by
  unfold lastNamed
  rw [List.filterMap_append, List.getLast?_append]
  cases hnaming : naming e.answer with
  | none => simp [hnaming]
  | some intent => simp [hnaming]

/-- A text that has no intent of its own changes nothing that is linked. -/
theorem Linked.keep {ctx : CommandContext} {h : List Exchange} (hlinked : Linked ctx h)
    {ctx' : CommandContext} {e : Exchange} (hanswer : naming e.answer = none)
    (hmarket : CommandContext.market ctx' = CommandContext.market ctx)
    (hside : ctx'.lastSide = ctx.lastSide)
    (hcollateral : ctx'.lastCollateral = ctx.lastCollateral) : Linked ctx' (h ++ [e]) := by
  have hlast : lastNamed (h ++ [e]) = lastNamed h := by
    rw [lastNamed_snoc, hanswer, Option.none_or]
  refine ⟨?_, ?_, ?_⟩
  · rw [hmarket, hlast, hlinked.market]
  · rw [hlast, hside]
    exact hlinked.side
  · rw [hlast, hcollateral]
    exact hlinked.collateral

theorem market_updateContext (ctx : CommandContext) (now : ℕ) (intent : ParsedIntent) :
    CommandContext.market (updateContext ctx now intent) =
      (intent.market.filter fun m => m ≠ []).or (CommandContext.market ctx) := by
  unfold CommandContext.market updateContext
  cases hmarket : intent.market with
  | none => simp
  | some m =>
    by_cases hm : m = []
    · simp [hm, Option.filter]
    · simp [hm, Option.filter]

/-- An intent of the parser brings its side and collateral with its market. -/
theorem Linked.parsed {ctx : CommandContext} {h : List Exchange} (hlinked : Linked ctx h)
    {request : Request} {intent : ParsedIntent} (hpaired : Paired intent) :
    Linked (updateContext ctx request.now intent)
      (h ++ [{ request, answer := .parsed intent }]) := by
  by_cases hunnamed : intent.market = none ∨ intent.market = some []
  · -- without a market there is no side, and without a side no collateral
    have hside : intent.side = none := by
      by_contra hside
      obtain ⟨market, hmarket, hne⟩ := hpaired.side hside
      rcases hunnamed with hnone | hempty
      · rw [hnone] at hmarket
        cases hmarket
      · exact hne (Option.some.inj (hmarket.symm.trans hempty))
    have hcollateral : intent.collateral = none := by
      by_contra hcollateral
      exact hpaired.collateral hcollateral hside
    refine hlinked.keep (by simp [naming, hunnamed]) ?_ ?_ ?_
    · rw [market_updateContext]
      rcases hunnamed with hnone | hempty
      · simp [hnone]
      · simp [hempty, Option.filter]
    · simp [updateContext, hside]
    · simp [updateContext, hcollateral]
  · have hlast : lastNamed (h ++ [{ request, answer := .parsed intent }]) = some intent := by
      rw [lastNamed_snoc]
      simp [naming, hunnamed]
    obtain ⟨market, hmarket⟩ := Option.ne_none_iff_exists'.mp (not_or.mp hunnamed).1
    have hne : market ≠ [] := by
      rintro rfl
      exact hunnamed (.inr hmarket)
    refine ⟨?_, ?_, ?_⟩
    · rw [market_updateContext, hlast, Option.bind_some, hmarket]
      simp [hne, Option.filter]
    · intro origin side horigin hside
      obtain rfl := Option.some.inj (hlast.symm.trans horigin)
      simp [updateContext, hside]
    · intro origin collateral horigin hcollateral
      obtain rfl := Option.some.inj (hlast.symm.trans horigin)
      simp [updateContext, hcollateral]

/-- What was resolved has the remembered market, and leaves what is linked as it is. -/
theorem Linked.resolved {ctx : CommandContext} {h : List Exchange} (hlinked : Linked ctx h)
    {request : Request} {lower : List Char} {intent : ParsedIntent}
    (hfollow : FollowUp ctx lower intent) :
    Linked (updateContext ctx request.now intent)
      (h ++ [{ request, answer := .resolved intent }]) := by
  have hkeep : ∀ market, CommandContext.market ctx = some market → intent.market = some market →
      intent.side.or ctx.lastSide = ctx.lastSide → intent.collateral = none →
      Linked (updateContext ctx request.now intent)
        (h ++ [{ request, answer := .resolved intent }]) := by
    intro market hctx hmarket hside hcollateral
    refine hlinked.keep rfl ?_ hside ?_
    · obtain ⟨-, hne⟩ := Option.filter_eq_some_iff.mp hctx
      rw [market_updateContext, hmarket, hctx, Option.filter_some, if_pos hne, Option.some_or]
    · simp [updateContext, hcollateral]
  cases hfollow with
  | closed text hmarket hside => exact hkeep _ hmarket rfl (by rw [hside]; rfl) rfl
  | increased text hmarket hside => exact hkeep _ hmarket rfl (by rw [hside]; rfl) rfl
  | added text hmarket hside => exact hkeep _ hmarket rfl (by rw [hside]; rfl) rfl
  | analyzed text hmarket => exact hkeep _ hmarket rfl rfl rfl

/-! ## One text -/

/-- A resolved intent has the market of the last command that named one. -/
theorem Linked.origin {ctx : CommandContext} {h : List Exchange} (hlinked : Linked ctx h)
    {market : List Char} (hmarket : CommandContext.market ctx = some market) :
    ∃ origin, lastNamed h = some origin ∧ origin.market = some market := by
  rw [hlinked.market] at hmarket
  exact Option.bind_eq_some_iff.mp hmarket

/-- An intent with a market that is resolved and passes was due, if it has a side. -/
theorem due_of_valid {ctx : CommandContext} {request : Request} {intent : ParsedIntent}
    {market : List Char} (hparse : localParse request.data request.userInput = none)
    (htime : InTime ctx request) (hvalid : validateIntent request.data intent = none)
    (hmarket : CommandContext.market ctx = some market) (hintent : intent.market = some market)
    (haction : intent.action ∈ tradingActions) (hside : ctx.lastSide ≠ none) :
    Due ctx request := by
  have hlisted : market ∈ request.data.markets :=
    (validateMarket_eq_none hintent (market_ne_nil hmarket) haction).mp
      (validateIntent_eq_none.mp hvalid).2.2.2.2.2.2.2.2.2
  exact ⟨hparse, htime, hside, market, hlisted, hmarket⟩

/-- The side that is remembered is that of the last command that named a market, if it named
one. -/
theorem Linked.same_side {ctx : CommandContext} {h : List Exchange} (hlinked : Linked ctx h)
    {origin : ParsedIntent} (horigin : lastNamed h = some origin) (hside : origin.side ≠ none) :
    ctx.lastSide = origin.side := by
  obtain ⟨side, hside⟩ := Option.ne_none_iff_exists'.mp hside
  rw [hside]
  exact hlinked.side origin side horigin hside

/-- If the condition is met, a follow-up is about the position of one command. -/
theorem aboutOne_of_unmixed {ctx : CommandContext} {h : List Exchange} {request : Request}
    {intent : ParsedIntent} (hlinked : Linked ctx h) (hunmixed : Unmixed ctx h request)
    (hparse : localParse request.data request.userInput = none) (htime : InTime ctx request)
    (hfollow : FollowUp ctx (followUpText request) intent)
    (hvalid : validateIntent request.data intent = none) :
    AboutOne (followUpText request) (lastNamed h) intent := by
  have hdue : ∀ market side, CommandContext.market ctx = some market → ctx.lastSide = some side →
      intent.market = some market → intent.action ∈ tradingActions → Due ctx request := by
    intro market side hmarket hside hintent haction
    exact due_of_valid hparse htime hvalid hmarket hintent haction (by rw [hside]; simp)
  have hamount := (validateIntent_eq_none.mp hvalid).2.2.1
  cases hfollow with
  | closed text hmarket hside =>
    obtain ⟨origin, horigin, hne⟩ := hunmixed.pair
      (hdue _ _ hmarket hside rfl (by simp [tradingActions])) (.inl text)
    obtain ⟨_, hsame, hm⟩ := hlinked.origin hmarket
    obtain rfl := Option.some.inj (horigin.symm.trans hsame)
    refine ⟨origin, horigin, hm.symm, fun _ => ?_, fun m hm => ?_⟩
    · rw [← hlinked.same_side horigin hne, hside]
    · rw [(others_of_increaseTo hm).1] at text
      cases text
  | increased text hmarket hside hcollateral truthy more =>
    obtain ⟨origin, horigin, hne, hnamed⟩ := hunmixed.collateral
      (hdue _ _ hmarket hside rfl (by simp [tradingActions]))
      ⟨_, _, text, hcollateral, truthy, hamount _ rfl⟩
    obtain ⟨_, hsame, hm⟩ := hlinked.origin hmarket
    obtain rfl := Option.some.inj (horigin.symm.trans hsame)
    obtain ⟨collateral, hnamed⟩ := Option.ne_none_iff_exists'.mp hnamed
    have hremembered := hlinked.collateral origin collateral horigin hnamed
    obtain rfl := Option.some.inj (hcollateral.symm.trans hremembered)
    refine ⟨origin, horigin, hm.symm, fun _ => ?_, fun m hm => ⟨_, hnamed, ?_⟩⟩
    · rw [← hlinked.same_side horigin hne, hside]
    · obtain rfl := Option.some.inj (text.symm.trans hm)
      rfl
  | added text hmarket hside =>
    obtain ⟨origin, horigin, hne⟩ := hunmixed.pair
      (hdue _ _ hmarket hside rfl (by simp [tradingActions])) (.inr ⟨_, text, hamount _ rfl⟩)
    obtain ⟨_, hsame, hm⟩ := hlinked.origin hmarket
    obtain rfl := Option.some.inj (horigin.symm.trans hsame)
    refine ⟨origin, horigin, hm.symm, fun _ => ?_, fun m hm => ?_⟩
    · rw [← hlinked.same_side horigin hne, hside]
    · rw [(others_of_addMore text).2] at hm
      cases hm
  | analyzed text hmarket =>
    obtain ⟨origin, horigin, hm⟩ := hlinked.origin hmarket
    refine ⟨origin, horigin, hm.symm, fun hside => absurd rfl hside, fun m hm => ?_⟩
    rw [(others_of_increaseTo hm).2] at text
    cases text

/-- If what is resolved is about the position of one command, the condition is met. -/
theorem unmixed_of_aboutOne {ctx : CommandContext} {h : List Exchange} {request : Request}
    (habout : ∀ intent, (parseIntent ctx request).2 = .resolved intent →
      AboutOne (followUpText request) (lastNamed h) intent) : Unmixed ctx h request := by
  have hanswer : ∀ intent, Due ctx request → tryContextualParse ctx request = some intent →
      validateIntent request.data intent = none →
      AboutOne (followUpText request) (lastNamed h) intent := by
    intro intent hdue hresult hvalid
    refine habout intent ?_
    rw [parseIntent_of_resolved hdue.unparsed hresult hvalid]
  refine ⟨fun hdue htext => ?_, fun hdue hincrease => ?_⟩
  · obtain ⟨market, hlisted, hmarket⟩ := hdue.listed
    obtain ⟨side, hside⟩ := Option.ne_none_iff_exists'.mp hdue.side
    have hne := market_ne_nil hmarket
    rcases htext with hclose | ⟨m, hadd, hpositive⟩
    · obtain ⟨origin, horigin, -, hsides, -⟩ := hanswer _ hdue
        (closed_resolves hdue.time hclose hmarket hside) ((valid_close hne side).mpr hlisted)
      exact ⟨origin, horigin, by rw [← hsides (by simp)]; simp⟩
    · obtain ⟨origin, horigin, -, hsides, -⟩ := hanswer _ hdue
        (added_resolves hdue.time hadd hmarket hside)
        ((valid_addCollateral hne side _).mpr ⟨hpositive, hlisted⟩)
      exact ⟨origin, horigin, by rw [← hsides (by simp)]; simp⟩
  · obtain ⟨market, hlisted, hmarket⟩ := hdue.listed
    obtain ⟨side, hside⟩ := Option.ne_none_iff_exists'.mp hdue.side
    have hne := market_ne_nil hmarket
    obtain ⟨m, collateral, htext, hcollateral, htruthy, hpositive⟩ := hincrease
    obtain ⟨origin, horigin, -, hsides, hmeasured⟩ := hanswer _ hdue
      (increased_resolves hdue.time htext hmarket hside hcollateral htruthy
        (positive_of_finitePositive hpositive))
      ((valid_addCollateral hne side _).mpr ⟨hpositive, hlisted⟩)
    obtain ⟨_, hnamed, -⟩ := hmeasured m htext
    exact ⟨origin, horigin, by rw [← hsides (by simp)]; simp, by rw [hnamed]; simp⟩

/-! ## Sessions -/

/-- **Every follow-up of a session is about the position of the last command that named a
market, if and only if at every follow-up that is due that command has named what it needs.** -/
theorem oneSource_iff (requests : List Request) :
    interpreter.Always (fun _ h => OneSource h) interpreter.init [] requests ↔
      interpreter.Along Unmixed interpreter.init [] requests := by
  refine Machine.always_iff_along_of_step (I := fun ctx h => OneSource h ∧ Linked ctx h)
    (fun hI => hI.1) ?_ ⟨Each.nil, ?_⟩ requests
  · intro ctx h request ctx' es hI hs
    obtain ⟨hsource, hlinked⟩ := hI
    obtain ⟨rfl, rfl⟩ := Machine.some_pair hs
    by_cases hunmixed : Unmixed ctx h request
    · refine .inl ⟨hunmixed, ?_⟩
      obtain ⟨intent, hparse, -, hresult⟩ | ⟨intent, hparse, hresolve, hvalid, hresult⟩ |
        ⟨alert, hresult⟩ := parseIntent_cases ctx request
      · rw [hresult]
        exact ⟨hsource.snoc fun _ h => (by cases h),
          hlinked.parsed (paired_localParse _ _ intent hparse)⟩
      · rw [hresult]
        obtain ⟨htime, hfollow⟩ := followUp_of_tryContextualParse hresolve
        refine ⟨hsource.snoc fun i hi => ?_, hlinked.resolved hfollow⟩
        obtain rfl : intent = i := Answer.resolved.inj hi
        exact aboutOne_of_unmixed hlinked hunmixed hparse htime hfollow hvalid
      · rw [hresult]
        exact ⟨hsource.snoc fun _ h => (by cases h), hlinked.keep rfl rfl rfl rfl⟩
    · refine .inr ⟨hunmixed, fun hafter => hunmixed (unmixed_of_aboutOne fun intent hanswer => ?_)⟩
      exact Each.last hafter intent hanswer
  · exact ⟨rfl, fun _ _ h => (by cases h), fun _ _ h => (by cases h)⟩

/-- What such a session says of its third command. -/
theorem aboutOne_of_third {ctx : CommandContext} {a b c : Request} {o n : CommandContext × Answer}
    {intent : ParsedIntent}
    (hall : interpreter.Always (fun _ h => OneSource h) ctx [] [a, b, c])
    (hfirst : parseIntent ctx a = o) (hsecond : parseIntent o.1 b = n)
    (hthird : (parseIntent n.1 c).2 = .resolved intent) :
    AboutOne (followUpText c)
      (lastNamed [{ request := a, answer := o.2 }, { request := b, answer := n.2 }]) intent := by
  subst hfirst
  subst hsecond
  have hsource : OneSource _ := ((hall.2 _ _ rfl).2 _ _ rfl).2 _ _ rfl
  exact Each.last hsource intent hthird

/-! ## A market of one command with the side of another -/

/-- The answer to "open sol long 2x $10". -/
def opened : CommandContext × Answer :=
  parseIntent interpreter.init (said "open sol long 2x $10" 0)

/-- The answer to "analyze btc" then. -/
def analyzed : CommandContext × Answer := parseIntent opened.1 (said "analyze btc" 30)

/-- The intent of "close it" then: BTC long, which no command has named. -/
def closeBtcLong : ParsedIntent where
  action := .ClosePosition
  market := some "BTC".toList
  side := some .Long

/-- A long SOL position is opened, BTC is analyzed, and "it" is closed. -/
theorem closes_other_market :
    (parseIntent analyzed.1 (said "close it" 60)).2 = .resolved closeBtcLong ∧
    ¬ interpreter.Always (fun _ h => OneSource h) interpreter.init []
      [said "open sol long 2x $10" 0, said "analyze btc" 30, said "close it" 60] := by
  have hresolved : (parseIntent analyzed.1 (said "close it" 60)).2 = .resolved closeBtcLong := by
    decide +kernel
  have hlast : lastNamed [{ request := said "open sol long 2x $10" 0, answer := opened.2 },
      { request := said "analyze btc" 30, answer := analyzed.2 }] =
      some { action := .Analyze, market := some "BTC".toList } := by decide +kernel
  refine ⟨hresolved, fun hall => ?_⟩
  obtain ⟨origin, horigin, -, hside, -⟩ :=
    aboutOne_of_third (o := opened) (n := analyzed) hall rfl rfl hresolved
  obtain rfl := Option.some.inj (hlast.symm.trans horigin)
  cases hside (Option.some_ne_none _)

end OfflineInterpreter

end FlashEdge
