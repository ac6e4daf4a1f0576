import FlashEdge.Ai.CommandWords
import FlashEdge.Theory.Captures

/-!
# What the parser's intents hold

Every expression of `localParse` gives an intent of its own shape, so what holds of all intents
is shown expression by expression: `Yields` says it of an outcome, and the combinators of the
parser keep it. Shown here is which group gives which actions, and that an intent with a side
has a market too: a market is resolved from letters that were read, and what is resolved from
letters is no empty text.

- `resolveMarket_ne_nil`: a text that is not blank resolves to one that is not empty.
- `Paired`: an intent with a side names a market, and one with a collateral a side.
- `Shaped`: the action is one of the group's, or help, and the intent is paired.
- `paired_localParse`: every intent of the parser is paired.
-/

namespace FlashEdge

/-- The groups of the parser's expressions. -/
inductive CommandGroup where
  | help
  | wallet
  | data
  | open
  | trigger
  | limit
  | close
  | collateral
  | agent
  | swap
  | faf
  | earn
deriving DecidableEq

/-- The group whose commands have the action. -/
def ActionType.group : ActionType → CommandGroup
  | .Help => .help
  | .WalletImport | .WalletList | .WalletUse | .WalletRemove | .WalletDisconnect
  | .WalletConnect | .WalletAddress | .WalletBalance | .WalletTokens | .WalletStatus => .wallet
  | .GetPortfolio | .GetPositions | .GetVolume | .GetOpenInterest | .GetLeaderboard | .GetFees
  | .FlashMarkets | .GetMarketData => .data
  | .OpenPosition => .open
  | .SetTpSl | .RemoveTpSl => .trigger
  | .LimitOrder | .EditLimitOrder | .CancelOrder => .limit
  | .ClosePosition => .close
  | .AddCollateral | .RemoveCollateral => .collateral
  | .Analyze | .RiskReport | .Dashboard | .WhaleActivity | .LiquidationMap | .FundingDashboard
  | .LiquidityDepth | .ProtocolHealth | .TradeHistory | .MarketMonitor | .DryRun
  | .PortfolioState | .PortfolioExposure | .PortfolioRebalance | .ReversePosition
  | .CloseAll => .agent
  | .Swap => .swap
  | .FafStatus | .FafStake | .FafUnstake | .FafClaim | .FafTier | .FafRewards | .FafReferral
  | .FafPoints | .FafUnstakeRequests | .FafCancelUnstake => .faf
  | .EarnStatus | .EarnAddLiquidity | .EarnRemoveLiquidity | .EarnStake | .EarnUnstake
  | .EarnClaimRewards | .EarnInfo | .EarnBest | .EarnPnl | .EarnDemand | .EarnRotate
  | .EarnSimulate | .EarnDashboard | .EarnPositions | .EarnIntegrations | .EarnHistory => .earn

namespace Interpreter

open Pattern

/-- The outcome is nothing, or an intent with the property. -/
def Yields (P : ParsedIntent → Prop) (o : Option ParsedIntent) : Prop :=
  ∀ intent, o = some intent → P intent

namespace Yields

variable {P : ParsedIntent → Prop}

theorem none : Yields P none := fun _ h => by cases h

theorem some {intent : ParsedIntent} (h : P intent) : Yields P (some intent) := by
  rintro _ ⟨⟩
  exact h

theorem nil : Yields P (firstOf []) := none

/-- The first that returns is one of them. -/
theorem cons {o : Option ParsedIntent} {os : List (Option ParsedIntent)} (h : Yields P o)
    (hs : Yields P (firstOf os)) : Yields P (firstOf (o :: os)) := by
  cases o with
  | none => exact hs
  | some intent => exact h

theorem ite {c : Prop} [Decidable c] {o o' : Option ParsedIntent} (h : c → Yields P o)
    (h' : ¬ c → Yields P o') : Yields P (if c then o else o') := by
  split
  · next hc => exact h hc
  · next hc => exact h' hc

theorem map {α : Type} {f : α → ParsedIntent} {o : Option α} (h : ∀ a, o = .some a → P (f a)) :
    Yields P (o.map f) := by
  cases o with
  | none => exact none
  | some a => exact some (h a rfl)

theorem bind {α : Type} {o : Option α} {f : α → Option ParsedIntent}
    (h : ∀ a, o = .some a → Yields P (f a)) : Yields P (o >>= f) := by
  cases o with
  | none => exact none
  | some a => exact h a rfl

theorem test {p : Pattern} {intent : ParsedIntent} (h : P intent) (text : List Char) :
    Yields P (onTest p intent text) := ite (fun _ => some h) fun _ => none

theorem onMatch {p : Pattern} {f : Match → Option ParsedIntent} {text : List Char}
    (h : ∀ m, p.exec text = .some m → Yields P (f m)) : Yields P (onMatch p f text) := bind h

/-- An expression that does not match. -/
theorem of_exec {p : Pattern} {text : List Char} (h : p.exec text = .none)
    (f : Match → Option ParsedIntent) : Yields P (Interpreter.onMatch p f text) := by
  unfold Interpreter.onMatch
  rw [h]
  exact none

theorem mono {Q : ParsedIntent → Prop} {o : Option ParsedIntent} (h : Yields P o)
    (hPQ : ∀ intent, P intent → Q intent) : Yields Q o := fun intent hi => hPQ _ (h intent hi)

end Yields

/-! ## Resolved markets -/

theorem isSpace_upper {c : Char} (hc : isSpace c = false) : isSpace c.toUpper = false := by
  unfold Char.toUpper
  split
  · next hlower =>
    have hlow : 97 ≤ c.val.toNat := UInt32.le_iff_toNat_le.mp hlower.1
    have hhigh : c.val.toNat ≤ 122 := UInt32.le_iff_toNat_le.mp hlower.2
    refine isSpace_visible ?_
    show 33 ≤ (c.val + ('A'.val - 'a'.val)).toNat ∧ (c.val + ('A'.val - 'a'.val)).toNat ≤ 126
    rw [UInt32.toNat_add]
    show 33 ≤ (c.val.toNat + 4294967264) % 4294967296 ∧
      (c.val.toNat + 4294967264) % 4294967296 ≤ 126
    omega
  · exact hc

/-- What is left of a text after trimming does not begin with a space. -/
theorem trim_cons {t : List Char} (h : trim t ≠ []) :
    ∃ c rest, trim t = c :: rest ∧ isSpace c = false := by
  have hprefix : trim t <+: t.dropWhile isSpace := by
    unfold trim
    rw [← List.reverse_suffix, List.reverse_reverse]
    exact List.dropWhile_suffix isSpace
  cases htrim : trim t with
  | nil => exact absurd htrim h
  | cons c rest =>
    rw [htrim] at hprefix
    obtain ⟨tail, htail⟩ := hprefix
    have hdrop : t.dropWhile isSpace = c :: (rest ++ tail) := htail.symm
    have hhead := List.head?_dropWhile_not isSpace t
    rw [hdrop] at hhead
    exact ⟨c, rest, rfl, by simpa using hhead⟩

/-- A text with a visible character is not trimmed away. -/
theorem trim_ne_nil {t : List Char} {c : Char} (hmem : c ∈ t) (hc : isSpace c = false) :
    trim t ≠ [] := by
  intro hnil
  unfold trim at hnil
  rw [List.reverse_eq_nil_iff, List.dropWhile_eq_nil_iff] at hnil
  have hne : t.dropWhile isSpace ≠ [] := by
    intro hdrop
    have hspace := List.dropWhile_eq_nil_iff.mp hdrop c hmem
    rw [hc] at hspace
    cases hspace
  obtain ⟨d, rest, hcons⟩ := List.exists_cons_of_ne_nil hne
  have hd := hnil d (by rw [hcons]; simp)
  have hhead := List.head?_dropWhile_not isSpace t
  rw [hcons] at hhead
  rw [show isSpace d = false by simpa using hhead] at hd
  cases hd

theorem lookUp_ne_nil {entries : List (List Char × List Char)} {key symbol : List Char}
    (h : lookUp entries key = some symbol) : symbol ≠ [] := by
  obtain ⟨e, he, rfl⟩ := Option.map_eq_some_iff.mp h
  have htest := List.find?_some he
  intro hnil
  rw [hnil, List.isEmpty_nil, Bool.not_true, Bool.and_false] at htest
  cases htest

/-- What resolves from a text that is not blank is not empty. -/
theorem resolveMarket_ne_nil (data : ParserData) {t : List Char} (h : trim t ≠ []) :
    resolveMarket data t ≠ [] := by
  obtain ⟨c, rest, htrim, hc⟩ := trim_cons h
  have hupper : upperCase (trim t) = c.toUpper :: upperCase rest := by
    rw [htrim]
    rfl
  have hcollapsed : spaces.replaceAll (fun _ => []) (upperCase (trim t)) ≠ [] := by
    rw [hupper]
    unfold replaceAll
    have hkeep := replaceFrom_spaces_word (w := [c.toUpper])
      (fun d hd => List.mem_singleton.mp hd ▸ isSpace_upper hc) (fun _ => []) [] (upperCase rest)
    rw [List.singleton_append] at hkeep
    rw [hkeep]
    exact List.cons_ne_nil _ _
  unfold resolveMarket resolveMarketWith
  dsimp only
  rw [if_neg h]
  refine iteInduction (motive := (· ≠ [])) (fun hresolved => hresolved.1) fun _ => ?_
  refine iteInduction (motive := (· ≠ [])) (fun _ => ?_) fun _ => ?_
  · rw [hupper]
    exact List.cons_ne_nil _ _
  refine iteInduction (motive := (· ≠ [])) (fun _ => hcollapsed) fun _ => ?_
  split
  · next hsymbol => exact lookUp_ne_nil hsymbol
  · split
    · next hsymbol => exact lookUp_ne_nil hsymbol
    · exact hcollapsed

/-! ## Captured words -/

theorem isSpace_lower {c : Char} (hc : c.isLower = true) : isSpace c = false := by
  refine isSpace_visible ?_
  have hrange : 'a'.val ≤ c.val ∧ c.val ≤ 'z'.val :=
    (Bool.and_eq_true_iff.mp hc).imp of_decide_eq_true of_decide_eq_true
  have hlow : 97 ≤ c.val.toNat := UInt32.le_iff_toNat_le.mp hrange.1
  have hhigh : c.val.toNat ≤ 122 := UInt32.le_iff_toNat_le.mp hrange.2
  show 33 ≤ c.val.toNat ∧ c.val.toNat ≤ 126
  omega

/-- The group captures a word of small letters. -/
def CapturesLetters (p : Pattern) (n : ℕ) : Prop :=
  p.binds n = true ∧ (p.groups.filter fun g => g.1 = n) = [(n, letters)]

theorem letters_captured {p : Pattern} {n : ℕ} (hp : CapturesLetters p n) {text : List Char}
    {m : Match} (h : p.exec text = some m) :
    m.group n ≠ [] ∧ ∀ c ∈ m.group n, c.isLower = true := by
  obtain ⟨-, q, s, r, hq, hread⟩ := group_success h hp.1
  have hmem : (n, q) ∈ p.groups.filter fun g => g.1 = n :=
    List.mem_filter.mpr ⟨hq, decide_eq_true rfl⟩
  rw [hp.2] at hmem
  obtain rfl : q = letters := (Prod.mk.inj (List.mem_singleton.mp hmem)).2
  refine ⟨fun hnil => ?_, fun c hc => ?_⟩
  · have hnull := hread.nullable hnil
    cases hnull
  · simpa [letters, many1, allows] using hread.allowed c hc

theorem resolveMarket_captured (data : ParserData) {p : Pattern} {n : ℕ}
    (hp : CapturesLetters p n) {text : List Char} {m : Match} (h : p.exec text = some m) :
    resolveMarket data (m.group n) ≠ [] := by
  obtain ⟨hne, hlower⟩ := letters_captured hp h
  obtain ⟨c, rest, hcons⟩ := List.exists_cons_of_ne_nil hne
  have hmem : c ∈ m.group n := hcons ▸ List.mem_cons_self
  exact resolveMarket_ne_nil data (trim_ne_nil hmem (isSpace_lower (hlower c hmem)))

/-! ## Sides come with markets -/

/-- An intent with a side has a market, one with a collateral a side, and an open has both. -/
structure Paired (intent : ParsedIntent) : Prop where
  side : intent.side ≠ none → ∃ m, intent.market = some m ∧ m ≠ []
  collateral : intent.collateral ≠ none → intent.side ≠ none
  opened : intent.action = .OpenPosition → intent.side ≠ none ∧ intent.collateral ≠ none

/-- An intent of a group's commands. -/
structure Shaped (g : CommandGroup) (intent : ParsedIntent) : Prop where
  group : intent.action = .Help ∨ intent.action.group = g
  paired : Paired intent

/-- An intent without a side. -/
theorem Shaped.plain {g : CommandGroup} {intent : ParsedIntent}
    (hgroup : (intent.action = .Help || intent.action.group = g) = true)
    (hside : intent.side = none) (hcollateral : intent.collateral = none)
    (hopened : decide (intent.action = .OpenPosition) = false) : Shaped g intent where
  group := by simpa using hgroup
  paired :=
    { side := fun h => absurd hside h
      collateral := fun h => absurd hcollateral h
      opened := fun h => absurd h (of_decide_eq_false hopened) }

/-- An intent of a market and a side. -/
theorem Shaped.of_market {g : CommandGroup} {intent : ParsedIntent} {m : List Char}
    {side : TradeSide} (hgroup : (intent.action = .Help || intent.action.group = g) = true)
    (hmarket : intent.market = some m) (hm : m ≠ []) (hside : intent.side = some side)
    (hopened : decide (intent.action = .OpenPosition) = false) : Shaped g intent where
  group := by simpa using hgroup
  paired :=
    { side := fun _ => ⟨m, hmarket, hm⟩
      collateral := fun _ => by
        rw [hside]
        exact Option.some_ne_none side
      opened := fun h => absurd h (of_decide_eq_false hopened) }

/-- What a command for one side of a market gives. -/
theorem yields_sided (data : ParserData) {g : CommandGroup} {p : Pattern} {n : ℕ}
    (hp : CapturesLetters p n) {text : List Char} {m : Match} (h : p.exec text = some m)
    {o : Option TradeSide} {f : TradeSide → ParsedIntent}
    (hgroup : ∀ side, ((f side).action = .Help || (f side).action.group = g) = true)
    (hmarket : ∀ side, (f side).market = some (resolveMarket data (m.group n)))
    (hside : ∀ side, (f side).side = some side)
    (hopened : ∀ side, decide ((f side).action = .OpenPosition) = false) :
    Yields (Shaped g) (o.map f) :=
  .map fun side _ => .of_market (hgroup side) (hmarket side) (resolveMarket_captured data hp h)
    (hside side) (hopened side)

/-! ## The groups -/

theorem shaped_wallet (normalized lower : List Char) :
    Yields (Shaped .wallet) (walletCommands normalized lower) := by
  unfold walletCommands
  dsimp only
  repeat' apply Yields.cons
  all_goals first
    | with_reducible exact .nil
    | (with_reducible refine .test ?_ _); exact .plain rfl rfl rfl rfl
    | exact .onMatch fun m _ => .some (.plain rfl rfl rfl rfl)

theorem shaped_data (data : ParserData) (lower : List Char) :
    Yields (Shaped .data) (dataCommands data lower) := by
  unfold dataCommands
  repeat' apply Yields.cons
  all_goals first
    | with_reducible exact .nil
    | (with_reducible refine .test ?_ _); exact .plain rfl rfl rfl rfl
    | exact .onMatch fun m _ => .ite (fun _ => .some (.plain rfl rfl rfl rfl)) fun _ => .none

theorem knownAliases_ne_nil : ∀ e ∈ knownAliases, e.2 ≠ [] := by decide +kernel

theorem fuzzyMarket_ne_nil {data : ParserData} {token market : List Char}
    (h : fuzzyMarket data token = some market) : market ≠ [] := by
  unfold fuzzyMarket at h
  dsimp only at h
  split at h
  · next hlisted =>
    obtain rfl := Option.some.inj h
    exact (data.market_name _ hlisted).1
  · split at h
    · next m hm =>
      obtain rfl := Option.some.inj h
      exact (data.market_name _ (List.mem_of_find?_eq_some hm)).1
    · obtain ⟨e, he, rfl⟩ := Option.map_eq_some_iff.mp h
      obtain ⟨symbol, -, hknown⟩ := List.mem_flatMap.mp (List.mem_of_find?_eq_some he)
      exact knownAliases_ne_nil e (List.mem_filter.mp hknown).1

/-- The market of an open is one of the listed ones, or one that is close. -/
theorem openMarket_ne_nil {data : ParserData} {body market : List Char}
    (h : (if resolveMarket data body ∈ data.markets then some (resolveMarket data body)
      else fuzzyMarket data body) = some market) : market ≠ [] := by
  split at h
  · next hlisted =>
    obtain rfl := Option.some.inj h
    exact (data.market_name _ hlisted).1
  · exact fuzzyMarket_ne_nil h

theorem shaped_flexParseOpen (data : ParserData) (input : List Char) :
    Yields (Shaped .open) (flexParseOpen data input) := by
  unfold flexParseOpen
  dsimp only
  split
  · exact .none
  refine .ite (fun _ => .none) fun _ => ?_
  split
  · next _ _ market collateral hmarket hcollateral =>
    refine .ite (fun _ => .none) fun _ => .ite (fun _ => .none) fun _ => .some ?_
    exact ⟨.inr rfl, fun _ => ⟨market, rfl, openMarket_ne_nil hmarket⟩,
      fun _ => Option.some_ne_none _, fun _ => ⟨Option.some_ne_none _, Option.some_ne_none _⟩⟩
  · exact .none

theorem shaped_open (data : ParserData) (lower : List Char) :
    Yields (Shaped .open) (openCommands data lower) := by
  unfold openCommands
  dsimp only
  have hfuzzy : Yields (Shaped .open) (if fuzzyCorrectTokens data lower ≠ lower then
      flexParseOpen data (fuzzyCorrectTokens data lower) else none) :=
    .ite (fun _ => shaped_flexParseOpen data _) fun _ => .none
  refine .cons (.ite (fun _ => .cons (shaped_flexParseOpen data lower) (.cons hfuzzy .nil))
    fun _ => .none) ?_
  exact .cons (.ite (fun _ => hfuzzy) fun _ => .none) .nil

theorem shaped_flexParseTpSl (data : ParserData) (input : List Char) :
    Yields (Shaped .trigger) (flexParseTpSl data input) :=
  .bind fun _ _ => .ite (fun _ => .none) fun _ => .some (.plain rfl rfl rfl rfl)

theorem shaped_trigger (data : ParserData) (lower : List Char) :
    Yields (Shaped .trigger) (triggerCommands data lower) := by
  unfold triggerCommands
  dsimp only
  refine .cons (.ite (fun _ => shaped_flexParseTpSl data lower) fun _ => .none) ?_
  refine .cons (.onMatch fun m hm => yields_sided data (n := 2) ⟨rfl, rfl⟩ hm (fun _ => rfl)
    (fun _ => rfl) (fun _ => rfl) fun _ => rfl) ?_
  refine .cons (.onMatch fun m hm => yields_sided data (n := 3) ⟨rfl, rfl⟩ hm (fun _ => rfl)
    (fun _ => rfl) (fun _ => rfl) fun _ => rfl) ?_
  refine .cons (.test (.plain rfl rfl rfl rfl) _) ?_
  exact .cons (.onMatch fun m hm => yields_sided data (n := 2) ⟨rfl, rfl⟩ hm (fun _ => rfl)
    (fun _ => rfl) (fun _ => rfl) fun _ => rfl) .nil

theorem shaped_parseLimitOrder (data : ParserData) (input : List Char) :
    Yields (Shaped .limit) (parseLimitOrder data input) := by
  unfold parseLimitOrder
  dsimp only
  refine .ite (fun _ => .none) fun _ => .bind fun priceMatch _ => .bind fun sideMatch _ =>
    .bind fun side _ => .bind fun levMatch _ => .bind fun colMatch _ => ?_
  refine .ite (fun _ => .none) fun hmarket => .ite (fun _ => .none) fun _ => .some ?_
  obtain ⟨c, rest, hcons, hc⟩ := trim_cons (not_or.mp hmarket).1
  refine .of_market rfl rfl (resolveMarket_ne_nil data (trim_ne_nil ?_ hc)) rfl rfl
  rw [hcons]
  exact List.mem_cons_self

theorem shaped_limit (data : ParserData) (lower : List Char) :
    Yields (Shaped .limit) (limitCommands data lower) := by
  unfold limitCommands
  refine .cons (.ite (fun _ => .cons (shaped_parseLimitOrder data lower)
    (.cons (.some (.plain rfl rfl rfl rfl)) .nil)) fun _ => .none) ?_
  refine .cons (.onMatch fun m hm => ?_) (.cons (.onMatch fun m _ => .some (.plain rfl rfl rfl rfl))
    .nil)
  dsimp only
  split
  · refine .some (.of_market rfl rfl ?_ rfl rfl)
    refine iteInduction (motive := (· ≠ [])) (fun _ => by decide) fun hmarket => hmarket
  · exact .none

theorem shaped_close (data : ParserData) (lower : List Char) :
    Yields (Shaped .close) (closeCommands data lower) := by
  unfold closeCommands
  refine .cons (.onMatch fun m hm => yields_sided data (n := 3) ⟨rfl, rfl⟩ hm (fun _ => rfl)
    (fun _ => rfl) (fun _ => rfl) fun _ => rfl) ?_
  refine .cons (.onMatch fun m hm => yields_sided data (n := 2) ⟨rfl, rfl⟩ hm (fun _ => rfl)
    (fun _ => rfl) (fun _ => rfl) fun _ => rfl) ?_
  refine .cons (.onMatch fun m hm => yields_sided data (n := 1) ⟨rfl, rfl⟩ hm (fun _ => rfl)
    (fun _ => rfl) (fun _ => rfl) fun _ => rfl) ?_
  exact .cons (.onMatch fun m _ =>
    .ite (fun _ => .some (.plain rfl rfl rfl rfl)) fun _ => .none) .nil

theorem shaped_collateralCommand (data : ParserData) {action : ActionType}
    (hgroup : (action = .Help || action.group = .collateral) = true)
    (haction : decide (action = .OpenPosition) = false) {head : Pattern}
    (hhead : (head.groups.filter fun g => g.1 = 2) = []) (lower : List Char) :
    Yields (Shaped .collateral) (collateralCommand data action head lower) := by
  unfold collateralCommand
  refine .cons (.onMatch fun m hm => yields_sided data (n := 2) ?_ hm (fun _ => hgroup)
    (fun _ => rfl) (fun _ => rfl) fun _ => haction) ?_
  · refine ⟨by simp [seqs, binds], ?_⟩
    simp only [seqs, groups, List.nil_append, List.filter_append, hhead]
    rfl
  · refine .cons (.onMatch fun m _ => .ite (fun _ => .some (.plain hgroup rfl rfl haction))
      fun _ => .none) .nil

theorem shaped_collateral (data : ParserData) (lower : List Char) :
    Yields (Shaped .collateral) (collateralCommands data lower) :=
  .cons (shaped_collateralCommand data rfl rfl rfl lower)
    (.cons (shaped_collateralCommand data rfl rfl rfl lower) .nil)

theorem shaped_agent (data : ParserData) (lower : List Char) :
    Yields (Shaped .agent) (agentCommands data lower) := by
  have hreverse : ∀ {p : Pattern} (_ : CapturesLetters p 1) (side : Match → TradeSide),
      Yields (Shaped .agent) (onMatch p (fun m => some {
        action := .ReversePosition
        market := some (upperCase (m.group 1))
        side := some (side m) }) lower) := by
    intro p hp side
    refine .onMatch fun m hm => .some (.of_market rfl rfl (fun hnil => ?_) rfl rfl)
    exact (letters_captured hp hm).1 (List.map_eq_nil_iff.mp hnil)
  unfold agentCommands
  repeat' apply Yields.cons
  all_goals first
    | with_reducible exact .nil
    | (with_reducible refine .test ?_ _); exact .plain rfl rfl rfl rfl
    | exact .onMatch fun m _ => .some (.plain rfl rfl rfl rfl)
    | exact hreverse ⟨rfl, rfl⟩ _

theorem shaped_swap (data : ParserData) (lower : List Char) :
    Yields (Shaped .swap) (swapCommands data lower) := by
  unfold swapCommands
  dsimp only
  repeat' apply Yields.cons
  all_goals first
    | with_reducible exact .nil
    | (with_reducible refine .test ?_ _); exact .plain rfl rfl rfl rfl
    | exact .onMatch fun m _ => .some (.plain rfl rfl rfl rfl)

theorem shaped_faf (lower : List Char) : Yields (Shaped .faf) (fafCommands lower) := by
  unfold fafCommands
  refine .ite (fun _ => ?_) fun _ => .none
  repeat' apply Yields.cons
  all_goals first
    | with_reducible exact .nil
    | (with_reducible refine .some ?_); exact .plain rfl rfl rfl rfl
    | (with_reducible refine .test ?_ _); exact .plain rfl rfl rfl rfl
    | exact .onMatch fun m _ => .some (.plain rfl rfl rfl rfl)

theorem shaped_earn (normalized lower : List Char) :
    Yields (Shaped .earn) (earnCommands normalized lower) := by
  unfold earnCommands
  obtain ⟨earnBody, earnPool⟩ := extractEarnPool lower normalized
  dsimp only
  refine .ite (fun _ => ?_) fun _ => .none
  repeat' apply Yields.cons
  all_goals first
    | with_reducible exact .nil
    | (with_reducible refine .some ?_); exact .plain rfl rfl rfl rfl
    | (with_reducible refine .test ?_ _); exact .plain rfl rfl rfl rfl
    | exact .onMatch fun m _ => .some (.plain rfl rfl rfl rfl)
    | exact .onMatch fun m _ => .map fun _ _ => Shaped.plain rfl rfl rfl rfl

/-- **Every intent of the parser with a side names a market.** -/
theorem paired_localParse (data : ParserData) (input : List Char) :
    Yields Paired (localParse data input) := by
  have hgroup : ∀ {g : CommandGroup} {o : Option ParsedIntent}, Yields (Shaped g) o →
      Yields Paired o := fun h => h.mono fun _ hi => hi.paired
  exact .cons (hgroup (g := .help) (.test (.plain rfl rfl rfl rfl) _))
    (.cons (hgroup (shaped_wallet _ _)) (.cons (hgroup (shaped_data _ _))
    (.cons (hgroup (shaped_open _ _)) (.cons (hgroup (shaped_trigger _ _))
    (.cons (hgroup (shaped_limit _ _)) (.cons (hgroup (shaped_close _ _))
    (.cons (hgroup (shaped_collateral _ _)) (.cons (hgroup (shaped_agent _ _))
    (.cons (hgroup (shaped_swap _ _)) (.cons (hgroup (shaped_faf _))
    (.cons (hgroup (shaped_earn _ _)) .nil)))))))))))

end Interpreter

/-!
## The actions of the parser's groups

`localParse` returns the intent of the first expression that matches. Four commands put
an amount before the market or the pool, or take a percentage without a dollar sign:
adding and removing collateral, removing liquidity and unstaking. `Unheard` says that
an outcome is none of these actions. No other group gives them, and the groups that do
never match a text that ends with a dollar amount.
-/

/-- The actions whose commands do not end with a dollar amount. -/
def ActionType.amountFirst : ActionType → Bool
  | .AddCollateral | .RemoveCollateral | .EarnRemoveLiquidity | .EarnUnstake => true
  | _ => false

namespace Interpreter

open Pattern

/-- The outcome is not the intent of such an action. -/
def Unheard (o : Option ParsedIntent) : Prop :=
  ∀ intent, o = some intent → intent.action.amountFirst = false

theorem group_of_amountFirst {a : ActionType} (h : a.amountFirst = true) :
    a.group = .collateral ∨ a.group = .earn := by
  cases a with
  | AddCollateral | RemoveCollateral => exact .inl rfl
  | EarnRemoveLiquidity | EarnUnstake => exact .inr rfl
  | _ => cases h

/-- No other group gives such an action. -/
theorem unheard_of_shaped {g : CommandGroup} {o : Option ParsedIntent}
    (h : Yields (Shaped g) o) (hg : g ≠ .collateral ∧ g ≠ .earn) : Unheard o := by
  refine h.mono fun intent hi => Bool.eq_false_iff.mpr fun hfirst => ?_
  rcases hi.group with hhelp | rfl
  · rw [hhelp] at hfirst
    cases hfirst
  · rcases group_of_amountFirst hfirst with hcollateral | hearn
    · exact hg.1 hcollateral
    · exact hg.2 hearn

/-! ### Groups that want the amount before the end -/

/-- What an expression anchored at both ends may not read last. -/
theorem exec_of_lastAllows {p : Pattern} (hclosed : p.closed = true) {text : List Char}
    (hp : ∀ c, c.isDigit = true → p.lastAllows c = false) (hlast : Decimal.EndsInDigit text) :
    (seq start p).exec text = none := by
  obtain ⟨v, c, rfl, hc⟩ := hlast
  refine Option.eq_none_iff_forall_ne_some.mpr fun m hm => ?_
  obtain ⟨r, hr⟩ := success_of_whole hm hclosed
  have hallowed := hr.last v c rfl
  rw [hp c hc] at hallowed
  cases hallowed

/-- What an expression anchored at both ends may not read at all. -/
theorem exec_of_allows {p : Pattern} (hclosed : p.closed = true) {text : List Char} {c : Char}
    (hp : p.allows c = false) (hc : c ∈ text) : (seq start p).exec text = none := by
  refine Option.eq_none_iff_forall_ne_some.mpr fun m hm => ?_
  obtain ⟨r, hr⟩ := success_of_whole hm hclosed
  have hallowed := hr.allowed c hc
  rw [hp] at hallowed
  cases hallowed

/-- No expression for collateral ends with a digit. -/
theorem unheard_collateralCommand (data : ParserData) (action : ActionType) (head : Pattern)
    {lower : List Char} (hlast : Decimal.EndsInDigit lower) :
    Unheard (collateralCommand data action head lower) := by
  have hside : ∀ c : Char, c.isDigit = true → longOrShort.lastAllows c = false :=
    fun c => forall_digit (P := fun c => longOrShort.lastAllows c = false) (by decide)
  have hletter : ∀ c : Char, c.isDigit = true → letters.lastAllows c = false :=
    fun c => forall_digit (P := fun c => letters.lastAllows c = false) (by decide)
  have hwords : longOrShort.nullable = false ∧ letters.nullable = false := by decide
  refine Yields.cons (.of_exec (exec_of_lastAllows rfl (fun c hc => ?_) hlast) _)
    (Yields.cons (.of_exec (exec_of_lastAllows rfl (fun c hc => ?_) hlast) _) .nil)
  · simp [seqs, lastAllows, nullable, hside c hc, hwords]
  · simp [seqs, lastAllows, nullable, hletter c hc, hwords]

theorem unheard_collateral (data : ParserData) {lower : List Char}
    (hlast : Decimal.EndsInDigit lower) : Unheard (collateralCommands data lower) :=
  Yields.cons (unheard_collateralCommand data _ _ hlast)
    (Yields.cons (unheard_collateralCommand data _ _ hlast) .nil)

/-- No expression for a percentage reads a dollar sign. -/
theorem unheard_earn {num lower : List Char} (hnum : IsAmount num)
    (hends : EndsWithAmount num lower) (normalized : List Char) :
    Unheard (earnCommands normalized lower) := by
  have hdollar : '$' ∈ lower := by
    obtain ⟨pre, rfl⟩ := hends
    simp
  unfold earnCommands
  rw [extractEarnPool_amount hnum hends]
  dsimp only
  show Yields (fun intent => intent.action.amountFirst = false) _
  refine .ite (fun _ => ?_) fun _ => .none
  repeat' apply Yields.cons
  all_goals first
    | exact .nil
    | exact .some (by rfl)
    | exact .test (by rfl) _
    | exact .onMatch fun m _ => .some (by rfl)
    | exact .onMatch fun m _ => .map fun _ _ => by rfl
    | exact .of_exec (exec_of_allows rfl rfl hdollar) _

/-! ### The parser -/

/-- **A text that ends with a dollar amount is not such a command.** -/
theorem unheard_localParse (data : ParserData) {num input : List Char} (hnum : IsAmount num)
    (hends : EndsWithAmount num (lowerCase (normalize data input))) :
    Unheard (localParse data input) := by
  have hlast : Decimal.EndsInDigit (lowerCase (normalize data input)) := by
    obtain ⟨pre, hpre⟩ := hends
    rw [hpre]
    exact (hnum.last.append [' ', '$']).append pre
  refine Yields.cons (.test (by rfl) _) ?_
  refine .cons (unheard_of_shaped (shaped_wallet _ _) (by decide)) ?_
  refine .cons (unheard_of_shaped (shaped_data _ _) (by decide)) ?_
  refine .cons (unheard_of_shaped (shaped_open _ _) (by decide)) ?_
  refine .cons (unheard_of_shaped (shaped_trigger _ _) (by decide)) ?_
  refine .cons (unheard_of_shaped (shaped_limit _ _) (by decide)) ?_
  refine .cons (unheard_of_shaped (shaped_close _ _) (by decide)) ?_
  refine .cons (unheard_collateral _ hlast) ?_
  refine .cons (unheard_of_shaped (shaped_agent _ _) (by decide)) ?_
  refine .cons (unheard_of_shaped (shaped_swap _ _) (by decide)) ?_
  refine .cons (unheard_of_shaped (shaped_faf _) (by decide)) ?_
  exact .cons (unheard_earn hnum hends _) .nil

end Interpreter

/-!
## The numbers of intents

Numbers are read from digits, so that none is `NaN`, and an open is checked for finite numbers
before it is returned.

- `parseFloat_captured`: a group of digits is read as a number.
- `Priced`: an open has a finite collateral and leverage, a collateral command an amount.
- `priced_localParse`: every intent of the parser is priced.
-/

namespace Interpreter

open Pattern

theorem ofDigits_ne_nan (int fraction : List Char) : ofDigits int fraction ≠ .nan := by
  have hfinite : ∀ d, SdkNumber.finite d ≠ .nan := fun d h => by cases h
  have hinfinite : SdkNumber.posInfinity ≠ .nan := fun h => by cases h
  unfold ofDigits
  dsimp only
  generalize MAX_NUMBER = limit
  split
  · exact hfinite _
  · exact hinfinite

theorem parseFloat_ne_nan {c : Char} (hc : c.isDigit = true) (t : List Char) :
    parseFloat (c :: t) ≠ .nan := by
  have hint : (c :: t).takeWhile Char.isDigit ≠ [] := by
    rw [List.takeWhile_cons_of_pos hc]
    exact List.cons_ne_nil _ _
  unfold parseFloat
  dsimp only
  rw [if_neg fun h => hint h.1]
  exact ofDigits_ne_nan _ _

/-- A group of digits is read as a number. -/
theorem parseFloat_captured {p : Pattern} {n : ℕ} (hbinds : p.binds n = true)
    (hgroups : (p.groups.filter fun g => g.1 = n) = [(n, number)]) {text : List Char} {m : Match}
    (h : p.exec text = some m) : parseFloat (m.group n) ≠ .nan := by
  obtain ⟨-, q, s, r, hq, hread⟩ := group_success h hbinds
  have hmem : (n, q) ∈ p.groups.filter fun g => g.1 = n :=
    List.mem_filter.mpr ⟨hq, decide_eq_true rfl⟩
  rw [hgroups] at hmem
  obtain rfl : q = number := (Prod.mk.inj (List.mem_singleton.mp hmem)).2
  obtain ⟨c, t, hcons⟩ := List.exists_cons_of_ne_nil fun hnil => by
    have hnull := hread.nullable hnil
    cases hnull
  have hdigit : c.isDigit = true := by
    simpa [number, digits, many1, firstAllows, nullable] using hread.first c t hcons
  dsimp only at hcons
  rw [hcons]
  exact parseFloat_ne_nan hdigit t

/-- An open has a finite collateral and leverage, a collateral command an amount. -/
structure Priced (intent : ParsedIntent) : Prop where
  opened : intent.action = .OpenPosition →
    ∃ c l, intent.collateral = some (.finite c) ∧ intent.leverage = some (.finite l)
  amount : intent.action.group = .collateral → ∃ n, intent.amount = some n ∧ n ≠ .nan

theorem priced_of_shaped {g : CommandGroup} {o : Option ParsedIntent} (h : Yields (Shaped g) o)
    (hopen : g ≠ .open) (hcollateral : g ≠ .collateral) : Yields Priced o := by
  refine h.mono fun intent hshaped => ?_
  have hgroup : intent.action.group ≠ .open ∧ intent.action.group ≠ .collateral := by
    rcases hshaped.group with hhelp | hsame
    · rw [hhelp]
      decide
    · rw [hsame]
      exact ⟨hopen, hcollateral⟩
  refine ⟨fun haction => absurd ?_ hgroup.1, fun haction => absurd haction hgroup.2⟩
  rw [haction]
  rfl

theorem finite_of_positive {n : SdkNumber} (h : finitePositive n = true) : ∃ d, n = .finite d := by
  cases n with
  | finite d => exact ⟨d, rfl⟩
  | posInfinity => cases h
  | negInfinity => cases h
  | nan => cases h

theorem finite_of_atLeastOne {o : Option SdkNumber} (h : o.any finiteAtLeastOne = true) :
    ∃ d, o = some (.finite d) := by
  cases o with
  | none => cases h
  | some n =>
    cases n with
    | finite d => exact ⟨d, rfl⟩
    | posInfinity => cases h
    | negInfinity => cases h
    | nan => cases h

/-- What passes the checks of an open. -/
theorem priced_intent {market : List Char} {side : TradeSide} {collateral : SdkNumber}
    {leverage takeProfit stopLoss : Option SdkNumber}
    (hcollateral : finitePositive collateral = true)
    (hleverage : leverage.any finiteAtLeastOne = true) :
    Priced {
      action := .OpenPosition
      market := some market
      side := some side
      collateral := some collateral
      leverage
      takeProfit
      stopLoss } := by
  obtain ⟨c, rfl⟩ := finite_of_positive hcollateral
  obtain ⟨l, rfl⟩ := finite_of_atLeastOne hleverage
  exact ⟨fun _ => ⟨c, l, rfl, rfl⟩, fun haction => by cases haction⟩

theorem priced_flexParseOpen (data : ParserData) (input : List Char) :
    Yields Priced (flexParseOpen data input) := by
  unfold flexParseOpen
  dsimp only
  split
  · exact .none
  refine .ite (fun _ => .none) fun _ => ?_
  split
  · refine .ite (fun _ => .none) fun hcollateral => .ite (fun _ => .none) fun hleverage => .some ?_
    exact priced_intent (not_not.mp hcollateral) (not_not.mp hleverage)
  · exact .none

theorem priced_open (data : ParserData) (lower : List Char) :
    Yields Priced (openCommands data lower) := by
  unfold openCommands
  dsimp only
  have hfuzzy : Yields Priced (if fuzzyCorrectTokens data lower ≠ lower then
      flexParseOpen data (fuzzyCorrectTokens data lower) else none) :=
    .ite (fun _ => priced_flexParseOpen data _) fun _ => .none
  refine .cons (.ite (fun _ => .cons (priced_flexParseOpen data lower) (.cons hfuzzy .nil))
    fun _ => .none) ?_
  exact .cons (.ite (fun _ => hfuzzy) fun _ => .none) .nil

theorem priced_collateralCommand (data : ParserData) {action : ActionType}
    (haction : action ≠ .OpenPosition) {head : Pattern} (hbinds : head.binds 1 = true)
    (hhead : (head.groups.filter fun g => g.1 = 1) = [(1, number)]) (lower : List Char) :
    Yields Priced (collateralCommand data action head lower) := by
  unfold collateralCommand
  refine .cons (.onMatch fun m hm => .map fun side _ => ?_)
    (.cons (.onMatch fun m hm => .ite (fun _ => .some ?_) fun _ => .none) .nil)
  · refine ⟨fun h => absurd h haction, fun _ => ⟨_, rfl, parseFloat_captured ?_ ?_ hm⟩⟩
    · simp [seqs, binds, hbinds]
    · simp only [seqs, groups, List.nil_append, List.filter_append, hhead]
      rfl
  · refine ⟨fun h => absurd h haction, fun _ => ⟨_, rfl, parseFloat_captured ?_ ?_ hm⟩⟩
    · simp [seqs, binds, hbinds]
    · simp only [seqs, groups, List.nil_append, List.filter_append, hhead]
      rfl

/-- **Every intent of the parser is priced.** -/
theorem priced_localParse (data : ParserData) (input : List Char) :
    Yields Priced (localParse data input) := by
  have hcollateral : ∀ lower, Yields Priced (collateralCommands data lower) := fun lower =>
    .cons (priced_collateralCommand data (fun h => by cases h) rfl rfl lower)
      (.cons (priced_collateralCommand data (fun h => by cases h) rfl rfl lower) .nil)
  refine Yields.cons (priced_of_shaped (g := .help) (.test (.plain rfl rfl rfl rfl) _) (by decide)
    (by decide)) ?_
  refine .cons (priced_of_shaped (shaped_wallet _ _) (by decide) (by decide)) ?_
  refine .cons (priced_of_shaped (shaped_data _ _) (by decide) (by decide)) ?_
  refine .cons (priced_open data _) ?_
  refine .cons (priced_of_shaped (shaped_trigger _ _) (by decide) (by decide)) ?_
  refine .cons (priced_of_shaped (shaped_limit _ _) (by decide) (by decide)) ?_
  refine .cons (priced_of_shaped (shaped_close _ _) (by decide) (by decide)) ?_
  refine .cons (hcollateral _) ?_
  refine .cons (priced_of_shaped (shaped_agent _ _) (by decide) (by decide)) ?_
  refine .cons (priced_of_shaped (shaped_swap _ _) (by decide) (by decide)) ?_
  refine .cons (priced_of_shaped (shaped_faf _) (by decide) (by decide)) ?_
  exact .cons (priced_of_shaped (shaped_earn _ _) (by decide) (by decide)) .nil

end Interpreter

end FlashEdge
