import FlashEdge.Cli.SignedByKey

/-!
# The gates and the lists of actions

A degraded or read-only network and a critical health stop the actions of `TRADE_ACTIONS`,
and the middleware asks for a key pair for those of `TRADING_ACTIONS`. Both lists are kept
by hand, and neither has every action whose tool submits (`submitsWith`); a magic tool
comes to neither. `gated_iff` says for which commands a transaction is stopped as it should
be, in any session that can submit it.
-/

namespace FlashEdge

open InputHandler WalletSession

namespace InputHandler

/-- The network is degraded or read-only, or the health is critical. -/
def Answers.Blocks (answers : Answers) : Prop :=
  answers.degradedMode = true ∨ answers.isReadOnly = true ∨ answers.isTradeBlocked = true

/-- An intent of an action in `TRADE_ACTIONS`. -/
def Command.listed : Command → Bool
  | .inline => false
  | .magic _ => false
  | .intent typed => typed.has TRADE_ACTIONS

end InputHandler

namespace CommandSession

variable {s : CommandSession} {files : Files} {answers : Answers}

/-- The command's tool can submit a transaction, in the mode of the session. -/
def canSubmit (s : CommandSession) : Command → Bool
  | .inline => false
  | .magic tool => s.tradingMode = .magic && tool.signs
  | .intent intent => s.flashClient.isSome && intent.submits

/-- The terminal does not dispatch it while a gate is closed, and its tool is not run while
no wallet is connected and none can be restored. -/
structure Gated (s : CommandSession) (files : Files) (command : Command) : Prop where
  gates : ∀ answers key, answers.Blocks →
    .dispatched ∉ (s.handleInput files answers key command).2
  wallet : s.walletManager.keypair = none → s.recalled files = none →
    ∀ answers, .executed ∉ (s.handleInput files answers none command).2

/-! ## The lists -/

/-- What the gates stop, the middleware asks a key pair for. -/
theorem trading_of_trade {action : ActionType} (h : TRADE_ACTIONS.contains action = true) :
    isTradingAction action = true := by
  have hsub : ∀ action ∈ TRADE_ACTIONS, isTradingAction action = true := by decide
  exact hsub action (List.contains_iff_mem.mp h)

/-- Without a wallet the middleware blocks exactly the actions of its list. -/
theorem runMiddleware_eq_none_iff {wallet : WalletSession} (action : ActionType)
    (hkey : wallet.walletManager.keypair = none) (hrecalled : wallet.recalled files = none) :
    wallet.runMiddleware files false action = none ↔ isTradingAction action = true := by
  cases hlisted : isTradingAction action with
  | false => simp [runMiddleware, walletMiddleware, readOnlyMiddleware, hlisted]
  | true =>
    have hrestored : wallet.tryRestoreWalletSession files = none := by
      rw [tryRestoreWalletSession_eq, hrecalled]
      rfl
    simp [runMiddleware, walletMiddleware, hlisted, hkey, hrestored]

/-! ## What is stopped -/

theorem lookUp_only {event : CommandEvent} (h : event ∈ s.lookUp) :
    ∃ wallet, event = .lookedUp wallet := by
  unfold lookUp at h
  split at h
  · rename_i wallet _
    exact ⟨wallet, List.mem_singleton.mp h⟩
  · cases h

theorem runIntent_blocked {intent : Intent} {restoreData : Option (String × String)}
    (hblocks : answers.Blocks) (hlisted : intent.has TRADE_ACTIONS = true) :
    (s.runIntent files answers restoreData intent).2 = [] := by
  unfold runIntent
  rw [hlisted, Bool.and_true, Bool.and_true]
  split
  · rfl
  · rename_i hnetwork
    have hhealth : answers.isTradeBlocked = true := by
      rcases hblocks with h | h | h
      · exact absurd (by rw [h]; rfl) hnetwork
      · exact absurd (by rw [h, Bool.or_true]) hnetwork
      · exact h
    rw [if_pos hhealth]

theorem gates_of_listed {command : Command} (hlisted : command.listed = true)
    (hblocks : answers.Blocks) (key : Option String) :
    .dispatched ∉ (s.handleInput files answers key command).2 := by
  intro h
  unfold handleInput at h
  split at h
  · cases h
  · cases command with
    | inline => cases hlisted
    | magic tool => cases hlisted
    | intent typed =>
      rcases handleIntent_events h with
        ⟨hlooked, -⟩ | ⟨sided, keyed, restoreData, hside, -, hran⟩
      · obtain ⟨wallet, hevent⟩ := lookUp_only hlooked
        cases hevent
      · have hsided : sided.has TRADE_ACTIONS = true :=
          (detectSide_has TRADE_ACTIONS hside).trans hlisted
        rw [runIntent_blocked hblocks hsided] at hran
        cases hran

theorem executed_dispatch {intent : Intent} {restoreData : Option (String × String)}
    {event : CommandEvent} (h : event ∈ (s.runIntent files answers restoreData intent).2) :
    event ∈ (s.dispatch files answers intent).2 := by
  unfold runIntent at h
  split at h
  · cases h
  · split at h
    · cases h
    · split at h
      · cases h
      · exact h

theorem wallet_of_listed {command : Command} (hlisted : command.listed = true)
    (hclient : s.flashClient.isSome = true) (hkey : s.walletManager.keypair = none)
    (hrecalled : s.recalled files = none) (answers : Answers) :
    .executed ∉ (s.handleInput files answers none command).2 := by
  intro h
  unfold handleInput at h
  split at h
  · cases h
  · cases command with
    | inline => cases hlisted
    | magic tool => cases hlisted
    | intent typed =>
      rcases handleIntent_events h with
        ⟨hlooked, -⟩ | ⟨sided, keyed, restoreData, hside, hoverride, hran⟩
      · obtain ⟨wallet, hevent⟩ := lookUp_only hlooked
        cases hevent
      · have hsided : sided.has TRADE_ACTIONS = true :=
          (detectSide_has TRADE_ACTIONS hside).trans hlisted
        cases hoverride
        have hran := executed_dispatch hran
        cases sided with
        | diagnostic => cases hsided
        | parsed intent =>
          have hblocked : s.runMiddleware files s.simulationMode intent.action = none := by
            have hlive : s.simulationMode = false := by
              rw [simulationMode, Option.isNone_eq_false_iff, hclient]
            rw [hlive]
            exact (runMiddleware_eq_none_iff intent.action hkey hrecalled).mpr
              (trading_of_trade hsided)
          simp only [dispatch, hblocked] at hran
          cases List.mem_singleton.mp hran

/-! ## What is not -/

theorem dispatched_dispatch (s : CommandSession) (files : Files) (answers : Answers)
    (intent : Intent) : .dispatched ∈ (s.dispatch files answers intent).2 := by
  cases intent with
  | diagnostic => exact List.mem_cons_self
  | parsed intent =>
    simp only [dispatch]
    split
    · exact List.mem_cons_self
    · exact List.mem_cons_self

/-- In live mode an action that the gates do not stop is dispatched. -/
theorem runIntent_unlisted {intent : Intent} {restoreData : Option (String × String)}
    (hclient : s.flashClient.isSome = true) (hunlisted : intent.has TRADE_ACTIONS = false) :
    .dispatched ∈ (s.runIntent files answers restoreData intent).2 := by
  have hmagic : s.tradingMode ≠ .magic := by
    intro hmagic
    simp [flashClient, hmagic] at hclient
  simp only [runIntent, hunlisted, hmagic, Bool.and_false]
  exact dispatched_dispatch s files answers intent

theorem dispatched_of_unlisted {command : Command} (hsubmits : s.canSubmit command = true)
    (hunlisted : command.listed = false) :
    ∃ answers, answers.Blocks ∧ .dispatched ∈ (s.handleInput files answers none command).2 := by
  cases command with
  | inline => cases hsubmits
  | magic tool =>
    obtain ⟨hmagic, hsigns⟩ := Bool.and_eq_true_iff.mp hsubmits
    have hwatch : tool ≠ .magicWatch := by
      rintro rfl
      exact absurd hsigns (by decide)
    refine ⟨{ degradedMode := true }, Or.inl rfl, ?_⟩
    show _ ∈ s.handleMagic { degradedMode := true } tool
    simp only [handleMagic, of_decide_eq_true hmagic, hwatch]
    cases s.walletManager.keypair with
    | none => exact List.mem_cons_self
    | some signer => exact List.mem_cons_self
  | intent typed =>
    obtain ⟨hclient, hsubmits⟩ := Bool.and_eq_true_iff.mp hsubmits
    cases typed with
    | diagnostic => cases hsubmits
    | parsed intent =>
      -- the gates are read after the checks, so these go through as they do when it is open
      let closed : Answers := { goesThrough intent with degradedMode := true }
      obtain ⟨side, hside⟩ := detectSide_goesThrough s intent
      have hchecks := preTrade_goesThrough s intent (.parsed { intent with side })
      have hside : (s.detectSide closed (.parsed intent)).2 =
          some (.parsed { intent with side }) := hside
      have hchecks : (s.preTrade closed (.parsed { intent with side })).2 = true := hchecks
      refine ⟨closed, Or.inl rfl, ?_⟩
      show _ ∈ (s.handleIntent files closed none (.parsed intent)).2
      rw [handleIntent_reaches (not_intercepted hsubmits) hside hchecks rfl]
      refine List.mem_append_right _ (runIntent_unlisted hclient ?_)
      exact hunlisted

theorem gated_iff (s : CommandSession) (files : Files) (command : Command)
    (hsubmits : s.canSubmit command = true) : s.Gated files command ↔ command.listed = true := by
  constructor
  · intro hgated
    by_contra hunlisted
    obtain ⟨answers, hblocks, hdispatched⟩ :=
      dispatched_of_unlisted hsubmits (Bool.eq_false_of_not_eq_true hunlisted)
    exact hgated.gates answers none hblocks hdispatched
  · intro hlisted
    refine ⟨fun answers key hblocks => gates_of_listed hlisted hblocks key,
      fun hkey hrecalled answers => ?_⟩
    refine wallet_of_listed hlisted ?_ hkey hrecalled answers
    cases command with
    | inline => cases hlisted
    | magic tool => cases hlisted
    | intent intent => exact (Bool.and_eq_true_iff.mp hsubmits).1

theorem gated_iff_closeSol :
    (connectedByPath "alice").Gated (oneKeyFile "alice") closeSol ↔ closeSol.listed = true :=
  gated_iff _ _ _ rfl

/-- `faf stake 10`. -/
def fafStake : Command := .intent (.parsed { action := .FafStake })

/-- With every endpoint down a stake is dispatched and signed. -/
theorem not_gated :
    (connectedByPath "alice").canSubmit fafStake = true ∧
      ¬ (connectedByPath "alice").Gated (oneKeyFile "alice") fafStake := by
  refine ⟨rfl, fun hgated => ?_⟩
  have hevents : ((connectedByPath "alice").handleInput (oneKeyFile "alice")
      { degradedMode := true } none fafStake).2 =
        [.dispatched, .executed, .submitted "alice"] := by
    decide
  exact hgated.gates { degradedMode := true } none (Or.inl rfl) (by rw [hevents]; decide)

end CommandSession

end FlashEdge
