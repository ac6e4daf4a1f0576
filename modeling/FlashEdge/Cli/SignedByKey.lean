import FlashEdge.Cli.InputHandler

/-!
# The wallet a command trades with

`--key` puts a wallet into the manager for one command. But the positions that the command
decides on are looked up before that, both they and the signatures are the client's, which
keeps the key it was built with, and a magic command is run before the flag is looked at.
So the wallet that a command trades with (`tradesWith`) depends on the session alone:
whatever it does for a wallet, it does for this one (`handleInput_attributed`), and where
there is one, the command can go through (`exists_submitted`).
-/

namespace FlashEdge

namespace InputHandler

/-- The events that are a wallet's are this wallet's. -/
inductive CommandEvent.Attributed (wallet : Option String) : CommandEvent → Prop where
  | dispatched : Attributed wallet .dispatched
  | executed : Attributed wallet .executed
  | lookedUp {owner : String} : wallet = some owner → Attributed wallet (.lookedUp owner)
  | submitted {signer : String} : wallet = some signer → Attributed wallet (.submitted signer)

/-- The command is refused, or every look-up and every signature is the wallet's. -/
def OnWallet (address : String) (events : List CommandEvent) : Prop :=
  .dispatched ∉ events ∨ ∀ event ∈ events, event.Attributed (some address)

def Intent.submits : Intent → Bool
  | .parsed intent => (submitsWith intent.action).isSome
  | .diagnostic => false

end InputHandler

open InputHandler

namespace CommandSession

variable {s : CommandSession} {files : Files} {answers : Answers}

/-- The client's wallet, and the manager's for a magic tool, if the command can trade. -/
def tradesWith (s : CommandSession) : Command → Option String
  | .inline => none
  | .magic tool => if s.tradingMode = .magic ∧ tool.signs then s.walletManager.keypair else none
  | .intent intent => if intent.submits then s.flashClient else none

/-! ## What the stages do for a wallet -/

theorem lookUp_attributed {event : CommandEvent} (h : event ∈ s.lookUp) :
    event.Attributed s.flashClient := by
  unfold lookUp at h
  split at h
  · rename_i wallet hwallet
    obtain rfl := List.mem_singleton.mp h
    exact .lookedUp hwallet
  · cases h

theorem submits_of_has {actions : List ActionType}
    (hactions : ∀ action ∈ actions, (submitsWith action).isSome = true) (intent : Intent)
    (h : intent.has actions = true) : intent.submits = true := by
  cases intent with
  | diagnostic => cases h
  | parsed intent => exact hactions intent.action (List.contains_iff_mem.mp h)

theorem tradeActions_submit : ∀ action ∈ tradeActions, (submitsWith action).isSome = true := by
  decide

theorem sidedActions_submit : ∀ action ∈ sidedActions, (submitsWith action).isSome = true := by
  decide

theorem detectSide_lookUp {intent : Intent} {event : CommandEvent}
    (h : event ∈ (s.detectSide answers intent).1) :
    event ∈ s.lookUp ∧ intent.submits = true := by
  cases intent with
  | diagnostic => cases h
  | parsed intent =>
    simp only [detectSide] at h
    split at h
    · rename_i hneeds
      simp only [needsSide, Bool.and_eq_true] at hneeds
      exact ⟨h, submits_of_has sidedActions_submit (.parsed intent) hneeds.1.1⟩
    · cases h

/-- The side is all that the detection changes: what does not read it stays the same. -/
theorem detectSide_same {β : Type} (f : Intent → β)
    (hf : ∀ intent side, f (.parsed { intent with side }) = f (.parsed intent))
    {intent sided : Intent} (h : (s.detectSide answers intent).2 = some sided) :
    f sided = f intent := by
  cases intent with
  | diagnostic =>
    obtain rfl := Option.some.inj h
    rfl
  | parsed intent =>
    simp only [detectSide] at h
    split at h
    · obtain ⟨posList, -, hside⟩ := Option.bind_eq_some_iff.mp h
      split at hside
      · obtain rfl := Option.some.inj hside
        exact hf intent _
      · cases hside
    · obtain rfl := Option.some.inj h
      rfl

theorem detectSide_submits {intent sided : Intent}
    (h : (s.detectSide answers intent).2 = some sided) : sided.submits = intent.submits :=
  detectSide_same Intent.submits (fun _ _ => rfl) h

theorem detectSide_has {intent sided : Intent} (actions : List ActionType)
    (h : (s.detectSide answers intent).2 = some sided) :
    sided.has actions = intent.has actions :=
  detectSide_same (Intent.has actions) (fun _ _ => rfl) h

theorem verifyPosition_lookUp {market : List Char} {side : TradeSide} {event : CommandEvent}
    (h : event ∈ (s.verifyPosition answers market side).1) : event ∈ s.lookUp := by
  unfold verifyPosition at h
  split at h
  · exact h
  · split at h
    · exact h
    · rcases List.mem_append.mp h with h | h
      · exact h
      · exact h

theorem preTrade_lookUp {intent : Intent} {event : CommandEvent}
    (h : event ∈ (s.preTrade answers intent).1) :
    event ∈ s.lookUp ∧ intent.submits = true := by
  unfold preTrade at h
  split at h
  · rename_i htrade
    have htrades : intent.has tradeActions = true := (Bool.and_eq_true_iff.mp htrade).1
    refine ⟨?_, submits_of_has tradeActions_submit intent htrades⟩
    split at h
    · split at h
      · split at h
        · exact verifyPosition_lookUp h
        · cases h
      · cases h
    · cases h
  · cases h

theorem submission_attributed {action : ActionType} {event : CommandEvent}
    (h : event ∈ s.submission answers action) :
    event.Attributed (if (submitsWith action).isSome then s.flashClient else none) := by
  unfold submission at h
  split at h
  · rename_i signer hsigner
    split at h
    · rename_i hsubmits
      simp only [Bool.and_eq_true] at hsubmits
      obtain rfl := List.mem_singleton.mp h
      rw [if_pos hsubmits.1.1]
      exact .submitted hsigner
    · cases h
  · cases h

theorem dispatch_attributed {intent : Intent} {event : CommandEvent}
    (h : event ∈ (s.dispatch files answers intent).2) :
    event.Attributed (if intent.submits then s.flashClient else none) := by
  cases intent with
  | diagnostic =>
    simp only [dispatch, List.mem_cons, List.not_mem_nil, or_false] at h
    rcases h with rfl | rfl
    · exact .dispatched
    · exact .executed
  | parsed intent =>
    simp only [dispatch] at h
    split at h
    · obtain rfl := List.mem_singleton.mp h
      exact .dispatched
    · rename_i wallet _
      simp only [List.cons_append, List.nil_append, List.mem_cons] at h
      rcases h with rfl | rfl | h
      · exact .dispatched
      · exact .executed
      · exact submission_attributed (s := { s with toWalletSession := wallet }) h

theorem runIntent_attributed {restoreData : Option (String × String)} {intent : Intent}
    {event : CommandEvent} (h : event ∈ (s.runIntent files answers restoreData intent).2) :
    event.Attributed (if intent.submits then s.flashClient else none) := by
  unfold runIntent at h
  split at h
  · cases h
  · split at h
    · cases h
    · split at h
      · cases h
      · exact dispatch_attributed h

/-- The client keeps its key. -/
theorem overrideWallet_flashClient {key : Option String} {keyed : CommandSession}
    {restoreData : Option (String × String)}
    (h : s.overrideWallet files key = some (keyed, restoreData)) :
    keyed.flashClient = s.flashClient := by
  cases key with
  | none =>
    cases h
    rfl
  | some key =>
    rw [overrideWallet_some] at h
    split at h
    · cases h
    · cases h
      rfl

/-- What a command does: it looks positions up for an action that can submit, and then it may
run its intent, with its own wallet. -/
theorem handleIntent_events {key : Option String} {intent : Intent} {event : CommandEvent}
    (h : event ∈ (s.handleIntent files answers key intent).2) :
    (event ∈ s.lookUp ∧ intent.submits = true) ∨
      ∃ sided keyed restoreData, (s.detectSide answers intent).2 = some sided ∧
        s.overrideWallet files key = some (keyed, restoreData) ∧
        event ∈ (keyed.runIntent files answers restoreData sided).2 := by
  unfold handleIntent at h
  split at h
  · cases h
  · split at h
    · rename_i lookUps hdetect
      have hlookUps : (s.detectSide answers intent).1 = lookUps := congrArg Prod.fst hdetect
      exact Or.inl (detectSide_lookUp (by rwa [hlookUps]))
    · rename_i lookUps sided hdetect
      have hlookUps : (s.detectSide answers intent).1 = lookUps := congrArg Prod.fst hdetect
      have hside : (s.detectSide answers intent).2 = some sided := congrArg Prod.snd hdetect
      have hbefore : ∀ checks, (s.preTrade answers sided).1 = checks →
          event ∈ lookUps ++ checks → event ∈ s.lookUp ∧ intent.submits = true := by
        rintro checks rfl hmem
        rcases List.mem_append.mp hmem with hmem | hmem
        · exact detectSide_lookUp (by rwa [hlookUps])
        · rw [← detectSide_submits hside]
          exact preTrade_lookUp hmem
      split at h
      · rename_i checks hchecks
        exact Or.inl (hbefore checks (congrArg Prod.fst hchecks) h)
      · rename_i checks hchecks
        split at h
        · exact Or.inl (hbefore checks (congrArg Prod.fst hchecks) h)
        · rename_i keyed restoreData hoverride
          rcases List.mem_append.mp h with h | h
          · exact Or.inl (hbefore checks (congrArg Prod.fst hchecks) h)
          · exact Or.inr ⟨sided, keyed, restoreData, hside, hoverride, h⟩

theorem handleIntent_attributed {key : Option String} {intent : Intent} {event : CommandEvent}
    (h : event ∈ (s.handleIntent files answers key intent).2) :
    event.Attributed (if intent.submits then s.flashClient else none) := by
  rcases handleIntent_events h with
    ⟨hlooked, hsubmits⟩ | ⟨sided, keyed, restoreData, hside, hoverride, hran⟩
  · rw [if_pos hsubmits]
    exact lookUp_attributed hlooked
  · rw [← overrideWallet_flashClient hoverride, ← detectSide_submits hside]
    exact runIntent_attributed hran

theorem handleMagic_attributed {tool : MagicTool} {event : CommandEvent}
    (h : event ∈ s.handleMagic answers tool) :
    event.Attributed (s.tradesWith (.magic tool)) := by
  have hran : event ∈ [CommandEvent.dispatched, .executed] →
      event.Attributed (s.tradesWith (.magic tool)) := by
    simp only [List.mem_cons, List.not_mem_nil, or_false]
    rintro (rfl | rfl)
    · exact .dispatched
    · exact .executed
  unfold handleMagic at h
  split at h
  · cases h
  · rename_i hmagic
    split at h
    · cases h
    · split at h
      · cases h
      · split at h
        · rename_i signer hsigner
          rcases List.mem_append.mp h with h | h
          · exact hran h
          · split at h
            · rename_i hsigns
              obtain rfl := List.mem_singleton.mp h
              have htrades : s.tradingMode = .magic ∧ tool.signs = true :=
                ⟨not_not.mp hmagic, (Bool.and_eq_true_iff.mp hsigns).1⟩
              refine .submitted ?_
              show (if _ then _ else _) = _
              rw [if_pos htrades, hsigner]
            · cases h
        · exact hran h

/-- Whatever `--key` says, a command looks up and signs for the session's wallet. -/
theorem handleInput_attributed {key : Option String} {command : Command} {event : CommandEvent}
    (h : event ∈ (s.handleInput files answers key command).2) :
    event.Attributed (s.tradesWith command) := by
  unfold handleInput at h
  split at h
  · cases h
  · cases command with
    | inline => cases h
    | magic tool => exact handleMagic_attributed h
    | intent intent => exact handleIntent_attributed h

/-! ## A command that goes through -/

/-- Everything is well, the only position in the market is the intent's, and the check
before the trade is not answered. -/
def goesThrough (intent : ParsedIntent) : Answers :=
  { posList := some [⟨String.ofList (intent.market.getD []), .Long⟩] }

theorem detectSide_goesThrough (s : CommandSession) (intent : ParsedIntent) :
    ∃ side, (s.detectSide (goesThrough intent) (.parsed intent)).2 =
      some (.parsed { intent with side }) := by
  simp only [detectSide]
  split
  · refine ⟨some .Long, ?_⟩
    simp [goesThrough, matching]
  · exact ⟨intent.side, rfl⟩

theorem preTrade_goesThrough (s : CommandSession) (typed : ParsedIntent) (intent : Intent) :
    (s.preTrade (goesThrough typed) intent).2 = true := by
  have hhealth : checkHealth (goesThrough typed) = true := rfl
  have hpositions : (goesThrough typed).positions = none := rfl
  simp only [preTrade, hhealth, if_true]
  split
  · split
    · split
      · simp only [verifyPosition, hpositions]
      · rfl
    · rfl
  · rfl

/-- A client's command signs, whatever wallet the manager holds. -/
theorem dispatch_goesThrough {wallet : String} {typed intent : ParsedIntent}
    (hclient : s.flashClient = some wallet) (hkey : s.walletManager.keypair.isSome = true)
    (hsubmits : (submitsWith intent.action).isSome = true) :
    (s.dispatch files (goesThrough typed) (.parsed intent)).2 =
      [.dispatched, .executed, .submitted wallet] := by
  have hpasses := WalletSession.runMiddleware_connected files s.simulationMode intent.action hkey
  have hgoes : (goesThrough typed).submits = true := rfl
  simp only [dispatch, hpasses, submission, hclient, hsubmits, hgoes, hkey]
  rfl

/-- With its key loaded, nothing refuses it. -/
theorem runIntent_goesThrough {wallet : String} {typed intent : ParsedIntent}
    {restoreData : Option (String × String)}
    (hclient : s.flashClient = some wallet) (hkey : s.walletManager.keypair.isSome = true)
    (hsubmits : (submitsWith intent.action).isSome = true) :
    (s.runIntent files (goesThrough typed) restoreData (.parsed intent)).2 =
      [.dispatched, .executed, .submitted wallet] := by
  have hgates : (goesThrough typed).degradedMode = false ∧
      (goesThrough typed).isReadOnly = false ∧ (goesThrough typed).isTradeBlocked = false :=
    ⟨rfl, rfl, rfl⟩
  have hmagic : s.tradingMode ≠ .magic := by
    intro hmagic
    simp [flashClient, hmagic] at hclient
  simp only [runIntent, hgates, hmagic]
  exact dispatch_goesThrough hclient hkey hsubmits

/-- The session with the wallet of `--key`. -/
def keyed (s : CommandSession) (key address : String) : CommandSession :=
  { s with toWalletSession := s.restored key address }

/-- Nothing ends a command before its intent is run if its side is found, its checks pass and
its wallet is loaded. -/
theorem handleIntent_reaches {key : Option String} {intent sided : Intent}
    {loaded : CommandSession} {restoreData : Option (String × String)}
    (hintercepted : intent.has [.MarketMonitor, .DryRun] = false)
    (hside : (s.detectSide answers intent).2 = some sided)
    (hchecks : (s.preTrade answers sided).2 = true)
    (hoverride : s.overrideWallet files key = some (loaded, restoreData)) :
    s.handleIntent files answers key intent =
      ((loaded.runIntent files answers restoreData sided).1,
        (s.detectSide answers intent).1 ++ (s.preTrade answers sided).1 ++
          (loaded.runIntent files answers restoreData sided).2) := by
  rw [handleIntent, if_neg (by rw [hintercepted]; decide)]
  rw [← Prod.eta (s.detectSide answers intent), hside]
  dsimp only
  rw [← Prod.eta (s.preTrade answers sided), hchecks]
  dsimp only
  rw [hoverride]

theorem overrideWallet_key {key address : String}
    (hkey : keyAddress files s.store key = .ok address) :
    s.overrideWallet files (some key) =
      some (s.keyed key address, some (s.walletAddress, s.walletName)) := by
  rw [overrideWallet_some, hkey]
  rfl

/-- An action that can submit is not intercepted. -/
theorem not_intercepted {intent : Intent} (hsubmits : intent.submits = true) :
    intent.has [.MarketMonitor, .DryRun] = false := by
  cases intent with
  | diagnostic => rfl
  | parsed intent =>
    cases haction : intent.action <;> simp_all [Intent.has, Intent.submits, submitsWith]

theorem handleIntent_goesThrough {wallet key address : String} {intent : ParsedIntent}
    (hkey : keyAddress files s.store key = .ok address)
    (hclient : s.flashClient = some wallet)
    (hsubmits : (submitsWith intent.action).isSome = true) :
    ∃ before, (s.handleIntent files (goesThrough intent) (some key) (.parsed intent)).2 =
      before ++ [CommandEvent.dispatched, .executed, .submitted wallet] := by
  obtain ⟨side, hside⟩ := detectSide_goesThrough s intent
  have hchecks := preTrade_goesThrough s intent (.parsed { intent with side })
  have hruns : ((s.keyed key address).runIntent files (goesThrough intent)
      (some (s.walletAddress, s.walletName)) (.parsed { intent with side })).2 =
        [.dispatched, .executed, .submitted wallet] :=
    runIntent_goesThrough hclient rfl hsubmits
  have hsubmits : (Intent.parsed intent).submits = true := hsubmits
  rw [handleIntent_reaches (not_intercepted hsubmits) hside hchecks (overrideWallet_key hkey)]
  exact ⟨_, congrArg _ hruns⟩

theorem handleMagic_goesThrough {wallet : String} {tool : MagicTool}
    (h : s.tradesWith (.magic tool) = some wallet) :
    s.handleMagic {} tool = [.dispatched, .executed, .submitted wallet] := by
  simp only [tradesWith] at h
  split at h
  · rename_i hsigns
    have hwatch : tool ≠ .magicWatch := by
      rintro rfl
      exact absurd hsigns.2 (by decide)
    simp only [handleMagic, hsigns.1, hwatch, h, hsigns.2]
    rfl
  · cases h

/-- A command with a wallet to trade with can be signed by it, whatever `--key` says. -/
theorem exists_submitted {wallet key address : String} {command : Command}
    (hkey : keyAddress files s.store key = .ok address)
    (h : s.tradesWith command = some wallet) :
    ∃ answers before, (s.handleInput files answers (some key) command).2 =
      before ++ [CommandEvent.dispatched, .executed, .submitted wallet] := by
  cases command with
  | inline => cases h
  | magic tool => exact ⟨{}, [], handleMagic_goesThrough h⟩
  | intent intent =>
    simp only [tradesWith] at h
    split at h
    · rename_i hsubmits
      cases intent with
      | diagnostic => cases hsubmits
      | parsed intent => exact ⟨goesThrough intent, handleIntent_goesThrough hkey h hsubmits⟩
    · cases h

theorem signedByKey_iff (s : CommandSession) (files : Files) (key address : String)
    (command : Command) (hkey : keyAddress files s.store key = .ok address) :
    (∀ answers, OnWallet address (s.handleInput files answers (some key) command).2) ↔
      ∀ wallet, s.tradesWith command = some wallet → wallet = address := by
  constructor
  · intro h wallet htrades
    obtain ⟨answers, before, hevents⟩ := exists_submitted hkey htrades
    have honWallet := h answers
    rw [hevents] at honWallet
    rcases honWallet with hrefused | hall
    · exact absurd (by simp) hrefused
    · have hsigner := hall (.submitted wallet) (by simp)
      cases hsigner with
      | submitted hsame => exact (Option.some.inj hsame).symm
  · intro h answers
    refine Or.inr fun event hevent => ?_
    have hattributed := handleInput_attributed hevent
    cases hattributed with
    | dispatched => exact .dispatched
    | executed => exact .executed
    | lookedUp howner => exact .lookedUp (congrArg some (h _ howner)).symm
    | submitted hsigner => exact .submitted (congrArg some (h _ hsigner)).symm

/-! ## A close with another wallet -/

/-- Every path is a key file, of one wallet. -/
def oneKeyFile (address : String) : Files where
  existsSync _ := true
  validateWalletPath path := .ok path
  loadFromFile _ := .ok address

/-- A live session of a wallet that was connected by its path. -/
def connectedByPath (address : String) : CommandSession where
  walletManager := { keypair := some address, publicKey := some address }
  walletAddress := address
  walletName := "wallet"
  tradingMode := .live (some address)

/-- `close SOL long`. -/
def closeSol : Command :=
  .intent (.parsed { action := .ClosePosition, market := some ['S', 'O', 'L'], side := some .Long })

theorem signedByKey_iff_closeSol :
    (∀ answers, OnWallet "alice" ((connectedByPath "alice").handleInput (oneKeyFile "alice")
      answers (some "alice.json") closeSol).2) ↔
      ∀ wallet, (connectedByPath "alice").tradesWith closeSol = some wallet → wallet = "alice" :=
  signedByKey_iff _ _ _ _ _ rfl

/-- With `--key` the session's positions are looked up and the session's wallet signs. -/
theorem not_signedByKey :
    keyAddress (oneKeyFile "bob") (connectedByPath "alice").store "bob.json" = .ok "bob" ∧
      ¬ ∀ answers, OnWallet "bob" ((connectedByPath "alice").handleInput (oneKeyFile "bob")
        answers (some "bob.json") closeSol).2 := by
  refine ⟨rfl, fun h => ?_⟩
  have hevents : ((connectedByPath "alice").handleInput (oneKeyFile "bob")
      { positions := some [⟨"SOL", .Long⟩] } (some "bob.json") closeSol).2 =
      [.lookedUp "alice", .dispatched, .executed, .submitted "alice"] := by
    decide
  have honWallet := h { positions := some [⟨"SOL", .Long⟩] }
  rw [hevents] at honWallet
  rcases honWallet with hrefused | hall
  · exact hrefused (by decide)
  · have hsigner := hall (.submitted "alice") (by decide)
    cases hsigner with
    | submitted hsame => exact absurd hsame (by decide)

end CommandSession

end FlashEdge
