import FlashEdge.Cli.SignedByKey
import FlashEdge.Wallet.DefaultWallet

/-!
# The wallet after a command with `--key`

`restoreWallet` puts the address and the name of the session back, and loads the key that
is registered under that name. A wallet that was connected by its path has no registered
name, a session without a wallet has nothing to load, and the failsafe of the magic mode
returns without the call: then the manager keeps the key of the command.

- `handleIntent_cases`, `runIntent_cases`: the exits of a command.
- `restoreWallet_keypair`: what the manager holds after a restoration.
- `KeptBy`: when the session wallet is back, whatever is answered on the way.
-/

namespace FlashEdge

open InputHandler WalletSession

namespace WalletStore

/-- A name with a path is a registered one. -/
theorem hasWallet_of_getWalletPath {store : WalletStore} {existsSync : String → Bool}
    {name path : String} (h : store.getWalletPath existsSync name = .ok path) :
    store.hasWallet name = true := by
  cases hclean : sanitizeName name with
  | error message =>
    simp [getWalletPath, hclean, bind, Except.bind] at h
  | ok safeName =>
    obtain ⟨w, hfound, -, -⟩ := (store.getWalletPath_eq existsSync hclean).mp h
    have hmatches : toLowerCase w.name = toLowerCase safeName := findEntry_matches hfound
    simp only [hasWallet, hclean, List.any_eq_true, Bool.or_eq_true, decide_eq_true_eq]
    exact ⟨w, findEntry_mem hfound, Or.inr hmatches⟩

end WalletStore

namespace InputHandler

/-- The wallet after the tool of an intent. -/
def Intent.wallet (wallet : WalletSession) (files : Files) : Intent → WalletSession
  | .parsed intent => (wallet.walletTool files intent).1
  | .diagnostic => wallet

end InputHandler

namespace CommandSession

variable {s : CommandSession} {files : Files} {answers : Answers}

/-- The manager holds the same key pair, and the context shows the same wallet. -/
structure WalletKept (s after : CommandSession) : Prop where
  keypair : after.walletManager.keypair = s.walletManager.keypair
  walletAddress : after.walletAddress = s.walletAddress
  walletName : after.walletName = s.walletName

/-- The address in the context is that of the key pair. -/
def Agrees (s : CommandSession) : Prop :=
  ∀ address, s.walletManager.keypair = some address → s.walletAddress = address

theorem WalletKept.agrees {after : CommandSession} (h : s.WalletKept after) (hs : s.Agrees) :
    after.Agrees := by
  intro address haddress
  rw [h.walletAddress]
  exact hs address (h.keypair ▸ haddress)

theorem WalletKept.refl (s : CommandSession) : s.WalletKept s := ⟨rfl, rfl, rfl⟩

/-! ## The restoration -/

theorem restoreWallet_keypair (s : CommandSession) (files : Files) (address name : String) :
    (s.restoreWallet files (some (address, name))).walletManager.keypair =
      (addressOf files s.store name).or s.walletManager.keypair := by
  simp only [restoreWallet, addressOf, shows]
  cases hpath : s.store.getWalletPath files.existsSync name with
  | error _ => simp only [ite_self, Option.none_or]
  | ok walletPath =>
    have hhas : s.store.hasWallet name = true := WalletStore.hasWallet_of_getWalletPath hpath
    simp only [hhas, if_true, load]
    cases files.loadFromFile walletPath with
    | error _ => rfl
    | ok address => rfl

/-- A restored session is the one from before as soon as its key pair is. -/
theorem walletKept_restoreWallet {keyed : CommandSession} :
    s.WalletKept (keyed.restoreWallet files (some (s.walletAddress, s.walletName))) ↔
      (addressOf files keyed.store s.walletName).or keyed.walletManager.keypair =
        s.walletManager.keypair := by
  rw [← restoreWallet_keypair keyed files s.walletAddress s.walletName]
  exact ⟨fun h => h.keypair, fun h => ⟨h, rfl, rfl⟩⟩

/-- A name that `--key` gives has its own key. -/
theorem addressOf_key {store : WalletStore} {key address other : String}
    (hkey : keyAddress files store key = .ok address)
    (hother : addressOf files store key = some other) : other = address := by
  unfold addressOf at hother
  split at hother
  · rename_i walletPath hpath
    have hhas : store.hasWallet key = true := WalletStore.hasWallet_of_getWalletPath hpath
    have hloads : files.loadFromFile walletPath = .ok address := by
      rw [keyAddress, keyPath, if_pos hhas, hpath] at hkey
      exact hkey
    rw [hloads] at hother
    exact (Option.some.inj hother).symm
  · cases hother

/-! ## The exits -/

/-- A command ends before its wallet is loaded, or goes on with it. -/
theorem handleIntent_cases (s : CommandSession) (files : Files) (answers : Answers)
    (key : String) (intent : Intent) :
    (s.handleIntent files answers (some key) intent).1 = s ∨
      ∃ sided address, (s.detectSide answers intent).2 = some sided ∧
        keyAddress files s.store key = .ok address ∧
        intent.has [.MarketMonitor, .DryRun] = false ∧
        (s.handleIntent files answers (some key) intent).1 =
          ((s.keyed key address).runIntent files answers (some (s.walletAddress, s.walletName))
            sided).1 := by
  unfold handleIntent
  split
  · exact Or.inl rfl
  · rename_i hkeeps
    split
    · exact Or.inl rfl
    · rename_i lookUps sided hdetect
      split
      · exact Or.inl rfl
      · split
        · exact Or.inl rfl
        · rename_i keyed restoreData hoverride
          rw [overrideWallet_some] at hoverride
          split at hoverride
          · cases hoverride
          · rename_i address haddress
            cases hoverride
            exact Or.inr ⟨sided, address, congrArg Prod.snd hdetect, haddress,
              Bool.eq_false_of_not_eq_true hkeeps, rfl⟩

/-- With a key pair the middleware passes, and the tool of the intent is run. -/
theorem dispatch_wallet (s : CommandSession) (files : Files) (answers : Answers)
    (intent : Intent) (hkey : s.walletManager.keypair.isSome = true) :
    (s.dispatch files answers intent).1.walletManager =
        (intent.wallet s.toWalletSession files).walletManager ∧
      (s.dispatch files answers intent).1.store =
        (intent.wallet s.toWalletSession files).store := by
  cases intent with
  | diagnostic => exact ⟨rfl, rfl⟩
  | parsed intent =>
    have hpasses := runMiddleware_connected files s.simulationMode intent.action hkey
    have hreconnects : ∀ t : CommandSession,
        (t.handleWalletReconnected answers).walletManager = t.walletManager ∧
          (t.handleWalletReconnected answers).store = t.store := by
      intro t
      unfold handleWalletReconnected
      split
      · exact ⟨rfl, rfl⟩
      · split <;> exact ⟨rfl, rfl⟩
    simp only [dispatch, hpasses, Intent.wallet]
    split
    · exact hreconnects _
    · exact ⟨rfl, rfl⟩

/-- The failsafe stops the trades of the other modes in magic mode. -/
def stoppedByFailsafe (s : CommandSession) (intent : Intent) : Bool :=
  s.tradingMode = .magic && intent.has blockedActions

/-- The tools of trades leave the wallet. -/
theorem wallet_of_trade {intent : Intent} (h : intent.has TRADE_ACTIONS = true)
    (wallet : WalletSession) : intent.wallet wallet files = wallet := by
  cases intent with
  | diagnostic => rfl
  | parsed intent =>
    have hmem : intent.action ∈ TRADE_ACTIONS := List.contains_iff_mem.mp h
    simp only [Intent.wallet, walletTool]
    split
    all_goals first | rfl | (rename_i haction; rw [haction] at hmem; exact absurd hmem (by decide))

theorem runIntent_cases (s : CommandSession) (files : Files) (answers : Answers)
    (restoreData : Option (String × String)) (intent : Intent)
    (hkey : s.walletManager.keypair.isSome = true) :
    (s.stoppedByFailsafe intent = true ∧
        (s.runIntent files answers restoreData intent).1 = s) ∨
      ∃ after : CommandSession, (s.runIntent files answers restoreData intent).1 =
          after.restoreWallet files restoreData ∧
        after.walletManager = (intent.wallet s.toWalletSession files).walletManager ∧
        after.store = (intent.wallet s.toWalletSession files).store := by
  have hgate : intent.has TRADE_ACTIONS = true → ∃ after : CommandSession,
      s.restoreWallet files restoreData = after.restoreWallet files restoreData ∧
        after.walletManager = (intent.wallet s.toWalletSession files).walletManager ∧
        after.store = (intent.wallet s.toWalletSession files).store := by
    intro htrade
    rw [wallet_of_trade htrade]
    exact ⟨s, rfl, rfl, rfl⟩
  unfold runIntent
  split
  · rename_i hdegraded
    exact Or.inr (hgate (Bool.and_eq_true_iff.mp hdegraded).2)
  · split
    · rename_i hblocked
      exact Or.inr (hgate (Bool.and_eq_true_iff.mp hblocked).2)
    · split
      · rename_i hfailsafe
        exact Or.inl ⟨hfailsafe, rfl⟩
      · exact Or.inr ⟨_, rfl, dispatch_wallet s files answers intent hkey⟩

/-- What the manager holds once the command has been run and the session restored. -/
def keypairAfter (s : CommandSession) (files : Files) (key address : String) (intent : Intent) :
    Option String :=
  let after := intent.wallet (s.restored key address) files
  (addressOf files after.store s.walletName).or after.walletManager.keypair

/-- When the session wallet is back: the command is no intent for a tool, or its key is not
valid; or the key that is found for the session afterwards is the session's; where the
failsafe stops it, the session wallet is the one of `--key` already. -/
def KeptBy (s : CommandSession) (files : Files) (key : String) : Command → Prop
  | .inline => True
  | .magic _ => True
  | .intent intent =>
    intent.has [.MarketMonitor, .DryRun] = false →
      ∀ address, keyAddress files s.store key = .ok address →
        if s.stoppedByFailsafe intent then
          s.walletManager.keypair = some address ∧ s.walletAddress = address ∧ s.walletName = key
        else s.keypairAfter files key address intent = s.walletManager.keypair

theorem trade_of_blocked {intent : Intent} (h : intent.has blockedActions = true) :
    intent.has TRADE_ACTIONS = true := by
  cases intent with
  | diagnostic => cases h
  | parsed intent =>
    have hmem : intent.action ∈ blockedActions := List.contains_iff_mem.mp h
    have hsub : ∀ action ∈ blockedActions, action ∈ TRADE_ACTIONS := by decide
    exact List.contains_iff_mem.mpr (hsub _ hmem)

/-- The failsafe has its own exit, which a gate may forestall. -/
theorem runIntent_kept {key address : String} {intent : Intent}
    (hkey : keyAddress files s.store key = .ok address)
    (hkept : if s.stoppedByFailsafe intent then
        s.walletManager.keypair = some address ∧ s.walletAddress = address ∧ s.walletName = key
      else s.keypairAfter files key address intent = s.walletManager.keypair) :
    s.WalletKept ((s.keyed key address).runIntent files answers
      (some (s.walletAddress, s.walletName)) intent).1 := by
  rcases runIntent_cases (s.keyed key address) files answers
    (some (s.walletAddress, s.walletName)) intent rfl with
    ⟨hstopped, hexit⟩ | ⟨after, hexit, hmanager, hstore⟩
  · have hstopped : s.stoppedByFailsafe intent = true := hstopped
    rw [hexit]
    rw [if_pos hstopped] at hkept
    obtain ⟨hkeypair, haddress, hname⟩ := hkept
    exact ⟨hkeypair.symm, haddress.symm, hname.symm⟩
  · rw [hexit, walletKept_restoreWallet, hmanager, hstore]
    split at hkept
    · rename_i hstopped
      obtain ⟨hkeypair, -, hname⟩ := hkept
      have htrade : intent.has TRADE_ACTIONS = true :=
        trade_of_blocked (Bool.and_eq_true_iff.mp hstopped).2
      rw [wallet_of_trade htrade, hname, hkeypair]
      show (addressOf files s.store key).or (some address) = some address
      cases hfound : addressOf files s.store key with
      | none => rfl
      | some other => rw [addressOf_key hkey hfound, Option.some_or]
    · exact hkept

/-- With every gate open, the command ends after its tool or at the failsafe. -/
theorem runIntent_open {key address : String} {intent : Intent}
    (hopen : (answers.degradedMode || answers.isReadOnly) = false ∧
      answers.isTradeBlocked = false)
    (hkept : s.WalletKept ((s.keyed key address).runIntent files answers
      (some (s.walletAddress, s.walletName)) intent).1) :
    if s.stoppedByFailsafe intent then
      s.walletManager.keypair = some address ∧ s.walletAddress = address ∧ s.walletName = key
    else s.keypairAfter files key address intent = s.walletManager.keypair := by
  simp only [runIntent, hopen, Bool.false_and, Bool.false_eq_true, if_false] at hkept
  split at hkept
  · rename_i hstopped
    have hstopped : s.stoppedByFailsafe intent = true := hstopped
    rw [if_pos hstopped]
    exact ⟨hkept.keypair.symm, hkept.walletAddress.symm, hkept.walletName.symm⟩
  · rename_i hgoes
    have hgoes : ¬ s.stoppedByFailsafe intent = true := hgoes
    rw [if_neg hgoes]
    obtain ⟨hmanager, hstore⟩ := dispatch_wallet (s.keyed key address) files answers intent rfl
    rw [walletKept_restoreWallet, hmanager, hstore] at hkept
    exact hkept

theorem walletKept_iff (s : CommandSession) (files : Files) (key : String) (command : Command) :
    (∀ answers, s.WalletKept (s.handleInput files answers (some key) command).1) ↔
      s.KeptBy files key command := by
  constructor
  · intro hkept
    cases command with
    | inline => trivial
    | magic tool => trivial
    | intent intent =>
      intro hintercepted address hkey
      cases intent with
      | diagnostic =>
        have hkept := hkept {}
        simp only [handleInput, handleIntent, detectSide, preTrade, overrideWallet_some, hkey] at hkept
        exact runIntent_open ⟨rfl, rfl⟩ hkept
      | parsed intent =>
        obtain ⟨side, hside⟩ := detectSide_goesThrough s intent
        have hchecks := preTrade_goesThrough s intent (.parsed { intent with side })
        have hkept : s.WalletKept
            (s.handleIntent files (goesThrough intent) (some key) (.parsed intent)).1 :=
          hkept (goesThrough intent)
        rw [handleIntent_reaches hintercepted hside hchecks (overrideWallet_key hkey)] at hkept
        exact runIntent_open ⟨rfl, rfl⟩ hkept
  · intro hkept answers
    unfold handleInput
    split
    · exact .refl s
    · cases command with
      | inline => exact .refl s
      | magic tool => exact .refl s
      | intent intent =>
        rcases handleIntent_cases s files answers key intent with
          hsame | ⟨sided, address, hdetect, hkey, hintercepted, hexit⟩
        · show s.WalletKept (s.handleIntent files answers (some key) intent).1
          rw [hsame]
          exact .refl s
        · show s.WalletKept (s.handleIntent files answers (some key) intent).1
          rw [hexit]
          have htool : sided.wallet (s.restored key address) files =
              intent.wallet (s.restored key address) files :=
            detectSide_same (Intent.wallet (s.restored key address) files) (fun _ _ => rfl) hdetect
          have hhas := detectSide_has blockedActions hdetect
          refine runIntent_kept hkey ?_
          have hkept := hkept hintercepted address hkey
          rw [stoppedByFailsafe, keypairAfter, hhas, htool]
          exact hkept

/-- `positions`. -/
def getPositions : Command := .intent (.parsed { action := .GetPositions })

/-- A wallet connected by its path has no name to restore it by: the manager keeps the key
of the command, under the address and the name of the session. -/
theorem not_walletKept :
    ¬ ∀ answers, (connectedByPath "alice").WalletKept
      ((connectedByPath "alice").handleInput (oneKeyFile "bob") answers (some "bob.json")
        getPositions).1 := by
  intro h
  have hkept : some "bob" = some "alice" := (h {}).keypair
  exact absurd hkept (by decide)

end CommandSession

end FlashEdge
