import FlashEdge.Cli.InputHandler
import FlashEdge.Wallet.DefaultWallet

/-!
# Which wallet comes back (`core/execution-middleware.ts` over a session)

The middleware loads a stored wallet whenever a trade finds no key pair, and does not know
why there is none: the idle timer may have fired, the user may have disconnected the
wallet, or connected an address to look at. `tradingSession` is the machine of the wallet
commands, the timer and the trades of a live session; each action brings what the file
system gives at the time.

`Departure` dates nothing but says why the key pair went; it is no part of the code.
`restoredChosen_iff` says which trades bring back a wallet that they should not.
-/

namespace FlashEdge

open WalletSession InputHandler

namespace TradingSession

/-- A wallet was selected, or nothing has happened yet; the user has disconnected since, or
connected an address only; the idle timer has fired on this wallet. -/
inductive Departure where
  | selected
  | left
  | timedOut (address : String)
deriving DecidableEq, Repr

inductive SessionAction where
  | walletImport (files : Files) (name path : String)
  | walletUse (files : Files) (name : String)
  | walletConnect (files : Files) (path : String)
  | walletRemove (name : String)
  | walletDisconnect (files : Files)
  | connectAddress (parsed : Option String)
  | sessionTimedOut
  | trade (files : Files) (action : ActionType)

/-- The middleware loads a wallet, after this departure; a trade is run with a key pair. -/
inductive TradingEvent where
  | restored (departure : Departure) (address : String)
  | executed (departure : Departure)
deriving DecidableEq, Repr

end TradingSession

open TradingSession

structure TradingSession extends WalletSession where
  departure : Departure := .selected

namespace TradingSession

/-- A tool has run; a wallet that it connects is selected. -/
def selects (s : TradingSession) (tool : WalletSession × WalletResult) : TradingSession where
  toWalletSession := tool.1
  departure := if tool.2.walletConnected then .selected else s.departure

/-- Only a key pair that is there times out. -/
def sessionTimedOut (s : TradingSession) : Option (TradingSession × List TradingEvent) :=
  s.walletManager.sessionTimedOut.map fun after =>
    ({ s with
        walletManager := after.1
        departure := (s.walletManager.keypair.map Departure.timedOut).getD s.departure }, [])

/-- A trade passes the middleware, and its tool signs if there is a key pair. -/
def trade (s : TradingSession) (files : Files) (action : ActionType) :
    TradingSession × List TradingEvent :=
  match s.runMiddleware files false action with
  | none => (s, [])
  | some wallet =>
    match s.walletManager.keypair, wallet.walletManager.keypair with
    | some _, _ => (s, [.executed s.departure])
    | none, some address =>
      ({ toWalletSession := wallet, departure := .selected },
        [.restored s.departure address, .executed s.departure])
    | none, none => (s, [])

def step (s : TradingSession) : SessionAction → Option (TradingSession × List TradingEvent)
  | .walletImport files name path => some (s.selects (s.walletImport files name path), [])
  | .walletUse files name => some (s.selects (s.walletUse files name), [])
  | .walletConnect files path => some (s.selects (s.walletConnect files path), [])
  | .walletRemove name => some (s.selects (s.walletRemove name), [])
  | .walletDisconnect files =>
    some ({ toWalletSession := (s.walletDisconnect files).1, departure := .left }, [])
  | .connectAddress parsed =>
    some ({ s with
      walletManager := s.walletManager.connectAddress parsed
      departure := if parsed.isSome then .left else s.departure }, [])
  | .sessionTimedOut => s.sessionTimedOut
  | .trade files action => if (submitsWith action).isSome then some (s.trade files action) else none

end TradingSession

/-- A live session that starts with this wallet and this registry. -/
def tradingSession (wallet : WalletSession) :
    Machine TradingSession SessionAction TradingEvent where
  init := { toWalletSession := wallet }
  step := TradingSession.step

namespace TradingSession

/-! ## The property and the condition -/

/-- No trade is run once the user has left, and what comes back after a timeout is the
wallet that timed out. -/
def TradingEvent.Chosen : TradingEvent → Prop
  | .executed departure => departure ≠ .left
  | .restored (.timedOut address) back => back = address
  | .restored _ _ => True

def RestoredChosen (_ : TradingSession) (h : List TradingEvent) : Prop :=
  ∀ event ∈ h, event.Chosen

/-- The wallet that the stored names give. -/
def offered (s : TradingSession) (files : Files) : Option String :=
  (s.recalled files).map Prod.snd

/-- A trade of the middleware's list, without a key pair, finds no wallet behind the stored
names if the user has left, and after a timeout no other than the one that timed out. -/
def OffersChosen (s : TradingSession) (_ : List TradingEvent) (a : SessionAction) : Prop :=
  match a with
  | .trade files action =>
    isTradingAction action = true → s.walletManager.keypair = none →
      ∀ address, s.offered files = some address →
        s.departure ≠ .left ∧
          ∀ timedOut, s.departure = .timedOut timedOut → address = timedOut
  | _ => True

variable {s s' : TradingSession} {h es : List TradingEvent} {a : SessionAction} {files : Files}

/-! ## The tools and the manager -/

/-- A tool that connects no wallet leaves the manager as it is. -/
def Connects (wallet : WalletSession) (tool : WalletSession × WalletResult) : Prop :=
  tool.2.walletConnected = true ∨ tool.1.walletManager = wallet.walletManager

theorem connects_walletImport (wallet : WalletSession) (files : Files) (name path : String) :
    Connects wallet (wallet.walletImport files name path) := by
  unfold walletImport
  split
  · exact Or.inr rfl
  · dsimp only
    split
    · exact Or.inr rfl
    · split
      · exact Or.inr rfl
      · split
        · exact Or.inr rfl
        · exact Or.inl rfl

theorem connects_walletUse (wallet : WalletSession) (files : Files) (name : String) :
    Connects wallet (wallet.walletUse files name) := by
  unfold walletUse
  split
  · exact Or.inr rfl
  · split
    · exact Or.inr rfl
    · dsimp only
      split
      · exact Or.inr rfl
      · exact Or.inl rfl

theorem connects_walletConnect (wallet : WalletSession) (files : Files) (path : String) :
    Connects wallet (wallet.walletConnect files path) := by
  unfold walletConnect
  split
  · exact Or.inr rfl
  · split
    · exact Or.inr rfl
    · split
      · exact Or.inr rfl
      · exact Or.inl rfl

theorem connects_walletRemove (wallet : WalletSession) (name : String) :
    Connects wallet (wallet.walletRemove name) := by
  unfold walletRemove
  split <;> exact Or.inr rfl

/-- A disconnected manager holds nothing. -/
theorem walletDisconnect_keypair (wallet : WalletSession) (files : Files) :
    (wallet.walletDisconnect files).1.walletManager.keypair = none := by
  unfold walletDisconnect
  split
  · rename_i hnone
    exact Option.isNone_iff_eq_none.mp hnone.1
  · dsimp only
    split <;> rfl

/-! ## What a trade does -/

theorem trade_connected {action : ActionType} (hkey : s.walletManager.keypair.isSome = true) :
    s.trade files action = (s, [.executed s.departure]) := by
  obtain ⟨address, haddress⟩ := Option.isSome_iff_exists.mp hkey
  simp only [trade, runMiddleware_connected files false action hkey, haddress]

/-- The middleware lets the other trades pass, but nothing signs them. -/
theorem trade_unlisted {action : ActionType} (hkey : s.walletManager.keypair = none)
    (hunlisted : isTradingAction action = false) : s.trade files action = (s, []) := by
  have hpasses : s.runMiddleware files false action = some s.toWalletSession := by
    simp [runMiddleware, walletMiddleware, readOnlyMiddleware, hunlisted]
  simp only [trade, hpasses, hkey]

theorem trade_listed {action : ActionType} (hkey : s.walletManager.keypair = none)
    (hlisted : isTradingAction action = true) :
    s.trade files action =
      match s.recalled files with
      | none => (s, [])
      | some (name, address) =>
        ({ toWalletSession := s.restored name address, departure := .selected },
          [.restored s.departure address, .executed s.departure]) := by
  have hwallet : s.walletMiddleware files false action = s.tryRestoreWalletSession files := by
    simp [walletMiddleware, hlisted, hkey]
  simp only [trade, runMiddleware, hwallet, tryRestoreWalletSession_eq]
  cases s.recalled files with
  | none => rfl
  | some wallet =>
    have hreads : (s.restored wallet.1 wallet.2).readOnlyMiddleware false action =
        some (s.restored wallet.1 wallet.2) := rfl
    simp only [Option.map_some, Option.bind_some, hreads, hkey]
    rfl

/-! ## The steps -/

/-- The property, and that no key pair is there once it has gone. -/
structure SessionInv (s : TradingSession) (h : List TradingEvent) : Prop where
  chosen : RestoredChosen s h
  gone : s.departure ≠ .selected → s.walletManager.keypair = none

theorem RestoredChosen.snoc {event : TradingEvent} (hold : RestoredChosen s h)
    (hnew : event.Chosen) : RestoredChosen s' (h ++ [event]) := by
  intro e he
  rcases List.mem_append.mp he with he | he
  · exact hold e he
  · obtain rfl := List.mem_singleton.mp he
    exact hnew

/-- A step without events keeps it, if the new wallet still fits its departure. -/
theorem SessionInv.quiet (hI : SessionInv s h)
    (hgone : s'.departure ≠ .selected → s'.walletManager.keypair = none) :
    SessionInv s' (h ++ []) := by
  rw [List.append_nil]
  exact ⟨hI.chosen, hgone⟩

theorem SessionInv.selects (hI : SessionInv s h) {tool : WalletSession × WalletResult}
    (hconnects : Connects s.toWalletSession tool) : SessionInv (s.selects tool) (h ++ []) := by
  refine hI.quiet fun hgone => ?_
  simp only [TradingSession.selects] at hgone ⊢
  rcases hconnects with hconnected | hsame
  · rw [hconnected, if_pos rfl] at hgone
    exact absurd rfl hgone
  · rw [hsame]
    split at hgone
    · exact absurd rfl hgone
    · exact hI.gone hgone

/-- The timer leaves a departure that says which wallet it fired on. -/
theorem SessionInv.sessionTimedOut (hI : SessionInv s h)
    (hs : s.sessionTimedOut = some (s', es)) : SessionInv s' (h ++ es) := by
  simp only [TradingSession.sessionTimedOut, WalletManager.sessionTimedOut] at hs
  split at hs
  · cases hs
    refine hI.quiet fun _ => ?_
    dsimp only
    split
    · rfl
    · rename_i hnone
      exact Option.not_isSome_iff_eq_none.mp hnone
  · cases hs

/-- A trade for which a wallet is restored. -/
theorem SessionInv.restored (hI : SessionInv s h) {action : ActionType} {wallet : WalletSession}
    {address : String} (hkey : s.walletManager.keypair = none)
    (hlisted : isTradingAction action = true) (hoffered : s.offered files = some address) :
    (OffersChosen s h (.trade files action) ∧
        SessionInv { toWalletSession := wallet, departure := .selected }
          (h ++ [TradingEvent.restored s.departure address, .executed s.departure])) ∨
      (¬ OffersChosen s h (.trade files action) ∧
        ¬ RestoredChosen { toWalletSession := wallet, departure := .selected }
          (h ++ [TradingEvent.restored s.departure address, .executed s.departure])) := by
  by_cases hleft : s.departure = .left
  · refine Or.inr ⟨fun hchosen => ?_, fun hchosen => ?_⟩
    · exact (hchosen hlisted hkey _ hoffered).1 hleft
    · exact hchosen (.executed s.departure) (by simp) hleft
  · by_cases hother : (TradingEvent.restored s.departure address).Chosen
    · refine Or.inl ⟨fun _ _ other haddress => ?_, ?_, fun h => absurd rfl h⟩
      · obtain rfl := Option.some.inj (hoffered.symm.trans haddress)
        refine ⟨hleft, fun timedOut htimed => ?_⟩
        rw [htimed] at hother
        exact hother
      · have hrestored : RestoredChosen s (h ++ [TradingEvent.restored s.departure address]) :=
          hI.chosen.snoc hother
        rw [List.append_cons]
        exact hrestored.snoc hleft
    · refine Or.inr ⟨fun hchosen => hother ?_, fun hchosen => hother ?_⟩
      · have hsame := (hchosen hlisted hkey _ hoffered).2
        cases hdeparture : s.departure with
        | selected => trivial
        | left => trivial
        | timedOut timedOut => exact hsame timedOut hdeparture
      · exact hchosen _ (by simp)

/-- A trade keeps the property exactly if its condition holds. -/
theorem SessionInv.trade (hI : SessionInv s h) {action : ActionType}
    (hs : s.trade files action = (s', es)) :
    (OffersChosen s h (.trade files action) ∧ SessionInv s' (h ++ es)) ∨
      (¬ OffersChosen s h (.trade files action) ∧ ¬ RestoredChosen s' (h ++ es)) := by
  cases hkey : s.walletManager.keypair with
  | some address =>
    have hselected : s.departure = .selected := by
      by_contra hgone
      rw [hI.gone hgone] at hkey
      cases hkey
    rw [trade_connected (by rw [hkey]; rfl)] at hs
    cases hs
    refine Or.inl ⟨fun _ hnone => ?_, hI.chosen.snoc ?_, hI.gone⟩
    · rw [hkey] at hnone
      cases hnone
    · show s.departure ≠ .left
      rw [hselected]
      exact nofun
  | none =>
    cases hlisted : isTradingAction action with
    | false =>
      rw [trade_unlisted hkey hlisted] at hs
      cases hs
      exact Or.inl ⟨fun h => absurd (hlisted ▸ h) (by decide), hI.quiet hI.gone⟩
    | true =>
      rw [trade_listed hkey hlisted] at hs
      cases hrecalled : s.recalled files with
      | none =>
        rw [hrecalled] at hs
        cases hs
        refine Or.inl ⟨fun _ _ address hoffered => ?_, hI.quiet hI.gone⟩
        rw [offered, hrecalled] at hoffered
        cases hoffered
      | some wallet =>
        rw [hrecalled] at hs
        cases hs
        have hoffered : s.offered files = some wallet.2 := by rw [offered, hrecalled]; rfl
        exact hI.restored hkey hlisted hoffered

theorem restoredChosen_iff (wallet : WalletSession) (as : List SessionAction) :
    (tradingSession wallet).Always RestoredChosen (tradingSession wallet).init [] as ↔
      (tradingSession wallet).Along OffersChosen (tradingSession wallet).init [] as := by
  refine Machine.always_iff_along_of_step (I := SessionInv) (fun hI => hI.chosen) ?_
    ⟨fun _ hnone => absurd hnone List.not_mem_nil, fun hgone => absurd rfl hgone⟩ as
  intro s h a s' es hI hs
  cases a with
  | walletImport files name path =>
    cases hs
    exact Or.inl ⟨trivial, hI.selects (connects_walletImport _ files name path)⟩
  | walletUse files name =>
    cases hs
    exact Or.inl ⟨trivial, hI.selects (connects_walletUse _ files name)⟩
  | walletConnect files path =>
    cases hs
    exact Or.inl ⟨trivial, hI.selects (connects_walletConnect _ files path)⟩
  | walletRemove name =>
    cases hs
    exact Or.inl ⟨trivial, hI.selects (connects_walletRemove _ name)⟩
  | walletDisconnect files =>
    cases hs
    exact Or.inl ⟨trivial, hI.quiet fun _ => walletDisconnect_keypair _ files⟩
  | connectAddress parsed =>
    cases hs
    refine Or.inl ⟨trivial, hI.quiet fun hgone => ?_⟩
    cases parsed with
    | none => exact hI.gone hgone
    | some address => rfl
  | sessionTimedOut => exact Or.inl ⟨trivial, hI.sessionTimedOut hs⟩
  | trade files action =>
    simp only [tradingSession, step] at hs
    split at hs
    · exact hI.trade (Option.some.inj hs)
    · cases hs

/-! ## Wallets that come back -/

/-- Every path is the key file of its own wallet. -/
def everyPath : Files where
  existsSync _ := true
  validateWalletPath := .ok
  loadFromFile := .ok

/-- One wallet is registered. -/
def registered (name path : String) : WalletSession where
  store := { wallets := [⟨name, path, path⟩] }

/-- The only wallet is used and disconnected, and a trade is typed. -/
def afterDisconnect : List SessionAction :=
  [.walletUse everyPath "main", .walletDisconnect everyPath, .trade everyPath .OpenPosition]

/-- A wallet is connected by its path and times out, and a trade is typed. -/
def afterTimeout : List SessionAction :=
  [.walletConnect everyPath "./bob.json", .sessionTimedOut, .trade everyPath .OpenPosition]

theorem not_restoredChosen :
    (¬ ∀ s h, (tradingSession (registered "main" "alice.json")).runFrom
        (tradingSession (registered "main" "alice.json")).init [] afterDisconnect = some (s, h) →
          RestoredChosen s h) ∧
      ¬ ∀ s h, (tradingSession (registered "wallet" "alice.json")).runFrom
        (tradingSession (registered "wallet" "alice.json")).init [] afterTimeout = some (s, h) →
          RestoredChosen s h := by
  have hleft : ((tradingSession (registered "main" "alice.json")).runFrom
      (tradingSession (registered "main" "alice.json")).init [] afterDisconnect).map Prod.snd =
        some [.restored .left "alice.json", .executed .left] := by decide
  have htimed : ((tradingSession (registered "wallet" "alice.json")).runFrom
      (tradingSession (registered "wallet" "alice.json")).init [] afterTimeout).map Prod.snd =
        some [.restored (.timedOut "./bob.json") "alice.json",
          .executed (.timedOut "./bob.json")] := by decide
  obtain ⟨⟨s, h⟩, hrun, hevents⟩ := Option.map_eq_some_iff.mp hleft
  obtain ⟨⟨s', h'⟩, hrun', hevents'⟩ := Option.map_eq_some_iff.mp htimed
  dsimp only at hevents hevents'
  subst hevents hevents'
  refine ⟨fun hall => ?_, fun hall => ?_⟩
  · exact hall s _ hrun (.executed .left) (by decide) rfl
  · have hsame : "alice.json" = "./bob.json" :=
      hall s' _ hrun' (.restored (.timedOut "./bob.json") "alice.json") (by decide)
    exact absurd hsame (by decide)

end TradingSession

end FlashEdge
