import FlashEdge.Ai.MarketResolver
import FlashEdge.Wallet.WalletManager

/-!
# The symbols of tokens (`wallet/walletManager.ts`)

`getTokenBalances` has a table of the mints it knows. The symbol of any other mint is read from
the metadata of the mint, which are bytes that whoever made the mint has chosen.

- `symbolOf`: the symbol that is read from metadata.
- `readTokens_eq`: what is reported of each account.
- `reports_faithfully_iff`: the symbols of the table stand for their own mints, and every account is
  reported, exactly when no metadata give such a symbol and every balance can be read.
-/

namespace FlashEdge

namespace WalletManager

/-! ## The metadata -/

/-- `data.readUInt32LE(offset)`; nothing for a `RangeError`. -/
def readUInt32LE (data : List UInt8) (offset : ℕ) : Option ℕ :=
  match data.drop offset with
  | a :: b :: c :: d :: _ =>
    some (a.toNat + 256 * b.toNat + 65536 * c.toNat + 16777216 * d.toNat)
  | _ => none

/-- `data.subarray(start, end)`. -/
def subarray (data : List UInt8) (start stop : ℕ) : List UInt8 := (data.take stop).drop start

def replacementCharacter : Char := Char.ofNat 0xFFFD

/-- How many bytes of a character are missing, what the next may be, and the bits so far. -/
structure Utf8Decoder where
  needed : ℕ := 0
  lower : ℕ := 0x80
  upper : ℕ := 0xBF
  codePoint : ℕ := 0

/-- The first byte of a character. -/
def Utf8Decoder.begin (b : ℕ) : List Char × Utf8Decoder :=
  if b < 0x80 then ([Char.ofNat b], {})
  else if 0xC2 ≤ b ∧ b ≤ 0xDF then ([], { needed := 1, codePoint := b % 32 })
  else if b = 0xE0 then ([], { needed := 2, lower := 0xA0 })
  else if b = 0xED then ([], { needed := 2, upper := 0x9F, codePoint := b % 16 })
  else if 0xE1 ≤ b ∧ b ≤ 0xEF then ([], { needed := 2, codePoint := b % 16 })
  else if b = 0xF0 then ([], { needed := 3, lower := 0x90 })
  else if b = 0xF4 then ([], { needed := 3, upper := 0x8F, codePoint := b % 8 })
  else if 0xF1 ≤ b ∧ b ≤ 0xF3 then ([], { needed := 3, codePoint := b % 8 })
  else ([replacementCharacter], {})

/-- A byte that does not belong to the character begins the next one. -/
def Utf8Decoder.feed (d : Utf8Decoder) (b : ℕ) : List Char × Utf8Decoder :=
  if d.needed = 0 then begin b
  else if d.lower ≤ b ∧ b ≤ d.upper then
    let codePoint := 64 * d.codePoint + b % 64
    if d.needed = 1 then ([Char.ofNat codePoint], {})
    else ([], { needed := d.needed - 1, codePoint })
  else (replacementCharacter :: (begin b).1, (begin b).2)

/-- `bytes.toString('utf8')`, after the bytes that the decoder has seen. -/
def utf8From : Utf8Decoder → List UInt8 → List Char
  | d, [] => if d.needed = 0 then [] else [replacementCharacter]
  | d, b :: bytes => (d.feed b.toNat).1 ++ utf8From (d.feed b.toNat).2 bytes

/-- `bytes.toString('utf8').replace(/\0/g, '').trim()`. -/
def fieldText (bytes : List UInt8) : List Char :=
  Interpreter.trim ((utf8From {} bytes).filter fun c => c ≠ Char.ofNat 0)

/-- The code units of a character. -/
def units (c : Char) : ℕ := if c.toNat < 0x10000 then 1 else 2

/-- `t.length`. -/
def textLength (t : List Char) : ℕ := (t.map units).sum

/-- `t.slice(0, n)`; half of a pair is not a character. -/
def sliceUnits : ℕ → List Char → List Char
  | _, [] => []
  | n, c :: rest =>
    if units c ≤ n then c :: sliceUnits (n - units c) rest
    else if n = 0 then [] else [replacementCharacter]

/-- `toUpperCase` beyond ASCII is a matter of the runtime's tables. -/
structure CaseMapping where
  toUpperCase : List Char → List Char
  ascii : ∀ t, (∀ c ∈ t, c.toNat < 128) → toUpperCase t = t.map Char.toUpper

/-- The symbol that is read from the metadata of a mint: the one they give if it is short and
plain, or else their name if that is short. -/
def symbolOf (cases : CaseMapping) (data : List UInt8) : Option String :=
  if 65 < data.length then
    match readUInt32LE data 65 with
    | none => none
    | some nameLen =>
      let safeName :=
        if 0 < nameLen ∧ nameLen ≤ 32 then fieldText (subarray data 69 (69 + nameLen)) else []
      let symOffset := 69 + nameLen
      if symOffset + 4 < data.length then
        match readUInt32LE data symOffset with
        | none => none
        | some symLen =>
          if 0 < symLen ∧ symLen ≤ 10 then
            let rawSym := fieldText (subarray data (symOffset + 4) (symOffset + 4 + symLen))
            if 0 < textLength rawSym ∧ textLength rawSym ≤ 8 ∧ rawSym.all Char.isAlphanum then
              some (String.ofList (cases.toUpperCase rawSym))
            else if 0 < textLength safeName ∧ textLength safeName ≤ 12 then
              some (String.ofList (sliceUnits 8 (cases.toUpperCase safeName)))
            else none
          else none
      else none
  else none

/-! ## The accounts -/

/-- A token account of the wallet: the mint, how much is in it, what the parsed answer says of it,
and what the lookup of the mint's metadata gives, if it is made. -/
structure TokenAccount where
  mint : String
  amount : ℕ
  info : Option TokenInfo
  metadata : Option (List UInt8)
  own_mint : ∀ i ∈ info, i.mint = mint
  zero_iff : ∀ i ∈ info, ∀ q ∈ i.uiAmount, q = 0 ↔ amount = 0

/-- The balance of the account, if it can be read. -/
def TokenAccount.uiAmount (a : TokenAccount) : Option ℚ := a.info.bind TokenInfo.uiAmount

/-- The symbol under which the account is reported. -/
def TokenAccount.symbol (cases : CaseMapping) (a : TokenAccount) : String :=
  match KNOWN_MINTS.lookup a.mint with
  | some symbol => symbol
  | none => (a.metadata.bind (symbolOf cases)).getD "UNKNOWN"

/-- What is reported of an account. -/
def TokenAccount.token (cases : CaseMapping) (a : TokenAccount) : Option Token :=
  match a.uiAmount with
  | none => none
  | some q => if q = 0 then none else some ⟨a.symbol cases, a.mint, q⟩

/-- The lookups of the unknown mints, in the order of the accounts. -/
def lookups (cases : CaseMapping) (accounts : List TokenAccount) : List (Option String) :=
  (accounts.filter fun a => a.uiAmount.getD 0 ≠ 0 ∧ KNOWN_MINTS.lookup a.mint = none).map
    fun a => a.metadata.bind (symbolOf cases)

/-- The tokens that `getTokenBalances` reads from the accounts of both programs. -/
def reportedTokens (cases : CaseMapping) (solBalance : ℕ)
    (tokenAccounts token2022Accounts : List TokenAccount) : List Token :=
  (readBalances
    { solBalance,
      tokenAccounts := tokenAccounts.map TokenAccount.info,
      token2022Accounts := token2022Accounts.map TokenAccount.info }
    (lookups cases (tokenAccounts ++ token2022Accounts))).tokens

variable {cases : CaseMapping} {a : TokenAccount} {accounts : List TokenAccount}

theorem uiAmount_none (h : a.info = none) : a.uiAmount = none := by
  unfold TokenAccount.uiAmount
  rw [h]
  rfl

theorem uiAmount_some {info : TokenInfo} (h : a.info = some info) :
    a.uiAmount = info.uiAmount := by
  unfold TokenAccount.uiAmount
  rw [h]
  rfl

/-- An account of which no balance is read is not reported. -/
theorem token_none (h : a.uiAmount.getD 0 = 0) : a.token cases = none := by
  unfold TokenAccount.token
  cases hamount : a.uiAmount with
  | none => rfl
  | some q =>
    rw [hamount] at h
    exact if_pos h

theorem token_some {q : ℚ} (h : a.uiAmount = some q) (hq : q ≠ 0) :
    a.token cases = some ⟨a.symbol cases, a.mint, q⟩ := by
  unfold TokenAccount.token
  rw [h]
  exact if_neg hq

theorem lookups_cons_of_not (h : ¬ (a.uiAmount.getD 0 ≠ 0 ∧ KNOWN_MINTS.lookup a.mint = none)) :
    lookups cases (a :: accounts) = lookups cases accounts := by
  unfold lookups
  rw [List.filter_cons_of_neg (by simpa using h)]

theorem lookups_cons_of (h : a.uiAmount.getD 0 ≠ 0 ∧ KNOWN_MINTS.lookup a.mint = none) :
    lookups cases (a :: accounts) = a.metadata.bind (symbolOf cases) :: lookups cases accounts := by
  unfold lookups
  rw [List.filter_cons_of_pos (by simpa using h), List.map_cons]

/-- **What is reported of an account does not depend on the others.** -/
theorem readTokens_eq (cases : CaseMapping) (accounts : List TokenAccount) :
    readTokens (accounts.map TokenAccount.info) (lookups cases accounts) =
      accounts.filterMap (TokenAccount.token cases) := by
  induction accounts with
  | nil => rfl
  | cons a accounts ih =>
    rw [List.map_cons]
    cases hinfo : a.info with
    | none =>
      have hzero : a.uiAmount.getD 0 = 0 := by rw [uiAmount_none hinfo]; rfl
      rw [readTokens, lookups_cons_of_not (fun h => h.1 hzero), ih,
        List.filterMap_cons_none (token_none hzero)]
    | some info =>
      have hmint : info.mint = a.mint := a.own_mint info hinfo
      have hamount := uiAmount_some hinfo
      rw [readTokens]
      dsimp only
      rw [← hamount, hmint]
      by_cases hzero : a.uiAmount.getD 0 = 0
      · rw [if_pos hzero, lookups_cons_of_not (fun h => h.1 hzero), ih,
          List.filterMap_cons_none (token_none hzero)]
      · obtain ⟨q, hq⟩ : ∃ q, a.uiAmount = some q := by
          cases hread : a.uiAmount with
          | none => exact absurd (by rw [hread]; rfl) hzero
          | some q => exact ⟨q, rfl⟩
        have hne : q ≠ 0 := by rwa [hq] at hzero
        rw [if_neg hzero, List.filterMap_cons_some (token_some hq hne), hq]
        cases hknown : KNOWN_MINTS.lookup a.mint with
        | some symbol =>
          rw [lookups_cons_of_not (fun h => by rw [hknown] at h; cases h.2), ih]
          unfold TokenAccount.symbol
          rw [hknown]
          rfl
        | none =>
          rw [lookups_cons_of ⟨hzero, hknown⟩, List.tail_cons, ih]
          unfold TokenAccount.symbol
          rw [hknown]
          rfl

theorem reportedTokens_eq (cases : CaseMapping) (solBalance : ℕ)
    (tokenAccounts token2022Accounts : List TokenAccount) :
    reportedTokens cases solBalance tokenAccounts token2022Accounts =
      (tokenAccounts ++ token2022Accounts).filterMap (TokenAccount.token cases) := by
  rw [← readTokens_eq, List.map_append]
  rfl

/-! ## The property -/

/-- The symbols of the table. -/
def knownSymbols : List String := KNOWN_MINTS.map Prod.snd

/-- A token reports an account. -/
def Reports (a : TokenAccount) (token : Token) : Prop :=
  token.mint = a.mint ∧ a.uiAmount = some token.amount

/-- Under a symbol of the table only its own mint is reported, and every account with something
in it is reported once. -/
structure Faithful (accounts : List TokenAccount) (tokens : List Token) : Prop where
  own : ∀ token ∈ tokens, token.symbol ∈ knownSymbols →
    KNOWN_MINTS.lookup token.mint = some token.symbol
  once : List.Forall₂ Reports (accounts.filter fun a => a.amount ≠ 0) tokens

/-- The balance of every account with something in it can be read, and if its mint is unknown,
no symbol of the table is read from the metadata. -/
structure Plain (cases : CaseMapping) (accounts : List TokenAccount) : Prop where
  readable : ∀ a ∈ accounts, a.amount ≠ 0 → a.uiAmount.isSome = true
  unclaimed : ∀ a ∈ accounts, a.amount ≠ 0 → KNOWN_MINTS.lookup a.mint = none →
    ∀ symbol ∈ a.metadata.bind (symbolOf cases), symbol ∉ knownSymbols

theorem TokenAccount.zero_of_uiAmount {q : ℚ} (h : a.uiAmount = some q) :
    q = 0 ↔ a.amount = 0 := by
  obtain ⟨info, hinfo, hq⟩ := Option.bind_eq_some_iff.mp h
  exact a.zero_iff info hinfo q hq

/-- An account that is read and has something in it is reported. -/
theorem token_of_readable (hread : a.uiAmount.isSome = true) (hne : a.amount ≠ 0) :
    ∃ q, a.uiAmount = some q ∧ a.token cases = some ⟨a.symbol cases, a.mint, q⟩ := by
  obtain ⟨q, hq⟩ := Option.isSome_iff_exists.mp hread
  exact ⟨q, hq, token_some hq fun hzero => hne ((a.zero_of_uiAmount hq).mp hzero)⟩

theorem token_empty (h : a.amount = 0) : a.token cases = none := by
  refine token_none ?_
  cases hread : a.uiAmount with
  | none => rfl
  | some q => exact (a.zero_of_uiAmount hread).mpr h

theorem token_eq_some {token : Token} (h : a.token cases = some token) :
    a.amount ≠ 0 ∧ a.uiAmount = some token.amount ∧
      token = ⟨a.symbol cases, a.mint, token.amount⟩ := by
  unfold TokenAccount.token at h
  cases hread : a.uiAmount with
  | none =>
    rw [hread] at h
    cases h
  | some q =>
    rw [hread] at h
    dsimp only at h
    split at h
    · cases h
    · next hne =>
      obtain rfl := Option.some.inj h
      exact ⟨fun hzero => hne ((a.zero_of_uiAmount hread).mpr hzero), rfl, rfl⟩

theorem reported_once (hread : ∀ a ∈ accounts, a.amount ≠ 0 → a.uiAmount.isSome = true) :
    List.Forall₂ Reports (accounts.filter fun a => a.amount ≠ 0)
      (accounts.filterMap (TokenAccount.token cases)) := by
  induction accounts with
  | nil => exact .nil
  | cons a accounts ih =>
    have hrest := ih fun b hb => hread b (List.mem_cons_of_mem a hb)
    by_cases hzero : a.amount = 0
    · rw [List.filter_cons_of_neg (by simpa using hzero),
        List.filterMap_cons_none (token_empty hzero)]
      exact hrest
    · obtain ⟨q, hq, htoken⟩ := @token_of_readable cases a
        (hread a List.mem_cons_self hzero) hzero
      rw [List.filter_cons_of_pos (by simpa using hzero), List.filterMap_cons_some htoken]
      exact .cons ⟨rfl, hq⟩ hrest

theorem readable_of_reported {as : List TokenAccount} {tokens : List Token}
    (h : List.Forall₂ Reports as tokens) : ∀ a ∈ as, a.uiAmount.isSome = true := by
  induction h with
  | nil => exact fun _ ha => by cases ha
  | cons hreports _ ih =>
    intro b hb
    rcases List.mem_cons.mp hb with rfl | hb
    · rw [hreports.2]
      rfl
    · exact ih b hb

/-- No account goes by a symbol of the table by accident. -/
theorem unknown_not_known : "UNKNOWN" ∉ knownSymbols := by decide

theorem symbol_unclaimed (hunknown : KNOWN_MINTS.lookup a.mint = none)
    (hknown : a.symbol cases ∈ knownSymbols) :
    a.metadata.bind (symbolOf cases) = some (a.symbol cases) := by
  unfold TokenAccount.symbol at hknown ⊢
  rw [hunknown] at hknown ⊢
  dsimp only at hknown ⊢
  cases hlookup : a.metadata.bind (symbolOf cases) with
  | none =>
    rw [hlookup] at hknown
    exact absurd hknown unknown_not_known
  | some symbol => rfl

theorem symbol_of_metadata {symbol : String} (hunknown : KNOWN_MINTS.lookup a.mint = none)
    (h : a.metadata.bind (symbolOf cases) = some symbol) : a.symbol cases = symbol := by
  unfold TokenAccount.symbol
  rw [hunknown, h]
  rfl

/-- **The balances that are reported are faithful exactly when every balance can be read and no
metadata claim a symbol of the table.** -/
theorem reports_faithfully_iff (cases : CaseMapping) (solBalance : ℕ)
    (tokenAccounts token2022Accounts : List TokenAccount) :
    Faithful (tokenAccounts ++ token2022Accounts)
        (reportedTokens cases solBalance tokenAccounts token2022Accounts) ↔
      Plain cases (tokenAccounts ++ token2022Accounts) := by
  rw [reportedTokens_eq]
  generalize tokenAccounts ++ token2022Accounts = accounts
  constructor
  · intro hfaithful
    have hread : ∀ a ∈ accounts, a.amount ≠ 0 → a.uiAmount.isSome = true := fun a ha hne =>
      readable_of_reported hfaithful.once a (List.mem_filter.mpr ⟨ha, by simpa using hne⟩)
    refine ⟨hread, fun a ha hne hunknown symbol hsymbol hknown => ?_⟩
    obtain ⟨q, -, htoken⟩ := @token_of_readable cases a (hread a ha hne) hne
    rw [symbol_of_metadata hunknown hsymbol] at htoken
    have hown := hfaithful.own _ (List.mem_filterMap.mpr ⟨a, ha, htoken⟩) hknown
    rw [hunknown] at hown
    cases hown
  · intro hplain
    refine ⟨fun token htoken hknown => ?_, reported_once hplain.readable⟩
    obtain ⟨a, ha, htoken⟩ := List.mem_filterMap.mp htoken
    obtain ⟨hne, -, hform⟩ := token_eq_some htoken
    rw [hform] at hknown ⊢
    dsimp only at hknown ⊢
    cases hlookup : KNOWN_MINTS.lookup a.mint with
    | some symbol =>
      unfold TokenAccount.symbol
      rw [hlookup]
    | none =>
      exact absurd hknown
        (hplain.unclaimed a ha hne hlookup _ (symbol_unclaimed hlookup hknown))

/-- The letters of ASCII, and no others. -/
def asciiCases : CaseMapping where
  toUpperCase t := t.map Char.toUpper
  ascii _ _ := rfl

/-- Metadata with the name "USD Coin" and the symbol "usdc". -/
def claimedMetadata : List UInt8 :=
  let bytes (t : String) : List UInt8 := t.toList.map fun c => UInt8.ofNat c.toNat
  4 :: List.replicate 64 7 ++ [8, 0, 0, 0] ++ bytes "USD Coin" ++ [4, 0, 0, 0] ++ bytes "usdc" ++
    [0, 0, 0, 0]

/-- A million of a mint that somebody has made. -/
def claimedAccount : TokenAccount where
  mint := "7GCihgDB8fe6KNjn2MYtkzZcRjQy3t9GHdC8uHYmW2hr"
  amount := 1000000000000
  info := some
    { mint := "7GCihgDB8fe6KNjn2MYtkzZcRjQy3t9GHdC8uHYmW2hr", uiAmount := some 1000000 }
  metadata := some claimedMetadata
  own_mint := by decide
  zero_iff := by decide +kernel

/-- It is reported as a million USDC. -/
theorem not_faithful_claimed :
    ¬ Faithful [claimedAccount] (reportedTokens asciiCases 0 [claimedAccount] []) := by
  intro h
  have hown := h.own ⟨"USDC", claimedAccount.mint, 1000000⟩ (by decide +kernel) (by decide)
  revert hown
  decide

end WalletManager

end FlashEdge
