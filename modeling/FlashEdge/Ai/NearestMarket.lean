import FlashEdge.Ai.CommandWords
import FlashEdge.Theory.EditDistance

/-!
# The market of a misspelt name (`ai/interpreter.ts`)

`fuzzyMarket` takes a token that names no market for the first symbol in the list that is near
enough, or else for the first alias. Longer symbols may be two letters off, so that such a symbol
is taken though a name further on is off by one.

- `editDistance_eq_levenshtein`: the matrix computes the Levenshtein distance up to 3.
- `market_of_known`: a token that is the name of a market is not corrected.
- `foundName_cases`: by which name a market is found.
- `nearest_iff`: when the market that is taken is the nearest.
-/

namespace FlashEdge

/-- `getAllMarkets` gives the symbols in capitals. -/
structure MarketConfig extends ParserData where
  market_upper : ∀ m ∈ markets, m.map Char.toUpper = m

namespace Interpreter

/-! ## The matrix -/

/-- The rest of a row: the distances of `p` to the beginnings of a word behind `q`. -/
def rowFrom (p q : List Char) : List Char → List ℕ
  | [] => []
  | d :: ds => levenshtein p (q ++ [d]) :: rowFrom p (q ++ [d]) ds

/-- The row of a beginning `p` of the first word. -/
def row (p b : List Char) : List ℕ := levenshtein p [] :: rowFrom p [] b

theorem nextCells_rowFrom (p q ds : List Char) (c : Char) :
    nextCells c ds (levenshtein p q :: rowFrom p q ds) (levenshtein (p ++ [c]) q) =
      rowFrom (p ++ [c]) q ds := by
  induction ds generalizing q with
  | nil => rfl
  | cons d ds ih =>
    have hcell := levenshtein_concat p q c d
    rw [rowFrom, rowFrom, nextCells]
    simp only [← hcell, ih]

theorem nextRow_row (p b : List Char) (c : Char) : nextRow b (row p b) c = row (p ++ [c]) b := by
  have hfirst : (row p b).headD 0 + 1 = levenshtein (p ++ [c]) [] := by
    show levenshtein p [] + 1 = _
    rw [levenshtein_nil_right, levenshtein_nil_right, List.length_append, List.length_singleton]
  unfold nextRow
  rw [hfirst]
  exact congrArg _ (nextCells_rowFrom p [] b c)

theorem foldl_nextRow (p a b : List Char) : a.foldl (nextRow b) (row p b) = row (p ++ a) b := by
  induction a generalizing p with
  | nil => rw [List.append_nil]; rfl
  | cons c a ih =>
    rw [List.foldl_cons, nextRow_row, ih, List.append_assoc, List.singleton_append]

/-- The first row counts. -/
theorem row_nil (b : List Char) : row [] b = List.range (b.length + 1) := by
  have hrest : ∀ q : List Char, rowFrom [] q b = List.range' (q.length + 1) b.length := by
    induction b with
    | nil => exact fun _ => rfl
    | cons d ds ih =>
      intro q
      rw [rowFrom, ih, levenshtein, List.length_append, List.length_singleton, List.length_cons,
        List.range'_succ]
  unfold row
  rw [hrest, levenshtein, List.range_eq_range', List.range'_succ]
  rfl

theorem getLastD_row (p b : List Char) : (row p b).getLastD 0 = levenshtein p b := by
  have hrest : ∀ q : List Char,
      (levenshtein p q :: rowFrom p q b).getLastD 0 = levenshtein p (q ++ b) := by
    induction b with
    | nil =>
      intro q
      rw [List.append_nil]
      rfl
    | cons d ds ih =>
      intro q
      have hmore := ih (q ++ [d])
      rw [List.append_assoc, List.singleton_append] at hmore
      rw [rowFrom, ← hmore, List.getLastD_cons, List.getLastD_cons, List.getLastD_cons]
  exact hrest []

/-- `editDistance` is the distance, or 4 where the lengths are too different. -/
theorem editDistance_eq (a b : List Char) :
    editDistance a b = levenshtein a b ∨
      editDistance a b = 4 ∧ (3 < a.length - b.length ∨ 3 < b.length - a.length) := by
  unfold editDistance
  split
  · next heq =>
    subst heq
    have hkeep : Script a a 0 := by
      induction a with
      | nil => exact .nil
      | cons c a ih => exact ih.keep c
    exact .inl (Nat.le_zero.mp (levenshtein_le hkeep)).symm
  split
  · next hnil =>
    subst hnil
    exact .inl (by rw [levenshtein])
  split
  · next hnil =>
    subst hnil
    exact .inl (levenshtein_nil_right a).symm
  split
  · next hfar => exact .inr ⟨rfl, hfar⟩
  · rw [← row_nil, foldl_nextRow, List.nil_append]
    exact .inl (getLastD_row a b)

/-- **Up to 3 the distance is exact.** -/
theorem editDistance_eq_levenshtein {a b : List Char}
    (h : levenshtein a b ≤ 3 ∨ editDistance a b ≤ 3) : editDistance a b = levenshtein a b := by
  rcases editDistance_eq a b with heq | ⟨hfour, hfar⟩
  · exact heq
  · have hlengths := length_sub_le_levenshtein a b
    omega

/-! ## The names of the markets -/

/-- How far off a token for a symbol may be. -/
def IsNear (token m : List Char) : Prop :=
  editDistance token (lowerCase m) ≤ if m.length ≤ 3 then 1 else 2

instance (token m : List Char) : Decidable (IsNear token m) := Nat.decLe _ _

/-- The name for which a token is taken, and its market. -/
def foundName (data : ParserData) (token : List Char) : Option (List Char × List Char) :=
  match data.markets.find? fun m => IsNear token m with
  | some m => some (lowerCase m, m)
  | none => (getMarketAliasMap data).find? fun e => editDistance token e.1 ≤ 1

/-- A token that names no market is taken for the market of that name. -/
theorem fuzzyMarket_eq {data : ParserData} {token : List Char}
    (h : resolveMarket data token ∉ data.markets) :
    fuzzyMarket data token = (foundName data token).map Prod.snd := by
  unfold fuzzyMarket foundName
  rw [if_neg h]
  unfold IsNear
  cases data.markets.find? fun m =>
    decide (editDistance token (lowerCase m) ≤ if m.length ≤ 3 then 1 else 2) with
  | none => rfl
  | some m => rfl

/-- The symbols and the aliases of the markets. -/
def knownNames (data : ParserData) : List (List Char × List Char) :=
  data.markets.map (fun m => (lowerCase m, m)) ++
    (getMarketAliasMap data).filter fun e => e.2 ∈ data.markets

/-- An alias of the protocol is in small letters, and there is only one of its name. -/
theorem alias_text : ∀ e ∈ knownAliases, lowerCase (trim e.1) = e.1 ∧ trim e.1 ≠ [] ∧ e.2 ≠ [] ∧
    ∀ f ∈ knownAliases, f.1 = e.1 → f.2 = e.2 := by
  decide +kernel

/-- An alias is found under its name. -/
theorem lookUp_alias {data : ParserData} {e : List Char × List Char}
    (h : e ∈ getMarketAliasMap data) : lookUp (getMarketAliasMap data) e.1 = some e.2 := by
  obtain ⟨_, _, hfull, honly⟩ := alias_text e (mem_knownAliases h)
  have htest : (decide (e.1 = e.1) && !e.2.isEmpty) = true := by
    cases hmarket : e.2 with
    | nil => exact absurd hmarket hfull
    | cons c rest => simp
  cases hfind : (getMarketAliasMap data).find? fun f => f.1 = e.1 && !f.2.isEmpty with
  | none => exact absurd htest (List.find?_eq_none.mp hfind e h)
  | some f =>
    have hname := List.find?_some hfind
    rw [Bool.and_eq_true, decide_eq_true_iff] at hname
    have hsame := honly f (mem_knownAliases (List.mem_of_find?_eq_some hfind)) hname.1
    unfold lookUp
    rw [hfind, Option.map_some, hsame]

/-- What leads to a market resolves to one. -/
theorem resolveMarket_mem {data : ParserData} {token : List Char} (hfull : trim token ≠ [])
    (h : upperCase (trim token) ∈ data.markets ∨
      ∃ m ∈ data.markets, lookUp (getMarketAliasMap data) (lowerCase (trim token)) = some m) :
    resolveMarket data token ∈ data.markets := by
  unfold resolveMarket resolveMarketWith
  dsimp only
  rw [if_neg hfull]
  refine iteInduction (motive := (· ∈ data.markets)) (fun hresolved => hresolved.2) fun _ => ?_
  refine iteInduction (motive := (· ∈ data.markets)) (fun hupper => hupper) fun hupper => ?_
  refine iteInduction (motive := (· ∈ data.markets)) (fun hcollapsed => hcollapsed) fun _ => ?_
  rcases h with hmem | ⟨m, hm, hlookUp⟩
  · exact absurd hmem hupper
  · rw [hlookUp]
    exact hm

/-- **The name of a market is not corrected.** -/
theorem market_of_known (config : MarketConfig) {e : List Char × List Char}
    (h : e ∈ knownNames config.toParserData) :
    resolveMarket config.toParserData e.1 ∈ config.markets := by
  rcases List.mem_append.mp h with h | h
  · obtain ⟨m, hm, rfl⟩ := List.mem_map.mp h
    have hname := isVisible_name (isName_lower (config.market_name m hm))
    have htrim := trim_visible hname
    refine resolveMarket_mem (htrim.symm ▸ hname.1) (.inl ?_)
    rw [htrim, upperCase_lowerCase, show upperCase m = m from config.market_upper m hm]
    exact hm
  · obtain ⟨hmem, hmarket⟩ := List.mem_filter.mp h
    rw [decide_eq_true_iff] at hmarket
    obtain ⟨htext, hfull, _, _⟩ := alias_text e (mem_knownAliases hmem)
    refine resolveMarket_mem hfull (.inr ⟨e.2, hmarket, ?_⟩)
    rw [htext]
    exact lookUp_alias hmem

/-! ## The nearest market -/

/-- A token that is corrected goes to the market under whose name it was found, and no name of
another market is nearer. -/
def TakesNearest (config : MarketConfig) (token : List Char) : Prop :=
  resolveMarket config.toParserData token ∉ config.markets →
    ∀ found, foundName config.toParserData token = some found →
      fuzzyMarket config.toParserData token = some found.2 ∧
        ∀ e ∈ knownNames config.toParserData, e.2 ≠ found.2 →
          levenshtein token found.1 ≤ levenshtein token e.1

/-- `editDistance` is the cost of the cheapest way between two texts, if that is at most 3. -/
def ExactUpToThree : Prop :=
  ∀ (a b : List Char) (n : ℕ), IsLeast {k | Script a b k} n → n ≤ 3 → editDistance a b = n

theorem exactUpToThree : ExactUpToThree := by
  intro a b n hleast hsmall
  have hn : levenshtein a b = n := (isLeast_levenshtein a b).unique hleast
  rw [← hn] at hsmall ⊢
  exact editDistance_eq_levenshtein (.inl hsmall)

/-- A longer symbol that is two letters off, where the name of another market is one letter off,
stands behind a symbol that is near enough. -/
def NearerFirst (config : MarketConfig) (token : List Char) : Prop :=
  ∀ before m behind, config.markets = before ++ m :: behind → 3 < m.length →
    levenshtein token (lowerCase m) = 2 →
      (∃ e ∈ knownNames config.toParserData, e.2 ≠ m ∧ levenshtein token e.1 = 1) →
        ∃ m' ∈ before, IsNear token m'

/-- A token that is corrected is at least one letter off from every name. -/
theorem one_le_levenshtein {config : MarketConfig} {token : List Char}
    (hfuzzy : resolveMarket config.toParserData token ∉ config.markets)
    {e : List Char × List Char} (he : e ∈ knownNames config.toParserData) :
    1 ≤ levenshtein token e.1 := by
  rw [Nat.one_le_iff_ne_zero]
  intro hzero
  rw [eq_of_levenshtein hzero] at hfuzzy
  exact hfuzzy (market_of_known config he)

theorem levenshtein_of_near {token m : List Char} (h : IsNear token m) :
    levenshtein token (lowerCase m) ≤ if m.length ≤ 3 then 1 else 2 := by
  have hthree : editDistance token (lowerCase m) ≤ 3 := by
    refine le_trans h ?_
    split
    · exact Nat.le_of_ble_eq_true rfl
    · exact Nat.le_of_ble_eq_true rfl
  rw [← editDistance_eq_levenshtein (.inr hthree)]
  exact h

theorem near_of_levenshtein {token m : List Char} (hlong : 3 < m.length)
    (h : levenshtein token (lowerCase m) = 2) : IsNear token m := by
  unfold IsNear
  rw [editDistance_eq_levenshtein (.inl (by omega)), h, if_neg (by omega)]

/-- The first symbol that is near enough. -/
theorem foundName_symbol {data : ParserData} {token m : List Char}
    {before behind : List (List Char)}
    (hmarkets : data.markets = before ++ m :: behind) (hnear : IsNear token m)
    (hfirst : ¬ ∃ m' ∈ before, IsNear token m') :
    foundName data token = some (lowerCase m, m) := by
  have hfind : data.markets.find? (fun m => IsNear token m) = some m := by
    refine List.find?_eq_some_iff_append.mpr ⟨decide_eq_true hnear, before, behind, hmarkets, ?_⟩
    intro m' hm'
    rw [Bool.not_eq_true', decide_eq_false_iff_not]
    exact fun h => hfirst ⟨m', hm', h⟩
  unfold foundName
  rw [hfind]

theorem foundName_cases {data : ParserData} {token : List Char} {found : List Char × List Char}
    (h : foundName data token = some found) :
    (∃ before behind, data.markets = before ++ found.2 :: behind ∧ IsNear token found.2 ∧
      found.1 = lowerCase found.2 ∧ ¬ ∃ m' ∈ before, IsNear token m') ∨
    found ∈ getMarketAliasMap data ∧ editDistance token found.1 ≤ 1 := by
  unfold foundName at h
  cases hfind : data.markets.find? fun m => IsNear token m with
  | some m =>
    rw [hfind] at h
    obtain rfl := Option.some.inj h
    obtain ⟨hnear, before, behind, hmarkets, hfirst⟩ := List.find?_eq_some_iff_append.mp hfind
    refine .inl ⟨before, behind, hmarkets, of_decide_eq_true hnear, rfl, ?_⟩
    rintro ⟨m', hm', hnear'⟩
    have hnone := hfirst m' hm'
    rw [Bool.not_eq_true', decide_eq_false_iff_not] at hnone
    exact hnone hnear'
  | none =>
    rw [hfind] at h
    have htest := @List.find?_some _
      (fun e : List Char × List Char => editDistance token e.1 ≤ 1) _ _ h
    exact .inr ⟨List.mem_of_find?_eq_some h, of_decide_eq_true htest⟩

/-- **A token is taken for the nearest market exactly if it is one already, or if no longer symbol
that is two letters off comes before a name that is one letter off.** -/
theorem nearest_iff (config : MarketConfig) (token : List Char) :
    TakesNearest config token ∧ ExactUpToThree ↔
      resolveMarket config.toParserData token ∈ config.markets ∨ NearerFirst config token := by
  constructor
  · rintro ⟨hnearest, _⟩
    by_cases hfuzzy : resolveMarket config.toParserData token ∈ config.markets
    · exact .inl hfuzzy
    refine .inr fun before m behind hmarkets hlong htwo hother => ?_
    by_contra hfirst
    obtain ⟨e, he, hne, hone⟩ := hother
    have hfound := foundName_symbol hmarkets (near_of_levenshtein hlong htwo) hfirst
    have hle := (hnearest hfuzzy _ hfound).2 e he hne
    rw [htwo, hone] at hle
    omega
  · intro hcondition
    refine ⟨fun hfuzzy found hfound => ⟨by rw [fuzzyMarket_eq hfuzzy, hfound]; rfl, ?_⟩,
      exactUpToThree⟩
    intro e he hne
    have hone := one_le_levenshtein hfuzzy he
    rcases foundName_cases hfound with ⟨before, behind, hmarkets, hnear, hname, hfirst⟩ | ⟨_, hle⟩
    · by_contra hfar
      rw [hname] at hfar
      have hle := levenshtein_of_near hnear
      split at hle
      · omega
      · next hlong =>
        refine hfirst (hcondition.resolve_left hfuzzy before found.2 behind hmarkets (by omega)
          (by omega) ⟨e, he, hne, by omega⟩)
    · rw [← editDistance_eq_levenshtein (.inr (by omega))]
      omega

/-- The symbols of the fallback in `config/index.ts`. -/
def fallbackSymbols : List (List Char) :=
  ["SOL", "BTC", "ETH", "ZEC", "BNB", "XAG", "XAU", "CRUDEOIL", "NATGAS", "EUR", "GBP", "USDJPY",
    "USDCNH", "JTO", "JUP", "PYTH", "RAY", "HYPE", "MET", "KMNO", "PUMP", "BONK", "PENGU", "WIF",
    "FARTCOIN", "ORE", "SPY", "NVDA", "TSLA", "AAPL", "AMD", "AMZN", "PLTR"].map String.toList

def fallbackMarkets : MarketConfig where
  markets := fallbackSymbols
  registered := fallbackSymbols
  pools := ["Crypto.1".toList]
  market_name := by decide +kernel
  pool_name := isName_crypto
  shortcut := isShortcut_nil
  market_upper := by decide +kernel

/-- "bold" is one letter off from "gold", but BONK, two letters off, comes first. -/
theorem not_takesNearest_bold : ¬ TakesNearest fallbackMarkets "bold".toList := by
  intro h
  have hbonk : resolveMarket fallbackMarkets.toParserData "bold".toList ∉ fallbackMarkets.markets ∧
      foundName fallbackMarkets.toParserData "bold".toList =
        some ("bonk".toList, "BONK".toList) ∧
      ("gold".toList, "XAU".toList) ∈ knownNames fallbackMarkets.toParserData ∧
      ¬ levenshtein "bold".toList "bonk".toList ≤ levenshtein "bold".toList "gold".toList := by
    decide +kernel
  obtain ⟨hunlisted, hfound, hgold, hfar⟩ := hbonk
  exact hfar ((h hunlisted _ hfound).2 _ hgold (by decide))

end Interpreter

end FlashEdge
