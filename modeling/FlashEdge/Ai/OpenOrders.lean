import FlashEdge.Ai.FollowUps
import FlashEdge.Ai.OpenSpaces

/-!
# The order of the tokens of an open

`flexParseOpen` takes the side, the leverage and the collateral out of the text wherever they
stand, and what is left is the market.

- `flexParseOpen_openText`: the tokens give the same intent in every order.
- `everyOrder_iff`: the intent has the leverage and the collateral that are written exactly when
  the leverage is not zero; a zero is taken for no leverage at all.
-/

namespace FlashEdge

namespace Interpreter

open Pattern

/-! ## The tokens, one after another -/

/-- `open` and the tokens. -/
def openText (ts : List (List Char)) : List Char := joinWords ("open".toList :: ts)

/-- The market that a text is taken for. -/
def marketOf (data : ParserData) (body : List Char) : Option (List Char) :=
  if resolveMarket data body ∈ data.markets then some (resolveMarket data body)
  else fuzzyMarket data body

/-- The intent of a market, a leverage and a collateral that have been read. -/
def readIntent (data : ParserData) (side : TradeSide) (market : List Char)
    (leverage collateral : SdkNumber) : Option ParsedIntent :=
  match marketOf data market with
  | some resolved =>
    if ¬ finitePositive collateral then none
    else
      let parsed :=
        if leverage.truthy then some leverage
        else some ((data.getPreferredLeverage resolved).getD (parseInt ['2']))
      if ¬ parsed.any finiteAtLeastOne then none
      else
        some {
          action := .OpenPosition
          market := some resolved
          side := some side
          collateral := some collateral
          leverage := parsed }
  | none => none

/-- A text in which the three are found, and the rest is left. -/
theorem flexParseOpen_of_found {data : ParserData} {input body body' body'' market : List Char}
    {side : TradeSide} {m n k : Match}
    (hsplit : tpSlSplit.exec input = none)
    (hbody : trim (collapse (leverageNumber.replaceAll (fun m => m.group 1 ++ ['x'])
      (openFiller.replaceAll (fun _ => [' ']) (atAmount.replaceAll (fun m => '$' :: m.group 1)
        (stripLeading 3 input))))) = body)
    (hside : sideWord.exec body = some m) (hparse : parseSide (m.group 1) = some side)
    (hrest : takeOut sideWord body = body')
    (hleverage : leverageWord.exec body' = some n) (hrest' : takeOut leverageWord body' = body'')
    (hcollateral : dollarAmount.exec body'' = some k)
    (hleft : trim (collapse (lastFiller.replaceAll (fun _ => []) (takeOut dollarAmount body''))) =
      market)
    (hmarket : market ≠ []) :
    flexParseOpen data input =
      readIntent data side market (parseFloat (n.group 1)) (parseFloat (k.group 1)) := by
  unfold flexParseOpen
  simp only [hsplit, hbody, hside, hparse, hrest, hleverage, hrest', Option.bind_some,
    Option.isSome_some, Option.map_some, if_true]
  unfold takeCollateral
  simp only [hcollateral, hleft, if_neg hmarket]
  unfold readIntent marketOf
  have htp : parseTrigger "tp" [] = none := by decide
  have hsl : parseTrigger "sl" [] = none := by decide
  rw [htp, hsl]
  generalize (if resolveMarket data market ∈ data.markets then some (resolveMarket data market)
    else fuzzyMarket data market) = resolved
  cases resolved with
  | none => rfl
  | some resolved => rfl

theorem group_one {m : Match} {w : List Char} (h : m.captures = [(1, w)]) : m.group 1 = w := by
  unfold Match.group Match.group?
  rw [h]
  rfl

theorem parseSide_sideToken (side : TradeSide) : parseSide (sideToken side) = some side := by
  cases side with
  | Long => rfl
  | Short => rfl

theorem leadingX_none {c : Char} {tail : List Char} (hc : c ≠ 'x') :
    leadingX.exec (c :: tail) = none := by
  refine exec_none_of_start ?_
  show (seqs [lit "x", boundary]).results _ = []
  rw [results_seqs_cons, results_lit, if_neg]
  · rfl
  · rintro ⟨rest, hrest⟩
    obtain ⟨rfl, -⟩ := List.cons.inj hrest
    exact hc rfl

section Tokens

variable {data : ParserData} {side : TradeSide} {market : List Char} {leverage collateral : Numeral}

theorem side_openTokens (h : OnlyMarket side market) :
    ∀ t ∈ openTokens side market leverage collateral,
      t = sideToken side ∨ sideWord.exec t = none := by
  have hnone := exec_tokens_none (p := sideWord) (by decide) (by decide)
  intro t ht
  simp only [openTokens, List.mem_cons, List.not_mem_nil, or_false] at ht
  rcases ht with rfl | rfl | rfl | rfl
  · exact .inl rfl
  · exact h.side
  · exact .inr (hnone leverage).1
  · exact .inr (hnone collateral).2

theorem leadingX_leverage (n : Numeral) : leadingX.exec (leverageToken n) = none := by
  obtain ⟨c, tail, htext, hc⟩ := n.head
  unfold leverageToken
  rw [htext]
  refine leadingX_none ?_
  rintro rfl
  cases hc

/-- A leverage and a collateral begin with no letter. -/
theorem head_number {n : Numeral} {t : List Char}
    (ht : t = leverageToken n ∨ t = collateralToken n) :
    ∃ c tail, t = c :: tail ∧ c ∈ "$0123456789".toList := by
  rcases ht with rfl | rfl
  · obtain ⟨c, tail, htext, hc⟩ := n.head
    refine ⟨c, tail ++ ['x'], by unfold leverageToken; rw [htext]; rfl, ?_⟩
    exact forall_digit (P := fun c => c ∈ "$0123456789".toList) (by decide) hc
  · exact ⟨'$', n.text, rfl, by decide⟩

/-- The tokens are a side, the market, or begin with no letter. -/
theorem openTokens_cases {t : List Char} (ht : t ∈ openTokens side market leverage collateral) :
    t = sideToken side ∨ t = market ∨ ∃ c tail, t = c :: tail ∧ c ∈ "$0123456789".toList := by
  simp only [openTokens, List.mem_cons, List.not_mem_nil, or_false] at ht
  rcases ht with rfl | rfl | rfl | rfl
  · exact .inl rfl
  · exact .inr (.inl rfl)
  · exact .inr (.inr (head_number (n := leverage) (.inl rfl)))
  · exact .inr (.inr (head_number (n := collateral) (.inr rfl)))

theorem stripped_openTokens (h : OnlyMarket side market) :
    ∀ t ∈ openTokens side market leverage collateral,
      ∀ w ∈ greetingWords ++ openVerbs, w.toList ≠ t := by
  have hsides : ∀ w ∈ greetingWords ++ openVerbs,
      w.toList ≠ "long".toList ∧ w.toList ≠ "short".toList ∧
        ∀ c ∈ w.toList.head?, c ∉ "$0123456789".toList := by decide
  intro t ht w hw
  obtain ⟨hlong, hshort, hhead⟩ := hsides w hw
  rcases openTokens_cases ht with rfl | rfl | ⟨c, tail, rfl, hc⟩
  · cases side with
    | Long => exact hlong
    | Short => exact hshort
  · exact h.stripped w hw
  · intro heq
    exact hhead c (by rw [heq]; rfl) hc

theorem articles_openTokens (h : OnlyMarket side market) :
    ∀ t ∈ openTokens side market leverage collateral,
      ∀ w ∈ ["a", "an", "the"], w.toList ≠ t := by
  have hfillers : ∀ w ∈ ["a", "an", "the"], openFiller.exec w.toList ≠ none := by decide
  rintro t ht w hw rfl
  exact hfillers w hw (others_openTokens h (by simp [otherReaders]) _ ht)

variable {ts : List (List Char)}

/-- Behind the market stands no word of a greeting. -/
theorem second_openTokens {t : List Char}
    (hts : (t :: ts).Perm (openTokens side market leverage collateral))
    (ht : t ∈ ["i".toList, "let".toList, "can".toList]) :
    ∀ c ∈ (joinWords ts).head?, c ∉ "wmuy".toList := by
  have hmarket : t = market := by
    have hpronouns : ∀ w ∈ ["i".toList, "let".toList, "can".toList],
        w ≠ "long".toList ∧ w ≠ "short".toList ∧ ∀ c ∈ w.head?, c ∉ "$0123456789".toList := by
      decide
    obtain ⟨hlong, hshort, hhead⟩ := hpronouns t ht
    rcases openTokens_cases (hts.mem_iff.mp List.mem_cons_self) with rfl | rfl | ⟨c, tail, rfl, hc⟩
    · cases side with
      | Long => exact absurd rfl hlong
      | Short => exact absurd rfl hshort
    · rfl
    · exact absurd hc (hhead c rfl)
  subst hmarket
  have hrest : ts.Perm [sideToken side, leverageToken leverage, collateralToken collateral] :=
    (hts.trans (List.Perm.swap _ _ _)).cons_inv
  cases ts with
  | nil => exact fun c hc => by cases hc
  | cons u us =>
    have hu : u ∈ [sideToken side, leverageToken leverage, collateralToken collateral] :=
      hrest.mem_iff.mp List.mem_cons_self
    have hchar : ∃ c tail, u = c :: tail ∧ c ∈ "ls$0123456789".toList := by
      have hsub : ∀ c ∈ "$0123456789".toList, c ∈ "ls$0123456789".toList := by decide
      simp only [List.mem_cons, List.not_mem_nil, or_false] at hu
      rcases hu with rfl | hu | hu
      · cases side with
        | Long => exact ⟨'l', "ong".toList, rfl, by decide⟩
        | Short => exact ⟨'s', "hort".toList, rfl, by decide⟩
      · obtain ⟨c, tail, htail, hc⟩ := head_number (n := leverage) (.inl hu)
        exact ⟨c, tail, htail, hsub c hc⟩
      · obtain ⟨c, tail, htail, hc⟩ := head_number (n := collateral) (.inr hu)
        exact ⟨c, tail, htail, hsub c hc⟩
    obtain ⟨c, tail, rfl, hc⟩ := hchar
    have hapart : ∀ d ∈ "ls$0123456789".toList, d ∉ "wmuy".toList := by decide
    intro d hd
    unfold joinWords at hd
    rw [intercalate_eq] at hd
    obtain rfl := Option.some.inj hd
    exact hapart c hc

/-- The verb is taken off, and nothing else. -/
theorem stripLeading_openText (h : OnlyMarket side market)
    (hts : ts.Perm (openTokens side market leverage collateral)) :
    stripLeading 3 (openText ts) = joinWords ts := by
  have hall : ∀ t ∈ ts, IsToken t := fun t ht => isToken_openTokens h.token t (hts.mem_iff.mp ht)
  cases ts with
  | nil => exact absurd hts.length_eq (by simp [openTokens])
  | cons t ts =>
    have ht := hts.mem_iff.mp List.mem_cons_self
    exact stripLeading_open (hall t List.mem_cons_self)
      (fun u hu => hall u (List.mem_cons_of_mem t hu)) (stripped_openTokens h t ht)
      (second_openTokens hts) (articles_openTokens h t ht)

theorem others_joinWords (h : OnlyMarket side market)
    (hts : ts.Perm (openTokens side market leverage collateral)) :
    ∀ p ∈ otherReaders, p.exec (joinWords ts) = none := by
  have hreaders : ∀ p ∈ otherReaders, p.stays ' ' = true ∧ p.exec [] = none := by decide
  intro p hp
  obtain ⟨hstays, hnil⟩ := hreaders p hp
  exact exec_joined_none hstays (by decide) hnil fun t ht =>
    others_openTokens h hp t (hts.mem_iff.mp ht)

/-- There is no suffix to split off. -/
theorem tpSlSplit_openText (h : OnlyMarket side market)
    (hts : ts.Perm (openTokens side market leverage collateral)) :
    tpSlSplit.exec (openText ts) = none := by
  refine tpSlSplit_none (exec_joined_none (by decide) (by decide) (by decide) fun t ht => ?_)
  rcases List.mem_cons.mp ht with rfl | ht
  · decide
  · exact others_openTokens h (by simp [otherReaders]) t (hts.mem_iff.mp ht)

/-- The side is taken out. -/
theorem takeOut_side (h : OnlyMarket side market)
    (hts : ts.Perm (openTokens side market leverage collateral)) :
    ∃ us m, us.Perm [market, leverageToken leverage, collateralToken collateral] ∧
      sideWord.exec (joinWords ts) = some m ∧ parseSide (m.group 1) = some side ∧
      takeOut sideWord (joinWords ts) = joinWords us := by
  obtain ⟨m, hexec, hbefore, hafter, hcaptures⟩ := exec_sideWord side
  obtain ⟨us, m', hus, hexec', hcaptures', htake⟩ := takeOut_token (by decide)
    (fun t ht => isToken_openTokens h.token t (hts.mem_iff.mp ht)) hts hexec hbefore hafter
    (fun t ht => side_openTokens h t (hts.mem_iff.mp ht))
  refine ⟨us, m', hus, hexec', ?_, htake⟩
  rw [group_one (hcaptures'.trans hcaptures), parseSide_sideToken]

/-- The leverage is taken out. -/
theorem takeOut_leverage (h : OnlyMarket side market)
    (hts : ts.Perm [market, leverageToken leverage, collateralToken collateral]) :
    ∃ us m, us.Perm [market, collateralToken collateral] ∧
      leverageWord.exec (joinWords ts) = some m ∧ m.group 1 = leverage.text ∧
      takeOut leverageWord (joinWords ts) = joinWords us := by
  have hmem : ∀ t ∈ ts, t = market ∨ t = leverageToken leverage ∨ t = collateralToken collateral :=
    fun t ht => by simpa using hts.mem_iff.mp ht
  have hall : ∀ t ∈ ts, IsToken t := by
    intro t ht
    have hword : t ∈ openTokens side market leverage collateral :=
      List.mem_cons_of_mem _ (hts.mem_iff.mp ht)
    exact isToken_openTokens h.token t hword
  have hx : ∀ t ∈ ts, leadingX.exec t = none := by
    intro t ht
    rcases hmem t ht with rfl | rfl | rfl
    · exact h.leadingX
    · exact leadingX_leverage leverage
    · exact leadingX_none (by decide)
  have hsame := exec_leverageWord (spacedX_none hall hx)
  obtain ⟨m, hexec, hbefore, hafter, hcaptures⟩ := exec_leverageTight leverage
  obtain ⟨us, m', hus, hexec', hcaptures', htake⟩ := takeOut_token (by decide) hall
    (hts.trans (List.Perm.swap _ _ _)) hexec hbefore hafter fun t ht => by
      rcases hmem t ht with rfl | rfl | rfl
      · exact .inr h.leverage
      · exact .inl rfl
      · exact .inr (exec_leverageTight_collateral collateral)
  refine ⟨us, m', hus, hsame.trans hexec', group_one (hcaptures'.trans hcaptures), ?_⟩
  have hreplace : takeOut leverageWord (joinWords ts) = takeOut leverageTight (joinWords ts) := by
    unfold takeOut replace
    rw [hsame]
  rw [hreplace, htake]

/-- The collateral is taken out, and the market is left. -/
theorem takeOut_collateral (h : OnlyMarket side market)
    (hts : ts.Perm [market, collateralToken collateral]) :
    ∃ m, dollarAmount.exec (joinWords ts) = some m ∧ m.group 1 = collateral.text ∧
      takeOut dollarAmount (joinWords ts) = market := by
  have hmem : ∀ t ∈ ts, t = market ∨ t = collateralToken collateral :=
    fun t ht => by simpa using hts.mem_iff.mp ht
  have hall : ∀ t ∈ ts, IsToken t := by
    intro t ht
    have hword : t ∈ openTokens side market collateral collateral := by
      rcases hmem t ht with rfl | rfl
      · simp [openTokens]
      · simp [openTokens]
    exact isToken_openTokens h.token t hword
  obtain ⟨m, hexec, hbefore, hafter, hcaptures⟩ := exec_dollarAmount collateral
  obtain ⟨us, m', hus, hexec', hcaptures', htake⟩ := takeOut_token (by decide) hall
    (hts.trans (List.Perm.swap _ _ _)) hexec hbefore hafter fun t ht => by
      rcases hmem t ht with rfl | rfl
      · exact .inr h.collateral
      · exact .inl rfl
  obtain rfl := List.perm_singleton.mp hus
  rw [joinWords_singleton] at htake
  exact ⟨m', hexec', group_one (hcaptures'.trans hcaptures), htake⟩

/-- **In every order the tokens give one intent.** -/
theorem flexParseOpen_openText (h : OnlyMarket side market)
    (hts : ts.Perm (openTokens side market leverage collateral)) :
    flexParseOpen data (openText ts) =
      readIntent data side market (parseFloat leverage.text) (parseFloat collateral.text) := by
  have hall : ∀ t ∈ ts, IsToken t := fun t ht => isToken_openTokens h.token t (hts.mem_iff.mp ht)
  have hothers := others_joinWords h hts
  have hmarket : trim (collapse market) = market := by
    have hone := trim_collapse (Spaced.last h.token)
    rwa [joinWords_singleton] at hone
  obtain ⟨us, m, hus, hside, hparse, hrest⟩ := takeOut_side h hts
  obtain ⟨vs, n, hvs, hleverage, hlev, hrest'⟩ := takeOut_leverage h hus
  obtain ⟨k, hcollateral, hcol, hleft⟩ := takeOut_collateral h hvs
  rw [← hlev, ← hcol]
  refine flexParseOpen_of_found (tpSlSplit_openText h hts) ?_ hside hparse hrest hleverage hrest'
    hcollateral ?_ h.token.1
  · rw [stripLeading_openText h hts,
      replaceAll_of_none (hothers atAmount (by simp [otherReaders])),
      replaceAll_of_none (hothers openFiller (by simp [otherReaders])),
      replaceAll_of_none (leverageNumber_none (hothers leverageMark (by simp [otherReaders])))]
    exact trim_collapse (spaced_joinWords hall)
  · rw [hleft, replaceAll_of_none (h.others lastFiller (by simp [otherReaders])), hmarket]

/-- The parser is tried, and its answer is the answer. -/
theorem openCommands_openText
    (hts : ts.Perm (openTokens side market leverage collateral)) {intent : ParsedIntent}
    (hparse : flexParseOpen data (openText ts) = some intent) :
    openCommands data (openText ts) = some intent := by
  have hnumbers : (char Char.isDigit).test (openText ts) = true := by
    obtain ⟨d, tail, htext, hd⟩ := leverage.head
    have hmem : d ∈ openText ts := by
      refine mem_joinWords_of_mem (w := leverageToken leverage) ?_ ?_
      · exact List.mem_cons_of_mem _ (hts.mem_iff.mpr (by simp [openTokens]))
      · unfold leverageToken
        rw [htext]
        exact List.mem_cons_self
    obtain ⟨v, rest, hsplit⟩ := List.append_of_mem hmem
    refine Option.isSome_iff_ne_none.mpr fun hnone => ?_
    have hhere := exec_eq_none_iff.mp hnone v (d :: rest) hsplit
    rw [results] at hhere
    dsimp only at hhere
    rw [if_pos hd] at hhere
    cases hhere
  have htriggers : openTriggers (openText ts) = true := by
    cases ts with
    | nil => exact absurd hts.length_eq (by simp [openTokens])
    | cons t ts =>
      have hprefix : (seqs [start, oneOf ["open", "enter", "long", "short", "please", "pls", "yo",
          "hey", "ok", "okay", "i", "just"], boundary]).test
            ("open".toList ++ ' ' :: joinWords (t :: ts)) = true := rfl
      unfold openTriggers openText
      simp only [joinWords_cons, hprefix, Bool.true_or]
  unfold openCommands
  simp only [hnumbers, htriggers, Bool.and_self, if_true, hparse]
  rfl

/-! ## The property -/

/-- The intent has what is written. -/
structure ReadsTokens (data : ParserData) (side : TradeSide) (market : List Char)
    (leverage collateral : Numeral) (intent : ParsedIntent) : Prop where
  action : intent.action = .OpenPosition
  side : intent.side = some side
  market : intent.market = marketOf data market
  leverage : ∃ d, intent.leverage = some (.finite d) ∧ d.toRat = leverage.value
  collateral : ∃ d, intent.collateral = some (.finite d) ∧ d.toRat = collateral.value

/-- In every order the tokens give one intent, which has what is written. -/
def EveryOrder (data : ParserData) (side : TradeSide) (market : List Char)
    (leverage collateral : Numeral) : Prop :=
  ∃ intent, ReadsTokens data side market leverage collateral intent ∧
    ∀ ts, ts.Perm (openTokens side market leverage collateral) →
      openCommands data (openText ts) = some intent

/-- The parser accepts the tokens in some order. -/
def Accepted (data : ParserData) (side : TradeSide) (market : List Char)
    (leverage collateral : Numeral) : Prop :=
  ∃ ts, ts.Perm (openTokens side market leverage collateral) ∧
    flexParseOpen data (openText ts) ≠ none

theorem finite_of_finitePositive {n : SdkNumber} (h : finitePositive n = true) :
    ∃ d, n = .finite d := by
  cases n with
  | finite d => exact ⟨d, rfl⟩
  | posInfinity => cases h
  | negInfinity => cases h
  | nan => cases h

theorem finite_of_finiteAtLeastOne {o : Option SdkNumber} (h : o.any finiteAtLeastOne = true) :
    ∃ d, o = some (.finite d) ∧ 1 ≤ d.toRat := by
  cases o with
  | none => cases h
  | some n =>
    cases n with
    | finite d => exact ⟨d, rfl, of_decide_eq_true h⟩
    | posInfinity => cases h
    | negInfinity => cases h
    | nan => cases h

/-- What is known of an intent that is given. -/
theorem readIntent_eq_some {l c : SdkNumber} {intent : ParsedIntent}
    (h : readIntent data side market l c = some intent) :
    intent.action = .OpenPosition ∧ intent.side = some side ∧
      intent.market = marketOf data market ∧ intent.collateral = some c ∧
      finitePositive c = true ∧ intent.leverage.any finiteAtLeastOne = true ∧
      (l.truthy = true → intent.leverage = some l) := by
  unfold readIntent at h
  cases hmarket : marketOf data market with
  | none =>
    rw [hmarket] at h
    cases h
  | some resolved =>
    rw [hmarket] at h
    obtain ⟨hpositive, h⟩ := Option.ite_none_left_eq_some.mp h
    obtain ⟨hleverage, h⟩ := Option.ite_none_left_eq_some.mp h
    obtain rfl := Option.some.inj h
    exact ⟨rfl, rfl, rfl, rfl, not_not.mp hpositive, not_not.mp hleverage, fun hl => if_pos hl⟩

/-- A numeral that writes another number than zero is a number that is not skipped. -/
theorem truthy_of_value (n : Numeral) (h : n.value ≠ 0) : (parseFloat n.text).truthy = true := by
  cases hn : parseFloat n.text with
  | finite d =>
    refine decide_eq_true fun hzero => h ?_
    rw [← toRat_parseFloat hn]
    unfold Decimal.toRat
    rw [hzero]
    simp
  | posInfinity => rfl
  | negInfinity => rfl
  | nan =>
    rw [parseFloat_text] at hn
    unfold ofDigits at hn
    dsimp only at hn
    split at hn
    · cases hn
    · cases hn

/-- **In every order the tokens are read as they are written, if and only if the leverage is
not zero.** -/
theorem everyOrder_iff (h : OnlyMarket side market)
    (haccepted : Accepted data side market leverage collateral) :
    EveryOrder data side market leverage collateral ↔ leverage.value ≠ 0 := by
  obtain ⟨ts, hts, hsome⟩ := haccepted
  obtain ⟨intent, hintent⟩ := Option.ne_none_iff_exists'.mp hsome
  have hread : ∀ us, us.Perm (openTokens side market leverage collateral) →
      flexParseOpen data (openText us) = some intent := by
    intro us hus
    rw [flexParseOpen_openText h hus, ← flexParseOpen_openText h hts, hintent]
  rw [flexParseOpen_openText h hts] at hintent
  obtain ⟨haction, hside, hmarket, hcollateral, hpositive, hone, hwritten⟩ :=
    readIntent_eq_some hintent
  obtain ⟨d, hl, hd⟩ := finite_of_finiteAtLeastOne hone
  constructor
  · rintro ⟨intent', hreads, hall⟩ hzero
    obtain rfl := Option.some.inj ((openCommands_openText hts (hread ts hts)).symm.trans
      (hall ts hts))
    obtain ⟨e, he, hvalue⟩ := hreads.leverage
    obtain rfl := SdkNumber.finite.inj (Option.some.inj (hl.symm.trans he))
    rw [hvalue, hzero] at hd
    exact absurd hd (by norm_num)
  · intro hvalue
    have hsame := hwritten (truthy_of_value leverage hvalue)
    obtain ⟨c, hc⟩ := finite_of_finitePositive hpositive
    refine ⟨intent, ⟨haction, hside, hmarket, ?_, ?_⟩, fun us hus =>
      openCommands_openText hus (hread us hus)⟩
    · have hnumber : parseFloat leverage.text = .finite d :=
        Option.some.inj (hsame.symm.trans hl)
      exact ⟨d, hl, toRat_parseFloat hnumber⟩
    · exact ⟨c, hcollateral.trans (congrArg some hc), toRat_parseFloat hc⟩

end Tokens

/-! ## A leverage of zero -/

def zeroNumeral : Numeral where
  int := "0".toList
  fraction := []
  int_ne := by decide
  int_digits := by decide
  fraction_digits := by decide

def twoNumeral : Numeral where
  int := "2".toList
  fraction := []
  int_ne := by decide
  int_digits := by decide
  fraction_digits := by decide

def tenNumeral : Numeral where
  int := "10".toList
  fraction := []
  int_ne := by decide
  int_digits := by decide
  fraction_digits := by decide

theorem onlyMarket_sol : OnlyMarket .Long "sol".toList where
  token := by decide
  others := by decide
  leverage := by decide
  collateral := by decide
  side := by decide
  leadingX := by decide
  stripped := by decide

/-- "open long sol 2x $10", in any order. -/
theorem everyOrder_two :
    EveryOrder OfflineInterpreter.twoMarkets .Long "sol".toList twoNumeral
      tenNumeral :=
  (everyOrder_iff onlyMarket_sol ⟨_, List.Perm.refl _, by decide +kernel⟩).mpr (by decide +kernel)

/-- "open long sol 0x $10" is accepted, with a leverage of two. -/
theorem zero_ignored :
    Accepted OfflineInterpreter.twoMarkets .Long "sol".toList zeroNumeral
        tenNumeral ∧
      openCommands OfflineInterpreter.twoMarkets "open long sol 0x $10".toList =
        some OfflineInterpreter.openTen ∧
      ¬ EveryOrder OfflineInterpreter.twoMarkets .Long "sol".toList zeroNumeral
        tenNumeral := by
  have hparse : openCommands OfflineInterpreter.twoMarkets "open long sol 0x $10".toList =
      some OfflineInterpreter.openTen := by decide +kernel
  have htext : openText (openTokens .Long "sol".toList zeroNumeral tenNumeral) =
      "open long sol 0x $10".toList := by decide
  refine ⟨⟨_, List.Perm.refl _, by decide +kernel⟩, hparse, ?_⟩
  rintro ⟨intent, hreads, hall⟩
  have hgiven := hall _ (List.Perm.refl _)
  rw [htext, hparse] at hgiven
  obtain rfl := Option.some.inj hgiven
  obtain ⟨d, hd, hvalue⟩ := hreads.leverage
  obtain rfl := SdkNumber.finite.inj (Option.some.inj hd)
  exact absurd hvalue (by decide +kernel)

end Interpreter

end FlashEdge
