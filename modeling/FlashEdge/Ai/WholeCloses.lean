import FlashEdge.Ai.CloseReadings
import FlashEdge.Ai.FollowUps

/-!
# Full closes

A close without a percentage or an amount closes the whole position. The expression for a side
of a market takes everything behind the side for the part to close, and what is neither a
percentage nor an amount it ignores: so a text with a part that it does not understand is a full
close.

- `FullClose`: the intent closes a whole position.
- `ReadsOnly`: the text is the verb, the fillers, the market and the side of the intent.
- `fullClose_iff`: full closes are read from such texts only, unless the expression for a side is
  reached and ignores what is behind the side.
-/

namespace FlashEdge

namespace Interpreter

open Pattern

/-- A close without a part. -/
structure FullClose (intent : ParsedIntent) : Prop where
  action : intent.action = .ClosePosition
  percent : intent.closePercent = none
  amount : intent.closeAmount = none

/-- "close SOL long", with the fillers "my" and "position", and nothing else. -/
def bareSided : Pattern :=
  seqs [closeVerb, my, group 1 letters, spaces, group 2 longOrShort, position, many isSpace, stop]

/-- "close SOL", with the fillers. -/
def bareMarket : Pattern := seqs [closeVerb, my, group 1 letters, position, stop]

/-- The text is a close of the intent's market, and of its side if it has one, and has nothing
else in it. -/
def ReadsOnly (data : ParserData) (lower : List Char) (intent : ParsedIntent) : Prop :=
  match intent.side with
  | some side => ∃ m, bareSided.exec lower = some m ∧
      intent.market = some (resolveMarket data (m.group 1)) ∧ parseSide (m.group 2) = some side
  | none => ∃ m, bareMarket.exec lower = some m ∧
      intent.market = some (resolveMarket data (m.group 1))

/-- The expression for a side matches, and what it takes for the part to close is not blank,
neither a percentage nor an amount. -/
def LeavesPart (lower : List Char) : Prop :=
  ∃ m, closeMatch.exec lower = some m ∧ trim (m.group 3) ≠ [] ∧
    percentSuffix.exec (trim (m.group 3)) = none ∧ amountSuffix.exec (trim (m.group 3)) = none

/-- The closes of a percentage. -/
def percentClose (data : ParserData) (lower : List Char) : Option ParsedIntent :=
  onMatch (seqs [closeVerb, group 1 number, many isSpace, group 2 (oneOf ["%", "percent"]),
      spaces, optional (seq (lit "of") spaces), my, group 3 letters, spaces,
      group 4 longOrShort]) (fun m =>
    (parseSide (m.group 4)).map fun side =>
      { action := .ClosePosition, market := some (resolveMarket data (m.group 3)),
        side := some side, closePercent := some (parseFloat (m.group 1)) }) lower

/-- The closes of an amount. -/
def amountClose (data : ParserData) (lower : List Char) : Option ParsedIntent :=
  onMatch (seqs [closeVerb, lit "$", group 1 number, spaces,
      optional (seq (oneOf ["of", "from"]) spaces), my, group 2 letters, spaces,
      group 3 longOrShort]) (fun m =>
    (parseSide (m.group 3)).map fun side =>
      { action := .ClosePosition, market := some (resolveMarket data (m.group 2)),
        side := some side, closeAmount := some (parseFloat (m.group 1)) }) lower

/-- What is tried before the expression for a side. -/
def beforeClose (data : ParserData) (normalized : List Char) : List (Option ParsedIntent) :=
  let lower := lowerCase normalized
  [onTest (whole [oneOf ["help", "commands", "?"]]) { action := .Help } lower,
    walletCommands normalized lower, dataCommands data lower, openCommands data lower,
    triggerCommands data lower, limitCommands data lower, percentClose data lower,
    amountClose data lower]

/-- What is tried after the closes. -/
def afterClose (data : ParserData) (normalized : List Char) : List (Option ParsedIntent) :=
  let lower := lowerCase normalized
  [collateralCommands data lower, agentCommands data lower, swapCommands data lower,
    fafCommands lower, earnCommands normalized lower]

/-! ## The readings -/

theorem exec_sidedClose (tail : Pattern) (text : List Char) :
    (sidedClose tail).exec text = ((readings text).flatMap tail.results).head?.map
      (toMatch { before := [], after := text }) := by
  rw [exec_of_anchored, results_sidedClose]
  intro s hs
  have hstart : start.results s = [] := if_neg hs
  unfold sidedClose closeVerb
  show ((start.results s).flatMap _).flatMap _ = []
  rw [hstart]
  rfl

/-- There are two readings at most, and where there are two the second leaves something. -/
theorem readings_cases (text : List Char) :
    readings text = [] ∨ (∃ b, readings text = [b]) ∨
      ∃ a b, readings text = [a, b] ∧ (rest b).after ≠ [] := by
  unfold readings
  cases afterVerb text with
  | none => exact .inl rfl
  | some s =>
    dsimp only
    cases hmy : (afterMy s).bind afterPair with
    | none =>
      cases afterPair s with
      | none => exact .inl rfl
      | some b => exact .inr (.inl ⟨b, rfl⟩)
    | some a =>
      cases hb : afterPair s with
      | none => exact .inr (.inl ⟨a, rfl⟩)
      | some b =>
        obtain ⟨m, hm, ha⟩ := Option.bind_eq_some_iff.mp hmy
        exact .inr (.inr ⟨a, b, rfl, rest_of_both hm ha hb⟩)

theorem captures_of_reading {text : List Char} {r : Cursor} (hr : r ∈ readings text) :
    ∃ word side, r.captures = [(2, side), (1, word)] ∧
      (side = "long".toList ∨ side = "short".toList) := by
  unfold readings at hr
  cases hverb : afterVerb text with
  | none =>
    rw [hverb] at hr
    cases hr
  | some s =>
    obtain ⟨n, hn, hs⟩ := Option.bind_eq_some_iff.mp hverb
    obtain ⟨w, -, rfl⟩ := Option.map_eq_some_iff.mp hn
    obtain ⟨gap, -, -, -, hcaptures⟩ := run_of_munch1 hs
    have hempty : s.captures = [] := hcaptures
    have hpair : ∀ {m r : Cursor}, m.captures = [] → afterPair m = some r →
        ∃ word side, r.captures = [(2, side), (1, word)] ∧
          (side = "long".toList ∨ side = "short".toList) := by
      intro m r hm hr
      obtain ⟨word, gap, side, hread⟩ := pairRead_of_afterPair hr
      exact ⟨word, side, by rw [hread.captures, hm], hread.isSide⟩
    rw [hverb] at hr
    rcases List.mem_append.mp hr with hr | hr
    · obtain ⟨m, hm, hr⟩ := Option.bind_eq_some_iff.mp (Option.mem_toList.mp hr)
      obtain ⟨gap, -, -, -, hcaptures⟩ := afterMy_eq_some hm
      exact hpair (hcaptures.trans hempty) hr
    · exact hpair hempty (Option.mem_toList.mp hr)

/-- What is read behind one reading. -/
theorem head_tail {s : Cursor} {rs : List Cursor} {r : Cursor}
    (h : (closeTail.results s ++ rs).head? = some r) (hne : closeTail.results s ≠ []) :
    r.captures = (3, (rest s).after) :: s.captures := by
  have htail := tail_results s
  split at htail
  · obtain ⟨r', rs', hresults, hcaptures⟩ := htail
    rw [hresults] at h
    obtain rfl := Option.some.inj h
    exact hcaptures
  · exact absurd htail hne

theorem bare_of_rest {s : Cursor} (h : (rest s).after = []) :
    closeTail.results s ≠ [] ∧ ∃ rs, bareTail.results s = rest s :: rs := by
  have htail := tail_results s
  have hend := end_results s
  rw [if_pos (by rw [h]; rfl)] at htail
  rw [if_pos h] at hend
  obtain ⟨r, rs, hresults, -⟩ := htail
  exact ⟨by rw [hresults]; exact List.cons_ne_nil r rs, hend⟩

theorem bare_of_left {s : Cursor} (h : (rest s).after ≠ []) : bareTail.results s = [] := by
  have hend := end_results s
  rwa [if_neg h] at hend

/-- **The match comes from one reading, and the text is bare if and only if that reading leaves
nothing.** -/
theorem closeMatch_reading {text : List Char} {m : Match} (h : closeMatch.exec text = some m) :
    ∃ r ∈ readings text, m.captures = (3, (rest r).after) :: r.captures ∧
      ((rest r).after = [] → ∃ m', bareSided.exec text = some m' ∧ m'.captures = r.captures) ∧
      ((rest r).after ≠ [] → bareSided.exec text = none) := by
  have hsided : bareSided = sidedClose bareTail := rfl
  rw [closeMatch_eq, exec_sidedClose] at h
  rw [hsided, exec_sidedClose]
  obtain ⟨c, hc, rfl⟩ := Option.map_eq_some_iff.mp h
  have hbare : ∀ (r : Cursor) (rs : List Cursor), (rest r).after = [] →
      ∃ m', (bareTail.results r ++ rs).head?.map (toMatch { before := [], after := text }) =
        some m' ∧ m'.captures = r.captures := by
    intro r rs hnil
    obtain ⟨-, rs', hresults⟩ := bare_of_rest hnil
    rw [hresults]
    exact ⟨_, rfl, rest_captures r⟩
  obtain hnone | ⟨b, hone⟩ | ⟨a, b, htwo, hleft⟩ := readings_cases text
  · rw [hnone] at hc
    cases hc
  · rw [hone, List.flatMap_cons, List.flatMap_nil] at hc
    rw [hone, List.flatMap_cons, List.flatMap_nil]
    have hfound : closeTail.results b ≠ [] := by
      intro hnil
      rw [hnil] at hc
      cases hc
    refine ⟨b, List.mem_singleton_self b, head_tail hc hfound, hbare b [], fun hrest => ?_⟩
    rw [bare_of_left hrest]
    rfl
  · rw [htwo, List.flatMap_cons, List.flatMap_cons, List.flatMap_nil] at hc
    rw [htwo, List.flatMap_cons, List.flatMap_cons, List.flatMap_nil]
    by_cases hfound : closeTail.results a = []
    · -- the first reading finds no end, so it leaves something too
      have hrest : (rest a).after ≠ [] := fun hnil => (bare_of_rest hnil).1 hfound
      rw [hfound, List.nil_append] at hc
      have hsecond : closeTail.results b ≠ [] := by
        intro hnil
        rw [hnil] at hc
        cases hc
      refine ⟨b, by simp, head_tail hc hsecond, fun hnil => absurd hnil hleft, fun _ => ?_⟩
      rw [bare_of_left hrest, bare_of_left hleft]
      rfl
    · refine ⟨a, by simp, head_tail hc hfound, hbare a _, fun hrest => ?_⟩
      rw [bare_of_left hrest, bare_of_left hleft]
      rfl

/-! ## The intents of closes -/

theorem group_of_captures {m : Match} {n : ℕ} {w : List Char}
    (h : m.captures.find? (fun capture => capture.1 = n) = some (n, w)) : m.group n = w := by
  unfold Match.group Match.group?
  rw [h]
  rfl

/-- What the expression for a side gives. -/
def sidedIntent (data : ParserData) (m : Match) : Option ParsedIntent :=
  (parseSide (m.group 2)).map fun side =>
    let suffix := trim (m.group 3)
    let pctMatch := if suffix = [] then none else percentSuffix.exec suffix
    let amtMatch := if suffix = [] then none else amountSuffix.exec suffix
    { action := .ClosePosition
      market := some (resolveMarket data (m.group 1))
      side := some side
      closePercent := pctMatch.map fun p => parseFloat (p.group 1)
      closeAmount :=
        if pctMatch.isSome then none else amtMatch.map fun p => parseFloat (p.group 1) }

/-- What the expression for a market gives. -/
def marketIntent (data : ParserData) (m : Match) : Option ParsedIntent :=
  let resolved := resolveMarket data (m.group 1)
  if resolved ∈ data.markets then some { action := .ClosePosition, market := some resolved }
  else none

theorem firstOf_cons (o : Option ParsedIntent) (os : List (Option ParsedIntent)) :
    firstOf (o :: os) = o.or (firstOf os) := by
  cases o with
  | none => rfl
  | some intent => rfl

/-- The parser tries the two expressions in the middle. -/
theorem localParse_eq (data : ParserData) (input : List Char) :
    localParse data input = (firstOf (beforeClose data (normalize data input))).or
      ((onMatch closeMatch (sidedIntent data) (lowerCase (normalize data input))).or
        ((onMatch bareMarket (marketIntent data) (lowerCase (normalize data input))).or
          (firstOf (afterClose data (normalize data input))))) := by
  have hclose : closeCommands data (lowerCase (normalize data input)) =
      firstOf [percentClose data (lowerCase (normalize data input)),
        amountClose data (lowerCase (normalize data input)),
        onMatch closeMatch (sidedIntent data) (lowerCase (normalize data input)),
        onMatch bareMarket (marketIntent data) (lowerCase (normalize data input))] := rfl
  have hnil : firstOf [] = none := rfl
  unfold localParse beforeClose afterClose
  simp only [hclose, firstOf_cons, hnil, Option.or_none, Option.or_assoc]

theorem not_fullClose_of_shaped {g : CommandGroup} {o : Option ParsedIntent}
    (h : Yields (Shaped g) o) (hg : g ≠ .close) : Yields (fun i => ¬ FullClose i) o := by
  refine h.mono fun i hi hfull => ?_
  rcases hi.group with hhelp | rfl
  · rw [hfull.action] at hhelp
    cases hhelp
  · exact hg (by rw [hfull.action]; rfl)

theorem not_fullClose_before (data : ParserData) (normalized : List Char) :
    Yields (fun i => ¬ FullClose i) (firstOf (beforeClose data normalized)) := by
  have hother : ∀ {g : CommandGroup} {o : Option ParsedIntent}, Yields (Shaped g) o →
      g ≠ .close → Yields (fun i => ¬ FullClose i) o := not_fullClose_of_shaped
  refine .cons (hother (g := .help) (.test (.plain rfl rfl rfl rfl) _) (by decide)) ?_
  refine .cons (hother (shaped_wallet _ _) (by decide)) ?_
  refine .cons (hother (shaped_data _ _) (by decide)) ?_
  refine .cons (hother (shaped_open _ _) (by decide)) ?_
  refine .cons (hother (shaped_trigger _ _) (by decide)) ?_
  refine .cons (hother (shaped_limit _ _) (by decide)) ?_
  refine .cons (.onMatch fun m _ => .map fun side _ hfull => ?_) ?_
  · cases hfull.percent
  refine .cons (.onMatch fun m _ => .map fun side _ hfull => ?_) .nil
  cases hfull.amount

theorem not_fullClose_after (data : ParserData) (normalized : List Char) :
    Yields (fun i => ¬ FullClose i) (firstOf (afterClose data normalized)) := by
  refine .cons (not_fullClose_of_shaped (shaped_collateral _ _) (by decide)) ?_
  refine .cons (not_fullClose_of_shaped (shaped_agent _ _) (by decide)) ?_
  refine .cons (not_fullClose_of_shaped (shaped_swap _ _) (by decide)) ?_
  refine .cons (not_fullClose_of_shaped (shaped_faf _) (by decide)) ?_
  exact .cons (not_fullClose_of_shaped (shaped_earn _ _) (by decide)) .nil

/-- What the match has captured, and what it says of the text. -/
theorem closeMatch_groups {text : List Char} {m : Match} (h : closeMatch.exec text = some m) :
    (∃ side, parseSide (m.group 2) = some side) ∧
      (trim (m.group 3) = [] → ∃ m', bareSided.exec text = some m' ∧
        m'.group 1 = m.group 1 ∧ m'.group 2 = m.group 2) ∧
      (trim (m.group 3) ≠ [] → bareSided.exec text = none) := by
  obtain ⟨r, hr, hcaptures, hbare, hleft⟩ := closeMatch_reading h
  obtain ⟨word, side, hreading, hside⟩ := captures_of_reading hr
  rw [hreading] at hcaptures
  have hlast : m.group 3 = (rest r).after := group_of_captures (by rw [hcaptures]; rfl)
  have hsecond : m.group 2 = side := group_of_captures (by rw [hcaptures]; rfl)
  have hfirst : m.group 1 = word := group_of_captures (by rw [hcaptures]; rfl)
  refine ⟨?_, fun htrim => ?_, fun htrim => hleft ?_⟩
  · rw [hsecond]
    rcases hside with rfl | rfl
    · exact ⟨.Long, rfl⟩
    · exact ⟨.Short, rfl⟩
  · have hnil : (rest r).after = [] := by
      by_contra hne
      obtain ⟨c, tail, hcons⟩ := List.exists_cons_of_ne_nil hne
      rw [hlast] at htrim
      exact trim_ne_nil (by rw [hcons]; exact List.mem_cons_self) (rest_head hcons) htrim
    obtain ⟨m', hm', hsame⟩ := hbare hnil
    rw [hreading] at hsame
    refine ⟨m', hm', ?_, ?_⟩
    · rw [hfirst]
      exact group_of_captures (by rw [hsame]; rfl)
    · rw [hsecond]
      exact group_of_captures (by rw [hsame]; rfl)
  · rintro hnil
    rw [hlast, hnil] at htrim
    exact htrim rfl

/-- The intent of a match without a part closes what was read, and nothing else was. -/
theorem readsOnly_of_sided {data : ParserData} {lower : List Char} {m : Match}
    {intent : ParsedIntent} (hm : closeMatch.exec lower = some m)
    (hintent : sidedIntent data m = some intent) (hblank : trim (m.group 3) = []) :
    ReadsOnly data lower intent := by
  obtain ⟨side, hside, rfl⟩ := Option.map_eq_some_iff.mp hintent
  obtain ⟨m', hm', hfirst, hsecond⟩ := (closeMatch_groups hm).2.1 hblank
  exact ⟨m', hm', by rw [hfirst], by rw [hsecond, hside]⟩

/-- A full close with a part has one that is not understood. -/
theorem part_of_fullClose {data : ParserData} {m : Match} {intent : ParsedIntent}
    (hintent : sidedIntent data m = some intent) (hfull : FullClose intent)
    (hpart : trim (m.group 3) ≠ []) :
    percentSuffix.exec (trim (m.group 3)) = none ∧
      amountSuffix.exec (trim (m.group 3)) = none := by
  obtain ⟨side, -, rfl⟩ := Option.map_eq_some_iff.mp hintent
  have hpercent := hfull.percent
  have hamount := hfull.amount
  dsimp only at hpercent hamount
  rw [if_neg hpart, Option.map_eq_none_iff] at hpercent
  rw [if_neg hpart, if_neg hpart, hpercent, if_neg (by simp), Option.map_eq_none_iff] at hamount
  exact ⟨hpercent, hamount⟩

/-- **Every full close is read from a text with nothing else in it, if and only if the text is
not one of a part that is not understood.** -/
theorem fullClose_iff (data : ParserData) (input : List Char) :
    (∀ intent, localParse data input = some intent → FullClose intent →
      ReadsOnly data (lowerCase (normalize data input)) intent) ↔
    ¬ (firstOf (beforeClose data (normalize data input)) = none ∧
      LeavesPart (lowerCase (normalize data input))) := by
  rw [localParse_eq]
  constructor
  · rintro hreads ⟨hbefore, m, hm, hpart, hpct, hamt⟩
    obtain ⟨⟨side, hside⟩, -, hleft⟩ := closeMatch_groups hm
    have hintent : sidedIntent data m = some
        { action := .ClosePosition, market := some (resolveMarket data (m.group 1)),
          side := some side } := by
      unfold sidedIntent
      rw [hside]
      simp [hpart, hpct, hamt]
    have hsided : onMatch closeMatch (sidedIntent data) (lowerCase (normalize data input)) =
        some { action := .ClosePosition, market := some (resolveMarket data (m.group 1)),
               side := some side } := by
      unfold onMatch
      rw [hm]
      exact hintent
    rw [hbefore, hsided] at hreads
    obtain ⟨m', hm', -⟩ := hreads _ rfl ⟨rfl, rfl, rfl⟩
    rw [hleft hpart] at hm'
    cases hm'
  · intro hpart intent hparse hfull
    rcases Option.or_eq_some_iff.mp hparse with hbefore | ⟨hbefore, hparse⟩
    · exact absurd hfull (not_fullClose_before data _ intent hbefore)
    rcases Option.or_eq_some_iff.mp hparse with hsided | ⟨-, hparse⟩
    · obtain ⟨m, hm, hintent⟩ := Option.bind_eq_some_iff.mp hsided
      by_cases hblank : trim (m.group 3) = []
      · exact readsOnly_of_sided hm hintent hblank
      · obtain ⟨hpct, hamt⟩ := part_of_fullClose hintent hfull hblank
        exact absurd ⟨hbefore, m, hm, hblank, hpct, hamt⟩ hpart
    rcases Option.or_eq_some_iff.mp hparse with hmarket | ⟨-, hafter⟩
    · obtain ⟨m, hm, hintent⟩ := Option.bind_eq_some_iff.mp hmarket
      obtain ⟨-, hintent⟩ := Option.ite_none_right_eq_some.mp hintent
      obtain rfl := Option.some.inj hintent
      exact ⟨m, hm, rfl⟩
    · exact absurd hfull (not_fullClose_after data _ intent hafter)

/-- "close sol long 50" closes the whole position. -/
theorem part_ignored :
    localParse OfflineInterpreter.twoMarkets "close sol long 50".toList =
      some { action := .ClosePosition, market := some "SOL".toList, side := some .Long } ∧
    ¬ ReadsOnly OfflineInterpreter.twoMarkets
        (lowerCase (normalize OfflineInterpreter.twoMarkets "close sol long 50".toList))
        { action := .ClosePosition, market := some "SOL".toList, side := some .Long } := by
  refine ⟨by decide +kernel, ?_⟩
  rintro ⟨m, hm, -⟩
  have hnone : bareSided.exec (lowerCase (normalize OfflineInterpreter.twoMarkets
      "close sol long 50".toList)) = none := by decide +kernel
  rw [hnone] at hm
  cases hm

end Interpreter

end FlashEdge
