import FlashEdge.Ai.TokenTexts
import FlashEdge.Theory.Decimal

/-!
# The tokens of an open

`open sol long 2x $10` has a side, a market, a leverage and a collateral. What each expression
of the parser for opens finds in one of these tokens does not depend on the others.

- `Numeral`: digits, with or without a fraction, and the number they write.
- `exec_leverageTight`, `exec_dollarAmount`, `exec_sideWord`: the tokens that are read.
- `OnlyMarket`: a market that is read as nothing else.
-/

namespace FlashEdge

namespace Interpreter

open Pattern

/-! ## Numerals -/

/-- Digits, and the digits behind the point if there is one. -/
structure Numeral where
  int : List Char
  fraction : List Char
  int_ne : int ≠ []
  int_digits : ∀ c ∈ int, c.isDigit = true
  fraction_digits : ∀ c ∈ fraction, c.isDigit = true

namespace Numeral

def text (n : Numeral) : List Char :=
  n.int ++ if n.fraction = [] then [] else '.' :: n.fraction

/-- The number that the digits write. -/
def value (n : Numeral) : ℚ :=
  Nat.ofDigitChars 10 (n.int ++ n.fraction) 0 / 10 ^ n.fraction.length

end Numeral

/-- The characters of a numeral. -/
def numeralChar (c : Char) : Bool := c.isDigit || c = '.'

theorem Numeral.chars (n : Numeral) : ∀ c ∈ n.text, numeralChar c = true := by
  intro c hc
  unfold numeralChar
  rcases List.mem_append.mp hc with hc | hc
  · rw [n.int_digits c hc]
    rfl
  · split at hc
    · cases hc
    · rcases List.mem_cons.mp hc with rfl | hc
      · rfl
      · rw [n.fraction_digits c hc]
        rfl

theorem Numeral.head (n : Numeral) : ∃ c rest, n.text = c :: rest ∧ c.isDigit = true := by
  obtain ⟨c, int, hint⟩ := List.exists_cons_of_ne_nil n.int_ne
  refine ⟨c, int ++ if n.fraction = [] then [] else '.' :: n.fraction, ?_,
    n.int_digits c (by rw [hint]; exact List.mem_cons_self)⟩
  unfold text
  rw [hint]
  rfl

/-- The number of a numeral is parsed. -/
theorem parseFloat_text (n : Numeral) : parseFloat n.text = ofDigits n.int n.fraction := by
  have hdot : ('.' : Char).isDigit = false := by decide
  have hnot : ¬ (n.int = [] ∧ n.fraction = []) := fun h => n.int_ne h.1
  unfold parseFloat Numeral.text
  by_cases hfraction : n.fraction = []
  · rw [if_pos hfraction, List.append_nil, List.takeWhile_eq_self_iff.mpr n.int_digits,
      List.dropWhile_eq_nil_iff.mpr n.int_digits]
    dsimp only
    rw [hfraction, if_neg fun h => n.int_ne h.1]
  · rw [if_neg hfraction, List.takeWhile_append_of_pos n.int_digits,
      List.dropWhile_append_of_pos n.int_digits, List.takeWhile_cons_of_neg (by simp [hdot]),
      List.dropWhile_cons_of_neg (by simp [hdot]), List.append_nil]
    show (if n.int = [] ∧ n.fraction.takeWhile Char.isDigit = [] then SdkNumber.nan
      else ofDigits n.int (n.fraction.takeWhile Char.isDigit)) = _
    rw [List.takeWhile_eq_self_iff.mpr n.fraction_digits, if_neg hnot]

/-- A number that is parsed is the one written. -/
theorem toRat_parseFloat {n : Numeral} {d : Decimal} (h : parseFloat n.text = .finite d) :
    d.toRat = n.value := by
  rw [parseFloat_text] at h
  unfold ofDigits at h
  dsimp only at h
  split at h
  · obtain rfl := SdkNumber.finite.inj h
    rw [Decimal.toRat_ofScaled]
    unfold Numeral.value
    rw [zpow_neg, zpow_natCast]
    simp [div_eq_mul_inv]
  · cases h

/-! ## What a search reads of a numeral -/

/-- All the digits are read, or fewer, in front of a digit. -/
theorem results_digits {ds rest : List Char} (hne : ds ≠ []) (hds : ∀ c ∈ ds, c.isDigit = true)
    (hrest : ∀ c ∈ rest.head?, c.isDigit = false) (before : List Char)
    (captures : List (ℕ × List Char)) :
    ∃ others, digits.results { before, after := ds ++ rest, captures } =
        { before := ds.reverse ++ before, after := rest, captures } :: others ∧
      ∀ r ∈ others, Before Char.isDigit r := by
  obtain ⟨others, hresults, hothers⟩ :=
    leads_many1 Char.isDigit { before, after := ds ++ rest, captures }
  obtain ⟨d, ds', rfl⟩ := List.exists_cons_of_ne_nil hne
  have hfirst : munch1 Char.isDigit { before, after := d :: ds' ++ rest, captures } =
      some (munch Char.isDigit { before, after := d :: ds' ++ rest, captures }) :=
    if_pos (hds d List.mem_cons_self)
  rw [hfirst, munch_run hds hrest] at hresults
  exact ⟨others, hresults, hothers⟩

/-- `\.\d+`. -/
def fractionPart : Pattern := seq (lit ".") digits

theorem results_fractionPart_none {r : Cursor} (hr : ∀ c ∈ r.after.head?, c ≠ '.') :
    fractionPart.results r = [] := by
  show ((lit ".").results r).flatMap digits.results = []
  rw [results_lit, if_neg]
  · rfl
  · rintro ⟨tail, htail⟩
    exact hr '.' (by rw [← htail]; rfl) rfl

/-- In front of a digit there is no fraction. -/
theorem flatMap_fractionPart {others : List Cursor} (h : ∀ r ∈ others, Before Char.isDigit r) :
    others.flatMap (optional fractionPart).results = others := by
  refine (List.flatMap_congr fun r hr => ?_).trans (List.flatMap_singleton' others)
  obtain ⟨c, tail, hafter, hc⟩ := h r hr
  show fractionPart.results r ++ [r] = [r]
  rw [results_fractionPart_none]
  · rfl
  · rw [hafter]
    rintro d hd rfl
    obtain rfl := Option.some.inj hd
    cases hc

theorem before_numeral {r : Cursor} (h : Before Char.isDigit r) : Before numeralChar r := by
  obtain ⟨c, tail, hafter, hc⟩ := h
  refine ⟨c, tail, hafter, ?_⟩
  unfold numeralChar
  rw [hc]
  rfl

/-- Whatever stands behind a numeral, it is read to its end, or else in front of one of its
characters. -/
theorem results_number (n : Numeral) (before : List Char) {rest : List Char}
    (captures : List (ℕ × List Char)) (hrest : ∀ c ∈ rest.head?, numeralChar c = false) :
    ∃ others, number.results { before, after := n.text ++ rest, captures } =
        { before := n.text.reverse ++ before, after := rest, captures } :: others ∧
      ∀ r ∈ others, Before numeralChar r := by
  have hdigit : ∀ c ∈ rest.head?, c.isDigit = false ∧ c ≠ '.' := by
    intro c hc
    have hchar := hrest c hc
    unfold numeralChar at hchar
    obtain ⟨hnot, hdot⟩ := Bool.or_eq_false_iff.mp hchar
    exact ⟨hnot, of_decide_eq_false hdot⟩
  show ∃ others, (digits.results _).flatMap (optional fractionPart).results = _ ∧ _
  unfold Numeral.text
  by_cases hfraction : n.fraction = []
  · rw [if_pos hfraction, List.append_nil]
    obtain ⟨others, hdigits, hothers⟩ := results_digits n.int_ne n.int_digits
      (fun c hc => (hdigit c hc).1) before captures
    refine ⟨others, ?_, fun r hr => before_numeral (hothers r hr)⟩
    rw [hdigits, List.flatMap_cons, flatMap_fractionPart hothers]
    show (fractionPart.results _ ++ [_]) ++ others = _
    rw [results_fractionPart_none fun c hc => (hdigit c hc).2]
    rfl
  · rw [if_neg hfraction, List.append_assoc]
    have hdot : ∀ c ∈ ('.' :: n.fraction ++ rest).head?, c.isDigit = false := by simp
    obtain ⟨others, hdigits, hothers⟩ := results_digits n.int_ne n.int_digits hdot before captures
    obtain ⟨shorter, hfractions, hshorter⟩ := results_digits hfraction n.fraction_digits
      (fun c hc => (hdigit c hc).1) ('.' :: (n.int.reverse ++ before)) captures
    have hpart : fractionPart.results
        { before := n.int.reverse ++ before, after := '.' :: n.fraction ++ rest, captures } =
          { before := n.fraction.reverse ++ '.' :: (n.int.reverse ++ before), after := rest,
            captures } :: shorter := by
      show ((lit ".").results _).flatMap digits.results = _
      rw [results_lit, if_pos ⟨n.fraction ++ rest, rfl⟩, List.flatMap_singleton]
      exact hfractions
    refine ⟨shorter ++ { before := n.int.reverse ++ before, after := '.' :: n.fraction ++ rest,
                         captures } :: others, ?_, ?_⟩
    · rw [hdigits, List.flatMap_cons, flatMap_fractionPart hothers]
      show (fractionPart.results _ ++ [_]) ++ others = _
      rw [hpart]
      simp
    · intro r hr
      rcases List.mem_append.mp hr with hr | hr
      · exact before_numeral (hshorter r hr)
      rcases List.mem_cons.mp hr with rfl | hr
      · exact ⟨'.', n.fraction ++ rest, rfl, rfl⟩
      · exact before_numeral (hothers r hr)

/-! ## The tokens -/

def sideToken (side : TradeSide) : List Char := side.value.toList

/-- `Nx`. -/
def leverageToken (n : Numeral) : List Char := n.text ++ ['x']

/-- `$C`. -/
def collateralToken (n : Numeral) : List Char := '$' :: n.text

/-- `\b(\d+(?:\.\d+)?)x\b`: a leverage in one token. -/
def leverageTight : Pattern := seqs [boundary, group 1 number, lit "x", boundary]

theorem exec_leverageTight (n : Numeral) :
    ∃ m, leverageTight.exec (leverageToken n) = some m ∧ m.before = [] ∧ m.after = [] ∧
      m.captures = [(1, n.text)] := by
  have hx : ∀ c ∈ ['x'].head?, numeralChar c = false := by simp [numeralChar]
  obtain ⟨others, hnumber, -⟩ := results_number n [] [] hx
  rw [List.append_nil] at hnumber
  obtain ⟨d, tail, htext, hd⟩ := n.head
  have hstart : atBoundary { before := [], after := leverageToken n } = true := by
    unfold leverageToken atBoundary
    rw [htext]
    simp [isWord, Char.isAlphanum, hd]
  have hresults : ∃ rs, leverageTight.results { before := [], after := leverageToken n } =
      { before := 'x' :: n.text.reverse, after := [], captures := [(1, n.text)] } :: rs := by
    unfold leverageTight
    rw [results_seqs_cons, results, if_pos hstart, List.flatMap_singleton, results_seqs_cons,
      results]
    unfold leverageToken
    rw [hnumber, List.map_cons, List.flatMap_cons, results_seqs_cons, results_lit]
    have hcapture : (n.text.reverse.take
        (n.text.reverse.length - ([] : List Char).length)).reverse = n.text := by
      rw [List.length_nil, Nat.sub_zero, List.take_length, List.reverse_reverse]
    dsimp only
    rw [hcapture, if_pos (by decide)]
    exact ⟨_, rfl⟩
  obtain ⟨rs, hresults⟩ := hresults
  refine ⟨_, exec_of_results hresults, rfl, rfl, rfl⟩

theorem exec_dollarAmount (n : Numeral) :
    ∃ m, dollarAmount.exec (collateralToken n) = some m ∧ m.before = [] ∧ m.after = [] ∧
      m.captures = [(1, n.text)] := by
  have hend : ∀ c ∈ ([] : List Char).head?, numeralChar c = false := by simp
  obtain ⟨others, hnumber, -⟩ := results_number n ['$'] [] hend
  rw [List.append_nil] at hnumber
  have hresults : ∃ rs, dollarAmount.results { before := [], after := collateralToken n } =
      { before := n.text.reverse ++ ['$'], after := [], captures := [(1, n.text)] } :: rs := by
    have hdollar : advance "$".toList { before := [], after := collateralToken n } =
        { before := ['$'], after := n.text } := rfl
    show ∃ rs, ((lit "$").results _).flatMap (group 1 number).results = _
    rw [results_lit, if_pos ⟨n.text, rfl⟩, List.flatMap_singleton, hdollar, results, hnumber,
      List.map_cons]
    have hcapture : ((n.text.reverse ++ ['$']).take
        ((n.text.reverse ++ ['$']).length - ['$'].length)).reverse = n.text := by simp
    dsimp only
    rw [hcapture]
    exact ⟨_, rfl⟩
  obtain ⟨rs, hresults⟩ := hresults
  refine ⟨_, exec_of_results hresults, rfl, rfl, rfl⟩

theorem exec_sideWord (side : TradeSide) :
    ∃ m, sideWord.exec (sideToken side) = some m ∧ m.before = [] ∧ m.after = [] ∧
      m.captures = [(1, sideToken side)] := by
  cases side with
  | Long => exact ⟨⟨[], "long".toList, [], [(1, "long".toList)]⟩, by decide, rfl, rfl, rfl⟩
  | Short => exact ⟨⟨[], "short".toList, [], [(1, "short".toList)]⟩, by decide, rfl, rfl, rfl⟩

/-! ## What is not read -/

/-- `\b(?:tp|sl)\b`. -/
def triggerWord : Pattern := seqs [boundary, tpOrSl, boundary]

/-- `\bleverage\b`. -/
def leverageMark : Pattern := seqs [boundary, lit "leverage", boundary]

/-- `^x\b`: behind a number and a space this is a leverage. -/
def leadingX : Pattern := seqs [start, lit "x", boundary]

/-- What is looked for everywhere in an open, the four entities apart. -/
def otherReaders : List Pattern := [triggerWord, atAmount, openFiller, leverageMark, lastFiller]

/-- The greetings that are one word. -/
def greetingWords : List String := ["yo", "hey", "please", "pls", "ok", "okay", "go", "just"]

/-- `open|buy|enter`. -/
def openVerbs : List String := ["open", "buy", "enter"]

/-- A token that no expression reads but the one for the market; a side only if it is the side
that is asked for. -/
structure OnlyMarket (side : TradeSide) (market : List Char) : Prop where
  token : IsToken market
  others : ∀ p ∈ otherReaders, p.exec market = none
  leverage : leverageTight.exec market = none
  collateral : dollarAmount.exec market = none
  side : market = sideToken side ∨ sideWord.exec market = none
  leadingX : leadingX.exec market = none
  stripped : ∀ w ∈ greetingWords ++ openVerbs, w.toList ≠ market

/-- The characters of a leverage and of a collateral. -/
def tokenChars : List Char := "$.0123456789x".toList

theorem mem_tokenChars {c : Char} (hc : numeralChar c = true) : c ∈ tokenChars := by
  unfold numeralChar at hc
  rcases Bool.or_eq_true_iff.mp hc with hc | hc
  · exact forall_digit (P := fun c => c ∈ tokenChars) (by decide) hc
  · rw [of_decide_eq_true hc]
    decide

theorem leverageToken_chars {n : Numeral} {c : Char} (hc : c ∈ leverageToken n) :
    numeralChar c = true ∨ c = 'x' := by
  rcases List.mem_append.mp hc with hc | hc
  · exact .inl (n.chars c hc)
  · exact .inr (List.mem_singleton.mp hc)

theorem collateralToken_chars {n : Numeral} {c : Char} (hc : c ∈ collateralToken n) :
    c = '$' ∨ numeralChar c = true :=
  (List.mem_cons.mp hc).imp_right (n.chars c)

/-- An expression that begins with no such character reads neither. -/
theorem exec_tokens_none {p : Pattern} (hp : p.nullable = false)
    (hfirst : ∀ c ∈ tokenChars, p.firstAllows c = false) (n : Numeral) :
    p.exec (leverageToken n) = none ∧ p.exec (collateralToken n) = none := by
  refine ⟨exec_none_of_chars hp fun c hc => hfirst c ?_,
    exec_none_of_chars hp fun c hc => hfirst c ?_⟩
  · rcases leverageToken_chars hc with hc | rfl
    · exact mem_tokenChars hc
    · decide
  · rcases collateralToken_chars hc with rfl | hc
    · decide
    · exact mem_tokenChars hc

theorem exec_leverageTight_collateral (n : Numeral) :
    leverageTight.exec (collateralToken n) = none := by
  have hreads : leverageTight.within "$.0123456789".toList = false := by decide
  refine exec_none_of_within hreads fun c hc => ?_
  rcases collateralToken_chars hc with rfl | hc
  · decide
  unfold numeralChar at hc
  rcases Bool.or_eq_true_iff.mp hc with hc | hc
  · exact forall_digit (P := fun c => c ∈ "$.0123456789".toList) (by decide) hc
  · rw [of_decide_eq_true hc]
    decide

/-! ## The four tokens -/

/-- The tokens of an open, in one order. -/
def openTokens (side : TradeSide) (market : List Char) (leverage collateral : Numeral) :
    List (List Char) :=
  [sideToken side, market, leverageToken leverage, collateralToken collateral]

variable {side : TradeSide} {market : List Char} {leverage collateral : Numeral}

theorem isToken_leverageToken (n : Numeral) : IsToken (leverageToken n) := by
  have hchars : ∀ c ∈ tokenChars, isSpace c = false := by decide
  refine ⟨by simp [leverageToken], fun c hc => hchars c ?_⟩
  rcases leverageToken_chars hc with hc | rfl
  · exact mem_tokenChars hc
  · decide

theorem isToken_openTokens (hmarket : IsToken market) :
    ∀ t ∈ openTokens side market leverage collateral, IsToken t := by
  have hchars : ∀ c ∈ tokenChars, isSpace c = false := by decide
  intro t ht
  simp only [openTokens, List.mem_cons, List.not_mem_nil, or_false] at ht
  rcases ht with rfl | rfl | rfl | rfl
  · cases side
    · decide
    · decide
  · exact hmarket
  · exact isToken_leverageToken leverage
  · refine ⟨List.cons_ne_nil _ _, fun c hc => hchars c ?_⟩
    rcases collateralToken_chars hc with rfl | hc
    · decide
    · exact mem_tokenChars hc

theorem others_openTokens (h : OnlyMarket side market) {p : Pattern} (hp : p ∈ otherReaders) :
    ∀ t ∈ openTokens side market leverage collateral, p.exec t = none := by
  have hchars : ∀ q ∈ otherReaders,
      q.nullable = false ∧ ∀ c ∈ tokenChars, q.firstAllows c = false := by decide
  have hsides : ∀ q ∈ otherReaders, q.exec "long".toList = none ∧ q.exec "short".toList = none := by
    decide
  intro t ht
  simp only [openTokens, List.mem_cons, List.not_mem_nil, or_false] at ht
  obtain ⟨hnullable, hfirst⟩ := hchars p hp
  rcases ht with rfl | rfl | rfl | rfl
  · cases side with
    | Long => exact (hsides p hp).1
    | Short => exact (hsides p hp).2
  · exact h.others p hp
  · exact (exec_tokens_none hnullable hfirst _).1
  · exact (exec_tokens_none hnullable hfirst _).2

end Interpreter

end FlashEdge
