import FlashEdge.Ai.NameStems

/-!
# What a name stands for (`utils/market-resolver.ts`)

`resolveMarket` looks a name up in the list of the markets and in the table of the aliases, first
the stem without "perp", then the name itself. The table is an object: under some names it has
something that nobody put there.

- `MarketTable`: the markets, and the aliases of some of them.
- `MarketTable.resolveMarket`: the function, for any table.
- `resolveMarket_eq`: it finds the entry of the last stem that has one.
- `MarketTable.named_eq_joined`: where the aliases with spaces say nothing else, the spaces of a
  name make no difference.
- `lawful_iff`: when what is found is a market or the name, however it is spelled, and is found
  again under its own name.
-/

namespace FlashEdge

namespace Interpreter

open Pattern

/-- The symbols of `POOL_MARKETS`, and the table of the aliases. -/
structure MarketTable where
  symbols : List (List Char)
  aliases : List (List Char × List Char)
  name : ∀ m ∈ symbols, IsName m
  canonical : ∀ e ∈ aliases, e.2 ∈ symbols.map upperCase

namespace MarketTable

/-- What every object has. -/
def objectPrototype : List (List Char) :=
  ["constructor", "__defineGetter__", "__defineSetter__", "hasOwnProperty", "__lookupGetter__",
    "__lookupSetter__", "isPrototypeOf", "propertyIsEnumerable", "toString", "valueOf",
    "__proto__", "toLocaleString"].map String.toList

instance (key : List Char) : Decidable (key ∈ objectPrototype) :=
  decidableMemTexts key objectPrototype

/-- A text, or what an object has under a name without anyone having put it there. -/
inductive Value where
  | text (t : List Char)
  | inherited (key : List Char)
deriving DecidableEq

variable (T : MarketTable)

def getAllMarkets : List (List Char) := T.symbols.map upperCase

instance (m : List Char) : Decidable (m ∈ T.getAllMarkets) := decidableMemTexts m _

/-- `getMarketAliasMap()[key]`, where it is truthy. -/
def property (key : List Char) : Option Value :=
  match lookUp T.aliases key with
  | some m => some (.text m)
  | none => if key ∈ objectPrototype then some (.inherited key) else none

/-- `resolved && getAllMarkets().includes(resolved)`. -/
def isMarket : Value → Bool
  | .text m => m ≠ [] ∧ m ∈ T.getAllMarkets
  | .inherited _ => false

theorem stripped_eq {t : List Char} (ht : IsSpelled t) :
    trim (perpSuffix.replace (fun _ => []) t) =
      ((unended t).map fun u => trim (unseparated u)).getD t := by
  rw [replace_ending ht.lower]
  cases unended t with
  | none => exact ht.trimmed
  | some u => rfl

/-- Without a stem nothing is stripped, or nothing is left. -/
theorem stripped_last {t : List Char} (ht : IsSpelled t) (h : stem? t = none) :
    ¬ (trim (perpSuffix.replace (fun _ => []) t) ≠ [] ∧
      trim (perpSuffix.replace (fun _ => []) t) ≠ t) := by
  rw [stripped_eq ht]
  unfold stem? at h
  cases hu : unended t with
  | none => exact fun hne => hne.2 rfl
  | some u =>
    rw [hu, Option.bind_some] at h
    dsimp only at h
    split at h
    · next hnil => exact fun hne => hne.1 hnil
    · cases h

theorem stripped_next {t s : List Char} (ht : IsSpelled t) (h : stem? t = some s) :
    trim (perpSuffix.replace (fun _ => []) t) = s ∧ s ≠ [] ∧ s ≠ t := by
  have hlt : s.length < t.length := textStems.smaller h
  obtain ⟨u, hu, rfl, hne⟩ := stem?_eq_some h
  refine ⟨?_, hne, fun heq => absurd (congrArg List.length heq) hlt.ne⟩
  rw [stripped_eq ht, hu]
  rfl

theorem spelled_lowerCase (input : List Char) : IsSpelled (lowerCase (trim input)) :=
  ⟨isLower_lowerCase _, by rw [trim_lowerCase, trim_trim]⟩

/-- A name without its ending is shorter. -/
theorem stripped_shorter (input : List Char)
    (h : trim (perpSuffix.replace (fun _ => []) (lowerCase (trim input))) ≠
      lowerCase (trim input)) :
    (trim (perpSuffix.replace (fun _ => []) (lowerCase (trim input)))).length < input.length := by
  rw [stripped_eq (spelled_lowerCase input)] at h ⊢
  cases hu : unended (lowerCase (trim input)) with
  | none =>
    rw [hu] at h
    exact absurd rfl h
  | some u =>
    have hlt := length_lt_of_unended hu
    have hle := (trim_length_le (unseparated u)).trans (unseparated_starts u).length_le
    have htrim := trim_length_le input
    rw [lowerCase, List.length_map] at hlt
    show (trim (unseparated u)).length < input.length
    omega

/-- `resolveMarket`. -/
def resolveMarket (input : List Char) : Value :=
  let trimmed := trim input
  if trimmed = [] then .text []
  else
    let upper := upperCase trimmed
    let lower := lowerCase trimmed
    let collapsed := spaces.replaceAll (fun _ => []) upper
    let stripped := trim (perpSuffix.replace (fun _ => []) lower)
    let resolved :=
      if _h : stripped ≠ [] ∧ stripped ≠ lower then resolveMarket stripped else .text []
    if T.isMarket resolved then resolved
    else if upper ∈ T.getAllMarkets then .text upper
    else if collapsed ∈ T.getAllMarkets then .text collapsed
    else
      match T.property lower with
      | some value => value
      | none =>
        match T.property (spaces.replaceAll (fun _ => []) lower) with
        | some value => value
        | none => .text collapsed
termination_by input.length
decreasing_by exact stripped_shorter input _h.2

/-! ## The entry of the last stem -/

/-- What the lists say of a text itself: it is a market, or an alias, with its spaces or without
them. -/
def entry (t : List Char) : Option (List Char) :=
  if t = [] then none
  else if upperCase (solid t) ∈ T.getAllMarkets then some (upperCase (solid t))
  else (lookUp T.aliases t).or (lookUp T.aliases (solid t))

/-- The entry of the shortest stem that has one. -/
def named (t : List Char) : Option (List Char) := textStems.deepest T.entry t

/-- The same for words, whatever stands between them. -/
def namedJoined (ws : List (List Char)) : Option (List Char) :=
  wordStems.deepest (fun ws => T.entry ws.flatten) ws

/-- Without an entry a name is itself. -/
def unnamed (t : List Char) : Value :=
  if solid t ∈ objectPrototype then .inherited (solid t) else .text (upperCase (solid t))

/-- What a name stands for, given its entry. -/
def outcome (t : List Char) : Option (List Char) → Value
  | some m => .text m
  | none => unnamed t

variable {T}

theorem lookUp_mem {key m : List Char} (h : lookUp T.aliases key = some m) :
    m ∈ T.getAllMarkets ∧ ∃ e ∈ T.aliases, e.2 = m := by
  unfold lookUp at h
  obtain ⟨e, he, rfl⟩ := Option.map_eq_some_iff.mp h
  have hmem := List.mem_of_find?_eq_some he
  exact ⟨T.canonical e hmem, e, hmem, rfl⟩

theorem entry_mem {t m : List Char} (h : T.entry t = some m) : m ∈ T.getAllMarkets := by
  unfold entry at h
  split at h
  · cases h
  · split at h
    · next hmem =>
      obtain rfl := Option.some.inj h
      exact hmem
    · rcases Option.or_eq_some_iff.mp h with h | ⟨-, h⟩
      · exact (lookUp_mem h).1
      · exact (lookUp_mem h).1

theorem named_last {t : List Char} (h : stem? t = none) : T.named t = T.entry t :=
  textStems.deepest_last T.entry h

theorem named_next {t s : List Char} (h : stem? t = some s) :
    T.named t = (T.named s).or (T.entry t) :=
  textStems.deepest_next T.entry h

theorem named_mem {t m : List Char} (h : T.named t = some m) : m ∈ T.getAllMarkets := by
  obtain ⟨s, -, hs⟩ := textStems.look_of_deepest h
  exact entry_mem hs

theorem isName_market {m : List Char} (h : m ∈ T.getAllMarkets) :
    IsToken m ∧ upperCase m = m := by
  obtain ⟨symbol, hsymbol, rfl⟩ := List.mem_map.mp h
  have hvisible := isVisible_name (T.name symbol hsymbol)
  refine ⟨⟨fun hnil => hvisible.1 (List.map_eq_nil_iff.mp hnil), fun c hc => ?_⟩,
    upperCase_upperCase symbol⟩
  obtain ⟨d, hd, rfl⟩ := List.mem_map.mp hc
  rw [isSpace_toUpper]
  exact isSpace_visible (hvisible.2 d hd)

theorem solid_of_token {w : List Char} (hw : IsToken w) : solid w = w :=
  List.filter_eq_self.mpr fun c hc => by rw [hw.2 c hc]; rfl

theorem solid_map {f : Char → Char} (hf : ∀ c, isSpace (f c) = isSpace c) (t : List Char) :
    solid (t.map f) = (solid t).map f := by
  unfold solid
  rw [List.filter_map]
  congr 1
  refine List.filter_congr fun c _ => ?_
  rw [Function.comp_apply, hf]

/-- A market has no spaces. -/
theorem upperCase_market {t : List Char} (h : upperCase t ∈ T.getAllMarkets) :
    upperCase t = upperCase (solid t) := by
  rw [← solid_of_token (isName_market h).1]
  exact solid_map isSpace_toUpper t

theorem solid_solid (t : List Char) : solid (solid t) = solid t :=
  List.filter_eq_self.mpr fun _ hc => (List.mem_filter.mp hc).2

/-- A text that is a market, but for its spaces, has an entry. -/
theorem exists_entry {t : List Char} (h : upperCase (solid t) ∈ T.getAllMarkets) :
    T.entry t = some (upperCase (solid t)) := by
  unfold entry
  rw [if_neg, if_pos h]
  rintro rfl
  exact (isName_market h).1.1 rfl

/-- So has an alias with a space in it. -/
theorem exists_entry_alias {key m : List Char} (h : lookUp T.aliases key = some m)
    (hspace : ∃ c ∈ key, isSpace c = true) : ∃ v, T.entry key = some v := by
  unfold entry
  rw [if_neg, h]
  · split
    · exact ⟨_, rfl⟩
    · exact ⟨m, rfl⟩
  · rintro rfl
    obtain ⟨c, hc, -⟩ := hspace
    cases hc

theorem unnamed_not_market {t : List Char} (h : T.entry t = none) :
    T.isMarket (unnamed t) = false := by
  unfold unnamed
  split
  · rfl
  · refine decide_eq_false fun hmem => ?_
    rw [exists_entry hmem.2] at h
    cases h

theorem entry_of_named_none {t : List Char} (h : T.named t = none) : T.entry t = none := by
  refine Option.eq_none_iff_forall_ne_some.mpr fun m hm => ?_
  obtain ⟨w, hw, -⟩ := textStems.exists_deepest Relation.ReflTransGen.refl hm
  rw [show T.named t = some w from hw] at h
  cases h

/-- What the lists say of a text without a market under its stem. -/
theorem property_eq {t : List Char} (ht : t ≠ [])
    (hmarket : upperCase (solid t) ∉ T.getAllMarkets) :
    (match T.property t with
      | some value => value
      | none =>
        match T.property (solid t) with
        | some value => value
        | none => .text (upperCase (solid t))) = outcome t (T.entry t) := by
  unfold outcome entry property unnamed
  rw [if_neg ht, if_neg hmarket]
  cases hexact : lookUp T.aliases t with
  | some m => rfl
  | none =>
    by_cases hproto : t ∈ objectPrototype
    · have hsolid : ∀ key ∈ objectPrototype, solid key = key := by decide
      simp [hsolid t hproto, hexact, hproto]
    · rw [if_neg hproto]
      cases lookUp T.aliases (solid t) with
      | some m => rfl
      | none =>
        by_cases hsolid : solid t ∈ objectPrototype
        · simp [hsolid]
        · simp [hsolid]

/-- **The function finds the entry of the last stem that has one.** -/
theorem resolveMarket_eq (input : List Char) :
    T.resolveMarket input =
      outcome (lowerCase (trim input)) (T.named (lowerCase (trim input))) := by
  induction hlen : input.length using Nat.strong_induction_on generalizing input with
  | h n ih =>
    subst hlen
    have hspelled := spelled_lowerCase input
    have hupper : upperCase (trim input) = upperCase (lowerCase (trim input)) :=
      (upperCase_lowerCase _).symm
    have hcollapsed : spaces.replaceAll (fun _ => []) (upperCase (trim input)) =
        upperCase (solid (lowerCase (trim input))) := by
      rw [replaceAll_spaces, hupper]
      exact solid_map isSpace_toUpper _
    rw [resolveMarket]
    dsimp only
    by_cases hblank : trim input = []
    · rw [if_pos hblank, hblank, show lowerCase [] = [] from rfl, named_last rfl]
      rfl
    rw [if_neg hblank, hcollapsed, hupper, replaceAll_spaces]
    have hne : lowerCase (trim input) ≠ [] := mt List.map_eq_nil_iff.mp hblank
    have hshorter := stripped_shorter input
    generalize lowerCase (trim input) = t at *
    have hself : (if upperCase t ∈ T.getAllMarkets then Value.text (upperCase t)
        else if upperCase (solid t) ∈ T.getAllMarkets then .text (upperCase (solid t))
        else
          match T.property t with
          | some value => value
          | none =>
            match T.property (solid t) with
            | some value => value
            | none => .text (upperCase (solid t))) = outcome t (T.entry t) := by
      by_cases hmarket : upperCase (solid t) ∈ T.getAllMarkets
      · rw [exists_entry hmarket, if_pos hmarket]
        split
        · next hmem =>
          rw [upperCase_market hmem]
          rfl
        · rfl
      · rw [if_neg fun hmem => hmarket (upperCase_market hmem ▸ hmem), if_neg hmarket,
          property_eq hne hmarket]
    rw [hself]
    -- what the stem stands for
    cases hstem : stem? t with
    | none =>
      have hempty : T.isMarket (.text []) = false := by simp [isMarket]
      rw [dif_neg (stripped_last hspelled hstem), hempty, if_neg Bool.false_ne_true,
        named_last hstem]
    | some s =>
      obtain ⟨hsame, hs, hs'⟩ := stripped_next hspelled hstem
      have hinner := ih s.length (by rw [← hsame]; exact hshorter (hsame ▸ hs')) s rfl
      have hspelled' := (spelled_stem hspelled hstem).1
      rw [hspelled'.trimmed, lowerCase_of_isLower hspelled'.lower] at hinner
      rw [dif_pos (hsame.symm ▸ ⟨hs, hs'⟩), hsame, hinner, named_next hstem]
      cases hnamed : T.named s with
      | some m =>
        have hmem := named_mem hnamed
        have hmarket : T.isMarket (.text m) = true :=
          decide_eq_true ⟨(isName_market hmem).1.1, hmem⟩
        exact if_pos hmarket
      | none =>
        have hother := unnamed_not_market (entry_of_named_none hnamed)
        rw [Option.none_or, outcome, hother, if_neg Bool.false_ne_true]

theorem lookUp_eq {t : List Char} (ht : t ≠ [])
    (hmarket : upperCase (solid t) ∉ T.getAllMarkets) :
    (match lookUp T.aliases t with
      | some symbol => symbol
      | none =>
        match lookUp T.aliases (solid t) with
        | some symbol => symbol
        | none => upperCase (solid t)) = (T.entry t).getD (upperCase (solid t)) := by
  unfold entry
  rw [if_neg ht, if_neg hmarket]
  cases lookUp T.aliases t with
  | some m => rfl
  | none =>
    cases lookUp T.aliases (solid t) with
    | some m => rfl
    | none => rfl

/-- The commands are parsed with the same function, for the names under which nothing is
inherited. -/
theorem resolveMarketWith_eq {data : ParserData} (hmarkets : T.getAllMarkets = data.markets)
    (haliases : T.aliases = getMarketAliasMap data) {fuel : ℕ} {input : List Char}
    (h : input.length ≤ fuel) :
    resolveMarketWith data fuel input =
      (T.named (lowerCase (trim input))).getD (upperCase (solid (lowerCase (trim input)))) := by
  induction fuel generalizing input with
  | zero =>
    rw [List.length_eq_zero_iff.mp (Nat.le_zero.mp h), show lowerCase (trim []) = [] from rfl,
      named_last rfl]
    rfl
  | succ fuel ih =>
    have hspelled := spelled_lowerCase input
    have hupper : upperCase (trim input) = upperCase (lowerCase (trim input)) :=
      (upperCase_lowerCase _).symm
    have hcollapsed : spaces.replaceAll (fun _ => []) (upperCase (trim input)) =
        upperCase (solid (lowerCase (trim input))) := by
      rw [replaceAll_spaces, hupper]
      exact solid_map isSpace_toUpper _
    rw [resolveMarketWith]
    dsimp only
    by_cases hblank : trim input = []
    · rw [if_pos hblank, hblank, show lowerCase [] = [] from rfl, named_last rfl]
      rfl
    rw [if_neg hblank, hcollapsed, hupper, replaceAll_spaces, ← haliases]
    have hmem : ∀ m, m ∈ data.markets ↔ m ∈ T.getAllMarkets := fun m => by rw [hmarkets]
    have hne : lowerCase (trim input) ≠ [] := mt List.map_eq_nil_iff.mp hblank
    have hshorter := stripped_shorter input
    generalize lowerCase (trim input) = t at *
    have hself : (if upperCase t ∈ data.markets then upperCase t
        else if upperCase (solid t) ∈ data.markets then upperCase (solid t)
        else
          match lookUp T.aliases t with
          | some symbol => symbol
          | none =>
            match lookUp T.aliases (solid t) with
            | some symbol => symbol
            | none => upperCase (solid t)) = (T.entry t).getD (upperCase (solid t)) := by
      by_cases hmarket : upperCase (solid t) ∈ T.getAllMarkets
      · rw [exists_entry hmarket, if_pos ((hmem _).mpr hmarket)]
        split
        · next hupper' => exact upperCase_market ((hmem _).mp hupper')
        · rfl
      · have hspaced : upperCase t ∉ T.getAllMarkets := fun h => hmarket (upperCase_market h ▸ h)
        rw [if_neg (mt (hmem _).mp hspaced), if_neg (mt (hmem _).mp hmarket),
          lookUp_eq hne hmarket]
    refine (congrArg (ite _ _) hself).trans ?_
    cases hstem : stem? t with
    | none =>
      rw [if_neg (stripped_last hspelled hstem), if_neg fun h => h.1 rfl, named_last hstem]
    | some s =>
      obtain ⟨hsame, hs, hs'⟩ := stripped_next hspelled hstem
      have hlt := hshorter (hsame ▸ hs')
      have hinner := @ih s (by rw [hsame] at hlt; omega)
      have hspelled' := (spelled_stem hspelled hstem).1
      rw [hspelled'.trimmed, lowerCase_of_isLower hspelled'.lower] at hinner
      have hresolved : (if s ≠ [] ∧ s ≠ t then resolveMarketWith data fuel s else []) =
          (T.named s).getD (upperCase (solid s)) := by
        rw [if_pos ⟨hs, hs'⟩, hinner]
      rw [hsame, hresolved, named_next hstem]
      cases hnamed : T.named s with
      | some m =>
        have hmarket := named_mem hnamed
        exact if_pos ⟨(isName_market hmarket).1.1, (hmem m).mpr hmarket⟩
      | none =>
        have hnone := entry_of_named_none hnamed
        rw [Option.none_or, Option.getD_none, if_neg]
        rintro ⟨-, hmarket⟩
        rw [exists_entry ((hmem _).mp hmarket)] at hnone
        cases hnone

theorem resolveMarket_text {data : ParserData} (hmarkets : T.getAllMarkets = data.markets)
    (haliases : T.aliases = getMarketAliasMap data) {input m : List Char}
    (h : T.resolveMarket input = .text m) : Interpreter.resolveMarket data input = m := by
  rw [resolveMarket_eq] at h
  rw [Interpreter.resolveMarket, resolveMarketWith_eq hmarkets haliases le_rfl]
  cases hnamed : T.named (lowerCase (trim input)) with
  | some symbol =>
    rw [hnamed] at h
    exact Value.text.inj h
  | none =>
    rw [hnamed, outcome, unnamed] at h
    split at h
    · cases h
    · exact Value.text.inj h

/-! ## Spaces -/

theorem entry_solid {t : List Char} (ht : trim t = t)
    (h : (∃ c ∈ t, isSpace c = true) → lookUp T.aliases t = none) :
    T.entry t = T.entry (solid t) := by
  by_cases hspace : ∃ c ∈ t, isSpace c = true
  · have hnil : solid t = [] ↔ t = [] := by
      refine ⟨fun hsolid => ?_, fun ht => by rw [ht]; rfl⟩
      have hwords : words t = [] := by
        rw [← flatten_words] at hsolid
        refine List.eq_nil_iff_forall_not_mem.mpr fun w hw => ?_
        exact (tokens_words t w hw).1 (List.flatten_eq_nil_iff.mp hsolid w hw)
      rw [← ht]
      exact words_eq_nil_iff.mp hwords
    unfold entry
    rw [h hspace, solid_solid, Option.none_or, Option.or_self]
    simp only [hnil]
  · have hsolid : solid t = t := List.filter_eq_self.mpr fun c hc => by
      simpa using fun hc' => hspace ⟨c, hc, hc'⟩
    rw [hsolid]

/-- Where no alias with spaces is met, the spaces make no difference. -/
theorem named_of_unspaced {t : List Char} (ht : IsSpelled t)
    (h : ∀ d, textStems.Below t d → (∃ c ∈ d, isSpace c = true) → lookUp T.aliases d = none) :
    T.named t = T.namedJoined (words t) := by
  refine Descent.deepest_map textStems (f := words) (fun d hd => ?_) fun d hd => ?_
  · exact words_stem (spelled_below ht hd).1.trimmed
  · rw [flatten_words]
    exact entry_solid (spelled_below ht hd).1.trimmed (h d hd)

/-- Where the aliases with spaces say nothing else, the spaces make no difference. -/
theorem named_eq_joined {t : List Char} (ht : IsSpelled t)
    (h : ∀ key m, lookUp T.aliases key = some m → (∃ c ∈ key, isSpace c = true) → IsSpelled key →
      wordStems.Below (words t) (words key) → T.named key = T.namedJoined (words t)) :
    T.named t = T.namedJoined (words t) := by
  by_cases hmet : ∃ d, textStems.Below t d ∧ (∃ c ∈ d, isSpace c = true) ∧
      ∃ m, lookUp T.aliases d = some m
  · obtain ⟨d, hd, hspace, m, hm⟩ := hmet
    have hspelled := (spelled_below ht hd).1
    have hwords : wordStems.Below (words t) (words d) :=
      Descent.below_map textStems (fun e he => words_stem (spelled_below ht he).1.trimmed) hd
    obtain ⟨v, hv⟩ := exists_entry_alias hm hspace
    obtain ⟨w, hw, hw'⟩ := textStems.exists_deepest hd hv
    have hsame := h d m hm hspace hspelled hwords
    rw [show T.named d = some w from hw'] at hsame
    rw [← hsame]
    exact hw
  · refine named_of_unspaced ht fun d hd hspace => ?_
    refine Option.eq_none_iff_forall_ne_some.mpr fun m hm => ?_
    exact hmet ⟨d, hd, hspace, m, hm⟩

/-- There is a spelling that meets no alias with spaces. -/
theorem exists_unspaced {ws : List (List Char)} (hws : AreWords ws) :
    ∃ t, IsSpelled t ∧ words t = ws ∧ T.named t = T.namedJoined ws := by
  let width := (T.aliases.map Prod.fst).flatten.length
  have htokens : ∀ w ∈ ws, IsToken w := fun w hw => (hws w hw).1
  have hspelled := spelled_spelling hws width
  have hwords := words_spelling htokens width
  refine ⟨spelling width ws, hspelled, hwords, ?_⟩
  have hnamed := @named_of_unspaced T (spelling width ws) hspelled fun d hd hspace => by
    obtain ⟨hd', hstarts⟩ := spelled_below hspelled hd
    have hlong := long_of_spelling htokens hstarts hd'.trimmed hspace
    refine Option.eq_none_iff_forall_ne_some.mpr fun m hm => ?_
    -- no key is as long as the gap
    obtain ⟨e, he, -⟩ := Option.map_eq_some_iff.mp hm
    have hfound := List.find?_some he
    simp only [Bool.and_eq_true, decide_eq_true_eq] at hfound
    have hkey : e.1 = d := hfound.1
    have hmem : d ∈ T.aliases.map Prod.fst :=
      hkey ▸ List.mem_map_of_mem (List.mem_of_find?_eq_some he)
    have hlen := (List.sublist_flatten_of_mem hmem).length_le
    exact absurd hlen (Nat.not_le.mpr hlong)
  rw [hnamed, hwords]

/-! ## Lawful names -/

variable (T)

/-- What is found is a market, the target of an alias or the name in capitals without spaces; it
does not depend on the case of the letters or on the spaces; and it is found under itself. -/
structure Lawful (input : List Char) : Prop where
  value : ∃ t, T.resolveMarket input = .text t ∧
    (t ∈ T.getAllMarkets ∨ (∃ e ∈ T.aliases, e.2 = t) ∨ t = upperCase (solid input))
  spelling : ∀ other, words (lowerCase other) = words (lowerCase input) →
    T.resolveMarket other = T.resolveMarket input
  idempotent : ∀ t, T.resolveMarket input = .text t → T.resolveMarket t = .text t

/-- The words of a name, without their spaces, say what it stands for: nothing is inherited under
them, no alias with spaces in it says anything else, and what they stand for, or the name itself
in one word, does not stand for another market. -/
structure Unambiguous (input : List Char) : Prop where
  own : solid (lowerCase input) ∈ objectPrototype →
    T.namedJoined (words (lowerCase input)) ≠ none
  spaced : ∀ key m, lookUp T.aliases key = some m → (∃ c ∈ key, isSpace c = true) →
    IsSpelled key → wordStems.Below (words (lowerCase input)) (words key) →
    T.named key = T.namedJoined (words (lowerCase input))
  kept : ∀ m, T.namedJoined (words (lowerCase input)) = some m → T.named (lowerCase m) = some m
  joined : T.namedJoined (words (lowerCase input)) = none →
    T.named (solid (lowerCase input)) = none

variable {T}

theorem words_spelled (input : List Char) :
    words (lowerCase (trim input)) = words (lowerCase input) := by
  rw [← trim_lowerCase, words_trim]

theorem solid_trim (t : List Char) : solid (trim t) = solid t := by
  rw [← flatten_words, words_trim, flatten_words]

/-- What a name stands for, once it is known under which words. -/
theorem resolveMarket_of_named {input : List Char} {o : Option (List Char)}
    (h : T.named (lowerCase (trim input)) = o) :
    T.resolveMarket input = outcome (lowerCase input) o := by
  have hunnamed : unnamed (lowerCase (trim input)) = unnamed (lowerCase input) := by
    unfold unnamed
    rw [← trim_lowerCase, solid_trim]
  rw [resolveMarket_eq, h]
  cases o with
  | some m => rfl
  | none => exact hunnamed

/-- A spelled text is looked up as it stands. -/
theorem resolveMarket_spelled {t : List Char} (ht : IsSpelled t) :
    T.resolveMarket t = outcome t (T.named t) := by
  rw [resolveMarket_eq, ht.trimmed, lowerCase_of_isLower ht.lower]

/-- A market stands for itself where no stem of it stands for another one. -/
theorem resolveMarket_market {m : List Char} (hm : m ∈ T.getAllMarkets) :
    T.resolveMarket m = .text m ↔ T.named (lowerCase m) = some m := by
  obtain ⟨htoken, hupper⟩ := isName_market hm
  have htrim : trim m = m := trim_eq_self_iff.mpr
    ⟨fun c hc => htoken.2 c (List.mem_of_mem_head? hc),
      fun c hc => htoken.2 c (List.mem_of_mem_getLast? hc)⟩
  have hentry : T.entry (lowerCase m) = some m := by
    have hsolid : solid (lowerCase m) = lowerCase m := by
      refine solid_of_token ⟨mt List.map_eq_nil_iff.mp htoken.1, fun c hc => ?_⟩
      obtain ⟨d, hd, rfl⟩ := List.mem_map.mp hc
      rw [isSpace_toLower, htoken.2 d hd]
    have hself : upperCase (solid (lowerCase m)) = m := by
      rw [hsolid, upperCase_lowerCase, hupper]
    have hmem : upperCase (solid (lowerCase m)) ∈ T.getAllMarkets := hself.symm ▸ hm
    rw [exists_entry hmem, hself]
  obtain ⟨v, hv, -⟩ := textStems.exists_deepest Relation.ReflTransGen.refl hentry
  rw [resolveMarket_eq, htrim, show T.named (lowerCase m) = some v from hv]
  constructor
  · intro h
    rw [Value.text.inj h]
  · intro h
    rw [Option.some.inj h]
    rfl

/-- A name in small letters without spaces. -/
theorem resolveMarket_solid {t : List Char} (ht : IsLower t)
    (hproto : solid t ∉ objectPrototype) (hentry : T.entry (solid t) = none) :
    T.resolveMarket (upperCase (solid t)) = .text (upperCase (solid t)) ↔
      T.named (solid t) = none := by
  have htrim : trim (solid t) = solid t :=
    trim_eq_self_iff.mpr
      ⟨fun c hc => by simpa using (List.mem_filter.mp (List.mem_of_mem_head? hc)).2,
        fun c hc => by simpa using (List.mem_filter.mp (List.mem_of_mem_getLast? hc)).2⟩
  have hlower : lowerCase (trim (upperCase (solid t))) = solid t := by
    rw [trim_upperCase, lowerCase_upperCase, htrim]
    exact lowerCase_of_isLower fun c hc => ht c (List.mem_of_mem_filter hc)
  rw [resolveMarket_eq, hlower]
  cases hnamed : T.named (solid t) with
  | none =>
    refine iff_of_true ?_ rfl
    show unnamed (solid t) = _
    unfold unnamed
    rw [solid_solid, if_neg hproto]
  | some m =>
    refine iff_of_false (fun h => ?_) fun h => by cases h
    have hm : m = upperCase (solid t) := Value.text.inj h
    have hmem : upperCase (solid (solid t)) ∈ T.getAllMarkets := by
      rw [solid_solid, ← hm]
      exact named_mem hnamed
    rw [exists_entry hmem] at hentry
    cases hentry

theorem entry_of_joined_none {t : List Char} (h : T.namedJoined (words t) = none) :
    T.entry (solid t) = none := by
  rw [← flatten_words]
  refine Option.eq_none_iff_forall_ne_some.mpr fun m hm => ?_
  obtain ⟨w, hw, -⟩ :=
    @Descent.exists_deepest _ _ wordStems (fun ws => T.entry ws.flatten) _ _ m
      Relation.ReflTransGen.refl hm
  rw [show T.namedJoined (words t) = some w from hw] at h
  cases h

/-- Where a name is unambiguous, its words decide. -/
theorem resolveMarket_of_unambiguous {input other : List Char} (h : T.Unambiguous input)
    (hwords : words (lowerCase other) = words (lowerCase input)) :
    T.resolveMarket other =
      outcome (lowerCase input) (T.namedJoined (words (lowerCase input))) := by
  have hspelled := spelled_lowerCase other
  have hsame : words (lowerCase (trim other)) = words (lowerCase input) := by
    rw [words_spelled, hwords]
  have hnamed := named_eq_joined hspelled (hsame.symm ▸ h.spaced)
  rw [hsame] at hnamed
  have hsolid : solid (lowerCase other) = solid (lowerCase input) := by
    rw [← flatten_words, hwords, flatten_words]
  rw [resolveMarket_of_named hnamed]
  cases T.namedJoined (words (lowerCase input)) with
  | some m => rfl
  | none =>
    show unnamed _ = unnamed _
    unfold unnamed
    rw [hsolid]

theorem solid_upperCase (input : List Char) :
    upperCase (solid (lowerCase input)) = upperCase (solid input) := by
  have hsolid : solid (lowerCase input) = lowerCase (solid input) := solid_map isSpace_toLower input
  rw [hsolid, upperCase_lowerCase]

theorem lawful_of_unambiguous {input : List Char} (h : T.Unambiguous input) : T.Lawful input := by
  have hhere := resolveMarket_of_unambiguous h rfl
  cases hjoined : T.namedJoined (words (lowerCase input)) with
  | some m =>
    rw [hjoined] at hhere
    have hmem : m ∈ T.getAllMarkets := by
      obtain ⟨ws, -, hws⟩ := wordStems.look_of_deepest hjoined
      exact entry_mem hws
    refine ⟨⟨m, hhere, .inl hmem⟩, fun other hwords => ?_, fun t ht => ?_⟩
    · rw [resolveMarket_of_unambiguous h hwords, hhere, hjoined]
    · obtain rfl : m = t := Value.text.inj (hhere.symm.trans ht)
      exact (resolveMarket_market hmem).mpr (h.kept m hjoined)
  | none =>
    have hproto : solid (lowerCase input) ∉ objectPrototype := fun hmem => h.own hmem hjoined
    have hself : T.resolveMarket input = .text (upperCase (solid (lowerCase input))) := by
      rw [hhere, hjoined]
      exact if_neg hproto
    refine ⟨⟨_, hself, .inr (.inr (solid_upperCase input))⟩, fun other hwords => ?_,
      fun t ht => ?_⟩
    · rw [resolveMarket_of_unambiguous h hwords, hhere]
    · obtain rfl : _ = t := Value.text.inj (hself.symm.trans ht)
      exact (resolveMarket_solid (isLower_lowerCase input) hproto
        (entry_of_joined_none hjoined)).mpr (h.joined hjoined)

theorem unambiguous_of_lawful {input : List Char} (h : T.Lawful input) : T.Unambiguous input := by
  have hlower := isLower_lowerCase input
  -- a spelling that meets no alias with spaces
  obtain ⟨t, ht, hwords, hnamed⟩ := @exists_unspaced T _ (areWords_words hlower)
  have hsame : words (lowerCase t) = words (lowerCase input) := by
    rw [lowerCase_of_isLower ht.lower, hwords]
  have hsolid : solid t = solid (lowerCase input) := by
    rw [← flatten_words, hwords, flatten_words]
  have hwide : T.resolveMarket input = outcome t (T.namedJoined (words (lowerCase input))) := by
    rw [← h.spelling t hsame, resolveMarket_spelled ht, hnamed]
  have hproto : T.namedJoined (words (lowerCase input)) = none →
      solid (lowerCase input) ∉ objectPrototype := by
    intro hnone hmem
    obtain ⟨u, hu, -⟩ := h.value
    rw [hwide, hnone] at hu
    rw [← hsolid] at hmem
    rw [outcome, unnamed, if_pos hmem] at hu
    cases hu
  have hself : T.namedJoined (words (lowerCase input)) = none →
      T.resolveMarket input = .text (upperCase (solid (lowerCase input))) := by
    intro hnone
    rw [hwide, hnone, outcome, unnamed, hsolid, if_neg (hproto hnone)]
  refine ⟨fun hmem hnone => hproto hnone hmem, fun key m hm hspace hkey hbelow => ?_,
    fun m hm => ?_, fun hnone => ?_⟩
  · obtain ⟨x, hx, hx', hkey'⟩ := exists_below (areWords_words hlower) hkey hbelow
    obtain ⟨v, hv⟩ := exists_entry_alias hm hspace
    obtain ⟨w, hw, hw'⟩ := textStems.exists_deepest hkey' hv
    have hthere : T.resolveMarket input = .text w := by
      rw [← h.spelling x (by rw [lowerCase_of_isLower hx.lower, hx']), resolveMarket_spelled hx,
        show T.named x = some w from hw]
      rfl
    rw [show T.named key = some w from hw']
    cases hjoined : T.namedJoined (words (lowerCase input)) with
    | some m' =>
      rw [hwide, hjoined] at hthere
      rw [Value.text.inj hthere]
    | none =>
      have hw'' : upperCase (solid (lowerCase input)) = w :=
        Value.text.inj ((hself hjoined).symm.trans hthere)
      have hmem : upperCase (solid (solid (lowerCase input))) ∈ T.getAllMarkets := by
        rw [solid_solid, hw'']
        exact named_mem hw
      have hnone := entry_of_joined_none hjoined
      rw [exists_entry hmem] at hnone
      cases hnone
  · have hhere : T.resolveMarket input = .text m := by
      rw [hwide, hm]
      rfl
    have hmem : m ∈ T.getAllMarkets := by
      obtain ⟨ws, -, hws⟩ := wordStems.look_of_deepest hm
      exact entry_mem hws
    exact (resolveMarket_market hmem).mp (h.idempotent m hhere)
  · exact (resolveMarket_solid hlower (hproto hnone) (entry_of_joined_none hnone)).mp
      (h.idempotent _ (hself hnone))

/-- A table with one alias that has a space in it. -/
def gasTable : MarketTable where
  symbols := ["SOL".toList, "NATGAS".toList]
  aliases := [("natural gas".toList, "NATGAS".toList)]
  name := by decide
  canonical := by decide

end MarketTable

end Interpreter

end FlashEdge
