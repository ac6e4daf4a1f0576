import Mathlib.Data.List.Sort
import FlashEdge.Core.ServiceCircuitBreaker
import FlashEdge.Js
import FlashEdge.Theory.OrderedMap

/-!
# The price service (`data/prices.ts`)

Prices come from one request to the trading API. What it answers is cached for five seconds,
and a cached price that has expired is still returned for a market that the answer leaves out
or that is refused: one that is more than half off the cached price, unless it is the third
in a row.

- `getPrices`: the prices of some markets, with those that the answer gave.
- `get?_getPrices`: what a caller finds under a market.
- `price_answered_iff`: when the answer gives a price for a market.

The request is one with its answer. The 24 h history only gives the change that is shown with
a price; the change is part of the answer here.
-/

namespace FlashEdge

namespace PriceService

def MAX_PRICE_CACHE_ENTRIES : ℕ := 500
def cacheTtlMs : ℚ := 5000

/-- A price that is kept is finite and positive. -/
abbrev Price := {q : ℚ // 0 < q}

structure TokenPrice where
  symbol : String
  price : Price
  priceChange24h : ℚ
  timestamp : ℚ
  isFallback : Bool
deriving DecidableEq

structure CachedPrice where
  data : TokenPrice
  expiry : ℚ
deriving DecidableEq

/-- One market of `GET /prices`: `Number(priceUi ?? 0)`, and the price scaled by its
exponent. -/
structure ApiPrice where
  priceUi : JsNumber
  scaled : JsNumber
deriving DecidableEq

/-- A request for prices: when it was made, when it was answered and with what; `none` where
the request fails or is answered with no object. `change24h` is what the history says. -/
structure PriceAnswer where
  now : ℚ
  answeredAt : ℚ
  allPrices : Option (List (String × ApiPrice))
  change24h : String → ℚ

end PriceService

open PriceService

structure PriceService where
  cache : OrderedMap String CachedPrice := .empty
  deviationRejectCount : OrderedMap String ℕ := .empty
deriving DecidableEq

namespace PriceService

def breakerConfig : ServiceCircuitBreaker.CircuitBreakerConfig where
  failureThreshold := 3
  cooldownMs := 15000
  maxCooldownMs := 60000
  cooldownMultiplier := 2

/-! ## One market of an answer -/

/-- `Number(priceUi ?? 0) || price * 10 ** exponent`. -/
def ApiPrice.value (p : ApiPrice) : JsNumber :=
  match p.priceUi with
  | .finite q => if q = 0 then p.scaled else .finite q
  | .nan => p.scaled
  | x => x

/-- `Number.isFinite(price) && price > 0`. -/
def positive? : JsNumber → Option Price
  | .finite q => if h : 0 < q then some ⟨q, h⟩ else none
  | _ => none

/-- More than half off the cached price. -/
def deviates (cached : CachedPrice) (price : Price) : Prop :=
  1 / 2 < |price.1 - cached.data.price.1| / cached.data.price.1

instance (cached : CachedPrice) (price : Price) : Decidable (deviates cached price) :=
  inferInstanceAs (Decidable (_ < _))

def rejectCount (s : PriceService) (sym : String) : ℕ :=
  (s.deviationRejectCount.get? sym).getD 0

/-- A price is compared with the cached one; the third refusal in a row lets it pass. -/
def checkDeviation (s : PriceService) (sym : String) (price : Price) : PriceService × Bool :=
  match s.cache.get? sym with
  | some cached =>
    if deviates cached price then
      let rejectCount := s.rejectCount sym + 1
      if 3 ≤ rejectCount then
        ({ s with deviationRejectCount := s.deviationRejectCount.set sym 0 }, true)
      else
        ({ s with deviationRejectCount := s.deviationRejectCount.set sym rejectCount }, false)
    else ({ s with deviationRejectCount := s.deviationRejectCount.set sym 0 }, true)
  | none => (s, true)

/-- One entry of the answer. -/
def takeEntry (symbols : List String) (a : PriceAnswer) (r : PriceService × List TokenPrice)
    (e : String × ApiPrice) : PriceService × List TokenPrice :=
  let sym := toUpperCase e.1
  if symbols.contains sym then
    match positive? e.2.value with
    | none => r
    | some price =>
      match r.1.checkDeviation sym price with
      | (s, true) =>
        (s, r.2 ++ [{ symbol := sym, price, priceChange24h := a.change24h sym
                      timestamp := a.answeredAt, isFallback := false }])
      | (s, false) => (s, r.2)
  else r

/-! ## The request -/

/-- The breaker is asked first, and told how it went. -/
def fetchFromFlashApi (s : PriceService) (cb : ServiceCircuitBreaker) (symbols : List String)
    (a : PriceAnswer) : PriceService × ServiceCircuitBreaker × List TokenPrice :=
  match cb.allowRequest a.now with
  | (cb, false) => (s, cb, [])
  | (cb, true) =>
    match a.allPrices with
    | none => (s, cb.recordFailure a.answeredAt, [])
    | some entries =>
      let r := entries.foldl (takeEntry symbols a) (s, [])
      (r.1, cb.recordSuccess, r.2)

/-- The entries that expire first leave a cache that is full. -/
def evict (s : PriceService) : PriceService :=
  if MAX_PRICE_CACHE_ENTRIES ≤ s.cache.size then
    let entries := s.cache.entries.mergeSort fun x y => x.2.expiry ≤ y.2.expiry
    let toEvict := entries.take (max 10 (s.cache.size - MAX_PRICE_CACHE_ENTRIES / 2))
    { s with cache := toEvict.foldl (fun m e => m.delete e.1) s.cache }
  else s

/-- The cached price of a market that has not expired. -/
def unexpired (s : PriceService) (now : ℚ) (sym : String) : Option TokenPrice :=
  match s.cache.get? sym with
  | some cached => if now < cached.expiry then some cached.data else none
  | none => none

/-- The loop over the symbols: a cached price that has not expired is taken. -/
def addUnexpired (s : PriceService) (now : ℚ) (m : OrderedMap String TokenPrice) (sym : String) :
    OrderedMap String TokenPrice :=
  match s.unexpired now sym with
  | some tp => m.set sym tp
  | none => m

/-- The expired price of a market, where one is cached. -/
def addStale (cache : OrderedMap String CachedPrice) (m : OrderedMap String TokenPrice)
    (sym : String) : OrderedMap String TokenPrice :=
  if m.has sym then m
  else
    match cache.get? sym with
    | some stale => m.set sym stale.data
    | none => m

/-- What `getPrices` leaves and gives: `prices` is the map it returns, of which `answered`
are the prices of the answer. -/
structure PriceResult where
  service : PriceService
  breaker : ServiceCircuitBreaker
  prices : OrderedMap String TokenPrice
  answered : List TokenPrice

def getPrices (s : PriceService) (cb : ServiceCircuitBreaker) (symbols : List String)
    (a : PriceAnswer) : PriceResult :=
  let uppers := symbols.map toUpperCase
  let priceMap := uppers.foldl (s.addUnexpired a.now) .empty
  let uncached := uppers.filter fun sym => (s.unexpired a.now sym).isNone
  match uncached with
  | [] => { service := s, breaker := cb, prices := priceMap, answered := [] }
  | _ =>
    let (s, cb, apiPrices) := s.evict.fetchFromFlashApi cb uncached a
    let priceMap := apiPrices.foldl (fun m tp => m.set tp.symbol tp) priceMap
    let cache := apiPrices.foldl
      (fun m tp => m.set tp.symbol { data := tp, expiry := a.now + cacheTtlMs }) s.cache
    { service := { s with cache }
      breaker := cb
      prices := uncached.foldl (addStale cache) priceMap
      answered := apiPrices }

/-! ## When an answer gives a price -/

/-- The prices that the answer offers for a market. -/
def offered (entries : List (String × ApiPrice)) (sym : String) : List Price :=
  entries.filterMap fun e => if toUpperCase e.1 = sym then positive? e.2.value else none

/-- One of the prices offered passes: any, where none is cached; and otherwise one that does
not deviate, or the third refused in a row. -/
def Accepted (cached : Option CachedPrice) (rejected : ℕ) (prices : List Price) : Prop :=
  match cached with
  | none => prices ≠ []
  | some c => (∃ p ∈ prices, ¬ deviates c p) ∨ (prices ≠ [] ∧ 3 ≤ rejected + prices.length)

@[simp] theorem checkDeviation_cache (s : PriceService) (sym : String) (price : Price) :
    (s.checkDeviation sym price).1.cache = s.cache := by
  unfold checkDeviation
  split
  · split
    · dsimp only
      split <;> rfl
    · rfl
  · rfl

/-- The refusals of another market are not counted. -/
theorem checkDeviation_rejectCount (s : PriceService) {sym sym' : String} (price : Price)
    (hne : sym' ≠ sym) : (s.checkDeviation sym price).1.rejectCount sym' = s.rejectCount sym' := by
  unfold checkDeviation rejectCount
  split
  · split
    · dsimp only
      split
      · rw [OrderedMap.get?_set_of_ne hne]
      · rw [OrderedMap.get?_set_of_ne hne]
    · rw [OrderedMap.get?_set_of_ne hne]
  · rfl

/-- The first price offered passes, or its refusal is counted. -/
theorem checkDeviation_accepted (s : PriceService) (sym : String) (price : Price)
    (rest : List Price) :
    ((s.checkDeviation sym price).2 = true ∧
      Accepted (s.cache.get? sym) (s.rejectCount sym) (price :: rest)) ∨
    ((s.checkDeviation sym price).2 = false ∧
      (Accepted (s.cache.get? sym) ((s.checkDeviation sym price).1.rejectCount sym) rest ↔
        Accepted (s.cache.get? sym) (s.rejectCount sym) (price :: rest))) := by
  unfold checkDeviation
  cases hcached : s.cache.get? sym with
  | none => exact .inl ⟨rfl, List.cons_ne_nil price rest⟩
  | some c =>
    dsimp only
    by_cases hdev : deviates c price
    · rw [if_pos hdev]
      by_cases hthird : 3 ≤ s.rejectCount sym + 1
      · rw [if_pos hthird]
        refine .inl ⟨rfl, .inr ⟨List.cons_ne_nil price rest, ?_⟩⟩
        rw [List.length_cons]
        omega
      · rw [if_neg hthird]
        refine .inr ⟨rfl, ?_⟩
        have hcount : rejectCount { s with
            deviationRejectCount := s.deviationRejectCount.set sym (s.rejectCount sym + 1) } sym =
              s.rejectCount sym + 1 := by
          show ((s.deviationRejectCount.set sym _).get? sym).getD 0 = _
          rw [OrderedMap.get?_set_self, Option.getD_some]
        rw [hcount]
        unfold Accepted
        constructor
        · rintro (⟨p, hp, hclose⟩ | ⟨hsome, hthree⟩)
          · exact .inl ⟨p, List.mem_cons_of_mem _ hp, hclose⟩
          · exact .inr ⟨List.cons_ne_nil _ _, by rw [List.length_cons]; omega⟩
        · rintro (⟨p, hp, hclose⟩ | ⟨-, hthree⟩)
          · rcases List.mem_cons.mp hp with rfl | hp
            · exact absurd hdev hclose
            · exact .inl ⟨p, hp, hclose⟩
          · rw [List.length_cons] at hthree
            refine .inr ⟨?_, by omega⟩
            rintro rfl
            rw [List.length_nil] at hthree
            exact hthird (by omega)
    · rw [if_neg hdev]
      exact .inl ⟨rfl, .inl ⟨price, List.mem_cons_self, hdev⟩⟩

/-- Some price of a market is among those taken. -/
def Took (r : PriceService × List TokenPrice) (sym : String) : Prop :=
  ∃ tp ∈ r.2, tp.symbol = sym

/-- Of an entry's market a price is taken, or its refusal is counted. -/
theorem takeEntry_took {symbols : List String} {a : PriceAnswer} {sym : String}
    (hsym : sym ∈ symbols) (r : PriceService × List TokenPrice) (e : String × ApiPrice)
    (rest : List (String × ApiPrice)) :
    (Took (takeEntry symbols a r e) sym ∨
        Accepted ((takeEntry symbols a r e).1.cache.get? sym)
          ((takeEntry symbols a r e).1.rejectCount sym) (offered rest sym)) ↔
      (Took r sym ∨ Accepted (r.1.cache.get? sym) (r.1.rejectCount sym)
        (offered (e :: rest) sym)) := by
  unfold takeEntry
  by_cases hkey : toUpperCase e.1 = sym
  · have hcontains : symbols.contains sym = true := List.contains_iff_mem.mpr hsym
    have hoffered : offered (e :: rest) sym =
        (positive? e.2.value).toList ++ offered rest sym := by
      unfold offered
      rw [List.filterMap_cons, if_pos hkey]
      cases positive? e.2.value <;> rfl
    rw [hkey, hoffered]
    dsimp only
    rw [if_pos hcontains]
    cases positive? e.2.value with
    | none => exact Iff.rfl
    | some price =>
      dsimp only
      rcases checkDeviation_accepted r.1 sym price (offered rest sym) with
        ⟨hpass, hacc⟩ | ⟨hrefused, hacc⟩
      · rw [← Prod.eta (r.1.checkDeviation sym price), hpass]
        dsimp only
        constructor
        · exact fun _ => .inr hacc
        · intro _
          left
          exact ⟨_, List.mem_append_right _ (List.mem_singleton_self _), rfl⟩
      · rw [← Prod.eta (r.1.checkDeviation sym price), hrefused]
        dsimp only
        rw [checkDeviation_cache]
        exact or_congr Iff.rfl hacc
  · have hoffered : offered (e :: rest) sym = offered rest sym := by
      unfold offered
      rw [List.filterMap_cons, if_neg hkey]
    rw [hoffered]
    dsimp only
    split
    · split
      · exact Iff.rfl
      · next price _ =>
        have hcount := checkDeviation_rejectCount r.1 price (Ne.symm hkey)
        have hcache := checkDeviation_cache r.1 (toUpperCase e.1) price
        split
        · next s hchecked =>
          rw [hchecked] at hcount hcache
          rw [hcache, hcount]
          refine or_congr ⟨?_, ?_⟩ Iff.rfl
          · rintro ⟨tp, htp, hsame⟩
            rcases List.mem_append.mp htp with htp | htp
            · exact ⟨tp, htp, hsame⟩
            · obtain rfl := List.mem_singleton.mp htp
              exact absurd hsame hkey
          · rintro ⟨tp, htp, hsame⟩
            exact ⟨tp, List.mem_append_left _ htp, hsame⟩
        · next s hchecked =>
          rw [hchecked] at hcount hcache
          rw [hcache, hcount]
          exact Iff.rfl
    · exact Iff.rfl

/-- A price of a market is taken from the answer exactly when one offered passes. -/
theorem took_foldl_iff {symbols : List String} {a : PriceAnswer} {sym : String}
    (hsym : sym ∈ symbols) (entries : List (String × ApiPrice))
    (r : PriceService × List TokenPrice) :
    Took (entries.foldl (takeEntry symbols a) r) sym ↔
      Took r sym ∨ Accepted (r.1.cache.get? sym) (r.1.rejectCount sym) (offered entries sym) := by
  induction entries generalizing r with
  | nil =>
    have hnone : ¬ Accepted (r.1.cache.get? sym) (r.1.rejectCount sym) (offered [] sym) := by
      unfold Accepted
      cases r.1.cache.get? sym with
      | none => exact fun h => h rfl
      | some c =>
        rintro (⟨p, hp, -⟩ | ⟨hne, -⟩)
        · cases hp
        · exact hne rfl
    exact ⟨.inl, fun h => h.resolve_right hnone⟩
  | cons e rest ih =>
    rw [List.foldl_cons, ih]
    exact takeEntry_took hsym r e rest

theorem foldl_takeEntry_cache {symbols : List String} {a : PriceAnswer}
    (entries : List (String × ApiPrice)) (r : PriceService × List TokenPrice) :
    (entries.foldl (takeEntry symbols a) r).1.cache = r.1.cache := by
  induction entries generalizing r with
  | nil => rfl
  | cons e rest ih =>
    rw [List.foldl_cons, ih]
    unfold takeEntry
    dsimp only
    split
    · split
      · rfl
      · next price _ =>
        have hcache := checkDeviation_cache r.1 (toUpperCase e.1) price
        split
        · next s hchecked =>
          rw [hchecked] at hcache
          exact hcache
        · next s hchecked =>
          rw [hchecked] at hcache
          exact hcache
    · rfl

@[simp] theorem fetchFromFlashApi_cache (s : PriceService) (cb : ServiceCircuitBreaker)
    (symbols : List String) (a : PriceAnswer) :
    (s.fetchFromFlashApi cb symbols a).1.cache = s.cache := by
  unfold fetchFromFlashApi
  split
  · rfl
  · split
    · rfl
    · exact foldl_takeEntry_cache _ _

/-- The request is let through and answered. -/
def Answers (cb : ServiceCircuitBreaker) (a : PriceAnswer) (entries : List (String × ApiPrice)) :
    Prop :=
  (cb.allowRequest a.now).2 = true ∧ a.allPrices = some entries

/-- The answer gives a price for a market that is asked for. -/
theorem fetchFromFlashApi_took {s : PriceService} {cb : ServiceCircuitBreaker}
    {symbols : List String} {a : PriceAnswer} {sym : String} (hsym : sym ∈ symbols) :
    (∃ tp ∈ (s.fetchFromFlashApi cb symbols a).2.2, tp.symbol = sym) ↔
      ∃ entries, Answers cb a entries ∧
        Accepted (s.cache.get? sym) (s.rejectCount sym) (offered entries sym) := by
  unfold fetchFromFlashApi Answers
  rw [← Prod.eta (cb.allowRequest a.now)]
  cases (cb.allowRequest a.now).2 with
  | false =>
    constructor
    · rintro ⟨tp, htp, -⟩
      cases htp
    · rintro ⟨entries, ⟨hallowed, -⟩, -⟩
      cases hallowed
  | true =>
    cases hall : a.allPrices with
    | none =>
      constructor
      · rintro ⟨tp, htp, -⟩
        cases htp
      · rintro ⟨entries, ⟨-, hsome⟩, -⟩
        cases hsome
    | some entries =>
      have htook := took_foldl_iff (a := a) hsym entries (s, [])
      constructor
      · intro hmem
        rcases htook.mp hmem with ⟨tp, htp, -⟩ | hacc
        · cases htp
        · exact ⟨entries, ⟨rfl, rfl⟩, hacc⟩
      · rintro ⟨entries', ⟨-, hsame⟩, hacc⟩
        obtain rfl := Option.some.inj hsame
        exact htook.mpr (.inr hacc)

/-- Only markets that are asked for are answered. -/
theorem fetchFromFlashApi_asked {s : PriceService} {cb : ServiceCircuitBreaker}
    {symbols : List String} {a : PriceAnswer} {tp : TokenPrice}
    (htp : tp ∈ (s.fetchFromFlashApi cb symbols a).2.2) : tp.symbol ∈ symbols := by
  have hfold : ∀ (entries : List (String × ApiPrice)) (r : PriceService × List TokenPrice),
      (∀ tp ∈ r.2, tp.symbol ∈ symbols) →
        ∀ tp ∈ (entries.foldl (takeEntry symbols a) r).2, tp.symbol ∈ symbols := by
    intro entries
    induction entries with
    | nil => exact fun r hr => hr
    | cons e rest ih =>
      intro r hr
      rw [List.foldl_cons]
      refine ih _ ?_
      unfold takeEntry
      dsimp only
      split
      · next hcontains =>
        split
        · exact hr
        · split
          · intro tp htp
            rcases List.mem_append.mp htp with htp | htp
            · exact hr tp htp
            · obtain rfl := List.mem_singleton.mp htp
              exact List.contains_iff_mem.mp hcontains
          · exact hr
      · exact hr
  unfold fetchFromFlashApi at htp
  split at htp
  · cases htp
  · split at htp
    · cases htp
    · exact hfold _ _ (fun tp htp => absurd htp List.not_mem_nil) tp htp

/-! ## What a caller finds -/

/-- The price of a market that is not answered: one that has not expired, or else the stale
one. -/
def kept (s : PriceService) (symbols : List String) (now : ℚ) (sym : String) :
    Option TokenPrice :=
  if sym ∈ symbols.map toUpperCase then
    (s.unexpired now sym).or ((s.evict.cache.get? sym).map CachedPrice.data)
  else none

/-- The market is asked for, its price has expired, and the request gives one that passes. -/
def Renews (s : PriceService) (cb : ServiceCircuitBreaker) (symbols : List String)
    (a : PriceAnswer) (sym : String) : Prop :=
  sym ∈ symbols.map toUpperCase ∧ s.unexpired a.now sym = none ∧
    ∃ entries, Answers cb a entries ∧
      Accepted (s.evict.cache.get? sym) (s.rejectCount sym) (offered entries sym)

@[simp] theorem evict_rejectCount (s : PriceService) (sym : String) :
    s.evict.rejectCount sym = s.rejectCount sym := by
  unfold evict
  by_cases hfull : MAX_PRICE_CACHE_ENTRIES ≤ s.cache.size
  · rw [if_pos hfull]
    unfold rejectCount
    dsimp only
  · rw [if_neg hfull]

theorem get?_addUnexpired (s : PriceService) (now : ℚ) (uppers : List String)
    (m : OrderedMap String TokenPrice) (sym : String) :
    (uppers.foldl (s.addUnexpired now) m).get? sym =
      if sym ∈ uppers then (s.unexpired now sym).or (m.get? sym) else m.get? sym := by
  induction uppers generalizing m with
  | nil => rfl
  | cons u rest ih =>
    rw [List.foldl_cons, ih]
    unfold addUnexpired
    by_cases hsym : sym = u
    · subst hsym
      rw [if_pos List.mem_cons_self]
      cases s.unexpired now sym with
      | none => simp
      | some tp => simp
    · have hmem : sym ∈ u :: rest ↔ sym ∈ rest := by simp [hsym]
      simp only [hmem]
      cases s.unexpired now u with
      | none => rfl
      | some tp =>
        dsimp only
        rw [OrderedMap.get?_set_of_ne hsym]

theorem get?_addStale (cache : OrderedMap String CachedPrice) (uncached : List String)
    (m : OrderedMap String TokenPrice) (sym : String) :
    (uncached.foldl (addStale cache) m).get? sym =
      (m.get? sym).or (if sym ∈ uncached then (cache.get? sym).map CachedPrice.data else none) := by
  induction uncached generalizing m with
  | nil => simp
  | cons u rest ih =>
    rw [List.foldl_cons, ih]
    have hone : (addStale cache m u).get? sym =
        (m.get? sym).or (if sym = u then (cache.get? sym).map CachedPrice.data else none) := by
      unfold addStale
      by_cases hsym : sym = u
      · subst hsym
        rw [if_pos rfl]
        cases hm : m.get? sym with
        | some tp =>
          have hhas : m.has sym = true := by rw [OrderedMap.has, hm]; rfl
          rw [if_pos hhas, hm, Option.some_or]
        | none =>
          have hhas : ¬ m.has sym = true := by rw [OrderedMap.has, hm]; exact Bool.false_ne_true
          rw [if_neg hhas, Option.none_or]
          cases hc : cache.get? sym with
          | none => exact hm
          | some stale => exact OrderedMap.get?_set_self _ _ _
      · rw [if_neg hsym, Option.or_none]
        split
        · rfl
        · split
          · exact OrderedMap.get?_set_of_ne hsym
          · rfl
    rw [hone]
    by_cases hsym : sym = u
    · subst hsym
      cases m.get? sym <;> cases cache.get? sym <;> simp
    · simp [hsym]

/-- The last price of a market among some prices. -/
def latest (tps : List TokenPrice) (sym : String) : Option TokenPrice :=
  tps.reverse.find? fun tp => tp.symbol = sym

theorem latest_eq_none {tps : List TokenPrice} {sym : String} (h : latest tps sym = none) :
    ∀ tp ∈ tps, tp.symbol ≠ sym := by
  intro tp htp hsame
  exact List.find?_eq_none.mp h tp (List.mem_reverse.mpr htp) (decide_eq_true hsame)

theorem mem_of_latest {tps : List TokenPrice} {sym : String} {tp : TokenPrice}
    (h : latest tps sym = some tp) : tp ∈ tps ∧ tp.symbol = sym := by
  have hkey := List.find?_some h
  have htp := List.mem_of_find?_eq_some h
  exact ⟨List.mem_reverse.mp htp, of_decide_eq_true hkey⟩

/-- What is found under a market: the last price of the answer, or else the one that was
kept. -/
theorem get?_getPrices_latest (s : PriceService) (cb : ServiceCircuitBreaker)
    (symbols : List String) (a : PriceAnswer) (sym : String) :
    (s.getPrices cb symbols a).prices.get? sym =
      (latest (s.getPrices cb symbols a).answered sym).or (s.kept symbols a.now sym) := by
  have huncached : sym ∈ (symbols.map toUpperCase).filter
      (fun sym => (s.unexpired a.now sym).isNone) ↔
        sym ∈ symbols.map toUpperCase ∧ s.unexpired a.now sym = none := by
    rw [List.mem_filter, Option.isNone_iff_eq_none]
  unfold getPrices kept
  dsimp only
  split
  · next hall =>
    rw [hall] at huncached
    rw [get?_addUnexpired, OrderedMap.get?_empty]
    by_cases hupper : sym ∈ symbols.map toUpperCase
    · rw [if_pos hupper, if_pos hupper]
      cases htp : s.unexpired a.now sym with
      | some tp => rfl
      | none => exact absurd (huncached.mpr ⟨hupper, htp⟩) List.not_mem_nil
    · rw [if_neg hupper, if_neg hupper]
      rfl
  · generalize hun : (symbols.map toUpperCase).filter
        (fun sym => (s.unexpired a.now sym).isNone) = uncached at huncached ⊢
    have hcache := fetchFromFlashApi_cache s.evict cb uncached a
    generalize s.evict.fetchFromFlashApi cb uncached a = r at hcache ⊢
    obtain ⟨s', cb', apiPrices⟩ := r
    dsimp only at hcache ⊢
    rw [get?_addStale, OrderedMap.get?_foldl_set_last TokenPrice.symbol (fun tp => tp),
      OrderedMap.get?_foldl_set_last TokenPrice.symbol]
    unfold latest
    cases apiPrices.reverse.find? fun tp => tp.symbol = sym with
    | some tp => rfl
    | none =>
      -- nothing was written under the market, so the stale price is the one of before
      rw [Option.map_none, Option.map_none, Option.none_or, Option.none_or, Option.none_or,
        hcache, get?_addUnexpired, OrderedMap.get?_empty]
      by_cases hupper : sym ∈ symbols.map toUpperCase
      · rw [if_pos hupper, if_pos hupper]
        cases htp : s.unexpired a.now sym with
        | some tp => rfl
        | none => rw [if_pos (huncached.mpr ⟨hupper, htp⟩), Option.or_none]
      · rw [if_neg hupper, if_neg hupper, if_neg fun h => hupper (huncached.mp h).1]
        rfl

/-- **What is found under a market**: a price of the answer, or the one that was kept. -/
theorem get?_getPrices (s : PriceService) (cb : ServiceCircuitBreaker) (symbols : List String)
    (a : PriceAnswer) (sym : String) :
    (∃ tp ∈ (s.getPrices cb symbols a).answered, tp.symbol = sym ∧
      (s.getPrices cb symbols a).prices.get? sym = some tp) ∨
    ((∀ tp ∈ (s.getPrices cb symbols a).answered, tp.symbol ≠ sym) ∧
      (s.getPrices cb symbols a).prices.get? sym = s.kept symbols a.now sym) := by
  rw [get?_getPrices_latest]
  cases hlatest : latest (s.getPrices cb symbols a).answered sym with
  | none => exact .inr ⟨latest_eq_none hlatest, rfl⟩
  | some tp =>
    obtain ⟨htp, hsame⟩ := mem_of_latest hlatest
    exact .inl ⟨tp, htp, hsame, rfl⟩

/-- **When an answer gives a price**: of the markets that are not in the cache, those of which
one price passes. -/
theorem price_answered_iff {s : PriceService} {cb : ServiceCircuitBreaker} {symbols : List String}
    {a : PriceAnswer} {sym : String} :
    (∃ tp ∈ (s.getPrices cb symbols a).answered, tp.symbol = sym) ↔
      s.Renews cb symbols a sym := by
  have huncached : sym ∈ (symbols.map toUpperCase).filter
      (fun sym => (s.unexpired a.now sym).isNone) ↔
        sym ∈ symbols.map toUpperCase ∧ s.unexpired a.now sym = none := by
    rw [List.mem_filter, Option.isNone_iff_eq_none]
  unfold getPrices Renews
  dsimp only
  split
  · next hall =>
    rw [hall] at huncached
    constructor
    · rintro ⟨tp, htp, -⟩
      cases htp
    · rintro ⟨hupper, hexpired, -⟩
      exact absurd (huncached.mpr ⟨hupper, hexpired⟩) List.not_mem_nil
  · constructor
    · intro htook
      have hasked : sym ∈ (symbols.map toUpperCase).filter
          (fun sym => (s.unexpired a.now sym).isNone) := by
        obtain ⟨tp, htp, rfl⟩ := htook
        exact fetchFromFlashApi_asked htp
      obtain ⟨entries, hanswers, hacc⟩ := (fetchFromFlashApi_took hasked).mp htook
      obtain ⟨hupper, hexpired⟩ := huncached.mp hasked
      rw [evict_rejectCount] at hacc
      exact ⟨hupper, hexpired, entries, hanswers, hacc⟩
    · rintro ⟨hupper, hexpired, entries, hanswers, hacc⟩
      refine (fetchFromFlashApi_took (huncached.mpr ⟨hupper, hexpired⟩)).mpr
        ⟨entries, hanswers, ?_⟩
      rw [evict_rejectCount]
      exact hacc

end PriceService

end FlashEdge
