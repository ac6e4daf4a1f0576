import Mathlib.Data.List.Sort
import Mathlib.Data.Rat.Floor
import Mathlib.Tactic.Linarith
import FlashEdge.Theory.Machine

/-!
# The priority fee of the transaction engine (`core/ultra-tx-engine.ts`)

`getDynamicPriorityFee` samples the fees that were recently paid and takes the 75th percentile
of the positive ones, floored at the configured price and capped at the ceiling; when more than
half of the samples exceed the configured price, the fee goes up by a fifth, again capped. The
answer is kept for five seconds, and callers that come while one is awaited share it. Whatever
goes wrong, the fee is the configured price.

A fee is `none` if it is not a number, which is what an index out of bounds would lead to.

- `feePipeline`: calls and answers in any order.
- `ProperFee`: what is promised of a fee.
- `returned_fee_proper`: every fee returned along a run is of that kind.
-/

namespace FlashEdge

namespace PriorityFee

/-- Priority fee ceiling (microLamports). -/
def PRIORITY_FEE_CEILING : ℚ := 500000

def PRIORITY_FEE_CACHE_MS : ℚ := 5000

def CONGESTION_UPLIFT_PCT : ℚ := 1 / 5

structure FeeConfig where
  computeUnitPrice : ℚ := 100000
  dynamicPriorityFee : Bool := true
deriving DecidableEq, Repr

/-! ## The fee of a list of samples -/

/-- The samples that count, in ascending order. -/
def positiveFees (fees : List ℚ) : List ℚ :=
  (fees.filter fun f => decide (0 < f)).insertionSort (· ≤ ·)

/-- The index of the 75th percentile among `n` samples. -/
def p75Index (n : ℕ) : ℕ := min (n * 3 / 4) (n - 1)

/-- More than half of the samples exceed the configured price. -/
def congested (baseline : ℚ) (sorted : List ℚ) : Bool :=
  decide ((sorted.length : ℚ) * (1 / 2) < (sorted.filter fun f => decide (baseline < f)).length)

/-- Between floor and ceiling. -/
def clampedFee (baseline p75Fee : ℚ) : ℚ := max baseline (min p75Fee PRIORITY_FEE_CEILING)

/-- `Math.round(fee * (1 + CONGESTION_UPLIFT_PCT))`. -/
def uplifted (fee : ℚ) : ℤ := ⌊fee * (1 + CONGESTION_UPLIFT_PCT) + 1 / 2⌋

def feeOfSamples (baseline : ℚ) (fees : List ℚ) : Option ℚ :=
  let sorted := positiveFees fees
  if sorted.length = 0 then some baseline
  else
    sorted[p75Index sorted.length]?.map fun p75Fee =>
      let fee := clampedFee baseline p75Fee
      if congested baseline sorted then min (uplifted fee : ℚ) PRIORITY_FEE_CEILING else fee

/-! ## The pipeline -/

structure CachedFee where
  fee : Option ℚ
  fetchedAt : ℚ
deriving DecidableEq, Repr

/-- `priorityFeeInflight` is the number of callers that await the request in flight. -/
structure FeePipeline where
  cachedPriorityFee : Option CachedFee := none
  priorityFeeInflight : Option ℕ := none
deriving DecidableEq, Repr

/-- A call, or the answer to the request in flight: the samples (none at all are an empty
list), or `none` when it fails. -/
inductive FeeAction where
  | getDynamicPriorityFee (now : ℚ)
  | answered (fees : Option (List ℚ)) (now : ℚ)
deriving DecidableEq, Repr

inductive FeeEvent where
  | sampled (fees : List ℚ)
  | returned (fee : Option ℚ)
deriving DecidableEq, Repr

variable (config : FeeConfig)

/-- The cached fee, if it is fresh. -/
def FeePipeline.freshFee (s : FeePipeline) (now : ℚ) : Option (Option ℚ) :=
  (s.cachedPriorityFee.filter fun c => decide (now - c.fetchedAt < PRIORITY_FEE_CACHE_MS)).map
    CachedFee.fee

/-- A caller is answered at once, or waits for the request in flight, which it may start. -/
def FeePipeline.getDynamicPriorityFee (s : FeePipeline) (now : ℚ) :
    FeePipeline × List FeeEvent :=
  if config.dynamicPriorityFee then
    match s.freshFee now with
    | some fee => (s, [.returned fee])
    | none => ({ s with priorityFeeInflight := some (s.priorityFeeInflight.getD 0 + 1) }, [])
  else (s, [.returned (some config.computeUnitPrice)])

/-- The fee that an answer leads to. -/
def feeOfAnswer (fees : Option (List ℚ)) : Option ℚ :=
  match fees with
  | some fees => feeOfSamples config.computeUnitPrice fees
  | none => some config.computeUnitPrice

def feePipeline : Machine FeePipeline FeeAction FeeEvent where
  init := {}
  step s a :=
    match a with
    | .getDynamicPriorityFee now => some (s.getDynamicPriorityFee config now)
    | .answered fees now =>
      s.priorityFeeInflight.map fun waiting =>
        ({ cachedPriorityFee := some ⟨feeOfAnswer config fees, now⟩, priorityFeeInflight := none },
          .sampled (fees.getD []) ::
            List.replicate waiting (.returned (feeOfAnswer config fees)))

/-! ## What a fee is -/

/-- A whole number of microLamports. -/
def Whole (q : ℚ) : Prop := ∃ k : ℤ, q = k

/-- The configured price, the ceiling, or one of the samples. -/
def Plain (baseline : ℚ) (fees : List ℚ) (q : ℚ) : Prop :=
  q = baseline ∨ q = PRIORITY_FEE_CEILING ∨ q ∈ fees

/-- Such a fee; or, under congestion, one that is raised. -/
def TakenFrom (baseline : ℚ) (fees : List ℚ) (q : ℚ) : Prop :=
  Plain baseline fees q ∨
    congested baseline (positiveFees fees) = true ∧
      ∃ fee, Plain baseline fees fee ∧ q = uplifted fee

/-- What is promised of a fee, the samples being those that have arrived so far. -/
structure ProperFee (h : List FeeEvent) (q : ℚ) : Prop where
  source : q = config.computeUnitPrice ∨
    ∃ fees, .sampled fees ∈ h ∧ TakenFrom config.computeUnitPrice fees q
  bounds : Whole config.computeUnitPrice →
    min config.computeUnitPrice PRIORITY_FEE_CEILING ≤ q ∧
      q ≤ max config.computeUnitPrice PRIORITY_FEE_CEILING
  whole : Whole config.computeUnitPrice → (∀ fees, .sampled fees ∈ h → ∀ f ∈ fees, Whole f) →
    Whole q

/-! ## The samples -/

theorem p75Index_lt {n : ℕ} (hn : n ≠ 0) : p75Index n < n := by
  unfold p75Index
  omega

theorem mem_positiveFees {fees : List ℚ} {f : ℚ} : f ∈ positiveFees fees ↔ f ∈ fees ∧ 0 < f := by
  unfold positiveFees
  rw [List.mem_insertionSort, List.mem_filter, decide_eq_true_iff]

/-- What the 75th percentile is clamped to. -/
theorem clampedFee_cases (baseline p75Fee : ℚ) :
    clampedFee baseline p75Fee = baseline ∨ clampedFee baseline p75Fee = PRIORITY_FEE_CEILING ∨
      clampedFee baseline p75Fee = p75Fee := by
  unfold clampedFee
  rcases max_choice baseline (min p75Fee PRIORITY_FEE_CEILING) with h | h
  · exact .inl h
  · rw [h]
    rcases min_choice p75Fee PRIORITY_FEE_CEILING with h | h
    · exact .inr (.inr h)
    · exact .inr (.inl h)

/-- The fee of a list of samples is there: the configured price if none counts, and else the
clamped percentile, raised under congestion. -/
theorem feeOfSamples_cases (baseline : ℚ) (fees : List ℚ) :
    feeOfSamples baseline fees = some baseline ∨
      ∃ p75Fee ∈ fees, 0 < p75Fee ∧
        (feeOfSamples baseline fees = some (clampedFee baseline p75Fee) ∨
          congested baseline (positiveFees fees) = true ∧
            feeOfSamples baseline fees =
              some (min (uplifted (clampedFee baseline p75Fee) : ℚ) PRIORITY_FEE_CEILING)) := by
  by_cases hnone : (positiveFees fees).length = 0
  · refine .inl ?_
    unfold feeOfSamples
    rw [if_pos hnone]
  · have hlt := p75Index_lt hnone
    have hfee : feeOfSamples baseline fees =
        some (if congested baseline (positiveFees fees) then
          min (uplifted (clampedFee baseline
            ((positiveFees fees)[p75Index (positiveFees fees).length])) : ℚ) PRIORITY_FEE_CEILING
          else clampedFee baseline ((positiveFees fees)[p75Index (positiveFees fees).length])) := by
      unfold feeOfSamples
      rw [if_neg hnone, List.getElem?_eq_getElem hlt]
      rfl
    obtain ⟨hmem, hpos⟩ := mem_positiveFees.mp (List.getElem_mem hlt)
    refine .inr ⟨_, hmem, hpos, ?_⟩
    rw [hfee]
    cases congested baseline (positiveFees fees) with
    | false => exact .inl rfl
    | true => exact .inr ⟨rfl, rfl⟩

/-! ## Bounds -/

/-- Raising a fee that is at least a whole floor does not take it below. -/
theorem le_uplifted {baseline fee : ℚ} (hwhole : Whole baseline) (hfloor : baseline ≤ fee)
    (hpos : 0 ≤ fee) : baseline ≤ uplifted fee := by
  obtain ⟨k, rfl⟩ := hwhole
  unfold uplifted CONGESTION_UPLIFT_PCT
  have hk : (k : ℚ) ≤ fee * (1 + 1 / 5) + 1 / 2 := by linarith
  exact_mod_cast Int.le_floor.mpr hk

theorem clampedFee_bounds (baseline : ℚ) {p75Fee : ℚ} (hpos : 0 < p75Fee) :
    baseline ≤ clampedFee baseline p75Fee ∧ 0 ≤ clampedFee baseline p75Fee ∧
      clampedFee baseline p75Fee ≤ max baseline PRIORITY_FEE_CEILING := by
  unfold clampedFee
  refine ⟨le_max_left _ _, le_max_of_le_right (le_min hpos.le ?_),
    max_le_max le_rfl (min_le_right _ _)⟩
  unfold PRIORITY_FEE_CEILING
  norm_num

theorem ceiling_whole : Whole PRIORITY_FEE_CEILING := ⟨500000, by
  unfold PRIORITY_FEE_CEILING
  norm_num⟩

theorem whole_of_plain {baseline : ℚ} {fees : List ℚ} {q : ℚ} (hbase : Whole baseline)
    (hfees : ∀ f ∈ fees, Whole f) (hq : Plain baseline fees q) : Whole q := by
  rcases hq with rfl | rfl | hmem
  · exact hbase
  · exact ceiling_whole
  · exact hfees q hmem

/-- The clamped percentile is a plain fee. -/
theorem plain_clampedFee (baseline : ℚ) {fees : List ℚ} {p75Fee : ℚ} (hmem : p75Fee ∈ fees) :
    Plain baseline fees (clampedFee baseline p75Fee) := by
  rcases clampedFee_cases baseline p75Fee with h | h | h
  · exact .inl h
  · exact .inr (.inl h)
  · refine .inr (.inr ?_)
    rw [h]
    exact hmem

/-- **The fee of a list of samples**: it is there, where it comes from, its bounds, and that it
is whole. -/
theorem feeOfSamples_proper (baseline : ℚ) (fees : List ℚ) :
    ∃ q, feeOfSamples baseline fees = some q ∧ TakenFrom baseline fees q ∧
      (Whole baseline → min baseline PRIORITY_FEE_CEILING ≤ q ∧
        q ≤ max baseline PRIORITY_FEE_CEILING) ∧
      (Whole baseline → (∀ f ∈ fees, Whole f) → Whole q) := by
  rcases feeOfSamples_cases baseline fees with hbase | ⟨p75Fee, hmem, hpos, hrest⟩
  · exact ⟨baseline, hbase, .inl (.inl rfl), fun _ => ⟨min_le_left _ _, le_max_left _ _⟩,
      fun hwhole _ => hwhole⟩
  · have hplain := plain_clampedFee baseline hmem
    obtain ⟨hfloor, hnonneg, hceil⟩ := clampedFee_bounds baseline hpos
    rcases hrest with hfee | ⟨hcong, hfee⟩
    · exact ⟨_, hfee, .inl hplain, fun _ => ⟨(min_le_left _ _).trans hfloor, hceil⟩,
        fun hbase hfees => whole_of_plain hbase hfees hplain⟩
    · refine ⟨_, hfee, ?_, fun hwhole => ⟨?_, ?_⟩, fun _ _ => ?_⟩
      · rcases min_choice (uplifted (clampedFee baseline p75Fee) : ℚ) PRIORITY_FEE_CEILING with
          h | h
        · exact .inr ⟨hcong, _, hplain, h⟩
        · exact .inl (.inr (.inl h))
      · exact min_le_min (le_uplifted hwhole hfloor hnonneg) le_rfl
      · exact (min_le_right _ _).trans (le_max_right _ _)
      · rcases min_choice (uplifted (clampedFee baseline p75Fee) : ℚ) PRIORITY_FEE_CEILING with
          h | h
        · rw [h]
          exact ⟨_, rfl⟩
        · rw [h]
          exact ceiling_whole

/-! ## Runs -/

variable {config}

/-- The configured price is a proper fee. -/
theorem proper_baseline (h : List FeeEvent) : ProperFee config h config.computeUnitPrice where
  source := .inl rfl
  bounds _ := ⟨min_le_left _ _, le_max_left _ _⟩
  whole hbase _ := hbase

/-- A proper fee stays one. -/
theorem ProperFee.mono {h es : List FeeEvent} {q : ℚ} (hq : ProperFee config h q) :
    ProperFee config (h ++ es) q where
  source := hq.source.imp_right fun ⟨fees, hmem, hfrom⟩ =>
    ⟨fees, List.mem_append_left es hmem, hfrom⟩
  bounds := hq.bounds
  whole hbase hall := hq.whole hbase fun fees hmem => hall fees (List.mem_append_left es hmem)

/-- What an answer leads to is a proper fee, once its samples are known. -/
theorem proper_answer (fees : Option (List ℚ)) {h : List FeeEvent}
    (hmem : .sampled (fees.getD []) ∈ h) :
    ∃ q, feeOfAnswer config fees = some q ∧ ProperFee config h q := by
  cases fees with
  | none => exact ⟨_, rfl, proper_baseline h⟩
  | some fees =>
    obtain ⟨q, hq, hfrom, hbounds, hwhole⟩ := feeOfSamples_proper config.computeUnitPrice fees
    exact ⟨q, hq, .inr ⟨fees, hmem, hfrom⟩, hbounds,
      fun hbase hall => hwhole hbase (hall fees hmem)⟩

/-- A fee is there, and proper. -/
def Proper (config : FeeConfig) (h : List FeeEvent) (fee : Option ℚ) : Prop :=
  ∃ q, fee = some q ∧ ProperFee config h q

/-- The cached fee and all that were returned are proper. -/
structure FeeInv (config : FeeConfig) (s : FeePipeline) (h : List FeeEvent) : Prop where
  cached : ∀ c, s.cachedPriorityFee = some c → Proper config h c.fee
  returned : ∀ fee, .returned fee ∈ h → Proper config h fee

theorem Proper.mono {h es : List FeeEvent} {fee : Option ℚ} (hfee : Proper config h fee) :
    Proper config (h ++ es) fee := by
  obtain ⟨q, hq, hproper⟩ := hfee
  exact ⟨q, hq, hproper.mono⟩

/-- A step keeps the invariant if it caches and returns only proper fees. -/
theorem FeeInv.extend {s s' : FeePipeline} {h es : List FeeEvent} (hI : FeeInv config s h)
    (hcached : ∀ c, s'.cachedPriorityFee = some c → Proper config (h ++ es) c.fee)
    (hnew : ∀ fee, .returned fee ∈ es → Proper config (h ++ es) fee) :
    FeeInv config s' (h ++ es) := by
  refine ⟨hcached, fun fee hmem => ?_⟩
  rcases List.mem_append.mp hmem with hold | hmem
  · exact (hI.returned fee hold).mono
  · exact hnew fee hmem

theorem freshFee_some {s : FeePipeline} {now : ℚ} {fee : Option ℚ} (h : s.freshFee now = some fee) :
    ∃ c, s.cachedPriorityFee = some c ∧ c.fee = fee := by
  obtain ⟨c, hc, hfee⟩ := Option.map_eq_some_iff.mp h
  exact ⟨c, (Option.filter_eq_some_iff.mp hc).1, hfee⟩

/-- A caller is given a proper fee. -/
theorem FeeInv.called {s : FeePipeline} {h : List FeeEvent} (hI : FeeInv config s h) (now : ℚ) :
    FeeInv config (s.getDynamicPriorityFee config now).1
      (h ++ (s.getDynamicPriorityFee config now).2) := by
  unfold FeePipeline.getDynamicPriorityFee
  split
  · split
    · next fee hfresh =>
      obtain ⟨c, hc, rfl⟩ := freshFee_some hfresh
      refine hI.extend (fun c hc => (hI.cached c hc).mono) fun fee hmem => ?_
      obtain rfl := FeeEvent.returned.inj (List.mem_singleton.mp hmem)
      exact (hI.cached c hc).mono
    · exact hI.extend (fun c hc => (hI.cached c hc).mono) fun fee hmem =>
        absurd hmem (List.not_mem_nil)
  · refine hI.extend (fun c hc => (hI.cached c hc).mono) fun fee hmem => ?_
    obtain rfl := FeeEvent.returned.inj (List.mem_singleton.mp hmem)
    exact ⟨_, rfl, proper_baseline _⟩

/-- An answer gives all that wait for it a proper fee. -/
theorem FeeInv.answered {s : FeePipeline} {h : List FeeEvent} (hI : FeeInv config s h)
    (fees : Option (List ℚ)) (now : ℚ) (waiting : ℕ) :
    FeeInv config
      { cachedPriorityFee := some ⟨feeOfAnswer config fees, now⟩, priorityFeeInflight := none }
      (h ++ .sampled (fees.getD []) ::
        List.replicate waiting (.returned (feeOfAnswer config fees))) := by
  have hproper : Proper config (h ++ .sampled (fees.getD []) ::
      List.replicate waiting (.returned (feeOfAnswer config fees))) (feeOfAnswer config fees) :=
    proper_answer fees (List.mem_append_right h List.mem_cons_self)
  refine hI.extend (fun c hc => ?_) fun fee hmem => ?_
  · obtain rfl := Option.some.inj hc
    exact hproper
  · rcases List.mem_cons.mp hmem with hmem | hmem
    · cases hmem
    · obtain rfl := FeeEvent.returned.inj (List.eq_of_mem_replicate hmem)
      exact hproper

theorem feeInv {s : FeePipeline} {h : List FeeEvent} (hr : (feePipeline config).Reachable s h) :
    FeeInv config s h := by
  refine hr.invariant ⟨fun c hc => (by cases hc), fun fee hmem => absurd hmem List.not_mem_nil⟩ ?_
  intro s s' h es a hI hs
  cases a with
  | getDynamicPriorityFee now =>
    obtain ⟨rfl, rfl⟩ := Machine.some_pair hs
    exact hI.called now
  | answered fees now =>
    obtain ⟨waiting, -, heq⟩ := Option.map_eq_some_iff.mp hs
    obtain ⟨rfl, rfl⟩ := Prod.mk.inj heq
    exact hI.answered fees now waiting

/-- **The fee that is returned.** In every run, the index of the percentile is within the list
of samples, and every fee returned is a number: the configured price, the ceiling, a sample, or
under congestion such a fee raised by a fifth and rounded. For a whole configured price it lies
between price and ceiling, and it is whole if the samples are. -/
theorem returned_fee_proper {s : FeePipeline} {h : List FeeEvent}
    (hr : (feePipeline config).Reachable s h) :
    (∀ fees, .sampled fees ∈ h → positiveFees fees ≠ [] →
        p75Index (positiveFees fees).length < (positiveFees fees).length) ∧
      ∀ fee, .returned fee ∈ h → Proper config h fee :=
  ⟨fun _ _ hne => p75Index_lt fun hzero => hne (List.length_eq_zero_iff.mp hzero),
    (feeInv hr).returned⟩

/-- A congested network: the fee is a fifth above the only sample. -/
def congestedRun : List FeeAction := [.getDynamicPriorityFee 0, .answered (some [200000]) 100]

theorem congestedRun_ends : (feePipeline {}).run congestedRun =
    some (⟨some ⟨some 240000, 100⟩, none⟩, [.sampled [200000], .returned (some 240000)]) := by
  decide +kernel

/-- The fee of this run is neither a sample nor one of the bounds. -/
theorem uplift_is_no_sample :
    ∃ s h, (feePipeline {}).run congestedRun = some (s, h) ∧
      h = [.sampled [200000], .returned (some 240000)] ∧
      (240000 : ℚ) ≠ ({} : FeeConfig).computeUnitPrice ∧ (240000 : ℚ) ≠ PRIORITY_FEE_CEILING ∧
      (240000 : ℚ) ∉ [(200000 : ℚ)] :=
  ⟨_, _, congestedRun_ends, rfl, by decide +kernel, by decide +kernel, by decide +kernel⟩

theorem returned_fee_proper_congested :
    ∃ s h, (feePipeline {}).run congestedRun = some (s, h) ∧
      ∀ fee, .returned fee ∈ h → Proper {} h fee :=
  ⟨_, _, congestedRun_ends, (returned_fee_proper (Machine.reachable_of_run congestedRun_ends)).2⟩

end PriorityFee

end FlashEdge
