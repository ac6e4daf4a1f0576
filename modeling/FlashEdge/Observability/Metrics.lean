import FlashEdge.Js
import FlashEdge.Theory.OrderStatistics
import FlashEdge.Theory.OrderedMap
import FlashEdge.Theory.RingBuffer
import Mathlib.Data.List.GetD

/-!
# Metrics (`observability/metrics.ts`)

A histogram keeps the last thousand finite values in a ring and summarizes them when it is
asked; the collector keeps a histogram for each name. Sums of finite values are exact here.

- `Histogram.record`, `Histogram.snapshot`: the two operations.
- `Summarizes`: what a snapshot should say of the values it is about.
- `snapshot_summarizes`: after any values, finite or not, the snapshot summarizes exactly the
  last thousand finite ones, and its percentiles are in order.
- `getHistogram_recordAll`: the values of one name do not mix with those of another.
-/

namespace FlashEdge

def MAX_HISTOGRAM_SAMPLES : ℕ := 1000

structure HistogramSnapshot where
  count : ℕ
  sum : ℚ
  min : ℚ
  max : ℚ
  avg : ℚ
  p50 : ℚ
  p95 : ℚ
  p99 : ℚ
deriving DecidableEq

/-- The snapshot of no values. -/
def HistogramSnapshot.zero : HistogramSnapshot where
  count := 0
  sum := 0
  min := 0
  max := 0
  avg := 0
  p50 := 0
  p95 := 0
  p99 := 0

/-- `samples` with the index of the next write, and how many of them are valid. -/
structure Histogram where
  samples : RingBuffer ℚ MAX_HISTOGRAM_SAMPLES
  count : ℕ

namespace Histogram

def new : Histogram where
  samples := RingBuffer.new MAX_HISTOGRAM_SAMPLES
  count := 0

def record (h : Histogram) : JsNumber → Histogram
  | .finite value =>
    { samples := h.samples.push value
      count := if h.count < MAX_HISTOGRAM_SAMPLES then h.count + 1 else h.count }
  | _ => h

/-- The slots of the valid portion. -/
def validSlots (h : Histogram) : List (Option ℚ) :=
  if h.count < MAX_HISTOGRAM_SAMPLES then h.samples.slots.take h.count else h.samples.slots

/-- The valid portion. -/
def valid (h : Histogram) : List ℚ := h.validSlots.reduceOption

/-- `Math.floor(length * percent / 100)`. -/
def percentileIndex (length percent : ℕ) : ℕ := length * percent / 100

/-- The summary of the valid portion. -/
def summary (valid : List ℚ) : HistogramSnapshot :=
  let sorted := valid.insertionSort (· ≤ ·)
  let sum := sorted.foldl (· + ·) 0
  { count := sorted.length
    sum
    min := sorted.getD 0 0
    max := sorted.getD (sorted.length - 1) 0
    avg := sum / sorted.length
    p50 := sorted.getD (percentileIndex sorted.length 50) 0
    p95 := sorted.getD (percentileIndex sorted.length 95) 0
    p99 := sorted.getD (percentileIndex sorted.length 99) 0 }

def snapshot (h : Histogram) : HistogramSnapshot :=
  if h.count = 0 then .zero else summary h.valid

def reset (_ : Histogram) : Histogram := new

def recordAll (h : Histogram) (values : List JsNumber) : Histogram := values.foldl record h

/-! ## What a snapshot is about -/

/-- The value of a finite number. -/
def finite? : JsNumber → Option ℚ
  | .finite q => some q
  | _ => none

/-- The last thousand finite values. -/
def lastValues (values : List JsNumber) : List ℚ :=
  (values.filterMap finite?).rtake MAX_HISTOGRAM_SAMPLES

/-- The snapshot says what is so of the values. -/
structure Summarizes (values : List ℚ) (s : HistogramSnapshot) : Prop where
  count : s.count = values.length
  sum : s.sum = values.sum
  avg : s.avg = values.sum / values.length
  min : IsLeast {v | v ∈ values} s.min
  max : IsGreatest {v | v ∈ values} s.max
  p50 : HasRank values (percentileIndex values.length 50) s.p50
  p95 : HasRank values (percentileIndex values.length 95) s.p95
  p99 : HasRank values (percentileIndex values.length 99) s.p99

/-- The percentiles are in order, between the least value and the greatest. -/
structure Ordered (s : HistogramSnapshot) : Prop where
  min_p50 : s.min ≤ s.p50
  p50_p95 : s.p50 ≤ s.p95
  p95_p99 : s.p95 ≤ s.p99
  p99_max : s.p99 ≤ s.max

theorem Summarizes.ordered {values : List ℚ} {s : HistogramSnapshot} (h : Summarizes values s) :
    Ordered s where
  min_p50 := h.min.2 h.p50.mem
  p50_p95 := h.p50.mono h.p95 (Nat.div_le_div_right (Nat.mul_le_mul_left _ (by decide)))
  p95_p99 := h.p95.mono h.p99 (Nat.div_le_div_right (Nat.mul_le_mul_left _ (by decide)))
  p99_max := h.max.2 h.p99.mem

theorem percentileIndex_lt {length percent : ℕ} (hlength : 0 < length) (hpercent : percent < 100) :
    percentileIndex length percent < length := by
  unfold percentileIndex
  rw [Nat.div_lt_iff_lt_mul (by decide)]
  exact Nat.mul_lt_mul_of_pos_left hpercent hlength

/-! ## The valid portion -/

theorem recordAll_snoc (values : List JsNumber) (value : JsNumber) :
    new.recordAll (values ++ [value]) = (new.recordAll values).record value :=
  List.foldl_concat ..

/-- The ring has been written with the finite values, and the count says how many it can have. -/
theorem recordAll_eq (values : List JsNumber) : new.recordAll values =
    { samples := (RingBuffer.new _).pushAll (values.filterMap finite?)
      count := min (values.filterMap finite?).length MAX_HISTOGRAM_SAMPLES } := by
  induction values using List.reverseRecOn with
  | nil => rfl
  | append_singleton values value ih =>
    rw [recordAll_snoc, ih, List.filterMap_append]
    cases value with
    | finite q =>
      rw [show [JsNumber.finite q].filterMap finite? = [q] from rfl, RingBuffer.pushAll_snoc,
        List.length_append, List.length_singleton]
      unfold record
      dsimp only
      congr 1
      split <;> omega
    | posInfinity =>
      rw [show [JsNumber.posInfinity].filterMap finite? = [] from rfl, List.append_nil]
      rfl
    | negInfinity =>
      rw [show [JsNumber.negInfinity].filterMap finite? = [] from rfl, List.append_nil]
      rfl
    | nan =>
      rw [show [JsNumber.nan].filterMap finite? = [] from rfl, List.append_nil]
      rfl

/-- **The valid portion is the last thousand finite values, in some order.** -/
theorem valid_perm (values : List JsNumber) :
    (new.recordAll values).valid.Perm (lastValues values) := by
  have hpos : 0 < MAX_HISTOGRAM_SAMPLES := by decide
  have hwritten := RingBuffer.written_pushAll_perm hpos (values.filterMap finite?)
  refine List.Perm.trans (List.Perm.of_eq ?_) hwritten
  rw [recordAll_eq]
  unfold valid validSlots RingBuffer.written
  dsimp only
  split
  · next hlt =>
    -- what is left out of a ring that is not full is empty
    have hlength : (values.filterMap finite?).length < MAX_HISTOGRAM_SAMPLES := by omega
    have hmin := Nat.min_eq_left hlength.le
    rw [RingBuffer.slots_pushAll (by decide) hlength.le, hmin, List.take_append_of_le_length
      (by simp), List.take_of_length_le (by simp), List.reduceOption_append,
      List.reduceOption_replicate_none, List.append_nil]
  · rfl

theorem length_lastValues (values : List JsNumber) : (lastValues values).length =
    min (values.filterMap finite?).length MAX_HISTOGRAM_SAMPLES := by
  unfold lastValues List.rtake
  rw [List.length_drop]
  omega

/-! ## Snapshots -/

/-- **The summary of values in any order.** Sorting puts each rank in its place. -/
theorem summarizes_summary {valid values : List ℚ} (hperm : valid.Perm values)
    (hpos : 0 < values.length) : Summarizes values (summary valid) := by
  have hlength := hperm.length_eq
  have hrank : ∀ {k : ℕ}, k < values.length →
      HasRank values k ((valid.insertionSort (· ≤ ·)).getD k 0) := by
    intro k hk
    have hsorted : k < (valid.insertionSort (· ≤ ·)).length := by
      rwa [List.length_insertionSort, hlength]
    rw [List.getD_eq_getElem _ _ hsorted]
    exact (hasRank_getElem hsorted).perm hperm
  have hsum : (valid.insertionSort (· ≤ ·)).foldl (· + ·) 0 = values.sum := by
    rw [← List.sum_eq_foldl, (List.perm_insertionSort _ _).sum_eq, hperm.sum_eq]
  unfold summary
  dsimp only
  rw [hsum, List.length_insertionSort, hlength]
  exact
    { count := rfl
      sum := rfl
      avg := rfl
      min := (hrank hpos).isLeast
      max := (hrank (Nat.sub_lt hpos Nat.one_pos)).isGreatest
      p50 := hrank (percentileIndex_lt hpos (by decide))
      p95 := hrank (percentileIndex_lt hpos (by decide))
      p99 := hrank (percentileIndex_lt hpos (by decide)) }

/-- **The snapshot of values, finite or not.** It summarizes the last thousand finite ones, and
the percentiles are in order. -/
theorem snapshot_summarizes (values : List JsNumber) :
    (new.recordAll values).snapshot.count =
        min (values.filterMap finite?).length MAX_HISTOGRAM_SAMPLES ∧
      (lastValues values = [] → (new.recordAll values).snapshot = .zero) ∧
      (lastValues values ≠ [] →
        Summarizes (lastValues values) (new.recordAll values).snapshot) ∧
      Ordered (new.recordAll values).snapshot := by
  have hcount : (new.recordAll values).count = (lastValues values).length := by
    rw [recordAll_eq, length_lastValues]
  rw [← length_lastValues]
  by_cases hnone : lastValues values = []
  · have hzero : (new.recordAll values).snapshot = .zero := by
      unfold snapshot
      rw [if_pos (hcount.trans (List.length_eq_zero_iff.mpr hnone))]
    rw [hzero, hnone]
    exact ⟨rfl, fun _ => rfl, fun hsome => absurd rfl hsome, le_rfl, le_rfl, le_rfl, le_rfl⟩
  · have hpos := List.length_pos_of_ne_nil hnone
    have hsnapshot : Summarizes (lastValues values) (new.recordAll values).snapshot := by
      unfold snapshot
      rw [if_neg (hcount.trans_ne hpos.ne')]
      exact summarizes_summary (valid_perm values) hpos
    exact ⟨hsnapshot.count, fun hnil => absurd hnil hnone, fun _ => hsnapshot,
      hsnapshot.ordered⟩

end Histogram

/-! ## The collector -/

/-- The counters and the histograms, under their names. -/
structure MetricsCollector where
  counters : OrderedMap String ℚ
  histograms : OrderedMap String Histogram

namespace MetricsCollector

def new : MetricsCollector where
  counters := OrderedMap.empty
  histograms := OrderedMap.empty

def increment (s : MetricsCollector) (name : String) (amount : ℚ) : MetricsCollector :=
  { s with counters := s.counters.set name ((s.counters.get? name).getD 0 + amount) }

def record (s : MetricsCollector) (name : String) (value : JsNumber) : MetricsCollector :=
  { s with
    histograms := s.histograms.set name
      (((s.histograms.get? name).getD Histogram.new).record value) }

def getCounter (s : MetricsCollector) (name : String) : ℚ := (s.counters.get? name).getD 0

def getHistogram (s : MetricsCollector) (name : String) : HistogramSnapshot :=
  ((s.histograms.get? name).map Histogram.snapshot).getD .zero

def recordAll (s : MetricsCollector) (values : List (String × JsNumber)) : MetricsCollector :=
  values.foldl (fun s v => s.record v.1 v.2) s

/-- The histogram under a name has what was recorded under it. -/
theorem get?_recordAll (name : String) (values : List (String × JsNumber)) :
    ((new.recordAll values).histograms.get? name).getD Histogram.new =
      Histogram.new.recordAll ((values.filter fun v => v.1 = name).map Prod.snd) := by
  induction values using List.reverseRecOn with
  | nil => rfl
  | append_singleton values v ih =>
    have hstep : new.recordAll (values ++ [v]) = (new.recordAll values).record v.1 v.2 :=
      List.foldl_concat ..
    rw [hstep, List.filter_append, List.map_append]
    unfold record
    rw [OrderedMap.get?_set]
    by_cases hname : v.1 = name
    · rw [if_pos hname.symm, List.filter_cons_of_pos (by simpa using hname), List.filter_nil,
        List.map_singleton, Histogram.recordAll_snoc, ← ih, hname]
      rfl
    · rw [if_neg (Ne.symm hname), List.filter_cons_of_neg (by simpa using hname), List.filter_nil,
        List.map_nil, List.append_nil, ih]

/-- **The snapshot under a name is that of the values recorded under it.** -/
theorem getHistogram_recordAll (name : String) (values : List (String × JsNumber)) :
    (new.recordAll values).getHistogram name =
      (Histogram.new.recordAll ((values.filter fun v => v.1 = name).map Prod.snd)).snapshot := by
  rw [← get?_recordAll name values]
  unfold getHistogram
  cases (new.recordAll values).histograms.get? name with
  | none => rfl
  | some h => rfl

end MetricsCollector

end FlashEdge
