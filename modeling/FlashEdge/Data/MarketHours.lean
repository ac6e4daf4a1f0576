import FlashEdge.Js
import Mathlib.Tactic.Ring

/-!
# Trading sessions (`data/market-hours.ts`)

Commodities and currencies trade in weekly sessions, and a trade in a closed market is
refused with the time at which it opens again. That time is found by probing one full
hour after the other, at most a week of them. A time is in milliseconds since 1970, the
first of whose days was a Thursday.

`getNextSessionOpen_of_closed`: the probing always finds an hour, the market is closed
up to it and stays open for 23 hours from it.
-/

namespace FlashEdge

namespace MarketHours

def HOUR : ℤ := 3600000

def getUTCHours (t : ℤ) : ℤ := t / HOUR % 24

def getUTCMinutes (t : ℤ) : ℤ := t / 60000 % 60

/-- Sunday is 0. -/
def getUTCDay (t : ℤ) : ℤ := (t / 86400000 + 4) % 7

/-- `date.setUTCMinutes(0, 0, 0)`. -/
def startOfHour (t : ℤ) : ℤ := t - t % HOUR

structure TradingSchedule where
  label : String
  isOpen : (utcHour utcMinute dayOfWeek : ℤ) → Bool

def COMMODITY_SCHEDULE : TradingSchedule where
  label := "Sun 22:00 – Fri 21:00 UTC (break 21:00–22:00 daily)"
  isOpen utcHour _ day :=
    if day = 6 then false
    else if day = 0 then decide (22 ≤ utcHour)
    else if day = 5 then decide (utcHour < 21)
    else decide (utcHour ≠ 21)

def FX_SCHEDULE : TradingSchedule where
  label := "Sun 22:00 – Fri 22:00 UTC (24/5)"
  isOpen utcHour _ day :=
    if day = 6 then false
    else if day = 0 then decide (22 ≤ utcHour)
    else if day = 5 then decide (utcHour < 22)
    else true

def MARKET_SCHEDULES : List (String × TradingSchedule) :=
  [("XAU", COMMODITY_SCHEDULE), ("XAG", COMMODITY_SCHEDULE), ("CRUDEOIL", COMMODITY_SCHEDULE),
    ("EUR", FX_SCHEDULE), ("GBP", FX_SCHEDULE), ("USDJPY", FX_SCHEDULE), ("USDCNH", FX_SCHEDULE)]

/-- Whether the schedule is open at a time. -/
def TradingSchedule.openAt (schedule : TradingSchedule) (t : ℤ) : Bool :=
  schedule.isOpen (getUTCHours t) (getUTCMinutes t) (getUTCDay t)

structure MarketStatus where
  isOpen : Bool
  isVirtual : Bool
  schedule : Option String

/-- `getMarketStatus` at the time `now`; the virtual pools' markets are configured. -/
def getMarketStatus (virtualMarkets : List String) (symbol : String) (now : ℤ) : MarketStatus :=
  let upper := toUpperCase symbol
  if upper ∉ virtualMarkets.map toUpperCase then
    { isOpen := true, isVirtual := false, schedule := none }
  else match MARKET_SCHEDULES.lookup upper with
    | none => { isOpen := true, isVirtual := true, schedule := none }
    | some schedule =>
      { isOpen := schedule.openAt now, isVirtual := true, schedule := some schedule.label }

/-- The loop of `getNextSessionOpen`, with the rounds it has left. -/
def probeHours (schedule : TradingSchedule) : ℕ → ℤ → Option ℤ
  | 0, _ => none
  | rounds + 1, probe =>
    if schedule.openAt probe then some probe else probeHours schedule rounds (probe + HOUR)

def getNextSessionOpen (symbol : String) (now : ℤ) : Option ℤ :=
  match MARKET_SCHEDULES.lookup (toUpperCase symbol) with
  | none => none
  | some schedule =>
    let probe := startOfHour now
    let probe := if probe ≤ now then probe + HOUR else probe
    probeHours schedule (7 * 24) probe

/-! ## A week of hours -/

namespace TradingSchedule

variable {schedule : TradingSchedule} {market : String} {t : ℤ}

/-- Whether the schedule is open in an hour, counted from 1970. -/
def openHour (schedule : TradingSchedule) (k : ℤ) : Bool :=
  schedule.isOpen (k % 24) 0 ((k / 24 + 4) % 7)

/-- One of the next `n` hours is open, and the first of those starts 23 open hours. -/
def opensWithin (schedule : TradingSchedule) : ℕ → ℤ → Bool
  | 0, _ => false
  | n + 1, k =>
    if schedule.openHour k then (List.range 23).all fun j => schedule.openHour (k + j)
    else opensWithin schedule n (k + 1)

theorem exists_of_opensWithin {n : ℕ} {k : ℤ} (h : schedule.opensWithin n k = true) :
    ∃ d : ℕ, d < n ∧ (∀ j : ℕ, j < d → schedule.openHour (k + j) = false) ∧
      ∀ j : ℕ, j < 23 → schedule.openHour (k + d + j) = true := by
  induction n generalizing k with
  | zero => cases h
  | succ n ih =>
    rw [opensWithin] at h
    split at h
    · refine ⟨0, n.succ_pos, fun j hj => absurd hj j.not_lt_zero, fun j hj => ?_⟩
      simpa using List.all_eq_true.mp h j (List.mem_range.mpr hj)
    · next hnow =>
      obtain ⟨d, hd, hclosed, hopen⟩ := ih h
      refine ⟨d + 1, Nat.succ_lt_succ hd, fun j hj => ?_, fun j hj => ?_⟩
      · cases j with
        | zero => simpa using hnow
        | succ j =>
          rw [Nat.cast_succ, add_comm (j : ℤ), ← add_assoc]
          exact hclosed j (Nat.lt_of_succ_lt_succ hj)
      · rw [Nat.cast_succ, add_comm (d : ℤ), ← add_assoc]
        exact hopen j hj

/-- What is used of a schedule. -/
structure Weekly (schedule : TradingSchedule) : Prop where
  minutes : ∀ h m day, schedule.isOpen h m day = schedule.isOpen h 0 day
  reopens : ∀ k : ℕ, k < 168 → schedule.openHour k = false → schedule.opensWithin 50 k = true

theorem weekly_commodity : COMMODITY_SCHEDULE.Weekly where
  minutes _ _ _ := rfl
  reopens := by decide +kernel

theorem weekly_fx : FX_SCHEDULE.Weekly where
  minutes _ _ _ := rfl
  reopens := by decide +kernel

theorem weekly_of_lookup (h : MARKET_SCHEDULES.lookup market = some schedule) :
    schedule.Weekly := by
  have hmem : schedule ∈ MARKET_SCHEDULES.map Prod.snd := by
    obtain ⟨l₁, l₂, heq, -⟩ := List.lookup_eq_some_iff.mp h
    rw [heq]
    simp
  simp only [MARKET_SCHEDULES, List.map_cons, List.map_nil, List.mem_cons, List.not_mem_nil,
    or_false] at hmem
  rcases hmem with rfl | rfl | rfl | rfl | rfl | rfl | rfl
  · exact weekly_commodity
  · exact weekly_commodity
  · exact weekly_commodity
  · exact weekly_fx
  · exact weekly_fx
  · exact weekly_fx
  · exact weekly_fx

/-- The hours repeat every week. -/
theorem openHour_emod (schedule : TradingSchedule) (k j : ℤ) :
    schedule.openHour (k % 168 + j) = schedule.openHour (k + j) := by
  unfold openHour
  rw [show (k % 168 + j) % 24 = (k + j) % 24 by omega,
    show ((k % 168 + j) / 24 + 4) % 7 = ((k + j) / 24 + 4) % 7 by omega]

namespace Weekly

theorem openAt_eq (hw : schedule.Weekly) (t : ℤ) :
    schedule.openAt t = schedule.openHour (t / HOUR) := by
  unfold openAt openHour getUTCHours getUTCDay
  rw [hw.minutes, show t / 86400000 = t / HOUR / 24 by unfold HOUR; omega]

theorem reopens_of_closed (hw : schedule.Weekly) {k : ℤ} (hk : schedule.openHour k = false) :
    ∃ d : ℕ, d < 50 ∧ 0 < d ∧ (∀ j : ℕ, j < d → schedule.openHour (k + j) = false) ∧
      ∀ j : ℕ, j < 23 → schedule.openHour (k + d + j) = true := by
  -- the same hour of the first week
  have hcast : ((k % 168).toNat : ℤ) = k % 168 := by omega
  have hfirst : schedule.openHour ((k % 168).toNat : ℤ) = false := by
    rw [hcast]
    simpa [hk] using schedule.openHour_emod k 0
  obtain ⟨d, hd, hclosed, hopen⟩ := exists_of_opensWithin (hw.reopens _ (by omega) hfirst)
  have hpos : d ≠ 0 := by
    rintro rfl
    have hnow := hopen 0 (by decide)
    rw [Nat.cast_zero, add_zero, add_zero, hfirst] at hnow
    cases hnow
  rw [hcast] at hclosed hopen
  refine ⟨d, hd, Nat.pos_of_ne_zero hpos, fun j hj => ?_, fun j hj => ?_⟩
  · rw [← openHour_emod]
    exact hclosed j hj
  · rw [add_assoc, ← openHour_emod, ← add_assoc]
    exact hopen j hj

end Weekly

end TradingSchedule

/-! ## The next session -/

variable {schedule : TradingSchedule}

/-- The probing returns the first time at which the schedule is open. -/
theorem probeHours_eq {d rounds : ℕ} {probe : ℤ} (hd : d < rounds)
    (hclosed : ∀ j : ℕ, j < d → schedule.openAt (probe + j * HOUR) = false)
    (hopen : schedule.openAt (probe + d * HOUR) = true) :
    probeHours schedule rounds probe = some (probe + d * HOUR) := by
  induction d generalizing rounds probe with
  | zero =>
    obtain ⟨rounds, rfl⟩ := Nat.exists_eq_succ_of_ne_zero (Nat.ne_of_gt hd)
    rw [probeHours, if_pos (by simpa using hopen)]
    simp
  | succ d ih =>
    obtain ⟨rounds, rfl⟩ := Nat.exists_eq_succ_of_ne_zero (Nat.ne_of_gt (Nat.zero_lt_of_lt hd))
    have hnow : schedule.openAt probe = false := by simpa using hclosed 0 (Nat.succ_pos d)
    have hshift : ∀ j : ℕ, probe + HOUR + j * HOUR = probe + (j + 1 : ℕ) * HOUR := by
      intro j
      push_cast
      ring
    rw [probeHours, if_neg (by rw [hnow]; exact Bool.false_ne_true),
      ih (Nat.lt_of_succ_lt_succ hd) ?_ (by rwa [hshift]), hshift]
    intro j hj
    rw [hshift]
    exact hclosed (j + 1) (Nat.succ_lt_succ hj)

/-- The time that is found is the start of the first open hour after the current one. -/
theorem getNextSessionOpen_eq {symbol : String} {now : ℤ} {d : ℕ}
    (hschedule : MARKET_SCHEDULES.lookup (toUpperCase symbol) = some schedule)
    (hweekly : schedule.Weekly) (hd : d < 50) (hpos : 0 < d)
    (hclosed : ∀ j : ℕ, j < d → schedule.openHour (now / HOUR + j) = false)
    (hopen : schedule.openHour (now / HOUR + d) = true) :
    getNextSessionOpen symbol now = some ((now / HOUR + d) * HOUR) := by
  obtain ⟨d, rfl⟩ := Nat.exists_eq_succ_of_ne_zero (Nat.ne_of_gt hpos)
  have hstart : startOfHour now = now / HOUR * HOUR := by
    unfold startOfHour
    have := Int.mul_ediv_add_emod now HOUR
    linarith
  have hle : startOfHour now ≤ now := hstart.trans_le (Int.ediv_mul_le now (by decide))
  have hhour : ∀ j : ℕ, schedule.openAt (startOfHour now + HOUR + j * HOUR) =
      schedule.openHour (now / HOUR + (j + 1 : ℕ)) := by
    intro j
    rw [hweekly.openAt_eq, hstart]
    congr 1
    unfold HOUR
    omega
  have hshut : ∀ j : ℕ, j < d →
      schedule.openAt (startOfHour now + HOUR + j * HOUR) = false := by
    intro j hj
    rw [hhour]
    exact hclosed (j + 1) (Nat.succ_lt_succ hj)
  have hfound : schedule.openAt (startOfHour now + HOUR + d * HOUR) = true := by
    rw [hhour]
    exact hopen
  rw [getNextSessionOpen, hschedule]
  dsimp only
  rw [if_pos hle, probeHours_eq (by omega) hshut hfound, hstart]
  push_cast
  ring_nf

/-- At a time of the `n` hours from the `k`-th on. -/
theorem openHour_of_hours {isOpen : Bool} {k t : ℤ} {n : ℕ}
    (h : ∀ j : ℕ, j < n → schedule.openHour (k + j) = isOpen) (hfrom : k * HOUR ≤ t)
    (hto : t < (k + n) * HOUR) : schedule.openHour (t / HOUR) = isOpen := by
  have hle : k ≤ t / HOUR := (Int.le_ediv_iff_mul_le (by decide)).mpr hfrom
  have hlt : t / HOUR < k + n := Int.ediv_lt_of_lt_mul (by decide) hto
  have hj : t / HOUR = k + ((t / HOUR - k).toNat : ℕ) := by omega
  rw [hj]
  exact h _ (by omega)

/-- The time at which a closed market opens: it is found, it is at most 49 hours away,
the market is closed until then, and open for the 23 hours after it. -/
theorem getNextSessionOpen_of_closed (virtualMarkets : List String) (symbol : String) (now : ℤ)
    (hclosed : (getMarketStatus virtualMarkets symbol now).isOpen = false) :
    ∃ next, getNextSessionOpen symbol now = some next ∧ now < next ∧ next ≤ now + 49 * HOUR ∧
      (∀ t, now ≤ t → t < next → (getMarketStatus virtualMarkets symbol t).isOpen = false) ∧
      ∀ t, next ≤ t → t < next + 23 * HOUR →
        (getMarketStatus virtualMarkets symbol t).isOpen = true := by
  by_cases hvirtual : toUpperCase symbol ∉ virtualMarkets.map toUpperCase
  · rw [getMarketStatus, if_pos hvirtual] at hclosed
    cases hclosed
  cases hschedule : MARKET_SCHEDULES.lookup (toUpperCase symbol) with
  | none =>
    rw [getMarketStatus, if_neg hvirtual, hschedule] at hclosed
    cases hclosed
  | some schedule =>
    have hweekly := TradingSchedule.weekly_of_lookup hschedule
    have hstatus : ∀ t, (getMarketStatus virtualMarkets symbol t).isOpen =
        schedule.openHour (t / HOUR) := by
      intro t
      rw [getMarketStatus, if_neg hvirtual, hschedule, ← hweekly.openAt_eq]
    rw [hstatus] at hclosed
    obtain ⟨d, hd, hpos, hbefore, hafter⟩ := hweekly.reopens_of_closed hclosed
    have hnext := getNextSessionOpen_eq hschedule hweekly hd hpos hbefore
      (by simpa using hafter 0 (by decide))
    refine ⟨_, hnext, ?_, ?_, fun t hfrom hto => ?_, fun t hfrom hto => ?_⟩
    · unfold HOUR at *
      omega
    · unfold HOUR at *
      omega
    · rw [hstatus]
      refine openHour_of_hours hbefore ?_ hto
      unfold HOUR at *
      omega
    · rw [hstatus]
      refine openHour_of_hours hafter hfrom (hto.trans_eq ?_)
      rw [Nat.cast_ofNat, add_mul _ 23]

/-- Gold, on a Saturday at noon. -/
theorem getNextSessionOpen_of_closed_saturday :
    ∃ next, getNextSessionOpen "xau" 216000000 = some next ∧ 216000000 < next ∧
      next ≤ 216000000 + 49 * HOUR ∧
      (∀ t, 216000000 ≤ t → t < next → (getMarketStatus ["XAU"] "xau" t).isOpen = false) ∧
      ∀ t, next ≤ t → t < next + 23 * HOUR → (getMarketStatus ["XAU"] "xau" t).isOpen = true :=
  getNextSessionOpen_of_closed ["XAU"] "xau" 216000000 (by decide +kernel)

end MarketHours

end FlashEdge
