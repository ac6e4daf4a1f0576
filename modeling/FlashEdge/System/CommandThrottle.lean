import Mathlib.Algebra.Order.Field.Rat
import Mathlib.Data.List.Chain
import Mathlib.Tactic.Linarith

/-!
# The throttle of commands (`system/backpressure.ts`)

`CommandThrottle` refuses a command that follows the last one too closely, and one that a window
has no room for. The window does not slide: it is a counter that starts again with the first
command behind its end, whatever was allowed shortly before.

- `check`: one check, at the time it is made.
- `Throttled`: the limits, for every interval of the window's length.
- `apart_allowedFrom`: two commands in a row are never too close.
- `throttled_iff`: the other limit holds exactly when no interval has room for more commands, or
  none at all.
-/

namespace FlashEdge

/-- The options, with their defaults. -/
structure ThrottleOptions where
  minIntervalMs : ℚ := 100
  maxPerWindow : ℕ := 30
  windowMs : ℚ := 10000

/-- Why a command is refused. -/
inductive ThrottleReason where
  | tooFast
  | rateLimit (maxPerWindow : ℕ) (seconds : ℚ)
deriving DecidableEq, Repr

structure CommandThrottle where
  lastCommandTime : ℚ := 0
  commandCount : ℕ := 0
  windowStart : ℚ := 0
deriving DecidableEq, Repr

namespace CommandThrottle

/-- The window starts again once it is over. -/
def resetWindow (o : ThrottleOptions) (s : CommandThrottle) (now : ℚ) : CommandThrottle :=
  if o.windowMs < now - s.windowStart then { s with windowStart := now, commandCount := 0 } else s

/-- A command is counted. -/
def count (s : CommandThrottle) (now : ℚ) : CommandThrottle :=
  { s with lastCommandTime := now, commandCount := s.commandCount + 1 }

/-- A command is allowed, or refused for a reason. -/
def check (o : ThrottleOptions) (s : CommandThrottle) (now : ℚ) :
    CommandThrottle × Option ThrottleReason :=
  if now - s.lastCommandTime < o.minIntervalMs then (s, some .tooFast)
  else
    let s := resetWindow o s now
    if o.maxPerWindow ≤ s.commandCount then
      (s, some (.rateLimit o.maxPerWindow (o.windowMs / 1000)))
    else (s.count now, none)

/-- The times at which a command is allowed, of all those at which one is checked. -/
def allowedFrom (o : ThrottleOptions) : CommandThrottle → List ℚ → List ℚ
  | _, [] => []
  | s, now :: times =>
    match check o s now with
    | (s', none) => now :: allowedFrom o s' times
    | (s', some _) => allowedFrom o s' times

def allowed (o : ThrottleOptions) (times : List ℚ) : List ℚ := allowedFrom o {} times

/-! ## The property -/

/-- The times in the interval of a length that begins at `t`. -/
def inInterval (length t : ℚ) (times : List ℚ) : List ℚ :=
  times.filter fun x => t ≤ x ∧ x ≤ t + length

/-- No interval of the window's length has more commands than a window has room for, and two in
a row are apart. -/
structure Throttled (o : ThrottleOptions) (times : List ℚ) : Prop where
  window : ∀ t, (inInterval o.windowMs t times).length ≤ o.maxPerWindow
  apart : times.IsChain fun x y => o.minIntervalMs ≤ y - x

/-- The readings of a clock that starts at zero and does not go back. -/
structure ClockReadings (times : List ℚ) : Prop where
  nonneg : ∀ t ∈ times, 0 ≤ t
  sorted : times.Pairwise (· ≤ ·)

/-! ## One check -/

variable {o : ThrottleOptions} {s : CommandThrottle} {now : ℚ} {times : List ℚ}

@[simp] theorem resetWindow_lastCommandTime :
    (resetWindow o s now).lastCommandTime = s.lastCommandTime := by
  unfold resetWindow
  split
  · rfl
  · rfl

/-- What a check can do: it refuses, and no command time changes; or it allows. -/
theorem allowedFrom_cases (o : ThrottleOptions) (s : CommandThrottle) (now : ℚ) (times : List ℚ) :
    (now - s.lastCommandTime < o.minIntervalMs ∧
        allowedFrom o s (now :: times) = allowedFrom o s times) ∨
      (o.minIntervalMs ≤ now - s.lastCommandTime ∧
        o.maxPerWindow ≤ (resetWindow o s now).commandCount ∧
        allowedFrom o s (now :: times) = allowedFrom o (resetWindow o s now) times) ∨
      (o.minIntervalMs ≤ now - s.lastCommandTime ∧
        (resetWindow o s now).commandCount < o.maxPerWindow ∧
        allowedFrom o s (now :: times) =
          now :: allowedFrom o ((resetWindow o s now).count now) times) := by
  rw [allowedFrom]
  unfold check
  by_cases hfast : now - s.lastCommandTime < o.minIntervalMs
  · rw [if_pos hfast]
    exact .inl ⟨hfast, rfl⟩
  · rw [if_neg hfast]
    dsimp only
    by_cases hfull : o.maxPerWindow ≤ (resetWindow o s now).commandCount
    · rw [if_pos hfull]
      exact .inr (.inl ⟨not_lt.mp hfast, hfull, rfl⟩)
    · rw [if_neg hfull]
      exact .inr (.inr ⟨not_lt.mp hfast, not_le.mp hfull, rfl⟩)

/-- What is allowed has been checked. -/
theorem mem_of_mem_allowedFrom {t : ℚ} (h : t ∈ allowedFrom o s times) : t ∈ times := by
  induction times generalizing s with
  | nil => cases h
  | cons now times ih =>
    rcases allowedFrom_cases o s now times with ⟨-, heq⟩ | ⟨-, -, heq⟩ | ⟨-, -, heq⟩
    · rw [heq] at h
      exact List.mem_cons_of_mem now (ih h)
    · rw [heq] at h
      exact List.mem_cons_of_mem now (ih h)
    · rw [heq] at h
      rcases List.mem_cons.mp h with rfl | h
      · exact List.mem_cons_self
      · exact List.mem_cons_of_mem now (ih h)

/-- **Two commands in a row are apart.** -/
theorem apart_allowedFrom (o : ThrottleOptions) (s : CommandThrottle) (times : List ℚ) :
    (s.lastCommandTime :: allowedFrom o s times).IsChain fun x y => o.minIntervalMs ≤ y - x := by
  induction times generalizing s with
  | nil => exact List.isChain_singleton _
  | cons now times ih =>
    rcases allowedFrom_cases o s now times with ⟨-, heq⟩ | ⟨-, -, heq⟩ | ⟨hapart, -, heq⟩
    · rw [heq]
      exact ih s
    · rw [heq]
      have hrest := ih (resetWindow o s now)
      rwa [resetWindow_lastCommandTime] at hrest
    · rw [heq]
      exact .cons_cons hapart (ih ((resetWindow o s now).count now))

/-! ## Where the limit holds -/

/-- Without room nothing is allowed. -/
theorem allowedFrom_eq_nil (hmax : o.maxPerWindow = 0) : allowedFrom o s times = [] := by
  induction times generalizing s with
  | nil => rfl
  | cons now times ih =>
    rcases allowedFrom_cases o s now times with ⟨-, heq⟩ | ⟨-, -, heq⟩ | ⟨-, hroom, -⟩
    · rw [heq, ih]
    · rw [heq, ih]
    · rw [hmax] at hroom
      exact absurd hroom (Nat.not_lt_zero _)

/-- Times that are apart take up an interval. -/
theorem length_mul_le {gap t u : ℚ} {l : List ℚ} (hl : l.Pairwise fun x y => gap ≤ y - x)
    (hin : ∀ x ∈ l, t ≤ x ∧ x ≤ u) (hne : l ≠ []) : l.length * gap ≤ u - t + gap := by
  induction l generalizing t with
  | nil => exact absurd rfl hne
  | cons x l ih =>
    obtain ⟨hx, hl⟩ := List.pairwise_cons.mp hl
    obtain ⟨htx, hxu⟩ := hin x List.mem_cons_self
    rw [List.length_cons]
    push_cast
    by_cases hnil : l = []
    · subst hnil
      simp only [List.length_nil, Nat.cast_zero, zero_add, one_mul]
      linarith
    · have hrest := ih (t := x + gap) hl (fun y hy => ?_) hnil
      · linarith
      · have hgap := hx y hy
        exact ⟨by linarith, (hin y (List.mem_cons_of_mem x hy)).2⟩

/-- The commands of an interval are as many as fit in it. -/
theorem length_inInterval_le (hgap : 0 ≤ o.minIntervalMs)
    (hroom : o.windowMs < o.maxPerWindow * o.minIntervalMs)
    (hapart : times.IsChain fun x y => o.minIntervalMs ≤ y - x) (t : ℚ) :
    (inInterval o.windowMs t times).length ≤ o.maxPerWindow := by
  have htrans : IsTrans ℚ fun x y => o.minIntervalMs ≤ y - x :=
    ⟨fun x y z hxy hyz => by linarith⟩
  have hpairs := (List.isChain_iff_pairwise.mp hapart).filter (fun x => t ≤ x ∧ x ≤ t + o.windowMs)
  by_contra hmany
  have hlong : (o.maxPerWindow : ℚ) + 1 ≤ (inInterval o.windowMs t times).length := by
    exact_mod_cast not_le.mp hmany
  have hne : inInterval o.windowMs t times ≠ [] := by
    intro hnil
    rw [hnil] at hmany
    exact hmany (Nat.zero_le _)
  have hfits := length_mul_le hpairs (t := t) (u := t + o.windowMs)
    (fun x hx => by simpa using (List.mem_filter.mp hx).2) hne
  have hscaled := mul_le_mul_of_nonneg_right hlong hgap
  unfold inInterval at hscaled
  linarith

/-- A window without a length is a moment. -/
theorem length_moment_le (hwindow : o.windowMs = 0) (hcount : s.commandCount ≤ o.maxPerWindow)
    (hstart : ∀ x ∈ times, s.windowStart ≤ x) (hsorted : times.Pairwise (· ≤ ·)) :
    (∀ t, (allowedFrom o s times).count t ≤ o.maxPerWindow) ∧
      (allowedFrom o s times).count s.windowStart + s.commandCount ≤ o.maxPerWindow := by
  induction times generalizing s with
  | nil => exact ⟨fun _ => Nat.zero_le _, by simpa [allowedFrom] using hcount⟩
  | cons now times ih =>
    obtain ⟨hnow, hsorted⟩ := List.pairwise_cons.mp hsorted
    have hrest : ∀ x ∈ times, s.windowStart ≤ x := fun x hx =>
      hstart x (List.mem_cons_of_mem now hx)
    have hle := hstart now List.mem_cons_self
    -- whatever the check does, the window it leaves started now or is the old one
    have hreset : (s.windowStart < now ∧ resetWindow o s now =
        { s with windowStart := now, commandCount := 0 }) ∨
        (s.windowStart = now ∧ resetWindow o s now = s) := by
      unfold resetWindow
      rw [hwindow]
      rcases hle.lt_or_eq with hlt | heq
      · exact .inl ⟨hlt, if_pos (sub_pos.mpr hlt)⟩
      · exact .inr ⟨heq, if_neg (by rw [heq, sub_self]; exact lt_irrefl 0)⟩
    have hbefore : ∀ s', s.windowStart < now →
        (allowedFrom o s' times).count s.windowStart = 0 := by
      intro s' hlt
      refine List.count_eq_zero.mpr fun hmem => ?_
      exact absurd (hnow _ (mem_of_mem_allowedFrom hmem)) (not_le.mpr hlt)
    rcases allowedFrom_cases o s now times with ⟨-, heq⟩ | ⟨-, hfull, heq⟩ | ⟨-, hroom, heq⟩
    · rw [heq]
      exact ih hcount hrest hsorted
    · rw [heq]
      rcases hreset with ⟨hlt, hs⟩ | ⟨-, hs⟩
      · rw [hs]
        obtain ⟨hall, -⟩ := ih (s := { s with windowStart := now, commandCount := 0 })
          (Nat.zero_le _) hnow hsorted
        refine ⟨hall, ?_⟩
        rw [hbefore _ hlt, Nat.zero_add]
        exact hcount
      · rw [hs]
        exact ih hcount hrest hsorted
    · rw [heq]
      rcases hreset with ⟨hlt, hs⟩ | ⟨hsame, hs⟩
      · rw [hs] at hroom ⊢
        obtain ⟨hall, hfirst⟩ := ih
          (s := count { s with windowStart := now, commandCount := 0 } now) hroom hnow hsorted
        refine ⟨fun t => ?_, ?_⟩
        · by_cases ht : now = t
          · subst ht
            rw [List.count_cons_self]
            exact hfirst
          · rw [List.count_cons_of_ne ht]
            exact hall t
        · rw [List.count_cons_of_ne hlt.ne', hbefore _ hlt, Nat.zero_add]
          exact hcount
      · rw [hs] at hroom ⊢
        obtain ⟨hall, hfirst⟩ := ih (s := s.count now) hroom hrest hsorted
        have hcounted : (now :: allowedFrom o (s.count now) times).count s.windowStart +
            s.commandCount ≤ o.maxPerWindow := by
          have hmore : (allowedFrom o (s.count now) times).count now + (s.commandCount + 1) ≤
              o.maxPerWindow := hsame ▸ hfirst
          rw [hsame, List.count_cons_self]
          omega
        refine ⟨fun t => ?_, hcounted⟩
        by_cases ht : now = t
        · subst ht
          rw [hsame] at hcounted
          exact (Nat.le_add_right _ _).trans hcounted
        · rw [List.count_cons_of_ne ht]
          exact hall t

/-! ## Where it does not -/

/-- `n + 1` times from `x` on, each `gap` behind the last. -/
def burst (gap : ℚ) : ℕ → ℚ → List ℚ
  | 0, x => [x]
  | n + 1, x => x :: burst gap n (x + gap)

theorem mem_burst {gap x y : ℚ} {n : ℕ} (hgap : 0 ≤ gap) (h : y ∈ burst gap n x) :
    x ≤ y ∧ y ≤ x + n * gap := by
  induction n generalizing x with
  | zero =>
    obtain rfl := List.mem_singleton.mp h
    simp
  | succ n ih =>
    push_cast
    have hspan : 0 ≤ n * gap := mul_nonneg (Nat.cast_nonneg n) hgap
    rcases List.mem_cons.mp h with rfl | h
    · exact ⟨le_rfl, by linarith⟩
    · obtain ⟨hlow, hhigh⟩ := ih h
      exact ⟨by linarith, by linarith⟩

@[simp] theorem length_burst (gap x : ℚ) (n : ℕ) : (burst gap n x).length = n + 1 := by
  induction n generalizing x with
  | zero => rfl
  | succ n ih => rw [burst, List.length_cons, ih]

/-- A command that is apart from the last, in a window with room for it, is allowed. -/
theorem allowedFrom_of_room {x : ℚ} (hapart : o.minIntervalMs ≤ x - s.lastCommandTime)
    (hwindow : x - s.windowStart ≤ o.windowMs) (hroom : s.commandCount < o.maxPerWindow)
    (rest : List ℚ) :
    allowedFrom o s (x :: rest) = x :: allowedFrom o (s.count x) rest := by
  have hreset : resetWindow o s x = s := if_neg (not_lt.mpr hwindow)
  rcases allowedFrom_cases o s x rest with ⟨hfast, -⟩ | ⟨-, hfull, -⟩ | ⟨-, -, heq⟩
  · exact absurd hapart (not_le.mpr hfast)
  · rw [hreset] at hfull
    exact absurd hroom (not_lt.mpr hfull)
  · rw [heq, hreset]

/-- So is one behind the window, however full it was. -/
theorem allowedFrom_behind {x : ℚ} (hapart : o.minIntervalMs ≤ x - s.lastCommandTime)
    (hbehind : o.windowMs < x - s.windowStart) (hmax : 0 < o.maxPerWindow) :
    allowedFrom o s [x] = [x] := by
  have hreset : resetWindow o s x = { s with windowStart := x, commandCount := 0 } :=
    if_pos hbehind
  rcases allowedFrom_cases o s x [] with ⟨hfast, -⟩ | ⟨-, hfull, -⟩ | ⟨-, -, heq⟩
  · exact absurd hapart (not_le.mpr hfast)
  · rw [hreset] at hfull
    exact absurd hmax (not_lt.mpr hfull)
  · exact heq

/-- A burst that a window has room for is allowed, and then one command behind the window. -/
theorem allowedFrom_burst {gap x b : ℚ} {n : ℕ} (hgap : o.minIntervalMs ≤ gap) (hpos : 0 ≤ gap)
    (hfirst : o.minIntervalMs ≤ x - s.lastCommandTime)
    (hwindow : x + n * gap - s.windowStart ≤ o.windowMs)
    (hroom : s.commandCount + (n + 1) ≤ o.maxPerWindow)
    (hlast : o.minIntervalMs ≤ b - (x + n * gap)) (hbehind : o.windowMs < b - s.windowStart) :
    allowedFrom o s (burst gap n x ++ [b]) = burst gap n x ++ [b] := by
  induction n generalizing x s with
  | zero =>
    simp only [Nat.cast_zero, zero_mul, add_zero] at hlast hwindow
    show allowedFrom o s (x :: [b]) = x :: [b]
    rw [allowedFrom_of_room hfirst hwindow (by omega)]
    exact congrArg (x :: ·) (allowedFrom_behind hlast hbehind (by omega))
  | succ n ih =>
    push_cast at hwindow hlast
    have hspan : 0 ≤ (n : ℚ) * gap := mul_nonneg (Nat.cast_nonneg n) hpos
    show allowedFrom o s (x :: (burst gap n (x + gap) ++ [b])) =
      x :: (burst gap n (x + gap) ++ [b])
    rw [allowedFrom_of_room hfirst (by linarith) (by omega)]
    refine congrArg (x :: ·) (ih ?_ ?_ ?_ ?_ hbehind)
    · show o.minIntervalMs ≤ x + gap - x
      linarith
    · show x + gap + n * gap - s.windowStart ≤ o.windowMs
      linarith
    · show s.commandCount + 1 + (n + 1) ≤ o.maxPerWindow
      omega
    · linarith

theorem sorted_burst {gap x b : ℚ} {n : ℕ} (hpos : 0 ≤ gap) (hb : x + n * gap ≤ b) :
    (burst gap n x ++ [b]).Pairwise (· ≤ ·) := by
  induction n generalizing x with
  | zero => simpa [burst] using hb
  | succ n ih =>
    push_cast at hb
    have hspan : 0 ≤ (n : ℚ) * gap := mul_nonneg (Nat.cast_nonneg n) hpos
    refine List.pairwise_cons.mpr ⟨fun y hy => ?_, ih (by linarith)⟩
    rcases List.mem_append.mp hy with hy | hy
    · have hlow := (mem_burst hpos hy).1
      linarith
    · obtain rfl := List.mem_singleton.mp hy
      linarith

/-- If a window has room for commands, and an interval of its length for one more, a burst at the
end of a window and a command behind it are too many. -/
theorem exists_too_many (hmax : o.maxPerWindow ≠ 0) (hwindow : 0 < o.windowMs)
    (hfits : o.maxPerWindow * o.minIntervalMs ≤ o.windowMs) :
    ∃ times, ClockReadings times ∧ ¬ Throttled o (allowed o times) := by
  obtain ⟨n, hn⟩ := Nat.exists_eq_succ_of_ne_zero hmax
  -- without a minimum the burst takes no time
  obtain ⟨gap, wait, hgap, hpos, hwait, hbehind, hspan⟩ : ∃ gap wait : ℚ,
      o.minIntervalMs ≤ gap ∧ 0 ≤ gap ∧ o.minIntervalMs ≤ wait ∧ 0 < wait ∧
        n * gap + wait ≤ o.windowMs := by
    rw [hn] at hfits
    push_cast at hfits
    rcases le_or_gt o.minIntervalMs 0 with hle | hgt
    · exact ⟨0, o.windowMs, hle, le_rfl, by linarith, hwindow, by linarith⟩
    · exact ⟨o.minIntervalMs, o.minIntervalMs, le_rfl, hgt.le, le_rfl, hgt, by linarith⟩
  have hlength : 0 ≤ (n : ℚ) * gap := mul_nonneg (Nat.cast_nonneg n) hpos
  let x := o.windowMs - n * gap
  have hend : x + n * gap = o.windowMs := sub_add_cancel _ _
  have hx : wait ≤ x := by linarith
  have hall : allowed o (burst gap n x ++ [o.windowMs + wait]) =
      burst gap n x ++ [o.windowMs + wait] := by
    refine allowedFrom_burst hgap hpos ?_ ?_ ?_ ?_ ?_
    · show o.minIntervalMs ≤ x - 0
      linarith
    · show x + n * gap - 0 ≤ o.windowMs
      linarith
    · show 0 + (n + 1) ≤ o.maxPerWindow
      omega
    · linarith
    · show o.windowMs < o.windowMs + wait - 0
      linarith
  refine ⟨burst gap n x ++ [o.windowMs + wait], ⟨fun t ht => ?_, sorted_burst hpos ?_⟩,
    fun hthrottled => ?_⟩
  · rcases List.mem_append.mp ht with ht | ht
    · have hlow := (mem_burst hpos ht).1
      linarith
    · obtain rfl := List.mem_singleton.mp ht
      linarith
  · linarith
  · have hmany := hthrottled.window x
    rw [hall] at hmany
    have hevery : inInterval o.windowMs x (burst gap n x ++ [o.windowMs + wait]) =
        burst gap n x ++ [o.windowMs + wait] := by
      refine List.filter_eq_self.mpr fun t ht => decide_eq_true ?_
      rcases List.mem_append.mp ht with ht | ht
      · obtain ⟨hlow, hhigh⟩ := mem_burst hpos ht
        exact ⟨hlow, by linarith⟩
      · obtain rfl := List.mem_singleton.mp ht
        exact ⟨by linarith, by linarith⟩
    rw [hevery, List.length_append, length_burst, List.length_singleton] at hmany
    omega

/-- **The limits hold in every run, if and only if** a window has no room or no length, or the
commands that it has room for take longer than it. -/
theorem throttled_iff (o : ThrottleOptions) :
    (∀ times, ClockReadings times → Throttled o (allowed o times)) ↔
      o.maxPerWindow = 0 ∨ o.windowMs ≤ 0 ∨ o.windowMs < o.maxPerWindow * o.minIntervalMs := by
  constructor
  · intro hall
    by_contra hnot
    simp only [not_or, not_le, not_lt] at hnot
    obtain ⟨times, hclock, hmany⟩ := exists_too_many hnot.1 hnot.2.1 hnot.2.2
    exact hmany (hall times hclock)
  · intro hcond times hclock
    have hapart : (allowed o times).IsChain fun x y => o.minIntervalMs ≤ y - x :=
      (apart_allowedFrom o {} times).tail
    refine ⟨fun t => ?_, hapart⟩
    rcases hcond with hmax | hwindow | hroom
    · unfold allowed
      rw [allowedFrom_eq_nil hmax]
      exact Nat.zero_le _
    · rcases hwindow.lt_or_eq with hneg | hzero
      · have hempty : inInterval o.windowMs t (allowed o times) = [] :=
          List.filter_eq_nil_iff.mpr fun x _ => by
            simp only [decide_eq_true_eq, not_and, not_le]
            intro htx
            linarith
        rw [hempty]
        exact Nat.zero_le _
      · have hmoment : (inInterval o.windowMs t (allowed o times)).length =
            (allowed o times).count t := by
          unfold inInterval
          rw [List.count, List.countP_eq_length_filter, hzero]
          refine congrArg List.length (List.filter_congr fun x _ => ?_)
          rw [add_zero]
          show decide (t ≤ x ∧ x ≤ t) = decide (x = t)
          exact decide_eq_decide.mpr (le_antisymm_iff.symm.trans eq_comm)
        rw [hmoment]
        exact (length_moment_le hzero (Nat.zero_le _) hclock.nonneg hclock.sorted).1 t
    · rcases le_or_gt 0 o.minIntervalMs with hgap | hneg
      · exact length_inInterval_le hgap hroom hapart t
      · -- the window is shorter than nothing
        have hnonpos : (o.maxPerWindow : ℚ) * o.minIntervalMs ≤ 0 :=
          mul_nonpos_of_nonneg_of_nonpos (Nat.cast_nonneg _) hneg.le
        have hempty : inInterval o.windowMs t (allowed o times) = [] :=
          List.filter_eq_nil_iff.mpr fun x _ => by
            simp only [decide_eq_true_eq, not_and, not_le]
            intro htx
            linarith
        rw [hempty]
        exact Nat.zero_le _

/-- 31 commands in three seconds, by default. -/
def burstTimes : List ℚ := (List.range 31).map fun i => 7100 + 100 * (i : ℚ)

theorem not_throttled_burst :
    ¬ ∀ (o : ThrottleOptions) (times : List ℚ), ClockReadings times →
      Throttled o (allowed o times) := by
  intro hall
  have hclock : ClockReadings burstTimes := by
    refine ⟨?_, ?_⟩
    · decide +kernel
    · decide +kernel
  have hmany := (hall {} burstTimes hclock).window 7100
  exact absurd hmany (by decide +kernel)

end CommandThrottle

end FlashEdge
