import Mathlib.Tactic.NormNum
import FlashEdge.Security.SigningGuard
import FlashEdge.Theory.Machine
import FlashEdge.Theory.Window

/-!
# The rate limit of the signing guard, over whole runs

"Maximum number of signing operations per minute", "minimum delay between
consecutive signings": a signing counts from the moment its slot is granted,
since `checkRateLimit` reserves the slot. The guard judges by the timestamps it
keeps. It keeps a hundred at most, and a guard that replaces another one
(`initSigningGuard`) starts with none, so the limits are kept only where nothing
that still counts has been forgotten: `slotsAllowed_of_historyKept`.

- `currentGrants`, `replacedGrants`: the slots granted by the guard in use, and
  by the guards before it.
- `SigningInv`: what the guard's timestamps say of the slots it has granted.
-/

namespace FlashEdge

open SigningGuard

/-! ## The slots granted -/

/-- One event more: (slots of replaced guards, slots of the guard in use). -/
def nextGrants (g : List ℚ × List ℚ) : SigningEvent → List ℚ × List ℚ
  | .granted now _ => (g.1, g.2 ++ [now])
  | .initialised => (g.1 ++ g.2, [])
  | _ => g

/-- When slots were granted, by replaced guards and by the guard in use. -/
def grantsByGuard (h : List SigningEvent) : List ℚ × List ℚ := h.foldl nextGrants ([], [])

def replacedGrants (h : List SigningEvent) : List ℚ := (grantsByGuard h).1

def currentGrants (h : List SigningEvent) : List ℚ := (grantsByGuard h).2

/-- When slots were granted, in order. -/
def grants (h : List SigningEvent) : List ℚ := replacedGrants h ++ currentGrants h

theorem grantsByGuard_snoc (h : List SigningEvent) (e : SigningEvent) :
    grantsByGuard (h ++ [e]) = nextGrants (grantsByGuard h) e :=
  List.foldl_append

/-- A granted slot is within the limits it was granted under: every window of
sixty seconds it lies in has at most `maxTradesPerMinute` of the slots granted so
far, and every slot before it is at least the delay older. -/
def SlotAllowed (h : List SigningEvent) : SigningEvent → Prop
  | .granted now config =>
    (0 < config.maxTradesPerMinute → ∀ stop, now ≤ stop → stop - 60000 < now →
      ((Window.inWindow 60000 stop (grants h ++ [now])).length : ℚ) ≤
        config.maxTradesPerMinute) ∧
    (0 < config.minDelayBetweenTradesMs →
      ∀ x ∈ grants h, config.minDelayBetweenTradesMs ≤ now - x)
  | _ => True

/-- The condition on a step. Whenever a slot is granted: the slots of replaced
guards are older than a minute and than the delay, the timestamps of the last
minute are fewer than the guard keeps, and with the new one they do not exceed
the limit (which they can only if it is not a whole number). -/
def HistoryKept (s : SigningState) (h : List SigningEvent) : SigningCall → Prop
  | .checkRateLimit now =>
    let guard := getSigningGuard s.guard
    let recent := (guard.trimMinute now).signingTimestamps.length
    ¬ guard.tooSoon now → ¬ (guard.trimMinute now).minuteFull →
      (0 < guard.config.maxTradesPerMinute →
        (∀ x ∈ replacedGrants h, x ≤ now - 60000) ∧ recent < MAX_SIGNING_HISTORY ∧
          (recent : ℚ) + 1 ≤ guard.config.maxTradesPerMinute) ∧
      (0 < guard.config.minDelayBetweenTradesMs →
        ∀ x ∈ replacedGrants h, guard.config.minDelayBetweenTradesMs ≤ now - x)
  | _ => True

instance (s : SigningState) (h : List SigningEvent) (c : SigningCall) :
    Decidable (HistoryKept s h c) := by
  cases c <;> (unfold HistoryKept; infer_instance)

/-- What the guard in use knows of the slots it has granted: with a limit per
minute, all that a window can still see; and the last signing is not before any
of them. -/
structure Knows (guard : SigningGuard) (clock : ℚ) (slots : List ℚ) : Prop where
  kept : 0 < guard.config.maxTradesPerMinute → ∀ now, clock ≤ now →
    Window.recent 60000 now guard.signingTimestamps = Window.recent 60000 now slots
  short : guard.signingTimestamps.length ≤ MAX_SIGNING_HISTORY
  last : ∀ x ∈ slots, x ≤ guard.lastSigningTime ∧ 0 < x
  lastAtMost : guard.lastSigningTime ≤ clock

structure SigningInv (s : SigningState) (h : List SigningEvent) : Prop where
  allowed : Each SlotAllowed h
  clock_nonneg : 0 ≤ s.clock
  knows : Knows (getSigningGuard s.guard) s.clock (currentGrants h)

/-! ## What each operation does to the timestamps -/

theorem length_capped (timestamps : List ℚ) :
    (capped timestamps).length ≤ MAX_SIGNING_HISTORY := by
  unfold capped
  split
  · rw [List.length_drop]
    omega
  · next hle => exact not_lt.mp hle

theorem capped_of_le {timestamps : List ℚ} (h : timestamps.length ≤ MAX_SIGNING_HISTORY) :
    capped timestamps = timestamps :=
  if_neg (not_lt.mpr h)

/-- A guard without slots knows them all. -/
theorem knows_nil (config : SigningGuardConfig) {clock : ℚ} (hclock : 0 ≤ clock) :
    Knows { config } clock [] where
  kept _ _ _ := rfl
  short := Nat.zero_le _
  last x hx := by cases hx
  lastAtMost := hclock

/-- As time passes less has to be known. -/
theorem Knows.later {guard : SigningGuard} {clock clock' : ℚ} {slots : List ℚ}
    (hK : Knows guard clock slots) (hle : clock ≤ clock') : Knows guard clock' slots where
  kept hmax now hnow := hK.kept hmax now (hle.trans hnow)
  short := hK.short
  last := hK.last
  lastAtMost := hK.lastAtMost.trans hle

theorem Knows.trimMinute {guard : SigningGuard} {clock now : ℚ} {slots : List ℚ}
    (hK : Knows guard clock slots) (hnow : clock ≤ now) :
    Knows (guard.trimMinute now) now slots := by
  have hlater := hK.later hnow
  unfold SigningGuard.trimMinute
  split
  · refine ⟨fun hmax t ht => ?_, ?_, hK.last, hlater.lastAtMost⟩
    · rw [← hlater.kept hmax t ht]
      exact Window.recent_recent (le_refl _) ht guard.signingTimestamps
    · exact (List.length_filter_le _ _).trans hK.short
  · exact hlater

/-- The timestamps left by a check are the slots of the last minute. -/
theorem Knows.timestamps_trimMinute {guard : SigningGuard} {clock now : ℚ} {slots : List ℚ}
    (hK : Knows guard clock slots) (hnow : clock ≤ now)
    (hmax : 0 < guard.config.maxTradesPerMinute) :
    (guard.trimMinute now).signingTimestamps = Window.recent 60000 now slots := by
  rw [← hK.kept hmax now hnow]
  unfold SigningGuard.trimMinute
  rw [if_pos hmax]
  rfl

/-- A slot is taken while the guard has room for its timestamp. -/
theorem Knows.reserve {guard : SigningGuard} {now : ℚ} {slots : List ℚ}
    (hK : Knows guard now slots) (hpos : 0 < now)
    (hroom : 0 < guard.config.maxTradesPerMinute →
      guard.signingTimestamps.length < MAX_SIGNING_HISTORY) :
    Knows (guard.reserve now) now (slots ++ [now]) where
  kept hmax t ht := by
    have hcap : capped (guard.signingTimestamps ++ [now]) = guard.signingTimestamps ++ [now] :=
      capped_of_le (by rw [List.length_append]; exact hroom hmax)
    show Window.recent 60000 t (capped (guard.signingTimestamps ++ [now])) = _
    rw [hcap, Window.recent_append, Window.recent_append, hK.kept hmax t ht]
  short := length_capped _
  last x hx := by
    rcases List.mem_append.mp hx with hx | hx
    · exact ⟨(hK.last x hx).1.trans hK.lastAtMost, (hK.last x hx).2⟩
    · rw [List.mem_singleton.mp hx]
      exact ⟨le_refl now, hpos⟩
  lastAtMost := le_refl now

/-- A completed signing drops only what is older than two minutes. -/
theorem Knows.recordSigning {guard : SigningGuard} {clock now : ℚ} {slots : List ℚ}
    (hK : Knows guard clock slots) (hnow : clock ≤ now) :
    Knows (guard.recordSigning now) now slots where
  kept hmax t ht := by
    have hcap := capped_of_le ((List.length_filter_le (fun x => decide (now - 120000 < x))
      guard.signingTimestamps).trans hK.short)
    show Window.recent 60000 t (capped (guard.signingTimestamps.filter _)) = _
    rw [hcap, ← hK.kept hmax t (hnow.trans ht)]
    exact Window.recent_recent (by norm_num) ht guard.signingTimestamps
  short := length_capped _
  last x hx := ⟨(hK.last x hx).1.trans (hK.lastAtMost.trans hnow), (hK.last x hx).2⟩
  lastAtMost := le_refl now

/-! ## The steps -/

/-- Events that grant nothing and replace no guard. -/
theorem grantsByGuard_refused (h : List SigningEvent) (reason : SigningRefusal) :
    grantsByGuard (h ++ [SigningEvent.refused reason]) = grantsByGuard h := grantsByGuard_snoc h _

theorem grantsByGuard_completed (h : List SigningEvent) (now : ℚ) :
    grantsByGuard (h ++ [SigningEvent.completed now]) = grantsByGuard h := grantsByGuard_snoc h _

/-- A slot granted under the condition is within the limits. -/
theorem slotAllowed_of_knows {guard : SigningGuard} {s : SigningState} {h : List SigningEvent}
    {now : ℚ} (hguard : getSigningGuard s.guard = guard)
    (hK : Knows guard s.clock (currentGrants h)) (hnow : s.clock ≤ now)
    (hC : HistoryKept s h (.checkRateLimit now)) (hsoon : ¬ guard.tooSoon now)
    (hfull : ¬ (guard.trimMinute now).minuteFull) :
    SlotAllowed h (.granted now guard.config) := by
  subst hguard
  obtain ⟨hminute, hdelay⟩ := hC hsoon hfull
  refine ⟨fun hmax stop hstop hin => ?_, fun hon x hx => ?_⟩
  · obtain ⟨hold, -, hroom⟩ := hminute hmax
    -- of the past, the window sees the timestamps that the check has left
    have hpast : (Window.inWindow 60000 stop (grants h)).length ≤
        ((getSigningGuard s.guard).trimMinute now).signingTimestamps.length := by
      refine (Window.length_inWindow_le hstop _).trans ?_
      rw [grants, Window.recent_append, Window.recent_eq_nil hold, List.nil_append,
        hK.timestamps_trimMinute hnow hmax]
    rw [Window.inWindow_append, List.length_append]
    have hone : (Window.inWindow 60000 stop [now]).length ≤ 1 := List.length_filter_le _ _
    have hsum : (Window.inWindow 60000 stop (grants h)).length +
        (Window.inWindow 60000 stop [now]).length ≤
          ((getSigningGuard s.guard).trimMinute now).signingTimestamps.length + 1 :=
      Nat.add_le_add hpast hone
    calc (((Window.inWindow 60000 stop (grants h)).length +
          (Window.inWindow 60000 stop [now]).length : ℕ) : ℚ)
        ≤ ((((getSigningGuard s.guard).trimMinute now).signingTimestamps.length + 1 : ℕ) : ℚ) :=
          Nat.cast_le.mpr hsum
      _ = (((getSigningGuard s.guard).trimMinute now).signingTimestamps.length : ℚ) + 1 :=
          Nat.cast_succ _
      _ ≤ (getSigningGuard s.guard).config.maxTradesPerMinute := hroom
  · rcases List.mem_append.mp hx with hx | hx
    · exact hdelay hon x hx
    · -- a slot of the guard in use is no later than its last signing
      obtain ⟨hlast, hpos⟩ := hK.last x hx
      unfold tooSoon at hsoon
      have hold : (getSigningGuard s.guard).config.minDelayBetweenTradesMs ≤
          now - (getSigningGuard s.guard).lastSigningTime :=
        not_lt.mp fun hlt => hsoon ⟨hon, hpos.trans_le hlast, hlt⟩
      exact hold.trans (sub_le_sub_left hlast now)

theorem signingInv_checkRateLimit {s s' : SigningState} {h es : List SigningEvent} {now : ℚ}
    (hI : SigningInv s h) (hC : HistoryKept s h (.checkRateLimit now))
    (hs : s.step (.checkRateLimit now) = some (s', es)) : SigningInv s' (h ++ es) := by
  simp only [SigningState.step] at hs
  split at hs
  · cases hs
  · next hclock =>
    obtain ⟨hle, hpos⟩ := not_or.mp hclock
    rw [not_lt] at hle
    rw [not_le] at hpos
    split at hs
    · next guard' hgranted =>
      obtain ⟨rfl, rfl⟩ := Machine.some_pair hs
      obtain ⟨hsoon, hfull, rfl⟩ := checkRateLimit_allowed hgranted
      refine ⟨hI.allowed.snoc (slotAllowed_of_knows rfl hI.knows hle hC hsoon hfull), hpos.le, ?_⟩
      have hslots : currentGrants
          (h ++ [SigningEvent.granted now (getSigningGuard s.guard).config]) =
          currentGrants h ++ [now] := congrArg Prod.snd (grantsByGuard_snoc h _)
      rw [hslots]
      refine (hI.knows.trimMinute hle).reserve hpos fun hmax => ?_
      rw [trimMinute_config] at hmax
      exact ((hC hsoon hfull).1 hmax).2.1
    · next guard' reason hrefused =>
      obtain ⟨rfl, rfl⟩ := Machine.some_pair hs
      refine ⟨hI.allowed.snoc trivial, hpos.le, ?_⟩
      rw [currentGrants, grantsByGuard_refused]
      rcases checkRateLimit_refused hrefused with rfl | rfl
      · exact hI.knows.later hle
      · exact hI.knows.trimMinute hle

theorem signingInv_recordSigning {s s' : SigningState} {h es : List SigningEvent} {now : ℚ}
    (hI : SigningInv s h) (hs : s.step (.recordSigning now) = some (s', es)) :
    SigningInv s' (h ++ es) := by
  simp only [SigningState.step] at hs
  split at hs
  · cases hs
  · next hclock =>
    obtain ⟨hle, hpos⟩ := not_or.mp hclock
    obtain ⟨rfl, rfl⟩ := Machine.some_pair hs
    refine ⟨hI.allowed.snoc trivial, (not_le.mp hpos).le, ?_⟩
    rw [currentGrants, grantsByGuard_completed]
    exact hI.knows.recordSigning (not_lt.mp hle)

theorem signingInv_initSigningGuard {s s' : SigningState} {h es : List SigningEvent}
    {config : Option SigningGuardConfig} (hI : SigningInv s h)
    (hs : s.step (.initSigningGuard config) = some (s', es)) : SigningInv s' (h ++ es) := by
  obtain ⟨rfl, rfl⟩ := Machine.some_pair hs
  dsimp only
  split
  · -- the guard is kept
    next hkeep =>
    rw [List.append_nil]
    refine ⟨hI.allowed, hI.clock_nonneg, ?_⟩
    obtain ⟨guard, hguard⟩ := Option.isSome_iff_exists.mp hkeep.1
    rw [Option.isNone_iff_eq_none.mp hkeep.2, hguard]
    have hknows := hI.knows
    rwa [hguard] at hknows
  · next hnew =>
    refine ⟨hI.allowed.snoc trivial, hI.clock_nonneg, ?_⟩
    have hslots : currentGrants (h ++ [SigningEvent.initialised]) = [] :=
      congrArg Prod.snd (grantsByGuard_snoc h _)
    rw [hslots, initSigningGuard_new hnew]
    exact knows_nil _ hI.clock_nonneg

theorem signingInv_step {s s' : SigningState} {h es : List SigningEvent} {c : SigningCall}
    (hI : SigningInv s h) (hC : HistoryKept s h c) (hs : s.step c = some (s', es)) :
    SigningInv s' (h ++ es) := by
  cases c with
  | checkRateLimit now => exact signingInv_checkRateLimit hI hC hs
  | recordSigning now => exact signingInv_recordSigning hI hs
  | initSigningGuard config => exact signingInv_initSigningGuard hI hs

/-! ## The runs -/

/-- **When the rate limit is kept.** In every run of calls whose steps meet the
condition, every slot is granted within the limits in force: at most
`maxTradesPerMinute` slots in every sixty seconds, and the delay between any two. -/
theorem slotsAllowed_of_historyKept {s : SigningState} {h : List SigningEvent}
    (hr : signing.Reaches HistoryKept s h) : Each SlotAllowed h := by
  have hI : SigningInv s h := by
    refine Machine.Reaches.invariant (I := SigningInv) ?_ ?_ hr
    · exact ⟨Each.nil, le_refl 0, knows_nil _ (le_refl 0)⟩
    · intro s s' h es c _ hI hC hs
      exact signingInv_step hI hC hs
  exact hI.allowed

/-- Two slots ten seconds apart, the first one completed in between. -/
def twoSignings : List SigningCall :=
  [.initSigningGuard (some {}), .checkRateLimit 10000, .recordSigning 12000, .checkRateLimit 20000]

theorem slotsAllowed_of_historyKept_twoSignings :
    ∃ s h, signing.runUnder HistoryKept signing.init [] twoSignings = some (s, h) ∧
      grants h = [10000, 20000] ∧ Each SlotAllowed h := by
  have hrun : (signing.runUnder HistoryKept signing.init [] twoSignings).map
      (fun r => grants r.2) = some [10000, 20000] := by
    decide +kernel
  obtain ⟨⟨s, h⟩, hs, hgrants⟩ := Option.map_eq_some_iff.mp hrun
  exact ⟨s, h, hs, hgrants, slotsAllowed_of_historyKept (Machine.reaches_of_runUnder .init hs)⟩

/-- A slot is granted, the guard is initialised again, and the next slot is
granted a millisecond later. -/
def signingsAcrossInit : List SigningCall :=
  [.initSigningGuard (some {}), .checkRateLimit 10000, .initSigningGuard (some {}),
    .checkRateLimit 10001]

/-- The new guard does not know of the slot of the old one. -/
theorem not_slotsAllowed :
    ¬ ∀ s h, signing.Reachable s h → Each SlotAllowed h := by
  intro hall
  have hrun : (signing.run signingsAcrossInit).map Prod.snd =
      some [.initialised, .granted 10000 {}, .initialised, .granted 10001 {}] := by
    decide +kernel
  obtain ⟨⟨s, h⟩, hs, rfl⟩ := Option.map_eq_some_iff.mp hrun
  have hlast := hall s _ (Machine.reachable_of_run hs)
    [.initialised, .granted 10000 {}, .initialised] (.granted 10001 {}) [] rfl
  -- the delay between the two is three seconds
  have hapart : (3000 : ℚ) ≤ 10001 - 10000 :=
    hlast.2 (by decide +kernel) 10000 (by decide +kernel)
  norm_num at hapart

end FlashEdge
