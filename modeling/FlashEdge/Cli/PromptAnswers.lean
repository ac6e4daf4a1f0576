import FlashEdge.Cli.PromptSession
import FlashEdge.Theory.Machine

/-!
# Who answers a prompt

Answers keep to their prompts (`PromptsKept`) as long as no prompt times out while another
one, shown last, waits: the timer clears the slot whoever is in it (`promptsKept_iff`).
-/

namespace FlashEdge

namespace PromptSession

open TerminalSession

/-! ## The property -/

/-- The prompt that an event shows. -/
def shows : PromptEvent → Option ℕ
  | .shown prompt => some prompt
  | _ => none

/-- The prompt that an event settles. -/
def settles : PromptEvent → Option ℕ
  | .answered _ prompt _ => some prompt
  | .timedOut prompt _ => some prompt
  | _ => none

def shownPrompts (h : List PromptEvent) : List ℕ := h.filterMap shows

def settledPrompts (h : List PromptEvent) : List ℕ := h.filterMap settles

def lastShown (h : List PromptEvent) : Option ℕ := (shownPrompts h).getLast?

/-- A line is given to the prompt that was shown last, unless it is settled, and answers no
other one; a prompt is settled once, by an answer only while it is the one shown last; and
a timeout discards the callback of no other prompt. -/
def Kept (pre : List PromptEvent) : PromptEvent → Prop
  | .shown _ => True
  | .typed _ addressee => ∀ prompt, addressee = some prompt ↔
      lastShown pre = some prompt ∧ prompt ∉ settledPrompts pre
  | .answered line prompt _ => lastShown pre = some prompt ∧ prompt ∉ settledPrompts pre ∧
      ∀ other, .typed line (some other) ∈ pre → other = prompt
  | .timedOut prompt discarded => prompt ∈ shownPrompts pre ∧ prompt ∉ settledPrompts pre ∧
      discarded = none

/-- The answers keep to their prompts; and the prompts that wait are those that have been
shown and neither answered nor timed out, and each of them can still time out. -/
structure PromptsKept (s : PromptSession) (h : List PromptEvent) : Prop where
  kept : Each Kept h
  waits : s.session.phase ≠ .closed → ∀ prompt,
    prompt ∈ s.session.waiting ↔ prompt ∈ shownPrompts h ∧ prompt ∉ settledPrompts h
  settles : s.session.phase ≠ .closed → ∀ prompt ∈ s.session.waiting,
    (s.step (.confirmTimedOut prompt)).isSome

/-! ## The condition -/

/-- A prompt times out only if the prompt shown last is that prompt, or does not wait. -/
def NoneElseAwaited (s : PromptSession) (_ : List PromptEvent) (a : TerminalAction) : Prop :=
  ∀ prompt, a = .confirmTimedOut prompt →
    ∀ other, s.session.awaited = some other → other = prompt

/-! ## What the log says of the prompts -/

variable {h : List PromptEvent} {waiting waiting' : List ℕ} {prompts : ℕ} {e : PromptEvent}

theorem shownPrompts_snoc (h : List PromptEvent) (e : PromptEvent) :
    shownPrompts (h ++ [e]) = shownPrompts h ++ (shows e).toList := by
  unfold shownPrompts
  rw [List.filterMap_append]
  cases he : shows e <;> simp [he]

theorem settledPrompts_snoc (h : List PromptEvent) (e : PromptEvent) :
    settledPrompts (h ++ [e]) = settledPrompts h ++ (settles e).toList := by
  unfold settledPrompts
  rw [List.filterMap_append]
  cases he : settles e <;> simp [he]

theorem shownPrompts_of_none (hshows : shows e = none) :
    shownPrompts (h ++ [e]) = shownPrompts h := by
  rw [shownPrompts_snoc, hshows, Option.toList_none, List.append_nil]

theorem settledPrompts_of_none (hsettles : settles e = none) :
    settledPrompts (h ++ [e]) = settledPrompts h := by
  rw [settledPrompts_snoc, hsettles, Option.toList_none, List.append_nil]

/-- What waits, and how many prompts there were, is what the log says. -/
structure Booked (waiting : List ℕ) (prompts : ℕ) (h : List PromptEvent) : Prop where
  nodup : waiting.Nodup
  below : ∀ prompt ∈ shownPrompts h, prompt < prompts
  last : ∀ prompt, lastShown h = some prompt ↔ prompt + 1 = prompts
  settled : ∀ prompt ∈ settledPrompts h, prompt ∈ shownPrompts h
  waits : ∀ prompt, prompt ∈ waiting ↔ prompt ∈ shownPrompts h ∧ prompt ∉ settledPrompts h

namespace Booked

theorem init : Booked [] 0 [] where
  nodup := List.nodup_nil
  below := by simp [shownPrompts]
  last := by simp [lastShown, shownPrompts]
  settled := by simp [settledPrompts]
  waits := by simp [shownPrompts]

/-- An event that shows and settles nothing. -/
theorem silent (hB : Booked waiting prompts h) (hshows : shows e = none)
    (hsettles : settles e = none) : Booked waiting prompts (h ++ [e]) := by
  have hshown : shownPrompts (h ++ [e]) = shownPrompts h := shownPrompts_of_none hshows
  have hsettled : settledPrompts (h ++ [e]) = settledPrompts h := settledPrompts_of_none hsettles
  constructor
  · exact hB.nodup
  · rw [hshown]
    exact hB.below
  · unfold lastShown
    rw [hshown]
    exact hB.last
  · rw [hshown, hsettled]
    exact hB.settled
  · rw [hshown, hsettled]
    exact hB.waits

/-- The next prompt is shown. -/
theorem shown (hB : Booked waiting prompts h) (hperm : waiting'.Perm (prompts :: waiting)) :
    Booked waiting' (prompts + 1) (h ++ [PromptEvent.shown prompts]) := by
  have hshown : shownPrompts (h ++ [PromptEvent.shown prompts]) = shownPrompts h ++ [prompts] :=
    shownPrompts_snoc h _
  have hsettled : settledPrompts (h ++ [PromptEvent.shown prompts]) = settledPrompts h :=
    settledPrompts_of_none rfl
  -- the number is new
  have hnew : prompts ∉ shownPrompts h := fun hmem => absurd (hB.below _ hmem) (by omega)
  have hunsettled : prompts ∉ settledPrompts h := fun hmem => hnew (hB.settled _ hmem)
  have hnotWaiting : prompts ∉ waiting := fun hmem => hnew ((hB.waits _).mp hmem).1
  constructor
  · exact hperm.nodup_iff.mpr (List.nodup_cons.mpr ⟨hnotWaiting, hB.nodup⟩)
  · rw [hshown]
    intro p hp
    rcases List.mem_append.mp hp with hold | hone
    · have := hB.below p hold
      omega
    · obtain rfl := List.mem_singleton.mp hone
      omega
  · intro p
    unfold lastShown
    rw [hshown, List.getLast?_concat]
    constructor
    · rintro ⟨⟩
      rfl
    · intro heq
      obtain rfl : p = prompts := by omega
      rfl
  · rw [hshown, hsettled]
    intro p hp
    exact List.mem_append_left _ (hB.settled p hp)
  · intro p
    rw [hperm.mem_iff, List.mem_cons, hB.waits, hshown, hsettled, List.mem_append,
      List.mem_singleton]
    constructor
    · rintro (rfl | ⟨hold, hnot⟩)
      · exact ⟨.inr rfl, hunsettled⟩
      · exact ⟨.inl hold, hnot⟩
    · rintro ⟨hold | rfl, hnot⟩
      · exact .inr ⟨hold, hnot⟩
      · exact .inl rfl

/-- A prompt that waits is settled. -/
theorem settle (hB : Booked waiting prompts h) {prompt : ℕ} (hmem : prompt ∈ waiting)
    (hshows : shows e = none) (hsettles : settles e = some prompt) :
    Booked (waiting.erase prompt) prompts (h ++ [e]) := by
  have hshown : shownPrompts (h ++ [e]) = shownPrompts h := shownPrompts_of_none hshows
  have hsettled : settledPrompts (h ++ [e]) = settledPrompts h ++ [prompt] := by
    rw [settledPrompts_snoc, hsettles, Option.toList_some]
  constructor
  · exact hB.nodup.erase _
  · rw [hshown]
    exact hB.below
  · unfold lastShown
    rw [hshown]
    exact hB.last
  · rw [hshown, hsettled]
    intro p hp
    rcases List.mem_append.mp hp with hold | hone
    · exact hB.settled p hold
    · obtain rfl := List.mem_singleton.mp hone
      exact ((hB.waits p).mp hmem).1
  · intro p
    rw [hB.nodup.mem_erase_iff, hB.waits, hshown, hsettled, List.mem_append, List.mem_singleton]
    constructor
    · rintro ⟨hne, hold, hnot⟩
      exact ⟨hold, not_or.mpr ⟨hnot, hne⟩⟩
    · rintro ⟨hold, hnot⟩
      obtain ⟨hnotOld, hne⟩ := not_or.mp hnot
      exact ⟨hne, hold, hnotOld⟩

end Booked

/-! ## The invariant -/

/-- While the session runs the slot belongs to the prompt that was shown last, if that waits;
and the line in the buffer was given to no prompt. -/
structure Live (simulationMode : Bool) (s : PromptSession) (h : List PromptEvent) : Prop where
  booked : Booked s.session.waiting s.session.prompts h
  mode : s.session.simulationMode = simulationMode
  slot : s.session.pendingConfirmation = s.session.awaited
  exits : simulationMode = true → ∀ p, p ∉ s.session.exitPrompts
  empty : s.session.pendingConfirmation ≠ none → s.session.bufferedLine = none
  lines : ∀ line addressee, .typed line addressee ∈ h → line < s.lines
  buffered : s.session.bufferedLine ≠ none → ∀ p, .typed s.bufferedBy (some p) ∉ h

structure PromptInv (simulationMode : Bool) (s : PromptSession) (h : List PromptEvent) :
    Prop where
  kept : Each Kept h
  live : s.session.phase ≠ .closed → Live simulationMode s h

variable {simulationMode : Bool} {b : PromptSession} {s s' : TerminalSession}
  {es : List TerminalEvent} {prompt : ℕ}

theorem awaited_eq_none : s.awaited = none ↔ ∀ p ∈ s.waiting, p + 1 ≠ s.prompts := by
  constructor
  · intro hnone p hmem hlast
    rw [awaited_eq_some.mpr ⟨hmem, hlast⟩] at hnone
    cases hnone
  · intro hnot
    cases hawaited : s.awaited with
    | none => rfl
    | some p =>
      obtain ⟨hmem, hlast⟩ := awaited_eq_some.mp hawaited
      exact absurd hlast (hnot p hmem)

theorem awaited_congr (hwaiting : s'.waiting = s.waiting) (hprompts : s'.prompts = s.prompts) :
    s'.awaited = s.awaited := by
  unfold awaited
  rw [hwaiting, hprompts]

/-- Once it is settled, nothing that waits was shown last. -/
theorem awaited_settled (hnodup : s.waiting.Nodup) (hother : ∀ p, s.awaited = some p → p = prompt)
    (hwaiting : s'.waiting = s.waiting.erase prompt) (hprompts : s'.prompts = s.prompts) :
    s'.awaited = none := by
  rw [awaited_eq_none, hwaiting, hprompts]
  intro p hmem hlast
  obtain ⟨hne, hold⟩ := hnodup.mem_erase_iff.mp hmem
  exact hne (hother p (awaited_eq_some.mpr ⟨hold, hlast⟩))

namespace Live

/-- Nothing waits in a simulation between two prompts. -/
theorem waiting_nil (hL : Live simulationMode b h) (hsimulated : simulationMode = true)
    (hprompt : b.session.phase.prompt = none) : b.session.waiting = [] := by
  rw [waiting_of_none hprompt]
  exact List.eq_nil_iff_forall_not_mem.mpr (hL.exits hsimulated)

/-- A line is typed. -/
theorem typed (hL : Live simulationMode b h) :
    Live simulationMode { b with lines := b.lines + 1 }
      (h ++ [PromptEvent.typed b.lines b.session.awaited]) where
  booked := hL.booked.silent rfl rfl
  mode := hL.mode
  slot := hL.slot
  exits := hL.exits
  empty := hL.empty
  lines := by
    intro line addressee hmem
    rcases List.mem_append.mp hmem with hold | hone
    · exact Nat.lt_succ_of_lt (hL.lines line addressee hold)
    · obtain ⟨rfl, -⟩ := PromptEvent.typed.inj (List.mem_singleton.mp hone)
      exact Nat.lt_succ_self _
  buffered := by
    intro hfull p hmem
    rcases List.mem_append.mp hmem with hold | hone
    · exact hL.buffered hfull p hold
    · -- a line is in the buffer only while the slot is free
      obtain ⟨-, hawaited⟩ := PromptEvent.typed.inj (List.mem_singleton.mp hone)
      refine hfull (hL.empty ?_)
      rw [hL.slot]
      show b.session.awaited ≠ none
      rw [← hawaited]
      exact nofun

/-- Another line may be in the buffer, if it was given to no prompt. -/
theorem rebuffer (hL : Live simulationMode b h) {line : ℕ}
    (hnew : b.session.bufferedLine ≠ none → ∀ p, .typed line (some p) ∉ h) :
    Live simulationMode { b with bufferedBy := line } h where
  booked := hL.booked
  mode := hL.mode
  slot := hL.slot
  exits := hL.exits
  empty := hL.empty
  lines := hL.lines
  buffered := hnew

theorem idles (hL : Live simulationMode b h) (hs : Idles b.session s' es)
    (hopen : s'.phase ≠ .closed) : Live simulationMode { b with session := s' } h where
  booked := by rw [hs.waiting hopen, hs.prompts]; exact hL.booked
  mode := hs.mode.trans hL.mode
  slot := by
    rw [hs.slot, awaited_congr (hs.waiting hopen) hs.prompts]
    exact hL.slot
  exits := fun hsimulated p hp => hL.exits hsimulated p (hs.exits p hp)
  empty := by
    intro hslot
    rw [hs.slot] at hslot
    rcases hs.buffer with hnone | hsame
    · exact hnone
    · exact hsame.trans (hL.empty hslot)
  lines := hL.lines
  buffered := by
    intro hfull
    rcases hs.buffer with hnone | hsame
    · exact absurd hnone hfull
    · rw [hsame] at hfull
      exact hL.buffered hfull

theorem shows (hL : Live simulationMode b h) (hs : Shows b.session s' es) :
    Live simulationMode { b with session := s' } (h ++ [PromptEvent.shown b.session.prompts]) where
  booked := by
    rw [hs.prompts]
    exact hL.booked.shown hs.waiting
  mode := hs.mode.trans hL.mode
  slot := by
    rw [hs.slot]
    refine (awaited_eq_some.mpr ⟨?_, hs.prompts.symm⟩).symm
    exact hs.waiting.mem_iff.mpr List.mem_cons_self
  exits := by
    intro hsimulated p
    rw [hs.exits (hL.mode.trans hsimulated)]
    exact hL.exits hsimulated p
  empty := fun _ => hs.buffer
  lines := by
    intro line addressee hmem
    rcases List.mem_append.mp hmem with hold | hone
    · exact hL.lines line addressee hold
    · cases List.mem_singleton.mp hone
  buffered := fun hfull => absurd hs.buffer hfull

/-- A prompt is settled after which nothing that waits was shown last. -/
theorem settles (hL : Live simulationMode b h) {e : PromptEvent}
    (hs : Settles { b.session with pendingConfirmation := none } prompt s' es)
    (hother : ∀ p, b.session.awaited = some p → p = prompt) (hshows : PromptSession.shows e = none)
    (hsettles : PromptSession.settles e = some prompt)
    (hline : ∀ line addressee, e ≠ .typed line addressee) (hopen : s'.phase ≠ .closed) :
    Live simulationMode { b with session := s' } (h ++ [e]) where
  booked := by
    rw [hs.prompts, hs.waiting hopen]
    exact hL.booked.settle hs.waits hshows hsettles
  mode := hs.mode.trans hL.mode
  slot := by
    rw [hs.slot]
    exact (awaited_settled hL.booked.nodup hother (hs.waiting hopen) hs.prompts).symm
  exits := fun hsimulated p hp => hL.exits hsimulated p (hs.exits p hp)
  empty := fun hslot => absurd hs.slot hslot
  lines := by
    intro line addressee hmem
    rcases List.mem_append.mp hmem with hold | hone
    · exact hL.lines line addressee hold
    · exact absurd (List.mem_singleton.mp hone).symm (hline line addressee)
  buffered := by
    intro hfull p hmem
    rcases hs.buffer with hnone | hsame
    · exact absurd hnone hfull
    · rw [hsame] at hfull
      rcases List.mem_append.mp hmem with hold | hone
      · exact hL.buffered hfull p hold
      · exact absurd (List.mem_singleton.mp hone).symm (hline _ _)

/-- A prompt is answered by the line in the buffer. -/
theorem showsAnswered (hL : Live simulationMode b h) (hs : ShowsAnswered b.session s' es)
    (yes : Bool) : Live simulationMode { b with session := s' }
      (h ++ [PromptEvent.shown b.session.prompts] ++
        [PromptEvent.answered b.bufferedBy b.session.prompts yes]) where
  booked := by
    have hshown := hL.booked.shown (.refl (b.session.prompts :: b.session.waiting))
    have hsettled := hshown.settle (e := .answered b.bufferedBy b.session.prompts yes)
      List.mem_cons_self rfl rfl
    rw [List.erase_cons_head] at hsettled
    rw [hs.prompts, hs.waiting]
    exact hsettled
  mode := hs.mode.trans hL.mode
  slot := by
    have hnone := hL.waiting_nil (hL.mode ▸ hs.simulated) hs.noPrompt
    rw [hs.slot, hL.slot, awaited_eq_none.mpr, awaited_eq_none.mpr]
    · rw [hs.waiting, hnone]
      exact nofun
    · rw [hnone]
      exact nofun
  exits := by
    intro hsimulated p
    rw [hs.exits]
    exact hL.exits hsimulated p
  empty := fun _ => hs.buffer
  lines := by
    intro line addressee hmem
    rcases List.mem_append.mp hmem with hmem | hone
    · rcases List.mem_append.mp hmem with hold | hone
      · exact hL.lines line addressee hold
      · cases List.mem_singleton.mp hone
    · cases List.mem_singleton.mp hone
  buffered := fun hfull => absurd hs.buffer hfull

end Live

/-! ## The steps -/

theorem mem_shown_of_last (hlast : lastShown h = some prompt) : prompt ∈ shownPrompts h :=
  List.mem_of_getLast? hlast

namespace Live

theorem awaited_iff (hL : Live simulationMode b h) : b.session.awaited = some prompt ↔
    lastShown h = some prompt ∧ prompt ∉ settledPrompts h := by
  rw [awaited_eq_some, hL.booked.waits, hL.booked.last]
  constructor
  · rintro ⟨⟨-, hnot⟩, hlast⟩
    exact ⟨hlast, hnot⟩
  · rintro ⟨hlast, hnot⟩
    exact ⟨⟨mem_shown_of_last ((hL.booked.last _).mpr hlast), hnot⟩, hlast⟩

/-- The line that is typed answers the prompt in the slot. -/
theorem kept_answered (hL : Live simulationMode b h) (hslot : b.session.pendingConfirmation =
    some prompt) (yes : Bool) :
    Kept (h ++ [PromptEvent.typed b.lines b.session.awaited]) (.answered b.lines prompt yes) := by
  have hawaited : b.session.awaited = some prompt := hL.slot.symm.trans hslot
  obtain ⟨hlast, hnot⟩ := hL.typed.awaited_iff.mp hawaited
  refine ⟨hlast, hnot, fun other hmem => ?_⟩
  rcases List.mem_append.mp hmem with hold | hone
  · exact absurd (hL.lines _ _ hold) (lt_irrefl _)
  · obtain ⟨-, hother⟩ := PromptEvent.typed.inj (List.mem_singleton.mp hone)
    exact Option.some.inj (hother.trans hawaited)

/-- A line that was typed before the prompt was shown was given to no other. -/
theorem kept_ahead (hL : Live simulationMode b h) (hfull : b.session.bufferedLine ≠ none)
    (yes : Bool) : Kept (h ++ [PromptEvent.shown b.session.prompts])
      (.answered b.bufferedBy b.session.prompts yes) := by
  have hshown := hL.booked.shown (.refl (b.session.prompts :: b.session.waiting))
  refine ⟨(hshown.last _).mpr rfl, ((hshown.waits _).mp List.mem_cons_self).2, ?_⟩
  intro other hmem
  rcases List.mem_append.mp hmem with hold | hone
  · exact absurd hold (hL.buffered hfull other)
  · cases List.mem_singleton.mp hone

end Live

/-- A step that is neither a line nor a timeout. -/
theorem PromptInv.moves (hI : PromptInv simulationMode b h) (line : ℕ)
    (hL : Live simulationMode b h)
    (hs : Idles b.session s' es ∨ Shows b.session s' es ∨ ShowsAnswered b.session s' es) :
    PromptInv simulationMode { b with session := s' }
      (h ++ es.filterMap (seen line b.bufferedBy)) := by
  rcases hs with hs | hs | hs
  · rw [hs.silent, List.append_nil]
    exact ⟨hI.kept, hL.idles hs⟩
  · obtain ⟨result, rfl⟩ := hs.shown
    exact ⟨hI.kept.snoc trivial, fun _ => hL.shows hs⟩
  · obtain ⟨yes, hevents⟩ := hs.shown
    have hshown : Each Kept (h ++ [PromptEvent.shown b.session.prompts]) := hI.kept.snoc trivial
    rw [hevents, List.append_cons]
    exact ⟨hshown.snoc (hL.kept_ahead hs.buffered yes), fun _ => hL.showsAnswered hs yes⟩

/-- A line that goes to the prompt in the slot; nothing is in the buffer then. -/
theorem PromptInv.lineAnswers (hI : PromptInv simulationMode b h)
    (hL : Live simulationMode b h) (hslot : b.session.pendingConfirmation = some prompt)
    (hs : Settles { b.session with pendingConfirmation := none } prompt s' es) (yes : Bool)
    (line : ℕ) :
    PromptInv simulationMode { session := s', lines := b.lines + 1, bufferedBy := line }
      (h ++ [PromptEvent.typed b.lines b.session.awaited] ++
        [PromptEvent.answered b.lines prompt yes]) := by
  have htyped : Each Kept (h ++ [PromptEvent.typed b.lines b.session.awaited]) :=
    hI.kept.snoc fun _ => hL.awaited_iff
  have hempty : s'.bufferedLine = none := by
    rcases hs.buffer with hnone | hsame
    · exact hnone
    · refine hsame.trans (hL.empty ?_)
      rw [hslot]
      exact nofun
  have hother : ∀ p, b.session.awaited = some p → p = prompt := by
    rw [← hL.slot, hslot]
    exact fun p heq => (Option.some.inj heq).symm
  refine ⟨htyped.snoc (hL.kept_answered hslot yes), fun hopen => ?_⟩
  refine Live.rebuffer (b := { b with session := s', lines := b.lines + 1 }) ?_
    fun hfull => absurd hempty hfull
  exact hL.typed.settles hs hother rfl rfl (fun _ _ => nofun) hopen

/-- A line that is typed while the slot is free goes to no prompt. -/
theorem Live.typed_free (hL : Live simulationMode b h)
    (hslot : b.session.pendingConfirmation = none) (p : ℕ) :
    .typed b.lines (some p) ∉ h ++ [PromptEvent.typed b.lines b.session.awaited] := by
  intro hmem
  rcases List.mem_append.mp hmem with hold | hone
  · exact absurd (hL.lines _ _ hold) (lt_irrefl _)
  · obtain ⟨-, hawaited⟩ := PromptEvent.typed.inj (List.mem_singleton.mp hone)
    rw [← hL.slot, hslot] at hawaited
    cases hawaited

/-- A line. -/
theorem PromptInv.line (hI : PromptInv simulationMode b h) (hL : Live simulationMode b h)
    {text : List CodeUnit} {command : Command}
    (hline : b.session.handleLine text command = some (s', es)) :
    PromptInv simulationMode (b.observe (.line text command) s' es).1
      (h ++ (b.observe (.line text command) s' es).2) := by
  have htyped : Each Kept (h ++ [PromptEvent.typed b.lines b.session.awaited]) :=
    hI.kept.snoc fun _ => hL.awaited_iff
  have hinv : PromptInv simulationMode { b with lines := b.lines + 1 }
      (h ++ [PromptEvent.typed b.lines b.session.awaited]) := ⟨htyped, fun _ => hL.typed⟩
  show PromptInv simulationMode _ (h ++ _ :: es.filterMap (seen b.lines b.bufferedBy))
  rw [List.append_cons]
  rcases handleLine_cases hline with ⟨prompt, yes, events, hslot, hs, rfl⟩ | ⟨hslot, hs⟩
  · have hevents : (TerminalEvent.answered prompt yes false :: events).filterMap
        (seen b.lines b.bufferedBy) = [.answered b.lines prompt yes] := by
      show PromptEvent.answered b.lines prompt yes :: events.filterMap _ = _
      rw [hs.silent]
    rw [hevents]
    exact hI.lineAnswers hL hslot hs yes _
  · rcases hs with hs | hs | ⟨rfl, rfl⟩
    · have hnext := hinv.moves b.lines hL.typed (.inl hs)
      rw [hs.silent, List.append_nil] at hnext ⊢
      refine ⟨hnext.kept, fun hopen => ?_⟩
      refine (hnext.live hopen).rebuffer fun hfull => ?_
      split
      · exact hL.typed_free hslot
      · exact (hnext.live hopen).buffered hfull
    · have hnext := hinv.moves b.lines hL.typed (.inr (.inl hs))
      refine ⟨hnext.kept, fun hopen => ?_⟩
      exact (hnext.live hopen).rebuffer fun hfull => absurd hs.buffer hfull
    · -- into the buffer
      refine ⟨?_, fun _ => ?_⟩
      · exact (List.append_nil _).symm ▸ htyped
      · have hnext : Live simulationMode
            { b with
              session := { b.session with bufferedLine := some (sanitizeLine text) }
              lines := b.lines + 1
              bufferedBy := b.lines }
            (h ++ [PromptEvent.typed b.lines b.session.awaited]) :=
          { hL.typed with
            empty := fun hne => absurd hslot hne
            buffered := fun _ => hL.typed_free hslot }
        rw [List.filterMap_nil, List.append_nil]
        simpa [observe] using hnext

/-- A timeout, unless another prompt was shown last and waits. -/
theorem PromptInv.timer (hI : PromptInv simulationMode b h) (hL : Live simulationMode b h)
    (hother : ∀ p, b.session.awaited = some p → p = prompt)
    (hset : { b.session with pendingConfirmation := none }.settle prompt false = some (s', es)) :
    PromptInv simulationMode (b.observe (.confirmTimedOut prompt) s' es).1
      (h ++ (b.observe (.confirmTimedOut prompt) s' es).2) := by
  have hs := settles_of_settle hset
  have hlost : b.session.lost s' prompt = none := by
    unfold lost
    split
    · rfl
    · refine Option.filter_eq_none_iff.mpr fun p hp => ?_
      have heq : p = prompt := hother p (hL.slot.symm.trans hp)
      simp [heq]
  show PromptInv simulationMode _ (h ++ _ :: es.filterMap (seen b.lines b.bufferedBy))
  rw [hs.silent, hlost]
  obtain ⟨hshown, hnot⟩ := (hL.booked.waits prompt).mp hs.waits
  refine ⟨hI.kept.snoc ⟨hshown, hnot, rfl⟩, fun hopen => ?_⟩
  exact hL.settles hs hother rfl rfl (fun _ _ => nofun) hopen

theorem PromptInv.step {a : TerminalAction} {b' : PromptSession} {events : List PromptEvent}
    (hI : PromptInv simulationMode b h) (hgood : NoneElseAwaited b h a)
    (hs : b.step a = some (b', events)) : PromptInv simulationMode b' (h ++ events) := by
  obtain ⟨⟨s', es⟩, hstep, hobserve⟩ := Option.map_eq_some_iff.mp hs
  have hopen := open_of_step hstep
  have hL := hI.live hopen
  obtain ⟨rfl, rfl⟩ : (b.observe a s' es).1 = b' ∧ (b.observe a s' es).2 = events :=
    Prod.mk.inj hobserve
  cases a with
  | line text command =>
    rw [step_line hopen] at hstep
    exact hI.line hL hstep
  | confirmTimedOut prompt =>
    rw [step_timer hopen] at hstep
    exact hI.timer hL (hgood prompt rfl) hstep
  | _ => exact hI.moves _ hL (step_cases hstep (fun _ _ => nofun) fun _ => nofun)

/-! ## Every run -/

theorem PromptInv.init (simulationMode : Bool) :
    PromptInv simulationMode (promptSession simulationMode).init [] where
  kept := Each.nil
  live := fun _ =>
    { booked := Booked.init
      mode := rfl
      slot := rfl
      exits := fun _ _ => List.not_mem_nil
      empty := fun _ => rfl
      lines := fun _ _ hmem => absurd hmem List.not_mem_nil
      buffered := fun _ _ => List.not_mem_nil }

theorem PromptInv.promptsKept (hI : PromptInv simulationMode b h) : PromptsKept b h where
  kept := hI.kept
  waits := fun hopen => (hI.live hopen).booked.waits
  settles := by
    intro hopen prompt hmem
    show ((b.session.step _).map _).isSome = true
    rw [Option.isSome_map, step_timer hopen]
    exact settle_isSome (s := { b.session with pendingConfirmation := none }) hmem false

/-- The timer of another prompt takes the callback of the one that is awaited. -/
theorem not_promptsKept_of_timer {a : TerminalAction} {b' : PromptSession}
    {events : List PromptEvent} (hI : PromptInv simulationMode b h)
    (hbad : ¬ NoneElseAwaited b h a) (hs : b.step a = some (b', events)) :
    ¬ PromptsKept b' (h ++ events) := by
  obtain ⟨⟨s', es⟩, hstep, hobserve⟩ := Option.map_eq_some_iff.mp hs
  have hopen := open_of_step hstep
  unfold NoneElseAwaited at hbad
  push Not at hbad
  obtain ⟨prompt, rfl, other, hawaited, hne⟩ := hbad
  rw [step_timer hopen] at hstep
  have hset := settles_of_settle hstep
  have hslot : b.session.pendingConfirmation = some other := (hI.live hopen).slot.trans hawaited
  have hlost : b.session.lost s' prompt = some other := by
    unfold lost
    rw [hset.slot, hslot, if_neg nofun]
    exact Option.filter_some_pos (decide_eq_true hne)
  obtain ⟨-, rfl⟩ := Prod.mk.inj hobserve
  intro hkept
  obtain ⟨-, -, hnone⟩ := hkept.kept h (.timedOut prompt (b.session.lost s' prompt)) _ rfl
  rw [hlost] at hnone
  cases hnone

/-- **Every answer keeps to its prompt.** In every session, live or simulated, and for every
order of lines, prompts and timeouts, a line answers only the prompt it was given to, each
prompt is settled by its own answer or timeout, and no timeout discards the callback of
another prompt, exactly as long as no prompt times out while another one, shown last, waits. -/
theorem promptsKept_iff (simulationMode : Bool) (as : List TerminalAction) :
    (promptSession simulationMode).Always PromptsKept (promptSession simulationMode).init [] as ↔
      (promptSession simulationMode).Along NoneElseAwaited
        (promptSession simulationMode).init [] as :=
  Machine.always_iff_along (M := promptSession simulationMode) (I := PromptInv simulationMode)
    (fun hI => PromptInv.promptsKept hI) (fun hI hgood hs => PromptInv.step hI hgood hs)
    (fun hI hbad hs => not_promptsKept_of_timer hI hbad hs) (PromptInv.init simulationMode) as

/-! ## The prompt of `exit` times out under a trade -/

/-- While `close sol long` is dispatched `exit` is typed, and its prompt left alone. The prompt
of the trade is shown, and then the other one times out before the user says yes. -/
def overtaken : List TerminalAction :=
  [.line (units "close sol long") {}, .dispatches, .line (units "exit") {},
    .dispatched (.result true), .confirmTimedOut 0, .line (units "yes") {}, .confirmTimedOut 1]

/-- The yes answers nothing, and the trade is cancelled by its own timeout. -/
theorem not_promptsKept :
    ∃ s, (promptSession false).run overtaken = some (s,
        [.typed 0 none, .typed 1 none, .shown 0, .shown 1, .timedOut 0 (some 1),
          .typed 2 (some 1), .timedOut 1 none]) ∧
      ¬ PromptsKept s [.typed 0 none, .typed 1 none, .shown 0, .shown 1, .timedOut 0 (some 1),
          .typed 2 (some 1), .timedOut 1 none] := by
  refine ⟨_, rfl, fun hkept => ?_⟩
  obtain ⟨-, -, hnone⟩ := hkept.kept [.typed 0 none, .typed 1 none, .shown 0, .shown 1]
    (.timedOut 0 (some 1)) _ rfl
  cases hnone

end PromptSession

end FlashEdge
