import FlashEdge.Client.MergedPositions

/-!
# The positions a TP/SL pass closes

`checkTpSlTriggers` walks down the list of positions and closes those whose take profit or
stop loss is hit, while every close takes its position out of the list. The pass holds the
trade lock, but prices are refreshed and triggers set and removed while it runs, between any
two of its positions.

- `named_reachable`: positions are filed under upper-case markets, so a close by market and
  side finds the position the pass is looking at.
- `pass_step`: what one step can do while a pass runs.
- `careful_of_pass`: which positions are gone after any part of a pass.
-/

namespace FlashEdge

namespace SimulatedFlashClient

/-! ### The names of the positions -/

/-- Every market is written in capitals. -/
def Named (positions : List SimulatedPosition) : Prop :=
  ∀ p ∈ positions, toUpperCase p.market = p.market

theorem Named.change {ps ps' : List SimulatedPosition} (hn : Named ps) (hc : Change ps ps') :
    Named ps' := by
  cases hc with
  | same => exact hn
  | @set p idx before after x y hat hslot hlive =>
    have hmarket : y.market = x.market := (Prod.mk.inj hslot).1
    intro q hq
    rcases List.mem_or_eq_of_mem_set hq with hold | rfl
    · exact hn q hold
    · rw [hmarket]
      exact hn x hat.mem
  | erase idx => exact fun q hq => hn q (List.mem_of_mem_eraseIdx hq)
  | @snoc y market hmarket hfree hy =>
    intro q hq
    rcases List.mem_append.mp hq with hold | hnew
    · exact hn q hold
    · rw [List.mem_singleton.mp hnew, hmarket, toUpperCase_toUpperCase]

theorem named_reachable {m : Markets} {initialBalance : ℚ} {s : SimulatedFlashClient}
    {h : List Event} (hr : (simulation m initialBalance).Reachable s h) : Named s.positions := by
  refine hr.invariant (I := fun s _ => Named s.positions) ?_ ?_
  · exact fun p hp => absurd hp List.not_mem_nil
  · exact fun hn hs => hn.change (change_step hs)

/-- Looked up by its own market and side, a position is found where it is. -/
theorem findPosition_getElem? {s : SimulatedFlashClient} {i : ℕ} {pos : SimulatedPosition}
    (hp : Paper s.positions) (hn : Named s.positions) (hpos : s.positions[i]? = some pos) :
    ∃ before after, s.findPosition pos.market pos.side = some (i, pos) ∧
      FirstAt (atSlot pos.market pos.side) s.positions i before pos after := by
  have hmem : pos ∈ s.positions := List.mem_of_getElem? hpos
  cases hfind : s.findPosition pos.market pos.side with
  | none =>
    have hin : (pos.market, pos.side) ∈ s.positions.map slot := List.mem_map_of_mem hmem
    have hout := findPosition_none hfind
    rw [hn pos hmem] at hout
    exact absurd hin hout
  | some found =>
    obtain ⟨idx, q⟩ := found
    obtain ⟨before, after, hat⟩ := findPosition_some hfind
    have hslot : slot q = slot pos := by
      have hholds := hat.holds
      rw [Bool.and_eq_true, decide_eq_true_eq, decide_eq_true_eq, hn pos hmem] at hholds
      exact Prod.ext hholds.1 hholds.2
    have hidx : idx = i := by
      have hslots : (s.positions.map slot)[idx]? = (s.positions.map slot)[i]? := by
        rw [List.getElem?_map, List.getElem?_map, hat.getElem?, hpos, Option.map_some,
          Option.map_some, hslot]
      have hlt : idx < (s.positions.map slot).length := by
        rw [List.length_map]
        exact (List.getElem?_eq_some_iff.mp hat.getElem?).1
      exact (List.getElem?_inj hlt hp.unique).mp hslots
    subst hidx
    obtain rfl := Option.some.inj (hat.getElem?.symm.trans hpos)
    exact ⟨before, after, rfl, hat⟩

/-! ### A step of the pass -/

/-- A full close of the position at an index takes out that position, or fails. -/
theorem closePosition_full {s s' : SimulatedFlashClient} {feeRates : ProtocolFeeRates} {now : ℚ}
    {i : ℕ} {pos : SimulatedPosition} {r : ClosePositionResult} {c : Settlement}
    (hp : Paper s.positions) (hn : Named s.positions) (hpos : s.positions[i]? = some pos)
    (hclose : s.closePosition feeRates now pos.market pos.side none none = .ok (s', r, c)) :
    s'.positions = s.positions.eraseIdx i := by
  obtain ⟨before, after, hfind, -⟩ := findPosition_getElem? hp hn hpos
  unfold closePosition at hclose
  rw [hfind] at hclose
  dsimp only at hclose
  split at hclose
  · cases hclose
  · next price _ =>
    obtain ⟨rfl, -⟩ := Prod.mk.inj (Except.ok.inj hclose)
    rfl

/-- What is closed at an index has a live price that hits one of its triggers. -/
theorem triggeredAt_some {s : SimulatedFlashClient} {i : ℕ} {pos : SimulatedPosition}
    (h : s.triggeredAt i = some pos) :
    s.positions[i]? = some pos ∧
      ∃ price, s.livePrices.get? pos.market = some price ∧ triggerHit pos price = true := by
  unfold triggeredAt at h
  split at h
  · cases h
  · next p hp =>
    split at h
    · cases h
    · next price hprice =>
      obtain ⟨⟨-, hhit⟩, hpos⟩ := Option.ite_none_right_eq_some.mp h
      obtain rfl := Option.some.inj hpos
      exact ⟨hp, price, hprice, hhit⟩

def Event.isClosed : Event → Bool
  | .closed _ => true
  | _ => false

/-- While a pass runs, a step takes out nothing and settles nothing, or it takes out and
settles the position it is looking at, whose condition holds. -/
theorem pass_step {m : Markets} {s s' : SimulatedFlashClient} {a : Action} {es : List Event}
    (hp : Paper s.positions) (hn : Named s.positions) (hpass : s.triggerIndex.isSome)
    (hs : s.step m a = some (s', es)) :
    (s'.positions.map slot = s.positions.map slot ∧ es.countP Event.isClosed = 0) ∨
      ∃ i pos, s.triggeredAt i = some pos ∧ s'.positions = s.positions.eraseIdx i ∧
        es.countP Event.isClosed = 1 := by
  have hblocked : ∀ b, ¬ (if s.triggerIndex.isNone then some (s.locked m b) else none) =
      some (s', es) := by
    intro b hb
    obtain ⟨hnone, -⟩ := Option.ite_none_right_eq_some.mp hb
    rw [Option.isNone_iff_eq_none.mp hnone] at hpass
    cases hpass
  have hset : ∀ {market side idx} {pos y : SimulatedPosition},
      s.findPosition market side = some (idx, pos) → slot y = slot pos →
        (s.positions.set idx y).map slot = s.positions.map slot := by
    intro market side idx pos y hfind hslot
    obtain ⟨before, after, hat⟩ := findPosition_some hfind
    rw [hat.set y, hat.split, List.map_append, List.map_append, List.map_cons, List.map_cons,
      hslot]
  cases a with
  | refreshPrices feed =>
    obtain ⟨rfl, rfl⟩ := Machine.some_pair hs
    exact .inl ⟨congrArg _ (sameAccount_refreshPrices s feed).positions, rfl⟩
  | setTpSl market side tp sl =>
    obtain ⟨rfl, rfl⟩ := Machine.some_pair hs
    refine .inl ⟨?_, rfl⟩
    unfold setTpSl
    split
    · rfl
    · next hfind => exact hset hfind rfl
  | removeTpSl market side =>
    obtain ⟨rfl, rfl⟩ := Machine.some_pair hs
    refine .inl ⟨?_, rfl⟩
    unfold removeTpSl
    split
    · rfl
    · next hfind => exact hset hfind rfl
  | triggerNext feed feeRates now =>
    rw [step] at hs
    split at hs
    · next i hi =>
      obtain ⟨rfl, rfl⟩ := Machine.some_pair hs
      cases i with
      | zero => exact .inl ⟨rfl, rfl⟩
      | succ i =>
        have hsame := (sameAccount_refreshPrices s feed).positions
        unfold triggerNext
        dsimp only
        cases htriggered : s.triggeredAt i with
        | none => exact .inl ⟨rfl, rfl⟩
        | some pos =>
          dsimp only
          cases hclose : (s.refreshPrices feed).closePosition feeRates now pos.market pos.side none
              none with
          | error error => exact .inl ⟨congrArg _ hsame, rfl⟩
          | ok closed =>
            obtain ⟨closed, r, c⟩ := closed
            have herase := closePosition_full (hsame.symm ▸ hp) (hsame.symm ▸ hn)
              (hsame.symm ▸ (triggeredAt_some htriggered).1) hclose
            rw [hsame] at herase
            exact .inr ⟨i, pos, htriggered, herase, rfl⟩
    · cases hs
  | openPosition feed feeRates id now market side collateralAmount leverage =>
    exact absurd hs (hblocked _)
  | closePosition feed feeRates now market side closePercent closeAmount =>
    exact absurd hs (hblocked _)
  | addCollateral now market side amount => exact absurd hs (hblocked _)
  | removeCollateral feed now market side amount => exact absurd hs (hblocked _)
  | checkTpSlTriggers => exact absurd hs (hblocked _)

/-! ### The pass -/

/-- A position that a step took out of the list, and the client just before that step. -/
structure Closing where
  before : SimulatedFlashClient
  position : SimulatedPosition

/-- The positions there before a step and not after it. -/
def closings (s s' : SimulatedFlashClient) : List Closing :=
  (s.positions.filter fun p => slot p ∉ s'.positions.map slot).map fun p => ⟨s, p⟩

/-- A pass that began in `start` and has run for a while, among whatever else may happen
meanwhile: the client now, the positions closed so far, and the events. -/
inductive Pass (m : Markets) (start : SimulatedFlashClient) :
    SimulatedFlashClient → List Closing → List Event → Prop
  | begin {s : SimulatedFlashClient} {es : List Event} :
      start.step m .checkTpSlTriggers = some (s, es) → Pass m start s [] es
  | step {s s' : SimulatedFlashClient} {cs : List Closing} {h es : List Event} {a : Action} :
      Pass m start s cs h → s.triggerIndex.isSome → s.step m a = some (s', es) →
        Pass m start s' (cs ++ closings s s') (h ++ es)

/-- The positions a pass has closed: each of them once and settled once, gone since, held when
the pass began, and with its own trigger hit by the live price at which the pass saw it. -/
structure Careful (start s : SimulatedFlashClient) (cs : List Closing) (h : List Event) :
    Prop where
  once : (cs.map (slot ·.position)).Nodup
  gone : ∀ c ∈ cs, slot c.position ∉ s.positions.map slot
  held : ∀ c ∈ cs, slot c.position ∈ start.positions.map slot
  triggered : ∀ c ∈ cs, ∃ price, c.before.livePrices.get? c.position.market = some price ∧
    triggerHit c.position price = true
  settled : h.countP Event.isClosed = cs.length

/-- The steps of a pass, performed for as long as it runs. -/
def passFrom (m : Markets) : SimulatedFlashClient → List Closing → List Event → List Action →
    Option (SimulatedFlashClient × List Closing × List Event)
  | s, cs, h, [] => some (s, cs, h)
  | s, cs, h, a :: as =>
    if s.triggerIndex.isSome then
      match s.step m a with
      | none => none
      | some (s', es) => passFrom m s' (cs ++ closings s s') (h ++ es) as
    else none

theorem pass_of_passFrom {m : Markets} {start s s' : SimulatedFlashClient}
    {cs cs' : List Closing} {h h' : List Event} {as : List Action} (hpass : Pass m start s cs h)
    (hrun : passFrom m s cs h as = some (s', cs', h')) : Pass m start s' cs' h' := by
  induction as generalizing s cs h with
  | nil =>
    obtain ⟨rfl, hrest⟩ := Prod.mk.inj (Option.some.inj hrun)
    obtain ⟨rfl, rfl⟩ := Prod.mk.inj hrest
    exact hpass
  | cons a as ih =>
    rw [passFrom] at hrun
    split at hrun
    · next hopen =>
      split at hrun
      · cases hrun
      · next hs => exact ih (.step hpass hopen hs) hrun
    · cases hrun

theorem closings_of_same {s s' : SimulatedFlashClient}
    (h : s'.positions.map slot = s.positions.map slot) : closings s s' = [] := by
  unfold closings
  rw [List.map_eq_nil_iff, List.filter_eq_nil_iff, h]
  intro p hp
  rw [decide_eq_true_eq, not_not]
  exact List.mem_map_of_mem hp

/-- One position out of a list without two of one slot. -/
theorem closings_of_erase {s s' : SimulatedFlashClient} {i : ℕ} {pos : SimulatedPosition}
    (hp : Paper s.positions) (hpos : s.positions[i]? = some pos)
    (herase : s'.positions = s.positions.eraseIdx i) :
    closings s s' = [⟨s, pos⟩] ∧ slot pos ∉ s'.positions.map slot := by
  obtain ⟨hlt, hget⟩ := List.getElem?_eq_some_iff.mp hpos
  have hsplit : s.positions = s.positions.take i ++ pos :: s.positions.drop (i + 1) := by
    rw [← hget, ← List.drop_eq_getElem_cons hlt, List.take_append_drop]
  have hrest : s'.positions = s.positions.take i ++ s.positions.drop (i + 1) := by
    rw [herase, List.eraseIdx_eq_take_drop_succ]
  generalize s.positions.take i = before at hsplit hrest
  generalize s.positions.drop (i + 1) = after at hsplit hrest
  have hnodup := hp.unique
  rw [hsplit, List.map_append, List.map_cons, List.nodup_middle, List.nodup_cons,
    ← List.map_append] at hnodup
  refine ⟨?_, hrest ▸ hnodup.1⟩
  have hkept : ∀ l : List SimulatedPosition, (∀ q ∈ l, q ∈ before ++ after) →
      l.filter (fun p => slot p ∉ (before ++ after).map slot) = [] := by
    intro l hl
    refine List.filter_eq_nil_iff.mpr fun q hq => ?_
    rw [decide_eq_true_eq, not_not]
    exact List.mem_map_of_mem (hl q hq)
  unfold closings
  rw [hrest, hsplit, List.filter_append, hkept before (fun q hq => List.mem_append_left _ hq),
    List.filter_cons, if_pos (decide_eq_true hnodup.1),
    hkept after (fun q hq => List.mem_append_right _ hq)]
  rfl

theorem Pass.reachable {m : Markets} {initialBalance : ℚ} {start s : SimulatedFlashClient}
    {hist h : List Event} {cs : List Closing} (hpass : Pass m start s cs h)
    (hr : (simulation m initialBalance).Reachable start hist) :
    ∃ hist, (simulation m initialBalance).Reachable s hist := by
  induction hpass with
  | begin hs => exact ⟨_, hr.step (a := .checkTpSlTriggers) hs⟩
  | step _ _ hs ih =>
    obtain ⟨hist, hr'⟩ := ih
    exact ⟨_, Machine.Reachable.step hr' hs⟩

theorem Careful.of_same {start s s' : SimulatedFlashClient} {cs : List Closing}
    {h es : List Event} (hc : Careful start s cs h)
    (hslots : s'.positions.map slot = s.positions.map slot)
    (hes : es.countP Event.isClosed = 0) :
    Careful start s' (cs ++ closings s s') (h ++ es) := by
  rw [closings_of_same hslots, List.append_nil]
  refine ⟨hc.once, ?_, hc.held, hc.triggered, ?_⟩
  · rw [hslots]
    exact hc.gone
  · rw [List.countP_append, hes, hc.settled, Nat.add_zero]

/-- Closing one more position: it is still there, so it is none of those closed before. -/
theorem Careful.of_erase {start s s' : SimulatedFlashClient} {cs : List Closing}
    {h es : List Event} {i : ℕ} {pos : SimulatedPosition} (hc : Careful start s cs h)
    (hp : Paper s.positions)
    (hstart : ∀ p ∈ s.positions, slot p ∈ start.positions.map slot)
    (htriggered : s.triggeredAt i = some pos) (herase : s'.positions = s.positions.eraseIdx i)
    (hes : es.countP Event.isClosed = 1) :
    Careful start s' (cs ++ closings s s') (h ++ es) := by
  obtain ⟨hpos, htrigger⟩ := triggeredAt_some htriggered
  have hmem : pos ∈ s.positions := List.mem_of_getElem? hpos
  obtain ⟨hclosings, hgone⟩ := closings_of_erase hp hpos herase
  have hfewer : ∀ k ∈ s'.positions.map slot, k ∈ s.positions.map slot := by
    intro k hk
    rw [herase] at hk
    exact ((List.eraseIdx_sublist s.positions i).map slot).subset hk
  rw [hclosings]
  refine ⟨?_, ?_, ?_, ?_, ?_⟩
  · rw [List.map_append, List.map_singleton]
    refine List.nodup_append.mpr ⟨hc.once, List.nodup_singleton _, ?_⟩
    rintro k hk _ hk' rfl
    obtain ⟨c, hcmem, rfl⟩ := List.mem_map.mp hk
    rw [List.mem_singleton] at hk'
    exact hc.gone c hcmem (hk' ▸ List.mem_map_of_mem hmem)
  · intro c hcmem
    rcases List.mem_append.mp hcmem with hold | hnew
    · exact fun hin => hc.gone c hold (hfewer _ hin)
    · rw [List.mem_singleton.mp hnew]
      exact hgone
  · intro c hcmem
    rcases List.mem_append.mp hcmem with hold | hnew
    · exact hc.held c hold
    · rw [List.mem_singleton.mp hnew]
      exact hstart pos hmem
  · intro c hcmem
    rcases List.mem_append.mp hcmem with hold | hnew
    · exact hc.triggered c hold
    · rw [List.mem_singleton.mp hnew]
      exact htrigger
  · rw [List.countP_append, hes, hc.settled, List.length_append, List.length_singleton]

/-- In every pass, begun in any state a run can reach, with whatever happens between any two of
its positions. -/
theorem careful_of_pass {m : Markets} {initialBalance : ℚ} {start s : SimulatedFlashClient}
    {hist h : List Event} {cs : List Closing}
    (hr : (simulation m initialBalance).Reachable start hist) (hpass : Pass m start s cs h) :
    Careful start s cs h := by
  have hboth : Careful start s cs h ∧
      ∀ p ∈ s.positions, slot p ∈ start.positions.map slot := by
    induction hpass with
    | @begin s es hs =>
      obtain ⟨-, hlocked⟩ := Option.ite_none_right_eq_some.mp hs
      obtain ⟨rfl, rfl⟩ := Machine.some_pair hlocked
      refine ⟨⟨List.nodup_nil, ?_, ?_, ?_, rfl⟩, fun p hp => List.mem_map_of_mem hp⟩
      all_goals exact fun c hc => absurd hc List.not_mem_nil
    | @step s s' cs h es a hpass hopen hs ih =>
      obtain ⟨hcareful, hstart⟩ := ih
      obtain ⟨hist', hreach⟩ := hpass.reachable hr
      have hpaper := paper_reachable hreach
      rcases pass_step hpaper (named_reachable hreach) hopen hs with
        ⟨hslots, hes⟩ | ⟨i, pos, htriggered, herase, hes⟩
      · refine ⟨hcareful.of_same hslots hes, fun p hp => ?_⟩
        have hin : slot p ∈ s'.positions.map slot := List.mem_map_of_mem hp
        rw [hslots] at hin
        obtain ⟨q, hq, hslot⟩ := List.mem_map.mp hin
        exact hslot ▸ hstart q hq
      · refine ⟨hcareful.of_erase hpaper hstart htriggered herase hes, fun p hp => ?_⟩
        rw [herase] at hp
        exact hstart p (List.mem_of_mem_eraseIdx hp)
  exact hboth.1

/-- A long and a short of SOL: at 160 the one takes its profit and the other stops its loss. -/
def solTriggers : List Action :=
  [.openPosition (solFeed 100) solRates "a" 0 "sol" .Long 100 2,
    .openPosition (solFeed 100) solRates "b" 1 "SOL" .Short 100 2,
    .setTpSl "SOL" .Long (some 150) none, .setTpSl "SOL" .Short none (some 150),
    .refreshPrices (solFeed 160)]

/-- The pass, during which the trigger of the position it has closed is removed. -/
def solPass : List Action :=
  [.triggerNext (solFeed 160) solRates 2, .removeTpSl "SOL" .Short,
    .triggerNext (solFeed 160) solRates 3, .triggerNext (solFeed 160) solRates 4]

theorem careful_of_pass_sol :
    ∃ start hist s cs h, (simulation solMarkets 1000).run solTriggers = some (start, hist) ∧
      Pass solMarkets start s cs h ∧ s.triggerIndex = none ∧ cs.length = 2 ∧
        Careful start s cs h := by
  have hrun : ((simulation solMarkets 1000).run solTriggers).map (fun r =>
      (passFrom solMarkets { r.1 with triggerIndex := some r.1.positions.length } [] [] solPass).map
        fun t => (t.1.triggerIndex, t.2.1.length)) = some (some (none, 2)) := by
    decide +kernel
  obtain ⟨⟨start, hist⟩, hstart, hpasses⟩ := Option.map_eq_some_iff.mp hrun
  obtain ⟨⟨s, cs, h⟩, hs, hend⟩ := Option.map_eq_some_iff.mp hpasses
  obtain ⟨hreleased, hlength⟩ := Prod.mk.inj hend
  have hfree : start.triggerIndex = none := by
    have hindex : ((simulation solMarkets 1000).run solTriggers).map (·.1.triggerIndex) =
        some none := by decide +kernel
    rw [hstart, Option.map_some] at hindex
    exact Option.some.inj hindex
  have hbegin : start.step solMarkets .checkTpSlTriggers =
      some ({ start with triggerIndex := some start.positions.length }, []) := by
    show (if start.triggerIndex.isNone then _ else none) = _
    rw [hfree]
    rfl
  have hpass : Pass solMarkets start s cs h := pass_of_passFrom (.begin hbegin) hs
  exact ⟨start, hist, s, cs, h, hstart, hpass, hreleased, hlength,
    careful_of_pass (Machine.reachable_of_run hstart) hpass⟩

end SimulatedFlashClient

end FlashEdge
