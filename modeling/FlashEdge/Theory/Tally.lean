import FlashEdge.Theory.OrderedMap
import Mathlib.Data.List.Sort

/-!
# Weighted counts

Items with weights are counted by key, items without a key not at all, and the key with the
largest count is chosen.

- `total`, `IsMost`: the weight of a key, and the keys that none outweighs.
- `tally`: the counts of the keys that occur; `get?_tally` says what they are.
- `heaviest`: an entry with the largest count, the first of them in a stable order.
- `isMost_of_heaviest`, `not_keyed_of_heaviest`: the choice from a tally.
- `total_perm`, `IsMost.perm`: the order of the items plays no part.
- `IsChoice`: the choice with a default, of no items with a key, of one, of two.
-/

namespace FlashEdge

universe u v

variable {κ : Type u} {ι : Type v} [DecidableEq κ]

/-- The weight of all items with a key. -/
def total (key : ι → Option κ) (weight : ι → ℕ) (items : List ι) (k : κ) : ℕ :=
  ((items.filter fun i => key i = some k).map weight).sum

/-- A key of an item that no key outweighs. -/
def IsMost (key : ι → Option κ) (weight : ι → ℕ) (items : List ι) (k : κ) : Prop :=
  (∃ i ∈ items, key i = some k) ∧ ∀ k', total key weight items k' ≤ total key weight items k

/-- The counts of the keys, one item after another. -/
def tally (key : ι → Option κ) (weight : ι → ℕ) (items : List ι) : OrderedMap κ ℕ :=
  items.foldl
    (fun m i =>
      match key i with
      | some k => m.set k ((m.get? k).getD 0 + weight i)
      | none => m)
    .empty

/-- The first of the entries with the largest count. -/
def heaviest (entries : List (κ × ℕ)) : Option κ :=
  (entries.insertionSort fun a b => b.2 ≤ a.2).head?.map Prod.fst

section Counts

variable {key : ι → Option κ} {weight : ι → ℕ} {items items' : List ι} {k : κ}

theorem total_append (xs ys : List ι) :
    total key weight (xs ++ ys) k = total key weight xs k + total key weight ys k := by
  unfold total
  rw [List.filter_append, List.map_append, List.sum_append]

theorem total_cons (i : ι) (is : List ι) :
    total key weight (i :: is) k = (if key i = some k then weight i else 0) +
      total key weight is k := by
  unfold total
  rw [List.filter_cons]
  by_cases hi : key i = some k
  · rw [if_pos (decide_eq_true hi), if_pos hi, List.map_cons, List.sum_cons]
  · rw [if_neg (by simpa using hi), if_neg hi, Nat.zero_add]

/-- The order of the items plays no part. -/
theorem total_perm (h : items.Perm items') (k : κ) :
    total key weight items k = total key weight items' k :=
  ((h.filter _).map weight).sum_eq

theorem IsMost.perm (hmost : IsMost key weight items k) (h : items.Perm items') :
    IsMost key weight items' k := by
  obtain ⟨⟨i, hi, hkey⟩, hmax⟩ := hmost
  refine ⟨⟨i, h.mem_iff.mp hi, hkey⟩, fun k' => ?_⟩
  rw [← total_perm h, ← total_perm h]
  exact hmax k'

/-- Only the keys of the items count. -/
theorem total_congr {key' : ι → Option κ} (h : ∀ i ∈ items, key i = key' i) (k : κ) :
    total key weight items k = total key' weight items k := by
  unfold total
  rw [List.filter_congr fun i hi => by rw [h i hi]]

theorem IsMost.congr {key' : ι → Option κ} (h : ∀ i ∈ items, key i = key' i)
    (hmost : IsMost key weight items k) : IsMost key' weight items k := by
  obtain ⟨⟨i, hi, hkey⟩, hmax⟩ := hmost
  refine ⟨⟨i, hi, by rw [← h i hi, hkey]⟩, fun k' => ?_⟩
  rw [← total_congr h, ← total_congr h]
  exact hmax k'

/-- A key of no item has no weight. -/
theorem total_eq_zero (h : ∀ i ∈ items, key i ≠ some k) : total key weight items k = 0 := by
  unfold total
  rw [List.filter_eq_nil_iff.mpr fun i hi => by simpa using h i hi]
  rfl

/-! ## The tally -/

/-- **The tally has the weight of every key that occurs.** -/
theorem get?_tally (items : List ι) (k : κ) :
    (tally key weight items).get? k =
      if ∃ i ∈ items, key i = some k then some (total key weight items k) else none := by
  induction items using List.reverseRecOn with
  | nil => simp [tally]
  | append_singleton items i ih =>
    have hstep : tally key weight (items ++ [i]) =
        match key i with
        | some k => (tally key weight items).set k
            (((tally key weight items).get? k).getD 0 + weight i)
        | none => tally key weight items := by
      unfold tally
      rw [List.foldl_append]
      rfl
    have htotal : total key weight (items ++ [i]) k =
        total key weight items k + if key i = some k then weight i else 0 := by
      rw [total_append, total_cons]
      rfl
    rw [hstep, htotal]
    cases hkey : key i with
    | none =>
      dsimp only
      rw [ih]
      simp [hkey]
    | some k' =>
      dsimp only
      rw [OrderedMap.get?_set]
      by_cases hk : k = k'
      · subst hk
        rw [if_pos rfl, if_pos ⟨i, by simp, hkey⟩, if_pos rfl, ih]
        split
        · rfl
        · next hno =>
          have hzero : total key weight items k = 0 :=
            total_eq_zero fun j hj hj' => hno ⟨j, hj, hj'⟩
          rw [hzero]
          rfl
      · have hne : ¬ some k' = some k := fun heq => hk (Option.some.inj heq).symm
        rw [if_neg hk, if_neg hne, ih]
        simp [hkey, hne]

/-- The entries of the tally, in whatever order they are read. -/
theorem mem_entries_tally {n : ℕ} :
    (k, n) ∈ (tally key weight items).entries ↔
      (∃ i ∈ items, key i = some k) ∧ n = total key weight items k := by
  rw [← OrderedMap.get?_eq_some_iff, get?_tally]
  split
  · next hoccurs =>
    rw [Option.some_inj, and_iff_right hoccurs]
    exact eq_comm
  · next hno => exact ⟨fun h => (by cases h), fun h => absurd h.1 hno⟩

/-! ## The choice -/

omit [DecidableEq κ] in
theorem heaviest_eq_none_iff {entries : List (κ × ℕ)} : heaviest entries = none ↔ entries = [] := by
  unfold heaviest
  rw [Option.map_eq_none_iff, List.head?_eq_none_iff, ← List.length_eq_zero_iff,
    List.length_insertionSort, List.length_eq_zero_iff]

omit [DecidableEq κ] in
/-- The chosen entry has the largest count. -/
theorem heaviest_spec {entries : List (κ × ℕ)} (h : heaviest entries = some k) :
    ∃ n, (k, n) ∈ entries ∧ ∀ e ∈ entries, e.2 ≤ n := by
  unfold heaviest at h
  obtain ⟨e, he, rfl⟩ := Option.map_eq_some_iff.mp h
  obtain ⟨rest, hsorted⟩ := List.head?_eq_some_iff.mp he
  have hperm := List.perm_insertionSort (fun a b : κ × ℕ => b.2 ≤ a.2) entries
  have hpairwise := List.pairwise_insertionSort (fun a b : κ × ℕ => b.2 ≤ a.2) entries
  rw [hsorted] at hperm hpairwise
  refine ⟨e.2, hperm.mem_iff.mp List.mem_cons_self, fun e' he' => ?_⟩
  rcases List.mem_cons.mp (hperm.mem_iff.mpr he') with rfl | hrest
  · exact le_refl e'.2
  · exact (List.pairwise_cons.mp hpairwise).1 e' hrest

variable {entries : List (κ × ℕ)} (hentries : entries.Perm (tally key weight items).entries)

include hentries

/-- **The choice from the entries of a tally** is a key that none outweighs. -/
theorem isMost_of_heaviest (h : heaviest entries = some k) : IsMost key weight items k := by
  obtain ⟨n, hmem, hmax⟩ := heaviest_spec h
  obtain ⟨hoccurs, rfl⟩ := mem_entries_tally.mp (hentries.mem_iff.mp hmem)
  refine ⟨hoccurs, fun k' => ?_⟩
  by_cases hk' : ∃ i ∈ items, key i = some k'
  · exact hmax _ (hentries.mem_iff.mpr (mem_entries_tally.mpr ⟨hk', rfl⟩))
  · rw [total_eq_zero fun i hi hkey => hk' ⟨i, hi, hkey⟩]
    exact Nat.zero_le _

/-- There is no choice only where there are no keys. -/
theorem not_keyed_of_heaviest (h : heaviest entries = none) : ∀ i ∈ items, key i = none := by
  intro i hi
  rw [heaviest_eq_none_iff.mp h] at hentries
  cases hkey : key i with
  | none => rfl
  | some k =>
    have hmem := mem_entries_tally.mpr ⟨⟨i, hi, hkey⟩, (rfl : total key weight items k = _)⟩
    have hnil := hentries.mem_iff.mpr hmem
    cases hnil

end Counts

/-! ## A choice with a default -/

/-- A key that no key outweighs, or the default where no item has a key. -/
def IsChoice (key : ι → Option κ) (weight : ι → ℕ) (default : κ) (items : List ι) (k : κ) : Prop :=
  (∀ i ∈ items, key i = none) ∧ k = default ∨ IsMost key weight items k

section Choices

variable {key : ι → Option κ} {weight : ι → ℕ} {items items' : List ι} {k d : κ}

theorem isChoice_heaviest {entries : List (κ × ℕ)}
    (hentries : entries.Perm (tally key weight items).entries) (d : κ) :
    IsChoice key weight d items ((heaviest entries).getD d) := by
  cases hk : heaviest entries with
  | none => exact Or.inl ⟨not_keyed_of_heaviest hentries hk, rfl⟩
  | some k => exact Or.inr (isMost_of_heaviest hentries hk)

theorem IsChoice.perm (hchoice : IsChoice key weight d items k) (h : items.Perm items') :
    IsChoice key weight d items' k := by
  rcases hchoice with ⟨hnone, hk⟩ | hmost
  · exact Or.inl ⟨fun i hi => hnone i (h.mem_iff.mpr hi), hk⟩
  · exact Or.inr (hmost.perm h)

/-- Only the keys of the items count. -/
theorem IsChoice.congr {key' : ι → Option κ} (hchoice : IsChoice key weight d items k)
    (h : ∀ i ∈ items, key i = key' i) : IsChoice key' weight d items k := by
  rcases hchoice with ⟨hnone, hk⟩ | hmost
  · exact Or.inl ⟨fun i hi => by rw [← h i hi, hnone i hi], hk⟩
  · exact Or.inr (hmost.congr h)

/-- Where every key is the default, there is no other choice. -/
theorem isChoice_default (h : ∀ i ∈ items, (key i).getD d = d) :
    IsChoice key weight d items k ↔ k = d := by
  have hkey : ∀ i ∈ items, ∀ k', key i = some k' → k' = d := by
    intro i hi k' hk'
    have hd := h i hi
    rwa [hk'] at hd
  constructor
  · rintro (⟨-, hk⟩ | ⟨⟨i, hi, hk⟩, -⟩)
    · exact hk
    · exact hkey i hi k hk
  · rintro rfl
    by_cases hnone : ∀ i ∈ items, key i = none
    · exact Or.inl ⟨hnone, rfl⟩
    · push Not at hnone
      obtain ⟨i, hi, hne⟩ := hnone
      obtain ⟨k', hk'⟩ := Option.ne_none_iff_exists'.mp hne
      have hkd : k' = k := hkey i hi k' hk'
      refine Or.inr ⟨⟨i, hi, by rw [hk', hkd]⟩, fun k'' => ?_⟩
      by_cases hk'' : k'' = k
      · rw [hk'']
      · rw [total_eq_zero fun j hj hj' => hk'' (hkey j hj k'' hj')]
        exact Nat.zero_le _

/-- An item without a key plays no part. -/
theorem isChoice_cons_none {i : ι} (hi : key i = none) :
    IsChoice key weight d (i :: items) k ↔ IsChoice key weight d items k := by
  have htotal : ∀ k', total key weight (i :: items) k' = total key weight items k' := by
    intro k'
    rw [total_cons, if_neg (by simp [hi]), Nat.zero_add]
  have hmost : IsMost key weight (i :: items) k ↔ IsMost key weight items k := by
    unfold IsMost
    simp only [htotal, List.mem_cons, exists_eq_or_imp, hi, reduceCtorEq, false_or]
  unfold IsChoice
  rw [hmost, List.forall_mem_cons, and_iff_right hi]

theorem isChoice_singleton {i : ι} :
    IsChoice key weight d [i] k ↔ k = (key i).getD d := by
  cases hi : key i with
  | none =>
    rw [isChoice_default fun j hj => by rw [List.mem_singleton.mp hj, hi]; rfl]
    rfl
  | some k' =>
    constructor
    · rintro (⟨hnone, -⟩ | ⟨⟨j, hj, hk⟩, -⟩)
      · exact absurd (hnone i (List.mem_singleton_self i)) (by simp [hi])
      · rw [List.mem_singleton.mp hj, hi] at hk
        exact (Option.some.inj hk).symm
    · rintro rfl
      refine Or.inr ⟨⟨i, List.mem_singleton_self i, hi⟩, fun k'' => ?_⟩
      rw [total_cons, total_cons, if_pos hi]
      split <;> simp [total]

/-- Of two items the heavier one decides. -/
theorem eq_of_isChoice_pair {i j : ι} {v : κ} (hi : key i = some v) (hlt : weight j < weight i)
    (h : IsChoice key weight d [i, j] k) : k = v := by
  rcases h with ⟨hnone, -⟩ | ⟨-, hmax⟩
  · exact absurd (hnone i List.mem_cons_self) (by simp [hi])
  · by_contra hne
    have hv := hmax v
    have hiv : ¬ key i = some k := fun hk => hne (Option.some.inj (hk.symm.trans hi))
    rw [total_cons, total_cons, total_cons, total_cons, if_pos hi, if_neg hiv] at hv
    have hj : (if key j = some k then weight j else 0) ≤ weight j := by
      split
      · exact le_refl _
      · exact Nat.zero_le _
    have hnil : total key weight [] k = 0 := rfl
    omega

/-- Two ways of keying differ in a choice where the heavier of two items has no key on one side
and the default on the other, and the lighter one has another key. -/
theorem not_isChoice_pair {key' : ι → Option κ} {i j : ι} (hi : key i = none)
    (hi' : key' i = some d) (hlt : weight j < weight i) (hj : (key j).getD d ≠ d)
    (h : IsChoice key weight d [i, j] k) : ¬ IsChoice key' weight d [i, j] k := by
  intro h'
  rw [isChoice_cons_none hi, isChoice_singleton] at h
  rw [← h, eq_of_isChoice_pair hi' hlt h'] at hj
  exact hj rfl

end Choices

end FlashEdge
