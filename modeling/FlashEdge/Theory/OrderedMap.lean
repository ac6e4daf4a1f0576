import Mathlib.Data.List.Nodup
import Mathlib.Data.List.Perm.Subperm
import Mathlib.Data.List.Basic
import Mathlib.Data.List.Induction
import Mathlib.Algebra.BigOperators.Group.List.Basic
import Mathlib.Tactic.Abel

/-!
# Insertion-ordered maps

The `Map` of an imperative runtime: keys are unique, iteration follows the
order of first insertion, writing to a present key keeps its place, and a key
that is deleted and written again goes to the end. The invariant (no key twice)
is a field, so every operation proves it once and no client states it again.

- `get?`, `set`, `delete`, `modify`, `filter`, `mapValues`, `takeLast`, `has`, `size`, `keys`:
  the operations.
- `get?_set`, `get?_delete`, `get?_modify`, `get?_filter`, `get?_mapValues`: what a look-up
  sees after each.
- `get?_foldl_set_last`: the same after several writes, of which the last one counts.
- `get?_eq_some_iff`: an entry is what a look-up of its key finds.
- `mem_keys_set`, `mem_keys_delete`: the keys after a write and after a deletion.
- `sum_set`: a sum over the entries after a write.
-/

namespace FlashEdge

universe u v w

/-- A finite map whose entries are kept in insertion order. -/
structure OrderedMap (κ : Type u) (ν : Type v) where
  entries : List (κ × ν)
  nodup : (entries.map Prod.fst).Nodup
deriving DecidableEq

namespace OrderedMap

variable {κ : Type u} {ν : Type v} [DecidableEq κ]

/-- The map without entries. -/
def empty : OrderedMap κ ν := ⟨[], List.nodup_nil⟩

/-- The value stored under a key. -/
def get? (m : OrderedMap κ ν) (k : κ) : Option ν :=
  (m.entries.find? fun e => e.1 = k).map Prod.snd

/-- Whether a key is present. -/
def has (m : OrderedMap κ ν) (k : κ) : Bool := (m.get? k).isSome

/-- The keys, in insertion order. -/
def keys (m : OrderedMap κ ν) : List κ := m.entries.map Prod.fst

/-- The number of entries. -/
def size (m : OrderedMap κ ν) : Nat := m.entries.length

/-- Change the value under a key, if there is one; every entry keeps its place. -/
def modify (m : OrderedMap κ ν) (k : κ) (f : ν → ν) : OrderedMap κ ν where
  entries := m.entries.map fun e => if e.1 = k then (e.1, f e.2) else e
  nodup := by
    have hkeys : (m.entries.map fun e => if e.1 = k then (e.1, f e.2) else e).map Prod.fst
        = m.entries.map Prod.fst := by
      rw [List.map_map]
      refine List.map_congr_left fun e _ => ?_
      show (if e.1 = k then (e.1, f e.2) else e).1 = e.1
      split <;> rfl
    rw [hkeys]
    exact m.nodup

/-- Delete a key. -/
def delete (m : OrderedMap κ ν) (k : κ) : OrderedMap κ ν where
  entries := m.entries.filter fun e => e.1 ≠ k
  nodup := m.nodup.sublist (List.filter_sublist.map Prod.fst)

/-- Keep the entries that pass a test. -/
def filter (m : OrderedMap κ ν) (keep : κ → ν → Bool) : OrderedMap κ ν where
  entries := m.entries.filter fun e => keep e.1 e.2
  nodup := m.nodup.sublist (List.filter_sublist.map Prod.fst)

/-- Change every value; every entry keeps its place. -/
def mapValues {ω : Type w} (m : OrderedMap κ ν) (f : κ → ν → ω) : OrderedMap κ ω where
  entries := m.entries.map fun e => (e.1, f e.1 e.2)
  nodup := by
    rw [List.map_map]
    exact m.nodup

/-- Keep the `n` entries that were inserted last. -/
def takeLast (m : OrderedMap κ ν) (n : Nat) : OrderedMap κ ν where
  entries := m.entries.drop (m.entries.length - n)
  nodup := m.nodup.sublist ((List.drop_sublist _ _).map Prod.fst)

omit [DecidableEq κ] in
theorem takeLast_of_size_le {m : OrderedMap κ ν} {n : Nat} (h : m.size ≤ n) :
    m.takeLast n = m := by
  unfold takeLast
  obtain ⟨l, hl⟩ := m
  have hzero : l.length - n = 0 := Nat.sub_eq_zero_of_le h
  simp only [hzero, List.drop_zero]

theorem find?_eq_none_iff {l : List (κ × ν)} {k : κ} :
    l.find? (fun e => e.1 = k) = none ↔ k ∉ l.map Prod.fst := by
  rw [List.find?_eq_none, List.mem_map]
  constructor
  · rintro hnone ⟨e, he, rfl⟩
    exact hnone e he (decide_eq_true rfl)
  · intro hno e he hek
    exact hno ⟨e, he, of_decide_eq_true hek⟩

/-- A key is absent exactly when the look-up fails. -/
theorem get?_eq_none_iff {m : OrderedMap κ ν} {k : κ} : m.get? k = none ↔ k ∉ m.keys := by
  rw [get?, Option.map_eq_none_iff, find?_eq_none_iff, keys]

/-- Write a value: in place when the key is present, at the end otherwise. -/
def set (m : OrderedMap κ ν) (k : κ) (v : ν) : OrderedMap κ ν :=
  if h : k ∈ m.entries.map Prod.fst then m.modify k fun _ => v
  else
    { entries := m.entries ++ [(k, v)]
      nodup := by
        rw [List.map_append, List.nodup_append]
        refine ⟨m.nodup, List.nodup_singleton _, ?_⟩
        intro a ha b hb hab
        obtain rfl : b = k := by simpa using hb
        exact h (hab ▸ ha) }

/-! ## What a look-up sees -/

@[simp] theorem get?_empty (k : κ) : (empty : OrderedMap κ ν).get? k = none := rfl

theorem get?_modify (m : OrderedMap κ ν) (k k' : κ) (f : ν → ν) :
    (m.modify k f).get? k' = if k' = k then (m.get? k').map f else m.get? k' := by
  obtain ⟨l, hl⟩ := m
  simp only [get?, modify]
  -- the first entry of the key is looked up either way, unique or not
  clear hl
  induction l with
  | nil => split <;> rfl
  | cons e l ih =>
    rw [List.map_cons, List.find?_cons, List.find?_cons]
    by_cases hek : e.1 = k
    · by_cases hk : k' = k
      · subst hk
        simp [hek]
      · have hek' : ¬ e.1 = k' := fun h => hk (h.symm.trans hek)
        rw [if_neg hk] at ih ⊢
        simpa [hek, hek', Ne.symm hk] using ih
    · by_cases hk' : e.1 = k'
      · have hne : ¬ k' = k := fun h => hek (hk'.trans h)
        simp [hk', hne]
      · simpa [hek, hk'] using ih

theorem get?_delete (m : OrderedMap κ ν) (k k' : κ) :
    (m.delete k).get? k' = if k' = k then none else m.get? k' := by
  obtain ⟨l, hl⟩ := m
  simp only [get?, delete]
  clear hl
  induction l with
  | nil => split <;> rfl
  | cons e l ih =>
    rw [List.filter_cons, List.find?_cons]
    by_cases hek : e.1 = k
    · by_cases hk : k' = k
      · subst hk
        simp [hek]
      · have hek' : ¬ e.1 = k' := fun h => hk (h.symm.trans hek)
        simpa [hek, hk, hek', Ne.symm hk] using ih
    · by_cases hk' : e.1 = k'
      · have hne : ¬ k' = k := fun h => hek (hk'.trans h)
        simp [hk', hne]
      · simpa [hek, hk'] using ih

theorem get?_set (m : OrderedMap κ ν) (k k' : κ) (v : ν) :
    (m.set k v).get? k' = if k' = k then some v else m.get? k' := by
  rw [set]
  split
  · next hmem =>
    rw [get?_modify]
    by_cases hk : k' = k
    · subst hk
      rw [if_pos rfl, if_pos rfl]
      -- there is an entry to rewrite
      obtain ⟨w, hw⟩ : ∃ w, m.get? k' = some w := by
        cases hg : m.get? k' with
        | none => exact absurd hmem (get?_eq_none_iff.mp hg)
        | some w => exact ⟨w, rfl⟩
      rw [hw]
      rfl
    · rw [if_neg hk, if_neg hk]
  · next hmem =>
    show ((m.entries ++ [(k, v)]).find? fun e => e.1 = k').map Prod.snd = _
    rw [List.find?_append]
    by_cases hk : k' = k
    · subst hk
      rw [find?_eq_none_iff.mpr hmem]
      simp
    · simp [hk, Ne.symm hk, get?]

@[simp] theorem get?_set_self (m : OrderedMap κ ν) (k : κ) (v : ν) :
    (m.set k v).get? k = some v := by
  rw [get?_set, if_pos rfl]

theorem get?_set_of_ne {m : OrderedMap κ ν} {k k' : κ} {v : ν} (h : k' ≠ k) :
    (m.set k v).get? k' = m.get? k' := by
  rw [get?_set, if_neg h]

/-- Of several writes one after another, what is found is the last one under the key, or what
was there before. -/
theorem get?_foldl_set_last {β : Type*} (key : β → κ) (value : β → ν) (l : List β)
    (m : OrderedMap κ ν) (k : κ) :
    (l.foldl (fun m b => m.set (key b) (value b)) m).get? k =
      ((l.reverse.find? fun b => key b = k).map value).or (m.get? k) := by
  -- from the end, since a later write replaces an earlier one
  induction l using List.reverseRecOn with
  | nil => rfl
  | append_singleton l b ih =>
    rw [List.foldl_append, List.foldl_cons, List.foldl_nil, List.reverse_concat, List.find?_cons]
    by_cases hb : key b = k
    · rw [← hb, get?_set_self, decide_eq_true rfl]
      rfl
    · rw [get?_set_of_ne (Ne.symm hb), ih, decide_eq_false hb]

/-- What was written under a key is found there, and nothing else. -/
theorem get?_foldl_set {β : Type*} (key : β → κ) (value : β → ν) (l : List β)
    (m : OrderedMap κ ν) (k : κ) :
    (∃ b ∈ l, key b = k ∧
      (l.foldl (fun m b => m.set (key b) (value b)) m).get? k = some (value b)) ∨
    ((∀ b ∈ l, key b ≠ k) ∧
      (l.foldl (fun m b => m.set (key b) (value b)) m).get? k = m.get? k) := by
  rw [get?_foldl_set_last]
  cases hlast : l.reverse.find? fun b => key b = k with
  | none =>
    refine .inr ⟨fun b hb hkey => ?_, rfl⟩
    exact List.find?_eq_none.mp hlast b (List.mem_reverse.mpr hb) (decide_eq_true hkey)
  | some b =>
    have hkey := List.find?_some hlast
    have hb := List.mem_of_find?_eq_some hlast
    exact .inl ⟨b, List.mem_reverse.mp hb, of_decide_eq_true hkey, rfl⟩

/-- Under a key that is written once, that write is found. -/
theorem get?_foldl_set_of_nodup {β : Type*} {key : β → κ} (value : β → ν) {l : List β}
    (hkeys : (l.map key).Nodup) {b : β} (hb : b ∈ l) (m : OrderedMap κ ν) :
    (l.foldl (fun m b => m.set (key b) (value b)) m).get? (key b) = some (value b) := by
  rcases get?_foldl_set key value l m (key b) with ⟨b', hb', hkey, hget⟩ | ⟨hnone, -⟩
  · obtain rfl := List.inj_on_of_nodup_map hkeys hb' hb hkey
    exact hget
  · exact absurd rfl (hnone b hb)

@[simp] theorem get?_delete_self (m : OrderedMap κ ν) (k : κ) :
    (m.delete k).get? k = none := by
  rw [get?_delete, if_pos rfl]

theorem get?_delete_of_ne {m : OrderedMap κ ν} {k k' : κ} (h : k' ≠ k) :
    (m.delete k).get? k' = m.get? k' := by
  rw [get?_delete, if_neg h]

/-- What is found after a write is the value written, or was there before. -/
theorem get?_set_eq_some {m : OrderedMap κ ν} {k k' : κ} {v w : ν} :
    (m.set k v).get? k' = some w ↔ (k' = k ∧ v = w) ∨ (k' ≠ k ∧ m.get? k' = some w) := by
  rw [get?_set]
  by_cases hk : k' = k
  · simp [hk]
  · simp [hk]

/-- What is found after a deletion was there before. -/
theorem get?_delete_eq_some {m : OrderedMap κ ν} {k k' : κ} {w : ν} :
    (m.delete k).get? k' = some w ↔ k' ≠ k ∧ m.get? k' = some w := by
  rw [get?_delete]
  by_cases hk : k' = k
  · simp [hk]
  · simp [hk]

/-! ## Entries and look-ups -/

/-- Every entry is what a look-up of its key finds (keys are unique). -/
theorem get?_eq_some_iff {m : OrderedMap κ ν} {k : κ} {v : ν} :
    m.get? k = some v ↔ (k, v) ∈ m.entries := by
  obtain ⟨l, hl⟩ := m
  simp only [get?]
  induction l with
  | nil => simp
  | cons e l ih =>
    obtain ⟨ek, ev⟩ := e
    rw [List.map_cons, List.nodup_cons] at hl
    rw [List.find?_cons]
    by_cases hek : ek = k
    · subst hek
      have hnot : (ek, v) ∉ l := fun hmem => hl.1 (List.mem_map.mpr ⟨_, hmem, rfl⟩)
      simp [hnot, eq_comm]
    · simpa [hek, Ne.symm hek] using ih hl.2

theorem get?_filter {m : OrderedMap κ ν} {keep : κ → ν → Bool} {k : κ} {v : ν} :
    (m.filter keep).get? k = some v ↔ m.get? k = some v ∧ keep k v = true := by
  rw [get?_eq_some_iff, get?_eq_some_iff]
  exact List.mem_filter

theorem get?_mapValues {ω : Type w} {m : OrderedMap κ ν} {f : κ → ν → ω} {k : κ} {w : ω} :
    (m.mapValues f).get? k = some w ↔ ∃ v, m.get? k = some v ∧ f k v = w := by
  simp only [get?_eq_some_iff, mapValues, List.mem_map]
  constructor
  · rintro ⟨⟨k', v⟩, hmem, heq⟩
    obtain ⟨rfl, rfl⟩ := Prod.mk.inj heq
    exact ⟨v, hmem, rfl⟩
  · rintro ⟨v, hmem, rfl⟩
    exact ⟨(k, v), hmem, rfl⟩

theorem mem_keys_iff {m : OrderedMap κ ν} {k : κ} : k ∈ m.keys ↔ ∃ v, m.get? k = some v := by
  rw [keys, List.mem_map]
  constructor
  · rintro ⟨⟨k', v⟩, hmem, rfl⟩
    exact ⟨v, get?_eq_some_iff.mpr hmem⟩
  · rintro ⟨v, hv⟩
    exact ⟨(k, v), get?_eq_some_iff.mp hv, rfl⟩

@[simp] theorem has_eq_true_iff {m : OrderedMap κ ν} {k : κ} :
    m.has k = true ↔ k ∈ m.keys := by
  rw [has, Option.isSome_iff_exists, mem_keys_iff]

theorem mem_keys_set {m : OrderedMap κ ν} {k k' : κ} {v : ν} :
    k' ∈ (m.set k v).keys ↔ k' = k ∨ k' ∈ m.keys := by
  rw [mem_keys_iff, mem_keys_iff, get?_set]
  by_cases hk : k' = k
  · simp [hk]
  · simp [hk]

theorem mem_keys_delete {m : OrderedMap κ ν} {k k' : κ} :
    k' ∈ (m.delete k).keys ↔ k' ≠ k ∧ k' ∈ m.keys := by
  rw [mem_keys_iff, mem_keys_iff, get?_delete]
  by_cases hk : k' = k
  · simp [hk]
  · simp [hk]

omit [DecidableEq κ] in
theorem length_keys (m : OrderedMap κ ν) : m.keys.length = m.size := List.length_map _

omit [DecidableEq κ] in
theorem eq_empty_of_size {m : OrderedMap κ ν} (h : m.size = 0) : m = empty := by
  obtain ⟨entries, hnodup⟩ := m
  obtain rfl := List.eq_nil_of_length_eq_zero h
  rfl

omit [DecidableEq κ] in
/-- A map with all the keys of another is at least as large. -/
theorem size_le_of_keys_subset {m m' : OrderedMap κ ν} (h : m.keys ⊆ m'.keys) :
    m.size ≤ m'.size := by
  rw [← length_keys, ← length_keys]
  exact (m.nodup.subperm h).length_le

@[simp] theorem size_modify (m : OrderedMap κ ν) (k : κ) (f : ν → ν) :
    (m.modify k f).size = m.size := List.length_map _

/-- A new key takes a place of its own. -/
theorem size_set_of_none {m : OrderedMap κ ν} {k : κ} (h : m.get? k = none) (v : ν) :
    (m.set k v).size = m.size + 1 := by
  have hfree : k ∉ m.entries.map Prod.fst := get?_eq_none_iff.mp h
  unfold set size
  rw [dif_neg hfree]
  exact List.length_append

theorem size_delete_le (m : OrderedMap κ ν) (k : κ) : (m.delete k).size ≤ m.size :=
  List.length_filter_le _ _

/-! ## Sums over the entries -/

section Sums

variable {G : Type*} [AddCommGroup G] (f : κ → ν → G)

/-- The sum of a function of the entries. -/
def sum (m : OrderedMap κ ν) : G := (m.entries.map fun e => f e.1 e.2).sum

omit [DecidableEq κ] in
@[simp] theorem sum_empty : (empty : OrderedMap κ ν).sum f = 0 := rfl

/-- A write replaces the summand of its key. -/
theorem sum_set (m : OrderedMap κ ν) (k : κ) (v : ν) :
    (m.set k v).sum f = m.sum f - ((m.get? k).map (f k)).getD 0 + f k v := by
  cases hold : m.get? k with
  | none =>
    have hfree : k ∉ m.entries.map Prod.fst := get?_eq_none_iff.mp hold
    unfold sum set
    rw [dif_neg hfree]
    simp
  | some w =>
    have hkey : k ∈ m.entries.map Prod.fst := mem_keys_iff.mpr ⟨w, hold⟩
    obtain ⟨before, after, hsplit⟩ := List.append_of_mem (get?_eq_some_iff.mp hold)
    -- the key occurs in no other entry
    have hnodup := m.nodup
    rw [hsplit, List.map_append, List.map_cons] at hnodup
    have hother : ∀ l : List (κ × ν), k ∉ l.map Prod.fst →
        (l.map fun e => if e.1 = k then (e.1, v) else e) = l := by
      intro l hl
      conv_rhs => rw [← List.map_id l]
      refine List.map_congr_left fun e he => if_neg fun hek => hl ?_
      exact hek ▸ List.mem_map_of_mem he
    have hbefore : k ∉ before.map Prod.fst := fun hmem =>
      (List.nodup_append.mp hnodup).2.2 k hmem k List.mem_cons_self rfl
    have hafter : k ∉ after.map Prod.fst :=
      (List.nodup_cons.mp (List.Nodup.of_append_right hnodup)).1
    have hentries : (m.set k v).entries = before ++ (k, v) :: after := by
      unfold set
      rw [dif_pos hkey]
      show (m.entries.map fun e => if e.1 = k then (e.1, v) else e) = _
      rw [hsplit, List.map_append, List.map_cons, hother before hbefore, hother after hafter,
        if_pos rfl]
    unfold sum
    rw [hentries, hsplit]
    simp only [List.map_append, List.map_cons, List.sum_append, List.sum_cons, Option.map_some,
      Option.getD_some]
    abel

end Sums

end OrderedMap

end FlashEdge
