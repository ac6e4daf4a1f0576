import FlashEdge.Theory.OrderedMap

/-!
# What a limit drops

A map that is cut down (to the entries inserted last, to those that pass a test) and a
property of its values: which keys with the property are still there.

- `keysWhere p m`: the keys whose value has the property.
- `SameWhere p m m'`: two maps have the same of them.
- `Sub m m'`: every entry of the one is an entry of the other.
- `Sub.sameWhere_iff`: a smaller map has the same of them exactly when it has every entry with
  the property; `sameWhere_takeLast_iff`, `sameWhere_filter_iff`, `sameWhere_empty_iff` are the
  three ways to be smaller.
-/

namespace FlashEdge

universe u v

namespace OrderedMap

variable {κ : Type u} {ν : Type v} [DecidableEq κ] {p : ν → Bool} {m m' m'' : OrderedMap κ ν}

omit [DecidableEq κ] in
/-- The keys whose value has a property. -/
def keysWhere (p : ν → Bool) (m : OrderedMap κ ν) : List κ := (m.filter fun _ v => p v).keys

/-- Two maps have the same keys whose value has the property. -/
def SameWhere (p : ν → Bool) (m m' : OrderedMap κ ν) : Prop :=
  ∀ k, k ∈ m.keysWhere p ↔ k ∈ m'.keysWhere p

/-- Every entry of `m` is an entry of `m'`. -/
def Sub (m m' : OrderedMap κ ν) : Prop := ∀ k v, m.get? k = some v → m'.get? k = some v

theorem mem_keysWhere_iff {k : κ} : k ∈ m.keysWhere p ↔ ∃ v, m.get? k = some v ∧ p v = true := by
  rw [keysWhere, mem_keys_iff]
  constructor
  · rintro ⟨v, hv⟩
    exact ⟨v, get?_filter.mp hv⟩
  · rintro ⟨v, hv⟩
    exact ⟨v, get?_filter.mpr hv⟩

omit [DecidableEq κ] in
theorem SameWhere.refl (m : OrderedMap κ ν) : SameWhere p m m := fun _ => Iff.rfl

omit [DecidableEq κ] in
theorem SameWhere.symm (h : SameWhere p m m') : SameWhere p m' m := fun k => (h k).symm

omit [DecidableEq κ] in
theorem SameWhere.trans (h : SameWhere p m m') (h' : SameWhere p m' m'') : SameWhere p m m'' :=
  fun k => (h k).trans (h' k)

/-- A smaller map has the same keys with the property exactly when it has all the entries
with the property. -/
theorem Sub.sameWhere_iff (hsub : Sub m' m) :
    SameWhere p m m' ↔ ∀ k v, m.get? k = some v → p v = true → m'.get? k = some v := by
  constructor
  · intro hsame k v hv hp
    obtain ⟨w, hw, -⟩ := mem_keysWhere_iff.mp ((hsame k).mp (mem_keysWhere_iff.mpr ⟨v, hv, hp⟩))
    -- the entry it has is the one of the larger map
    have hvw : v = w := Option.some.inj (hv.symm.trans (hsub k w hw))
    rw [hvw]
    exact hw
  · intro hall k
    rw [mem_keysWhere_iff, mem_keysWhere_iff]
    constructor
    · rintro ⟨v, hv, hp⟩
      exact ⟨v, hall k v hv hp, hp⟩
    · rintro ⟨v, hv, hp⟩
      exact ⟨v, hsub k v hv, hp⟩

/-! ## Operations that change nothing -/

theorem modify_of_not_has {k : κ} (h : m.has k = false) (f : ν → ν) : m.modify k f = m := by
  obtain ⟨l, hl⟩ := m
  unfold modify
  rw [mk.injEq]
  refine (List.map_congr_left fun e he => if_neg ?_).trans (List.map_id l)
  rintro rfl
  exact absurd (has_eq_true_iff.mpr (List.mem_map_of_mem he)) (by rw [h]; decide)

theorem delete_of_not_has {k : κ} (h : m.has k = false) : m.delete k = m := by
  obtain ⟨l, hl⟩ := m
  unfold delete
  rw [mk.injEq, List.filter_eq_self]
  intro e he
  refine decide_eq_true ?_
  rintro rfl
  exact absurd (has_eq_true_iff.mpr (List.mem_map_of_mem he)) (by rw [h]; decide)

omit [DecidableEq κ] in
theorem filter_of_size_le {keep : κ → ν → Bool} (h : m.size ≤ (m.filter keep).size) :
    m.filter keep = m := by
  obtain ⟨l, hl⟩ := m
  unfold filter
  rw [mk.injEq]
  exact List.filter_sublist.eq_of_length_le h

/-! ## The ways to be smaller -/

theorem sub_filter (keep : κ → ν → Bool) : Sub (m.filter keep) m :=
  fun _ _ h => (get?_filter.mp h).1

theorem sameWhere_filter_iff {keep : κ → ν → Bool} :
    SameWhere p m (m.filter keep) ↔ ∀ k v, m.get? k = some v → p v = true → keep k v = true := by
  rw [(sub_filter keep).sameWhere_iff]
  constructor
  · exact fun h k v hv hp => (get?_filter.mp (h k v hv hp)).2
  · exact fun h k v hv hp => get?_filter.mpr ⟨hv, h k v hv hp⟩

theorem sameWhere_empty_iff :
    SameWhere p m empty ↔ ∀ k v, m.get? k = some v → p v = false := by
  have hsub : Sub (empty : OrderedMap κ ν) m := by
    intro k v h
    cases h
  rw [hsub.sameWhere_iff]
  constructor
  · intro h k v hv
    by_contra hp
    have hnone := h k v hv (by simpa using hp)
    cases hnone
  · intro h k v hv hp
    rw [h k v hv] at hp
    cases hp

omit [DecidableEq κ] in
/-- The entries that `takeLast` leaves out. -/
def dropped (m : OrderedMap κ ν) (n : Nat) : List (κ × ν) := m.entries.take (m.entries.length - n)

omit [DecidableEq κ] in
theorem dropped_append_takeLast (m : OrderedMap κ ν) (n : Nat) :
    m.dropped n ++ (m.takeLast n).entries = m.entries := List.take_append_drop _ _

omit [DecidableEq κ] in
theorem size_takeLast_le (m : OrderedMap κ ν) (n : Nat) : (m.takeLast n).size ≤ n := by
  show (List.drop _ _).length ≤ n
  rw [List.length_drop]
  omega

omit [DecidableEq κ] in
theorem takeLast_takeLast (m : OrderedMap κ ν) {n k : Nat} (h : n ≤ k) :
    (m.takeLast k).takeLast n = m.takeLast n := by
  unfold takeLast
  simp only [List.drop_drop, List.length_drop, mk.injEq]
  congr 1
  omega

theorem sub_takeLast (m : OrderedMap κ ν) (n : Nat) : Sub (m.takeLast n) m := by
  intro k v h
  rw [get?_eq_some_iff] at h ⊢
  exact List.mem_of_mem_drop h

/-- Where only the entries inserted last are kept, the keys with the property are kept exactly
when no entry left out has it. -/
theorem sameWhere_takeLast_iff {n : Nat} :
    SameWhere p m (m.takeLast n) ↔ ∀ e ∈ m.dropped n, p e.2 = false := by
  rw [(sub_takeLast m n).sameWhere_iff]
  have hsplit := dropped_append_takeLast m n
  constructor
  · intro h e he
    by_contra hp
    have hmem : e ∈ m.entries := by
      rw [← hsplit]
      exact List.mem_append_left _ he
    have hkept := h e.1 e.2 (get?_eq_some_iff.mpr hmem) (by simpa using hp)
    -- the entry would be there twice
    have hnodup := m.nodup
    rw [← hsplit, List.map_append, List.nodup_append] at hnodup
    exact hnodup.2.2 e.1 (List.mem_map_of_mem he) e.1
      (List.mem_map_of_mem (get?_eq_some_iff.mp hkept)) rfl
  · intro h k v hv hp
    rw [get?_eq_some_iff, ← hsplit, List.mem_append] at hv
    rcases hv with hleft | hkept
    · rw [h (k, v) hleft] at hp
      cases hp
    · exact get?_eq_some_iff.mpr hkept

end OrderedMap

end FlashEdge
