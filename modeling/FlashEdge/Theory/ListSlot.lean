import Mathlib.Data.List.Basic
import Mathlib.Data.List.Nodup

/-!
# The first element with a property, in place

Code that keeps records in an array finds the index of one, and then reads,
overwrites or removes the element at this index. `FirstAt` splits the array there
once, and the three accesses are equations about the split. An index that is kept
while another element is removed moves with it (`getElem?_eraseIdx_shifted`).
-/

namespace FlashEdge

universe u

/-- `l` has at index `i` its first element with the property `p`: it is `x`, with
`before` before it and `after` after it. -/
structure FirstAt {α : Type u} (p : α → Bool) (l : List α) (i : ℕ) (before : List α) (x : α)
    (after : List α) : Prop where
  split : l = before ++ x :: after
  length : before.length = i
  holds : p x = true
  first : ∀ y ∈ before, p y = false

namespace FirstAt

variable {α : Type u} {p : α → Bool} {l before after : List α} {i : ℕ} {x : α}

/-- What `findIdx?` finds. -/
theorem of_findIdx? (h : l.findIdx? p = some i) :
    ∃ before x after, FirstAt p l i before x after := by
  induction l generalizing i with
  | nil => cases h
  | cons y l ih =>
    rw [List.findIdx?_cons] at h
    split at h
    · next hy =>
      obtain rfl := Option.some.inj h
      exact ⟨[], y, l, rfl, rfl, hy, fun _ hz => nomatch hz⟩
    · next hy =>
      obtain ⟨j, hj, rfl⟩ := Option.map_eq_some_iff.mp h
      obtain ⟨before, x, after, hsplit, hlength, hx, hbefore⟩ := ih hj
      refine ⟨y :: before, x, after, by rw [hsplit]; rfl, by rw [List.length_cons, hlength], hx,
        fun z hz => ?_⟩
      rcases List.mem_cons.mp hz with rfl | hz
      · exact Bool.eq_false_iff.mpr hy
      · exact hbefore z hz

theorem mem (h : FirstAt p l i before x after) : x ∈ l := by
  rw [h.split]
  exact List.mem_append_right _ List.mem_cons_self

theorem getElem? (h : FirstAt p l i before x after) : l[i]? = some x := by
  rw [h.split, ← h.length]
  simp

theorem set (h : FirstAt p l i before x after) (y : α) : l.set i y = before ++ y :: after := by
  rw [h.split, ← h.length]
  simp

theorem eraseIdx (h : FirstAt p l i before x after) : l.eraseIdx i = before ++ after := by
  rw [h.split, ← h.length]
  simp [List.eraseIdx_append_of_length_le]

end FirstAt

/-- Where an index points after another element has been removed: one place further
left, if the removed one was before it. -/
theorem getElem?_eraseIdx_shifted {α : Type u} {l : List α} {i j : ℕ} (hne : i ≠ j) :
    (l.eraseIdx i)[if i < j then j - 1 else j]? = l[j]? := by
  rw [List.getElem?_eraseIdx]
  split
  · next hlt =>
    rw [if_neg (by omega)]
    congr 1
    omega
  · next hle => rw [if_pos (by omega)]

/-!
## Lists without repetition, built by pushing

A list and a set of what it holds, and an element is pushed unless the set has it: the loop
keeps the first occurrence of everything it sees.

- `mem_foldl_pushNew`: nothing is lost.
- `nodup_foldl_pushNew`: nothing is there twice.
- `foldl_pushNew_eq`: what is pushed comes after what was there, in the order of the input;
  so a relation that holds along the input holds along the result.
-/

variable {α : Type u} [BEq α] [LawfulBEq α] {acc l : List α} {x : α}

/-- Push an element unless it is there. -/
def pushNew (acc : List α) (x : α) : List α := if acc.contains x then acc else acc ++ [x]

theorem mem_pushNew {y : α} : y ∈ pushNew acc x ↔ y ∈ acc ∨ y = x := by
  unfold pushNew
  split
  · next hmem =>
    refine ⟨Or.inl, fun hy => ?_⟩
    rcases hy with hy | rfl
    · exact hy
    · exact List.contains_iff_mem.mp hmem
  · rw [List.mem_append, List.mem_singleton]

theorem nodup_pushNew (hacc : acc.Nodup) : (pushNew acc x).Nodup := by
  unfold pushNew
  split
  · exact hacc
  · next hmem =>
    refine List.Nodup.append hacc (List.nodup_singleton x) fun y hy hyx => ?_
    rw [List.mem_singleton.mp hyx] at hy
    exact hmem (List.contains_iff_mem.mpr hy)

theorem mem_foldl_pushNew {y : α} : y ∈ l.foldl pushNew acc ↔ y ∈ acc ∨ y ∈ l := by
  induction l generalizing acc with
  | nil => simp only [List.foldl_nil, List.not_mem_nil, or_false]
  | cons x l ih => rw [List.foldl_cons, ih, mem_pushNew, List.mem_cons, or_assoc]

theorem nodup_foldl_pushNew (hacc : acc.Nodup) : (l.foldl pushNew acc).Nodup := by
  induction l generalizing acc with
  | nil => exact hacc
  | cons x l ih => exact ih (nodup_pushNew hacc)

omit [LawfulBEq α] in
/-- The result is what was there and then a part of the input. -/
theorem foldl_pushNew_eq (acc l : List α) :
    ∃ rest, rest.Sublist l ∧ l.foldl pushNew acc = acc ++ rest := by
  induction l generalizing acc with
  | nil => exact ⟨[], .slnil, (List.append_nil acc).symm⟩
  | cons x l ih =>
    obtain ⟨rest, hrest, heq⟩ := ih (pushNew acc x)
    rw [List.foldl_cons, heq]
    unfold pushNew
    split
    · exact ⟨rest, hrest.cons x, rfl⟩
    · exact ⟨x :: rest, hrest.cons_cons x, by rw [List.append_assoc, List.singleton_append]⟩

/-- What comes after is not there before, and not there twice. -/
theorem foldl_pushNew_new (acc l : List α) :
    ∃ rest, l.foldl pushNew acc = acc ++ rest ∧ rest.Nodup ∧ ∀ x ∈ rest, x ∉ acc := by
  induction l generalizing acc with
  | nil => exact ⟨[], (List.append_nil acc).symm, List.nodup_nil, by simp⟩
  | cons x l ih =>
    obtain ⟨rest, heq, hnodup, hnew⟩ := ih (pushNew acc x)
    rw [List.foldl_cons, heq]
    unfold pushNew at hnew ⊢
    split at hnew
    · next hmem =>
      rw [if_pos hmem]
      exact ⟨rest, rfl, hnodup, hnew⟩
    · next hmem =>
      rw [if_neg hmem]
      refine ⟨x :: rest, by rw [List.append_assoc, List.singleton_append], ?_, ?_⟩
      · refine List.nodup_cons.mpr ⟨fun hx => ?_, hnodup⟩
        exact hnew x hx (List.mem_append_right acc List.mem_cons_self)
      · intro y hy hacc
        rcases List.mem_cons.mp hy with rfl | hrest
        · exact hmem (List.contains_iff_mem.mpr hacc)
        · exact hnew y hrest (List.mem_append_left [x] hacc)

omit [LawfulBEq α] in
/-- What holds along the input holds along the result. -/
theorem pairwise_foldl_pushNew {r : α → α → Prop} (hl : l.Pairwise r) :
    (l.foldl pushNew []).Pairwise r := by
  obtain ⟨rest, hrest, heq⟩ := foldl_pushNew_eq [] l
  rw [heq, List.nil_append]
  exact hl.sublist hrest

/-- Pushing what is there already changes nothing. -/
theorem foldl_pushNew_of_subset (h : ∀ x ∈ l, x ∈ acc) : l.foldl pushNew acc = acc := by
  induction l generalizing acc with
  | nil => rfl
  | cons x l ih =>
    have hx : acc.contains x = true := List.contains_iff_mem.mpr (h x List.mem_cons_self)
    rw [List.foldl_cons, pushNew, if_pos hx]
    exact ih fun y hy => h y (List.mem_cons_of_mem x hy)

end FlashEdge
