import Mathlib.Data.List.DropRight
import Mathlib.Data.List.ReduceOption
import Mathlib.Data.List.Rotate

/-!
# Ring buffers

A buffer of fixed size in which every value is written over the oldest one: the index of the
next write goes on counting, and the slot is the index modulo the size.

- `RingBuffer.push`: a write; `pushAll`, several ones.
- `rotate_slots_pushAll`: the slots from the next one on, in a circle, are the last ones of
  what was written, with empty slots before the first value.
- `written_pushAll_perm`: so the buffer holds the last `size` values, and no others.
- `slots_pushAll`: until it is full, it holds them in order from the first slot on.
-/

namespace FlashEdge

universe u

/-- The slots of a buffer, and how many values have been written to it. -/
structure RingBuffer (α : Type u) (size : ℕ) where
  slots : List (Option α)
  index : ℕ
  length_slots : slots.length = size

namespace RingBuffer

variable {α : Type u} {size : ℕ}

def new (size : ℕ) : RingBuffer α size where
  slots := List.replicate size none
  index := 0
  length_slots := List.length_replicate

def push (b : RingBuffer α size) (a : α) : RingBuffer α size where
  slots := b.slots.set (b.index % size) (some a)
  index := b.index + 1
  length_slots := List.length_set.trans b.length_slots

def pushAll (b : RingBuffer α size) (as : List α) : RingBuffer α size := as.foldl push b

/-- What is in the slots. -/
def written (b : RingBuffer α size) : List α := b.slots.reduceOption

@[simp] theorem pushAll_nil (b : RingBuffer α size) : b.pushAll [] = b := rfl

@[simp] theorem pushAll_snoc (b : RingBuffer α size) (as : List α) (a : α) :
    b.pushAll (as ++ [a]) = (b.pushAll as).push a := List.foldl_concat ..

@[simp] theorem index_pushAll (as : List α) :
    ((new size).pushAll as).index = as.length := by
  induction as using List.reverseRecOn with
  | nil => rfl
  | append_singleton as a ih =>
    rw [pushAll_snoc, List.length_append, List.length_singleton, ← ih]
    rfl

/-- What was written, after as many empty slots as there are. -/
def padded (size : ℕ) (as : List α) : List (Option α) :=
  List.replicate size none ++ as.map some

theorem length_padded (size : ℕ) (as : List α) : (padded size as).length = size + as.length := by
  simp [padded]

theorem padded_snoc (as : List α) (a : α) :
    padded size (as ++ [a]) = padded size as ++ [some a] := by
  simp [padded]

/-- Writing a slot and going on to the next one. -/
theorem rotate_set {l : List (Option α)} {r : ℕ} (hr : r < l.length) (x : Option α) :
    (l.set r x).rotate (r + 1) = (l.rotate r).tail ++ [x] := by
  have hset : r < (l.set r x).length := hr.trans_eq List.length_set.symm
  have hcons : l.drop r = l[r] :: l.drop (r + 1) := List.drop_eq_getElem_cons hr
  rw [List.rotate_eq_drop_append_take (Nat.succ_le_of_lt hset),
    List.rotate_eq_drop_append_take hr.le, hcons, List.cons_append, List.tail_cons,
    List.drop_set_of_lt (Nat.lt_succ_self r), List.take_succ_eq_append_getElem hset,
    List.take_set_of_le (Nat.le_refl r), List.getElem_set_self, List.append_assoc]

/-- The same for an index that goes on counting. -/
theorem rotate_write {l : List (Option α)} (hl : 0 < l.length) (n : ℕ) (x : Option α) :
    (l.set (n % l.length) x).rotate (n + 1) = (l.rotate n).tail ++ [x] := by
  have hturn : (l.set (n % l.length) x).rotate (n + 1) =
      (l.set (n % l.length) x).rotate (n % l.length + 1) := by
    rw [← List.rotate_mod _ (n + 1), ← List.rotate_mod _ (n % l.length + 1), List.length_set,
      Nat.mod_add_mod]
  rw [hturn, rotate_set (Nat.mod_lt n hl), List.rotate_mod]

/-- **The slots in a circle are the last ones of what was written.** -/
theorem rotate_slots_pushAll (hsize : 0 < size) (as : List α) :
    ((new size).pushAll as).slots.rotate as.length = (padded size as).drop as.length := by
  induction as using List.reverseRecOn with
  | nil => simp [padded, new]
  | append_singleton as a ih =>
    have hlength := ((new size).pushAll as).length_slots
    have hpos := hsize.trans_eq hlength.symm
    have hslots : ((new size).pushAll (as ++ [a])).slots =
        ((new size).pushAll as).slots.set
          (as.length % ((new size).pushAll as).slots.length) (some a) := by
      rw [hlength, pushAll_snoc]
      show List.set _ (((new size).pushAll as).index % size) _ = _
      rw [index_pushAll]
    have hpadded := length_padded size as
    rw [hslots, List.length_append, List.length_singleton,
      rotate_write hpos, ih, padded_snoc, List.tail_drop,
      List.drop_append_of_le_length (by omega)]

/-- **The buffer holds the last values that were written, and no others.** -/
theorem written_pushAll_perm (hsize : 0 < size) (as : List α) :
    ((new size).pushAll as).written.Perm (as.rtake size) := by
  have hrotated := ((new size).pushAll as).slots.rotate_perm as.length
  rw [rotate_slots_pushAll hsize as] at hrotated
  have hlast : ((padded size as).drop as.length).reduceOption = as.rtake size := by
    unfold padded
    rw [List.drop_append, List.reduceOption_append, List.drop_replicate,
      List.reduceOption_replicate_none, List.length_replicate, List.nil_append, ← List.map_drop]
    unfold List.rtake List.reduceOption
    rw [List.filterMap_map]
    exact List.filterMap_some
  rw [← hlast]
  exact (hrotated.filterMap id).symm

/-- Until the buffer is full, the values are there in order from the first slot on. -/
theorem slots_pushAll (hsize : 0 < size) {as : List α} (h : as.length ≤ size) :
    ((new size).pushAll as).slots =
      as.map some ++ List.replicate (size - as.length) none := by
  have hrotated := rotate_slots_pushAll hsize as
  have hlast : (padded size as).drop as.length =
      (as.map some ++ List.replicate (size - as.length) none).rotate as.length := by
    have hturn := List.rotate_append_length_eq (as.map (some : α → Option α))
      (List.replicate (size - as.length) none)
    rw [List.length_map] at hturn
    unfold padded
    rw [hturn, List.drop_append_of_le_length (by simpa using h), List.drop_replicate]
  rw [hlast] at hrotated
  exact List.rotate_injective _ hrotated

end RingBuffer

end FlashEdge
