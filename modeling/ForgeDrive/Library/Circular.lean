/-
**Circular storage: the items a ring buffer holds, read off its memory.**

A buffer is a memory of cells indexed from `0`; a ring of `capacity` cells uses the first
`capacity` of them. `window buffer capacity start count` is the list of `count` items that begin
at `start` and wrap at `capacity`; `segment` is the same without wrapping, what one `memcpy`
reads, and `store` is what one `memcpy` writes.

* `window_push`, `window_store` — writing behind a window extends it and keeps what it held;
* `window_take`, `window_drop` — reading from the front;
* `window_eq_segment` — a window that does not reach the wrap is one contiguous region;
* `window_store_two`, `window_eq_two` — and one that does is two.
-/

import Mathlib.Data.List.Basic
import Mathlib.Data.Nat.ModEq
import Mathlib.Logic.Function.Basic
import Mathlib.Tactic.Linarith

namespace ForgeDrive.Circular

variable {Item : Type*}

/-- `count` items from index `start`, without wrapping. -/
def segment (buffer : Nat → Item) (start count : Nat) : List Item :=
  (List.range count).map fun offset => buffer (start + offset)

/-- `count` items from index `start`, wrapping at `capacity`. -/
def window (buffer : Nat → Item) (capacity start count : Nat) : List Item :=
  (List.range count).map fun offset => buffer ((start + offset) % capacity)

/-- The memory after `items` were copied to the indices from `start` on. -/
def store (buffer : Nat → Item) (start : Nat) (items : List Item) : Nat → Item :=
  fun index => if start ≤ index then (items[index - start]?).getD (buffer index) else buffer index

@[simp] theorem segment_length (buffer : Nat → Item) (start count : Nat) :
    (segment buffer start count).length = count := by
  simp [segment]

@[simp] theorem window_length (buffer : Nat → Item) (capacity start count : Nat) :
    (window buffer capacity start count).length = count := by
  simp [window]

@[simp] theorem window_zero (buffer : Nat → Item) (capacity start : Nat) :
    window buffer capacity start 0 = [] := rfl

@[simp] theorem segment_zero (buffer : Nat → Item) (start : Nat) :
    segment buffer start 0 = [] := rfl

/-- Two indices of one turn of the ring are different cells. -/
theorem index_ne {capacity start first second : Nat} (firstLt : first < capacity)
    (secondLt : second < capacity) (different : first ≠ second) :
    (start + first) % capacity ≠ (start + second) % capacity := by
  intro same
  have congruent : first ≡ second [MOD capacity] := Nat.ModEq.add_left_cancel' start same
  exact different (congruent.eq_of_lt_of_lt firstLt secondLt)

theorem window_congr {buffer other : Nat → Item} {capacity start count : Nat}
    (agree : ∀ offset < count,
      buffer ((start + offset) % capacity) = other ((start + offset) % capacity)) :
    window buffer capacity start count = window other capacity start count :=
  List.map_congr_left fun offset member => agree offset (List.mem_range.mp member)

theorem segment_congr {buffer : Nat → Item} (other : Nat → Item) {start count : Nat}
    (agree : ∀ offset < count, buffer (start + offset) = other (start + offset)) :
    segment buffer start count = segment other start count :=
  List.map_congr_left fun offset member => agree offset (List.mem_range.mp member)

/-- The start of a window counts modulo the capacity. -/
@[simp] theorem window_mod (buffer : Nat → Item) (capacity start count : Nat) :
    window buffer capacity (start % capacity) count = window buffer capacity start count := by
  apply List.map_congr_left
  intro offset _
  rw [Nat.mod_add_mod]

theorem window_add (buffer : Nat → Item) (capacity start first second : Nat) :
    window buffer capacity start (first + second) =
      window buffer capacity start first ++ window buffer capacity (start + first) second := by
  rw [window, List.range_add, List.map_append, List.map_map]
  refine congrArg _ (List.map_congr_left fun offset _ => ?_)
  rw [Function.comp_apply, Nat.add_assoc]

theorem segment_add (buffer : Nat → Item) (start first second : Nat) :
    segment buffer start (first + second) =
      segment buffer start first ++ segment buffer (start + first) second := by
  rw [segment, List.range_add, List.map_append, List.map_map]
  refine congrArg _ (List.map_congr_left fun offset _ => ?_)
  rw [Function.comp_apply, Nat.add_assoc]

theorem segment_take (buffer : Nat → Item) {start count taken : Nat} (within : taken ≤ count) :
    (segment buffer start count).take taken = segment buffer start taken := by
  obtain ⟨rest, rfl⟩ := Nat.exists_eq_add_of_le within
  rw [segment_add]
  exact List.take_left' (segment_length _ _ _)

/-- The first item of a window. -/
theorem window_succ (buffer : Nat → Item) (capacity start count : Nat) :
    window buffer capacity start (count + 1) =
      buffer (start % capacity) :: window buffer capacity (start + 1) count := by
  rw [Nat.add_comm count 1, window_add]
  rfl

/-- The last item of a window. -/
theorem window_concat (buffer : Nat → Item) (capacity start count : Nat) :
    window buffer capacity start (count + 1) =
      window buffer capacity start count ++ [buffer ((start + count) % capacity)] :=
  window_add buffer capacity start count 1

theorem window_take (buffer : Nat → Item) {capacity start count taken : Nat}
    (within : taken ≤ count) :
    (window buffer capacity start count).take taken = window buffer capacity start taken := by
  obtain ⟨rest, rfl⟩ := Nat.exists_eq_add_of_le within
  rw [window_add]
  exact List.take_left' (window_length _ _ _ _)

theorem window_drop (buffer : Nat → Item) {capacity start count dropped : Nat}
    (within : dropped ≤ count) :
    (window buffer capacity start count).drop dropped =
      window buffer capacity (start + dropped) (count - dropped) := by
  obtain ⟨rest, rfl⟩ := Nat.exists_eq_add_of_le within
  rw [window_add, Nat.add_sub_cancel_left]
  exact List.drop_left' (window_length _ _ _ _)

/-! ### Writing behind a window -/

/-- A write to a cell behind the window leaves the window alone. -/
theorem window_update {buffer : Nat → Item} {capacity start count offset : Nat}
    (behind : count ≤ offset) (inside : offset < capacity) (item : Item) :
    window (Function.update buffer ((start + offset) % capacity) item) capacity start count =
      window buffer capacity start count := by
  refine window_congr fun other otherLt => Function.update_of_ne ?_ _ _
  exact index_ne (lt_trans (lt_of_lt_of_le otherLt behind) inside) inside (by omega)

/-- **Pushing**: the cell right behind a window that does not fill the ring. -/
theorem window_push {buffer : Nat → Item} {capacity start count : Nat} (room : count < capacity)
    (item : Item) :
    window (Function.update buffer ((start + count) % capacity) item) capacity start (count + 1) =
      window buffer capacity start count ++ [item] := by
  rw [window_concat, window_update le_rfl room, Function.update_self]

theorem store_nil (buffer : Nat → Item) (start : Nat) : store buffer start [] = buffer := by
  funext index
  simp [store]

theorem store_apply_of_lt (buffer : Nat → Item) (start : Nat) {index : Nat} {items : List Item}
    (inside : index < items.length) : store buffer start items (start + index) = items[index] := by
  simp [store, inside]

theorem store_apply_of_outside {buffer : Nat → Item} {start index : Nat} {items : List Item}
    (outside : index < start ∨ start + items.length ≤ index) :
    store buffer start items index = buffer index := by
  unfold store
  split
  · rw [List.getElem?_eq_none (by omega), Option.getD_none]
  · rfl

@[simp] theorem segment_store (buffer : Nat → Item) (start : Nat) (items : List Item) :
    segment (store buffer start items) start items.length = items := by
  apply List.ext_getElem (segment_length _ _ _)
  intro index _ inside
  simp only [segment, List.getElem_map, List.getElem_range, store_apply_of_lt _ _ inside]

/-- Copying items in one after the other is copying them at once. -/
theorem store_cons (buffer : Nat → Item) (start : Nat) (item : Item) (items : List Item) :
    store buffer start (item :: items) =
      store (Function.update buffer start item) (start + 1) items := by
  funext index
  unfold store
  rcases lt_trichotomy index start with before | rfl | after
  · rw [if_neg (by omega), if_neg (by omega), Function.update_of_ne (by omega)]
  · rw [if_pos le_rfl, if_neg (by omega), Nat.sub_self, Function.update_self]
    rfl
  · rw [if_pos (by omega), if_pos (by omega), Function.update_of_ne (by omega),
      show index - start = index - (start + 1) + 1 by omega, List.getElem?_cons_succ]

/-- One more item behind those copied in. -/
theorem store_concat (buffer : Nat → Item) (start : Nat) (items : List Item) (item : Item) :
    store buffer start (items ++ [item]) =
      Function.update (store buffer start items) (start + items.length) item := by
  induction items generalizing buffer start with
  | nil => rw [List.nil_append, store_cons, store_nil, store_nil, List.length_nil, Nat.add_zero]
  | cons first rest ih =>
    rw [List.cons_append, store_cons, ih, store_cons, List.length_cons,
      show start + (rest.length + 1) = start + 1 + rest.length by omega]

/-- **Storing a contiguous block** right behind a window, without reaching the wrap. -/
theorem window_store (buffer : Nat → Item) {capacity start count position : Nat}
    (items : List Item) (place : position = (start + count) % capacity)
    (contiguous : position + items.length ≤ capacity) (room : count + items.length ≤ capacity) :
    window (store buffer position items) capacity start (count + items.length) =
      window buffer capacity start count ++ items := by
  induction items generalizing buffer count position with
  | nil => rw [store_nil, List.append_nil, List.length_nil, Nat.add_zero]
  | cons item rest ih =>
    rw [List.length_cons] at contiguous room
    rw [store_cons, List.length_cons, show count + (rest.length + 1) = count + 1 + rest.length by
      omega]
    by_cases last : rest = []
    · rw [last, store_nil, List.length_nil, Nat.add_zero, place]
      exact window_push (by omega) item
    · have more : 0 < rest.length := List.length_pos_iff.mpr last
      have next : position + 1 = (start + (count + 1)) % capacity := by
        rw [← Nat.add_assoc, ← Nat.mod_add_mod, ← place, Nat.mod_eq_of_lt (by omega)]
      rw [ih _ next (by omega) (by omega), place, window_push (by omega) item, List.append_assoc,
        List.singleton_append]

/-! ### Contiguous regions -/

theorem window_eq_segment {buffer : Nat → Item} {capacity start count : Nat}
    (contiguous : start + count ≤ capacity) :
    window buffer capacity start count = segment buffer start count := by
  apply List.map_congr_left
  intro offset member
  have inside := List.mem_range.mp member
  rw [Nat.mod_eq_of_lt (by omega)]

/-! ### Two regions -/

/-- **Storing a block in two regions**: up to the end of the buffer, and the rest from its
beginning. -/
theorem window_store_two (buffer : Nat → Item) {capacity start count position first : Nat}
    (items : List Item) (place : position = (start + count) % capacity)
    (inside : position < capacity) (room : count + items.length ≤ capacity)
    (split : first = min items.length (capacity - position)) :
    window (store (store buffer position (items.take first)) 0 (items.drop first)) capacity start
      (count + items.length) = window buffer capacity start count ++ items := by
  have firstLength : (items.take first).length = first := by
    rw [List.length_take]
    omega
  have stored := window_store buffer (items.take first) place (by omega) (by omega)
  rw [firstLength] at stored
  by_cases one : items.length ≤ capacity - position
  · have all : first = items.length := by omega
    rw [all, List.take_length] at stored ⊢
    rw [List.drop_length, store_nil]
    exact stored
  · have wraps : 0 = (start + (count + first)) % capacity := by
      rw [← Nat.add_assoc, ← Nat.mod_add_mod, ← place,
        show position + first = capacity by omega, Nat.mod_self]
    have restLength : (items.drop first).length = items.length - first := List.length_drop
    have storedRest := window_store (store buffer position (items.take first)) (items.drop first)
      wraps (by omega) (by omega)
    rw [show count + items.length = count + first + (items.drop first).length by omega,
      storedRest, stored, List.append_assoc, List.take_append_drop]

/-- **Reading a window as two regions.** -/
theorem window_eq_two (buffer : Nat → Item) {capacity start count first : Nat}
    (positive : 0 < capacity) (fits : count ≤ capacity)
    (split : first = min count (capacity - start % capacity)) :
    window buffer capacity start count =
      segment buffer (start % capacity) first ++ segment buffer 0 (count - first) := by
  have inside := Nat.mod_lt start positive
  rw [← window_mod, show count = first + (count - first) by omega, window_add,
    window_eq_segment (by omega), Nat.add_sub_cancel_left]
  refine congrArg _ ?_
  rcases Nat.eq_zero_or_pos (count - first) with none_ | some_
  · rw [none_]
    rfl
  · rw [show start % capacity + first = capacity by omega, ← window_mod, Nat.mod_self,
      window_eq_segment (by omega)]

end ForgeDrive.Circular
