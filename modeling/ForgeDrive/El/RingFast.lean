/-
**The ring `el::ring_fast`** (`fd/ring.h`).

The capacity is a power of two, and the indices wrap by a mask. A ring that is `Valid` holds the
`contents` between tail and head, at most `capacity_ - 1` items. Against `contents`:

* `pushFast_contents`, `pushAll_spec` — pushing appends, while there is room;
* `peek_eq` — the first item;
* `distanceFromTail_eq` — the place of an index in the contents;
* `readReserve_eq`, `readCommit_contents` — reserving reads a beginning, committing drops it.

What is between head and tail is all that a ring shows: rings with the `SamePlaces` or the
`SameItems` stay so, whatever else is in their memories.
-/

import ForgeDrive.Fd.Ring

namespace ForgeDrive.El

open Circular (segment window)
open Fd (Regions regions Splits toNat_sub_of_le toNat_add_of_lt)

variable {Item : Type*}

/-! ### The ring -/

/-- `el::ring_fast`. The pointer `buffer_` is the memory it points to. -/
structure RingFast (Item : Type*) where
  buffer_ : Nat → Item
  capacity_ : UInt16
  mask_ : UInt16
  head_ : UInt16
  tail_ : UInt16

/-- `ring_fast::ring_fast`. -/
def RingFast.new (buffer : Nat → Item) (size : UInt16) : RingFast Item where
  buffer_ := buffer
  capacity_ := size
  mask_ := size - 1
  head_ := 0
  tail_ := 0

/-- `ring_fast::size`. -/
def RingFast.size (r : RingFast Item) : UInt16 := (r.head_ - r.tail_) &&& r.mask_

/-- `ring_fast::capacity`. -/
def RingFast.capacity (r : RingFast Item) : UInt16 := r.capacity_ - 1

/-- `ring_fast::free`. -/
def RingFast.free (r : RingFast Item) : UInt16 := r.capacity - r.size

/-- `ring_fast::head`. -/
def RingFast.head (r : RingFast Item) : UInt16 := r.head_

/-- `ring_fast::clear`. -/
def RingFast.clear (r : RingFast Item) : RingFast Item := { r with head_ := 0, tail_ := 0 }

/-- `ring_fast::pushFast`. -/
def RingFast.pushFast (r : RingFast Item) (item : Item) : RingFast Item :=
  { r with
    buffer_ := Function.update r.buffer_ r.head_.toNat item
    head_ := (r.head_ + 1) &&& r.mask_ }

/-- `ring_fast::push`, and whether there was room. -/
def RingFast.push (r : RingFast Item) (item : Item) : RingFast Item × Bool :=
  if (r.head_ + 1) &&& r.mask_ = r.tail_ then (r, false) else (r.pushFast item, true)

/-- `ring_fast::peek`. -/
def RingFast.peek (r : RingFast Item) : Option Item :=
  if r.head_ = r.tail_ then none else some (r.buffer_ r.tail_.toNat)

/-- `ring_fast::pop`, without the item. -/
def RingFast.pop (r : RingFast Item) : RingFast Item :=
  if r.head_ = r.tail_ then r else { r with tail_ := (r.tail_ + 1) &&& r.mask_ }

/-- `ring_fast::distanceFromTail`; `none` where it returns `false` and leaves `distance` alone. The
difference is an `int`, of which the mask keeps at most 15 bits. -/
def RingFast.distanceFromTail (r : RingFast Item) (idx : Int16) : Option UInt16 :=
  if idx.toInt ≥ r.capacity_.toNat then none
  else
    let d := (idx.toUInt16 - r.tail_) &&& r.mask_
    if d ≥ r.size then none else some d

/-- `ring_fast::read_reserve`; `none` where it returns `false`. -/
def RingFast.readReserve (r : RingFast Item) : Option Regions :=
  if r.size = 0 then none
  else
    let space := if r.tail_ ≥ r.head_ then r.capacity_ - r.tail_ else r.head_ - r.tail_
    some (regions r.tail_ space r.size)

/-- `ring_fast::read_commit`. -/
def RingFast.readCommit (r : RingFast Item) (count : UInt16) : RingFast Item :=
  { r with tail_ := (r.tail_ + count) &&& r.mask_ }

/-! ### The contents -/

/-- What the constructor asserts of the capacity, and both indices below it. -/
structure RingFast.Valid (r : RingFast Item) : Prop where
  power : ∃ exponent ≤ 15, r.capacity_.toNat = 2 ^ exponent
  mask : r.mask_ = r.capacity_ - 1
  head : r.head_.toNat < r.capacity_.toNat
  tail : r.tail_.toNat < r.capacity_.toNat

/-- The items pushed and not yet read. -/
def RingFast.contents (r : RingFast Item) : List Item :=
  window r.buffer_ r.capacity_.toNat r.tail_.toNat r.size.toNat

@[simp] theorem RingFast.contents_length (r : RingFast Item) : r.contents.length = r.size.toNat :=
  Circular.window_length _ _ _ _

namespace RingFast

variable {r : RingFast Item}

theorem new_valid (buffer : Nat → Item) {size : UInt16}
    (power : ∃ exponent ≤ 15, size.toNat = 2 ^ exponent) : (RingFast.new buffer size).Valid := by
  have positive : 0 < size.toNat := by
    obtain ⟨exponent, -, size⟩ := power
    rw [size]
    exact Nat.two_pow_pos exponent
  exact ⟨power, rfl, positive, positive⟩

theorem new_contents (buffer : Nat → Item) (size : UInt16) :
    (RingFast.new buffer size).contents = [] := by
  have none_ : (RingFast.new buffer size).size = 0 := by
    show (0 - 0 : UInt16) &&& (size - 1) = 0
    rw [UInt16.sub_self, UInt16.zero_and]
  rw [contents, none_]
  exact Circular.window_zero _ _ _

/-- A capacity of the ring divides the range of its indices. -/
theorem Valid.dvd (valid : r.Valid) : r.capacity_.toNat ∣ 65536 := by
  obtain ⟨exponent, few, power⟩ := valid.power
  rw [power]
  exact Nat.pow_dvd_pow 2 (Nat.le_succ_of_le few)

theorem Valid.capacity_le (valid : r.Valid) : r.capacity_.toNat ≤ 32768 := by
  obtain ⟨exponent, few, power⟩ := valid.power
  rw [power]
  exact Nat.pow_le_pow_right (by decide) few

/-- **The mask is the remainder** by the capacity. -/
theorem Valid.and_mask (valid : r.Valid) (index : UInt16) :
    (index &&& r.mask_).toNat = index.toNat % r.capacity_.toNat := by
  have positive := Nat.zero_lt_of_lt valid.head
  obtain ⟨exponent, _, power⟩ := valid.power
  have one : (1 : UInt16).toNat = 1 := rfl
  rw [UInt16.toNat_and, valid.mask, toNat_sub_of_le (by omega), one, power,
    Nat.and_two_pow_sub_one_eq_mod]

theorem Valid.advance (valid : r.Valid) (index count : UInt16) :
    ((index + count) &&& r.mask_).toNat = (index.toNat + count.toNat) % r.capacity_.toNat := by
  rw [valid.and_mask, UInt16.toNat_add]
  exact Nat.mod_mod_of_dvd _ valid.dvd

theorem Valid.distance (valid : r.Valid) {index : UInt16}
    (inside : index.toNat < r.capacity_.toNat) :
    ((index - r.tail_) &&& r.mask_).toNat =
      if r.tail_.toNat ≤ index.toNat then index.toNat - r.tail_.toNat
      else r.capacity_.toNat + index.toNat - r.tail_.toNat := by
  have tail := valid.tail
  have small := valid.capacity_le
  obtain ⟨turns, range⟩ := valid.dvd
  have wrapped : ((index - r.tail_) &&& r.mask_).toNat =
      (65536 - r.tail_.toNat + index.toNat) % r.capacity_.toNat := by
    rw [valid.and_mask, UInt16.toNat_sub]
    exact Nat.mod_mod_of_dvd _ valid.dvd
  rw [wrapped]
  split
  case isTrue ordered =>
    rw [show 65536 - r.tail_.toNat + index.toNat =
        index.toNat - r.tail_.toNat + r.capacity_.toNat * turns by omega,
      Nat.add_mul_mod_self_left, Nat.mod_eq_of_lt (by omega)]
  case isFalse unordered =>
    have some_ : 1 ≤ turns := by
      by_contra none_
      rw [show turns = 0 by omega] at range
      omega
    obtain ⟨rest, rfl⟩ := Nat.exists_eq_add_of_le some_
    rw [Nat.mul_add, Nat.mul_one] at range
    rw [show 65536 - r.tail_.toNat + index.toNat =
        r.capacity_.toNat + index.toNat - r.tail_.toNat + r.capacity_.toNat * rest by omega,
      Nat.add_mul_mod_self_left, Nat.mod_eq_of_lt (by omega)]

theorem size_toNat (valid : r.Valid) : r.size.toNat =
    if r.tail_.toNat ≤ r.head_.toNat then r.head_.toNat - r.tail_.toNat
    else r.capacity_.toNat + r.head_.toNat - r.tail_.toNat := valid.distance valid.head

theorem size_lt (valid : r.Valid) : r.size.toNat < r.capacity_.toNat := by
  have head := valid.head
  have tail := valid.tail
  rw [size_toNat valid]
  split <;> omega

/-- The head is the size ahead of the tail. -/
theorem head_eq (valid : r.Valid) :
    r.head_.toNat = (r.tail_.toNat + r.size.toNat) % r.capacity_.toNat := by
  have head := valid.head
  have tail := valid.tail
  rw [size_toNat valid]
  split
  · rw [Nat.mod_eq_of_lt (by omega)]
    omega
  · rw [show r.tail_.toNat + (r.capacity_.toNat + r.head_.toNat - r.tail_.toNat) =
      r.head_.toNat + r.capacity_.toNat by omega, Nat.add_mod_right, Nat.mod_eq_of_lt head]

theorem free_toNat (valid : r.Valid) : r.free.toNat = r.capacity_.toNat - 1 - r.size.toNat := by
  have size := size_lt valid
  have one : (1 : UInt16).toNat = 1 := rfl
  have usable : r.capacity.toNat = r.capacity_.toNat - 1 := by
    rw [capacity, toNat_sub_of_le (by omega), one]
  rw [free, toNat_sub_of_le (by omega), usable]

theorem empty_iff (valid : r.Valid) : r.head_ = r.tail_ ↔ r.size.toNat = 0 := by
  have head := valid.head
  have tail := valid.tail
  rw [← UInt16.toNat_inj, size_toNat valid]
  split <;> omega

/-! ### Pushing -/

theorem pushFast_valid (valid : r.Valid) (item : Item) : (r.pushFast item).Valid := by
  refine ⟨valid.power, valid.mask, ?_, valid.tail⟩
  show ((r.head_ + 1) &&& r.mask_).toNat < r.capacity_.toNat
  rw [valid.advance]
  exact Nat.mod_lt _ (Nat.zero_lt_of_lt valid.head)

theorem pushFast_head (valid : r.Valid) (item : Item) :
    (r.pushFast item).head_.toNat = (r.head_.toNat + 1) % r.capacity_.toNat :=
  valid.advance r.head_ 1

theorem pushFast_size (valid : r.Valid) (room : r.size.toNat + 1 < r.capacity_.toNat)
    (item : Item) :
    (r.pushFast item).size.toNat = r.size.toNat + 1 := by
  have head := valid.head
  have tail := valid.tail
  have size := size_toNat valid
  have next := size_toNat (pushFast_valid valid item)
  have advanced := pushFast_head valid item
  have sameTail : (r.pushFast item).tail_.toNat = r.tail_.toNat := rfl
  have sameCapacity : (r.pushFast item).capacity_.toNat = r.capacity_.toNat := rfl
  rw [sameTail, sameCapacity] at next
  by_cases wraps : r.head_.toNat + 1 = r.capacity_.toNat
  · rw [wraps, Nat.mod_self] at advanced
    split at size <;> split at next <;> omega
  · rw [Nat.mod_eq_of_lt (by omega)] at advanced
    split at size <;> split at next <;> omega

/-- **Pushing** appends, while there is room. -/
theorem pushFast_contents (valid : r.Valid) (room : r.size.toNat + 1 < r.capacity_.toNat)
    (item : Item) : (r.pushFast item).contents = r.contents ++ [item] := by
  rw [contents, pushFast_size valid room]
  show window (Function.update r.buffer_ r.head_.toNat item) r.capacity_.toNat r.tail_.toNat
    (r.size.toNat + 1) = _
  rw [head_eq valid, Circular.window_push (by omega) item]
  rfl

/-- The index behind the head is the tail exactly if the ring is full. -/
theorem next_eq_iff (valid : r.Valid) :
    (r.head_ + 1) &&& r.mask_ = r.tail_ ↔ ¬ r.size.toNat + 1 < r.capacity_.toNat := by
  have less := size_lt valid
  have tail := valid.tail
  have advanced := valid.advance r.head_ 1
  have one : (1 : UInt16).toNat = 1 := rfl
  rw [head_eq valid, one, Nat.mod_add_mod] at advanced
  rw [← UInt16.toNat_inj, advanced]
  by_cases full : r.size.toNat + 1 < r.capacity_.toNat
  · refine iff_of_false (fun same => ?_) (not_not_intro full)
    have apart : (r.tail_.toNat + (r.size.toNat + 1)) % r.capacity_.toNat ≠
        (r.tail_.toNat + 0) % r.capacity_.toNat :=
      Circular.index_ne full (Nat.zero_lt_of_lt full) (Nat.succ_ne_zero _)
    exact apart (same.trans (Nat.mod_eq_of_lt tail).symm)
  · refine iff_of_true ?_ full
    rw [show r.tail_.toNat + r.size.toNat + 1 = r.tail_.toNat + r.capacity_.toNat by omega,
      Nat.add_mod_right, Nat.mod_eq_of_lt tail]

theorem push_eq (valid : r.Valid) (room : r.size.toNat + 1 < r.capacity_.toNat) (item : Item) :
    r.push item = (r.pushFast item, true) :=
  if_neg fun same => (next_eq_iff valid).mp same room

theorem push_full (valid : r.Valid) (full : ¬ r.size.toNat + 1 < r.capacity_.toNat) (item : Item) :
    r.push item = (r, false) := if_pos ((next_eq_iff valid).mpr full)

/-- Several items, one after the other. -/
def pushAll (r : RingFast Item) (items : List Item) : RingFast Item := items.foldl pushFast r

theorem pushAll_cons (r : RingFast Item) (item : Item) (rest : List Item) :
    r.pushAll (item :: rest) = (r.pushFast item).pushAll rest := rfl

theorem pushAll_append (r : RingFast Item) (first second : List Item) :
    r.pushAll (first ++ second) = (r.pushAll first).pushAll second := List.foldl_append

/-- Pushing moves the head only, with room or without. -/
theorem pushAll_frame (valid : r.Valid) (items : List Item) :
    (r.pushAll items).Valid ∧ (r.pushAll items).capacity_ = r.capacity_ ∧
      (r.pushAll items).tail_ = r.tail_ ∧
      (r.pushAll items).head_.toNat = (r.head_.toNat + items.length) % r.capacity_.toNat := by
  induction items generalizing r with
  | nil => exact ⟨valid, rfl, rfl, (Nat.mod_eq_of_lt valid.head).symm⟩
  | cons item rest ih =>
    obtain ⟨validAll, capacity, tail, head⟩ := ih (pushFast_valid valid item)
    refine ⟨validAll, capacity, tail, ?_⟩
    have moved := pushFast_head valid item
    have sameCapacity : (r.pushFast item).capacity_.toNat = r.capacity_.toNat := rfl
    rw [pushAll_cons, head, moved, sameCapacity, Nat.mod_add_mod, List.length_cons]
    exact congrArg (· % _) (by omega)

/-- **Pushing several items.** -/
theorem pushAll_spec (valid : r.Valid) {items : List Item}
    (room : r.size.toNat + items.length < r.capacity_.toNat) :
    (r.pushAll items).Valid ∧ (r.pushAll items).contents = r.contents ++ items ∧
      (r.pushAll items).tail_ = r.tail_ ∧ (r.pushAll items).capacity_ = r.capacity_ := by
  induction items generalizing r with
  | nil => exact ⟨valid, (List.append_nil _).symm, rfl, rfl⟩
  | cons item rest ih =>
    rw [List.length_cons] at room
    have size := pushFast_size valid (by omega) item
    have sameCapacity : (r.pushFast item).capacity_.toNat = r.capacity_.toNat := rfl
    obtain ⟨validAll, contentsAll, tail, capacity⟩ :=
      ih (pushFast_valid valid item) (by rw [size, sameCapacity]; omega)
    refine ⟨validAll, ?_, tail, capacity⟩
    rw [pushAll_cons, contentsAll,
      pushFast_contents valid (by omega), List.append_assoc, List.singleton_append]

/-! ### The first item -/

theorem peek_eq (valid : r.Valid) : r.peek = r.contents.head? := by
  unfold peek
  by_cases empty : r.head_ = r.tail_
  · rw [if_pos empty, contents, (empty_iff valid).mp empty, Circular.window_zero]
    rfl
  · have some_ : r.size.toNat ≠ 0 := fun zero => empty ((empty_iff valid).mpr zero)
    obtain ⟨rest, size⟩ := Nat.exists_eq_succ_of_ne_zero some_
    rw [if_neg empty, contents, size, Circular.window_succ, Nat.mod_eq_of_lt valid.tail]
    rfl

theorem size_eq_zero (empty : r.contents = []) : r.size.toNat = 0 := by
  rw [← contents_length, empty]
  rfl

/-- An item pushed to an empty ring is the first. -/
theorem peek_push_first (valid : r.Valid) (empty : r.contents = [])
    (room : 1 < r.capacity_.toNat) (item : Item) : (r.push item).1.peek = some item := by
  have none_ := size_eq_zero empty
  have pushed := push_eq valid (by omega) item
  have contents := pushFast_contents valid (by omega) item
  rw [pushed, peek_eq (pushFast_valid valid item), contents, empty]
  rfl

/-! ### Reading -/

theorem readCommit_valid (valid : r.Valid) (count : UInt16) : (r.readCommit count).Valid := by
  refine ⟨valid.power, valid.mask, valid.head, ?_⟩
  show ((r.tail_ + count) &&& r.mask_).toNat < r.capacity_.toNat
  rw [valid.advance]
  exact Nat.mod_lt _ (Nat.zero_lt_of_lt valid.head)

theorem readCommit_tail (valid : r.Valid) (count : UInt16) :
    (r.readCommit count).tail_.toNat = (r.tail_.toNat + count.toNat) % r.capacity_.toNat :=
  valid.advance r.tail_ count

theorem readCommit_size (valid : r.Valid) {count : UInt16} (within : count.toNat ≤ r.size.toNat) :
    (r.readCommit count).size.toNat = r.size.toNat - count.toNat := by
  have head := valid.head
  have tail := valid.tail
  have size := size_toNat valid
  have less := size_lt valid
  have next := size_toNat (readCommit_valid valid count)
  have advanced := readCommit_tail valid count
  have sameHead : (r.readCommit count).head_.toNat = r.head_.toNat := rfl
  have sameCapacity : (r.readCommit count).capacity_.toNat = r.capacity_.toNat := rfl
  rw [sameHead, sameCapacity] at next
  by_cases wraps : r.tail_.toNat + count.toNat < r.capacity_.toNat
  · rw [Nat.mod_eq_of_lt wraps] at advanced
    split at size <;> split at next <;> omega
  · rw [Nat.mod_eq_sub_mod (by omega), Nat.mod_eq_of_lt (by omega)] at advanced
    split at size <;> split at next <;> omega

/-- **Committing a read** drops the items from the front. -/
theorem readCommit_contents (valid : r.Valid) {count : UInt16}
    (within : count.toNat ≤ r.size.toNat) :
    (r.readCommit count).contents = r.contents.drop count.toNat := by
  rw [contents, contents, readCommit_size valid within, readCommit_tail valid,
    Circular.window_drop _ within]
  exact Circular.window_mod _ _ _ _

theorem pop_eq (valid : r.Valid) (some_ : r.size.toNat ≠ 0) : r.pop = r.readCommit 1 :=
  if_neg fun empty => some_ ((empty_iff valid).mp empty)

theorem pop_valid (valid : r.Valid) : r.pop.Valid := by
  rw [pop]
  split
  · exact valid
  · exact readCommit_valid valid 1

/-- **Popping** drops the first item, if there is one. -/
theorem pop_contents (valid : r.Valid) : r.pop.contents = r.contents.tail := by
  rcases Nat.eq_zero_or_pos r.size.toNat with empty | some_
  · have nothing : r.contents = [] := List.length_eq_zero_iff.mp ((contents_length r).trans empty)
    rw [pop, if_pos ((empty_iff valid).mpr empty), nothing, List.tail_nil]
  · have one : (1 : UInt16).toNat ≤ r.size.toNat := some_
    rw [pop_eq valid (Nat.ne_of_gt some_), readCommit_contents valid one]
    exact List.drop_one

/-- **The place of an index** in the contents. -/
theorem distanceFromTail_eq (valid : r.Valid) {idx : Int16} {offset : Nat}
    (place : idx.toUInt16.toNat = (r.tail_.toNat + offset) % r.capacity_.toNat)
    (inside : offset < r.size.toNat) :
    ∃ distance, r.distanceFromTail idx = some distance ∧ distance.toNat = offset := by
  have less := size_lt valid
  have small := valid.capacity_le
  have tail := valid.tail
  have below : idx.toUInt16.toNat < r.capacity_.toNat := by
    rw [place]
    exact Nat.mod_lt _ (Nat.zero_lt_of_lt valid.head)
  have value : idx.toInt = if 2 * idx.toUInt16.toNat < 65536 then (idx.toUInt16.toNat : Int)
      else (idx.toUInt16.toNat : Int) - 65536 := BitVec.toInt_eq_toNat_cond _
  have inRange : ¬ idx.toInt ≥ r.capacity_.toNat := by
    rw [value]
    split <;> omega
  have distance : ((idx.toUInt16 - r.tail_) &&& r.mask_).toNat = offset := by
    rw [valid.distance below]
    by_cases wraps : r.tail_.toNat + offset < r.capacity_.toNat
    · rw [Nat.mod_eq_of_lt wraps] at place
      rw [if_pos (by omega)]
      omega
    · rw [Nat.mod_eq_sub_mod (by omega), Nat.mod_eq_of_lt (by omega)] at place
      rw [if_neg (by omega)]
      omega
  refine ⟨_, ?_, distance⟩
  have behind : ¬ (idx.toUInt16 - r.tail_) &&& r.mask_ ≥ r.size := fun le => by
    have leNat := UInt16.le_iff_toNat_le.mp le
    omega
  rw [distanceFromTail, if_neg inRange]
  exact if_neg behind

theorem readReserve_none (empty : r.size.toNat = 0) : r.readReserve = none :=
  if_pos (UInt16.toNat_inj.mp empty)

/-- **Reserving items to read** succeeds exactly for a ring with contents, at the tail. -/
theorem readReserve_eq (valid : r.Valid) (some_ : r.size.toNat ≠ 0) :
    ∃ out, r.readReserve = some out ∧
      Splits r.capacity_.toNat r.tail_.toNat r.size.toNat out := by
  have head := valid.head
  have tail := valid.tail
  have size := size_toNat valid
  have reserved : r.size ≠ 0 := fun zero => some_ (by rw [zero]; rfl)
  rw [readReserve, if_neg reserved]
  refine ⟨_, rfl, Fd.regions_splits ?_⟩
  by_cases ordered : r.head_.toNat ≤ r.tail_.toNat
  · rw [if_pos (UInt16.le_iff_toNat_le.mpr ordered), toNat_sub_of_le (Nat.le_of_lt tail)]
  · rw [if_neg fun le => ordered (UInt16.le_iff_toNat_le.mp le)]
    rw [if_pos (by omega)] at size
    rw [toNat_sub_of_le (by omega)]
    omega

theorem clear_valid (valid : r.Valid) : r.clear.Valid :=
  ⟨valid.power, valid.mask, Nat.zero_lt_of_lt valid.head, Nat.zero_lt_of_lt valid.head⟩

theorem clear_contents (r : RingFast Item) : r.clear.contents = [] := by
  have none_ : r.clear.size = 0 := by
    show (0 - 0 : UInt16) &&& r.mask_ = 0
    rw [UInt16.sub_self, UInt16.zero_and]
  rw [contents, none_]
  exact Circular.window_zero _ _ _

/-! ### Rings that hold the same -/

/-- The same items at the same places. -/
structure SamePlaces (r other : RingFast Item) : Prop where
  valid : r.Valid
  capacity : other.capacity_ = r.capacity_
  mask : other.mask_ = r.mask_
  head : other.head_ = r.head_
  tail : other.tail_ = r.tail_
  contents : other.contents = r.contents

/-- The same items, wherever they are. -/
structure SameItems (r other : RingFast Item) : Prop where
  valid : r.Valid
  validOther : other.Valid
  capacity : other.capacity_ = r.capacity_
  contents : other.contents = r.contents

/-- A push beyond what there is room for leaves an empty ring. -/
theorem pushFast_full (valid : r.Valid) (full : ¬ r.size.toNat + 1 < r.capacity_.toNat)
    (item : Item) : (r.pushFast item).contents = [] := by
  have none_ := (empty_iff (pushFast_valid valid item)).mp ((next_eq_iff valid).mpr full)
  rw [contents, none_, Circular.window_zero]

section Same

variable {other : RingFast Item}

theorem SamePlaces.validOther (same : SamePlaces r other) : other.Valid := by
  refine ⟨?_, ?_, ?_, ?_⟩
  · rw [same.capacity]
    exact same.valid.power
  · rw [same.capacity, same.mask]
    exact same.valid.mask
  · rw [same.capacity, same.head]
    exact same.valid.head
  · rw [same.capacity, same.tail]
    exact same.valid.tail

theorem SamePlaces.size (same : SamePlaces r other) : other.size = r.size := by
  rw [RingFast.size, RingFast.size, same.head, same.tail, same.mask]

theorem SamePlaces.free (same : SamePlaces r other) : other.free = r.free := by
  rw [RingFast.free, RingFast.free, RingFast.capacity, RingFast.capacity, same.size,
    same.capacity]

theorem SamePlaces.pushFast (same : SamePlaces r other) (item : Item) :
    SamePlaces (r.pushFast item) (other.pushFast item) := by
  refine ⟨pushFast_valid same.valid item, same.capacity, same.mask, ?_, same.tail, ?_⟩
  · show (other.head_ + 1) &&& other.mask_ = (r.head_ + 1) &&& r.mask_
    rw [same.head, same.mask]
  · have sizes : other.size.toNat + 1 < other.capacity_.toNat ↔
        r.size.toNat + 1 < r.capacity_.toNat := by rw [same.size, same.capacity]
    by_cases room : r.size.toNat + 1 < r.capacity_.toNat
    · rw [pushFast_contents same.valid room, same.contents.symm,
        pushFast_contents same.validOther (sizes.mpr room)]
    · rw [pushFast_full same.valid room,
        pushFast_full same.validOther fun more => room (sizes.mp more)]

theorem SamePlaces.pushAll (same : SamePlaces r other) (items : List Item) :
    SamePlaces (r.pushAll items) (other.pushAll items) := by
  induction items generalizing r other with
  | nil => exact same
  | cons item rest ih => exact ih (same.pushFast item)

theorem SamePlaces.readCommit (same : SamePlaces r other) {count : UInt16}
    (within : count.toNat ≤ r.size.toNat) :
    SamePlaces (r.readCommit count) (other.readCommit count) := by
  refine ⟨readCommit_valid same.valid count, same.capacity, same.mask, same.head, ?_, ?_⟩
  · show (other.tail_ + count) &&& other.mask_ = (r.tail_ + count) &&& r.mask_
    rw [same.tail, same.mask]
  · rw [readCommit_contents same.valid within, ← same.contents,
      readCommit_contents same.validOther (by rw [same.size]; exact within)]

theorem SamePlaces.readReserve (same : SamePlaces r other) :
    other.readReserve = r.readReserve := by
  rw [RingFast.readReserve, RingFast.readReserve, same.size, same.head, same.tail, same.capacity]

theorem SamePlaces.distanceFromTail (same : SamePlaces r other) (idx : Int16) :
    other.distanceFromTail idx = r.distanceFromTail idx := by
  rw [RingFast.distanceFromTail, RingFast.distanceFromTail, same.size, same.tail, same.capacity,
    same.mask]

theorem SameItems.size (same : SameItems r other) : other.size.toNat = r.size.toNat := by
  rw [← contents_length, ← contents_length, same.contents]

theorem SameItems.peek (same : SameItems r other) : other.peek = r.peek := by
  rw [peek_eq same.validOther, peek_eq same.valid, same.contents]

theorem SameItems.push (same : SameItems r other) (item : Item) :
    SameItems (r.push item).1 (other.push item).1 := by
  have sizes : other.size.toNat + 1 < other.capacity_.toNat ↔
      r.size.toNat + 1 < r.capacity_.toNat := by rw [same.size, same.capacity]
  by_cases room : r.size.toNat + 1 < r.capacity_.toNat
  · rw [push_eq same.valid room, push_eq same.validOther (sizes.mpr room)]
    refine ⟨pushFast_valid same.valid item, pushFast_valid same.validOther item, same.capacity, ?_⟩
    rw [pushFast_contents same.valid room, pushFast_contents same.validOther (sizes.mpr room),
      same.contents]
  · rw [push_full same.valid room, push_full same.validOther fun more => room (sizes.mp more)]
    exact same

theorem SameItems.pop (same : SameItems r other) : SameItems r.pop other.pop := by
  refine ⟨pop_valid same.valid, pop_valid same.validOther, ?_, ?_⟩
  · rw [RingFast.pop, RingFast.pop]
    split <;> split <;> exact same.capacity
  · rw [pop_contents same.valid, pop_contents same.validOther, same.contents]

end Same

end RingFast

end ForgeDrive.El
