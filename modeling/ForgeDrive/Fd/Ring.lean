/-
**The byte ring `fd_ring_t`** (`fd_ring.h`).

Head, tail and capacity are `uint16_t`; the sums in the comparisons are computed in `int`. A ring
that is `Valid` — a capacity, and both indices below it — holds the `contents` between tail and
head, at most `capacity - 1` bytes. Against `contents`:

* `writeReserve_eq`, `copyIn_contents` — reserving, copying and committing appends;
* `readReserve_eq`, `readCommit_contents` — reserving reads a beginning, committing drops it.
-/

import ForgeDrive.Library.Circular

namespace ForgeDrive.Fd

open Circular (segment store window)

/-! ### The ring -/

/-- `fd_ring_t`. The pointer `buffer` is the memory it points to. -/
structure Ring where
  buffer : Nat → UInt8
  capacity : UInt16
  head : UInt16
  tail : UInt16

/-- `fd_ring_init`. -/
def Ring.init (storage : Nat → UInt8) (capacity : UInt16) : Ring where
  buffer := storage
  capacity := capacity
  head := 0
  tail := 0

/-- `fd_ring_size`. -/
def Ring.size (r : Ring) : UInt16 :=
  if r.head ≥ r.tail then r.head - r.tail else r.capacity - r.tail + r.head

/-- `fd_ring_free`. -/
def Ring.free (r : Ring) : UInt16 := r.capacity - r.size - 1

/-- `(index + count) - (index + count >= capacity ? capacity : 0)`, of both commits. -/
def advance (capacity index count : UInt16) : UInt16 :=
  index + count - (if index.toNat + count.toNat ≥ capacity.toNat then capacity else 0)

/-- `fd_ring_write_commit`. -/
def Ring.writeCommit (r : Ring) (count : UInt16) : Ring :=
  { r with head := advance r.capacity r.head count }

/-- `fd_ring_read_commit`. -/
def Ring.readCommit (r : Ring) (count : UInt16) : Ring :=
  { r with tail := advance r.capacity r.tail count }

/-- The outputs of the two reserve functions: the index of the first region in the buffer and its
length, and the index of the second region, `none` for `NULL`, and its length. -/
structure Regions where
  first : UInt16
  cont1 : UInt16
  second : Option UInt16
  cont2 : UInt16
  deriving DecidableEq, Repr

/-- `count` items at `first`, as far as `space` goes, and the rest at the start of the buffer. -/
def regions (first space count : UInt16) : Regions :=
  if space ≥ count then ⟨first, count, none, 0⟩ else ⟨first, space, some 0, count - space⟩

/-- `fd_ring_write_reserve`; `none` where it returns `false`. -/
def Ring.writeReserve (r : Ring) (count : UInt16) : Option Regions :=
  if count > r.free then none
  else
    let space :=
      if r.head ≥ r.tail then r.capacity - r.head - (if r.tail = 0 then 1 else 0)
      else r.tail - r.head - 1
    some (regions r.head space count)

/-- `fd_ring_read_reserve`; `none` where it returns `false`. -/
def Ring.readReserve (r : Ring) : Option Regions :=
  if r.size = 0 then none
  else
    let space := if r.tail ≥ r.head then r.capacity - r.tail else r.head - r.tail
    some (regions r.tail space r.size)

/-! ### The contents -/

/-- A ring with a capacity, and both indices below it. -/
structure Ring.Valid (r : Ring) : Prop where
  head : r.head.toNat < r.capacity.toNat
  tail : r.tail.toNat < r.capacity.toNat

/-- The bytes written and not yet read. -/
def Ring.contents (r : Ring) : List UInt8 :=
  window r.buffer r.capacity.toNat r.tail.toNat r.size.toNat

theorem Ring.init_valid (storage : Nat → UInt8) {capacity : UInt16} (positive : 0 < capacity) :
    (Ring.init storage capacity).Valid :=
  ⟨UInt16.lt_iff_toNat_lt.mp positive, UInt16.lt_iff_toNat_lt.mp positive⟩

@[simp] theorem Ring.init_contents (storage : Nat → UInt8) (capacity : UInt16) :
    (Ring.init storage capacity).contents = [] := by
  have empty : (Ring.init storage capacity).size = 0 := by simp [Ring.size, Ring.init]
  rw [Ring.contents, empty]
  rfl

@[simp] theorem Ring.contents_length (r : Ring) : r.contents.length = r.size.toNat :=
  Circular.window_length _ _ _ _

theorem toNat_sub_of_le {first second : UInt16} (le : second.toNat ≤ first.toNat) :
    (first - second).toNat = first.toNat - second.toNat :=
  UInt16.toNat_sub_of_le _ _ (UInt16.le_iff_toNat_le.mpr le)

theorem toNat_add_of_lt {first second : UInt16} (lt : first.toNat + second.toNat < 65536) :
    (first + second).toNat = first.toNat + second.toNat := by
  rw [UInt16.toNat_add, Nat.mod_eq_of_lt lt]

section Valid

variable {r : Ring}

theorem Ring.size_toNat (valid : r.Valid) : r.size.toNat =
    if r.tail.toNat ≤ r.head.toNat then r.head.toNat - r.tail.toNat
    else r.capacity.toNat + r.head.toNat - r.tail.toNat := by
  have head := valid.head
  have tail := valid.tail
  have small := r.capacity.toNat_lt
  by_cases ordered : r.tail.toNat ≤ r.head.toNat
  · rw [Ring.size, if_pos (UInt16.le_iff_toNat_le.mpr ordered), if_pos ordered,
      toNat_sub_of_le ordered]
  · have difference := toNat_sub_of_le (Nat.le_of_lt tail)
    rw [Ring.size, if_neg (fun le => ordered (UInt16.le_iff_toNat_le.mp le)), if_neg ordered,
      toNat_add_of_lt (by omega), difference]
    omega

theorem Ring.size_lt (valid : r.Valid) : r.size.toNat < r.capacity.toNat := by
  have head := valid.head
  have tail := valid.tail
  rw [r.size_toNat valid]
  split <;> omega

/-- The head is the size ahead of the tail. -/
theorem Ring.head_eq (valid : r.Valid) :
    r.head.toNat = (r.tail.toNat + r.size.toNat) % r.capacity.toNat := by
  have head := valid.head
  have tail := valid.tail
  rw [r.size_toNat valid]
  split
  · rw [Nat.mod_eq_of_lt (by omega)]
    omega
  · rw [show r.tail.toNat + (r.capacity.toNat + r.head.toNat - r.tail.toNat) =
      r.head.toNat + r.capacity.toNat by omega, Nat.add_mod_right, Nat.mod_eq_of_lt head]

theorem Ring.free_toNat (valid : r.Valid) :
    r.free.toNat = r.capacity.toNat - 1 - r.size.toNat := by
  have size := r.size_lt valid
  have difference := toNat_sub_of_le (Nat.le_of_lt size)
  have one : (1 : UInt16).toNat = 1 := rfl
  rw [Ring.free, toNat_sub_of_le (by omega), difference, one]
  omega

theorem advance_toNat {capacity index count : UInt16} (inside : index.toNat < capacity.toNat)
    (within : count.toNat ≤ capacity.toNat) :
    (advance capacity index count).toNat = (index.toNat + count.toNat) % capacity.toNat := by
  have small := capacity.toNat_lt
  unfold advance
  split
  case isTrue wraps =>
    rw [UInt16.toNat_sub, UInt16.toNat_add]
    have result : (index.toNat + count.toNat) % capacity.toNat =
        index.toNat + count.toNat - capacity.toNat := by
      rw [Nat.mod_eq_sub_mod wraps, Nat.mod_eq_of_lt (by omega)]
    omega
  case isFalse fits =>
    rw [UInt16.sub_zero, toNat_add_of_lt (by omega), Nat.mod_eq_of_lt (by omega)]

end Valid

/-! ### Reserving -/

/-- The regions for `count` bytes from `start` on: up to the end of the buffer, and the rest from
its beginning. -/
structure Splits (capacity start count : Nat) (out : Regions) : Prop where
  first : out.first.toNat = start
  cont1 : out.cont1.toNat = min count (capacity - start)
  cont2 : out.cont2.toNat = count - out.cont1.toNat
  second : out.second = if out.cont2 = 0 then none else some 0

/-- The second region starts at the beginning, and there is one exactly if it has bytes. -/
theorem Splits.second_cases {capacity start count : Nat} {out : Regions}
    (splits : Splits capacity start count out) :
    (out.second = none ∧ out.cont2.toNat = 0) ∨ (out.second = some 0 ∧ out.cont2.toNat ≠ 0) := by
  have second := splits.second
  by_cases one : out.cont2 = 0
  · rw [if_pos one] at second
    exact Or.inl ⟨second, congrArg UInt16.toNat one⟩
  · rw [if_neg one] at second
    exact Or.inr ⟨second, fun same => one (UInt16.toNat_inj.mp same)⟩

theorem Splits.second_zero {capacity start count : Nat} {out : Regions}
    (splits : Splits capacity start count out) {second : UInt16}
    (placed : out.second = some second) : second = 0 := by
  rcases splits.second_cases with ⟨none_, -⟩ | ⟨two, -⟩
  · cases none_.symm.trans placed
  · exact Option.some.inj (placed.symm.trans two)

theorem regions_splits {first space count : UInt16} {capacity : Nat}
    (enough : min count.toNat space.toNat = min count.toNat (capacity - first.toNat)) :
    Splits capacity first.toNat count.toNat (regions first space count) := by
  by_cases fits : count.toNat ≤ space.toNat
  · have one : regions first space count = ⟨first, count, none, 0⟩ :=
      if_pos (UInt16.le_iff_toNat_le.mpr fits)
    rw [one]
    refine ⟨rfl, ?_, ?_, rfl⟩
    · rw [← enough, Nat.min_eq_left fits]
    · exact (Nat.sub_self _).symm
  · have two : regions first space count = ⟨first, space, some 0, count - space⟩ :=
      if_neg fun le => fits (UInt16.le_iff_toNat_le.mp le)
    have difference : (count - space).toNat = count.toNat - space.toNat :=
      toNat_sub_of_le (by omega)
    have some_ : count - space ≠ 0 := by
      intro zero
      rw [zero] at difference
      have zeroNat : (0 : UInt16).toNat = 0 := rfl
      omega
    rw [two]
    refine ⟨rfl, ?_, difference, ?_⟩
    · rw [← enough, Nat.min_eq_right (by omega)]
    · exact (if_neg some_).symm

section Reserve

variable {r : Ring}

/-- **Reserving room to write** succeeds exactly for what fits, at the head. -/
theorem writeReserve_eq (valid : r.Valid) (count : UInt16) (fits : count.toNat ≤ r.free.toNat) :
    ∃ out, r.writeReserve count = some out ∧
      Splits r.capacity.toNat r.head.toNat count.toNat out := by
  have head := valid.head
  have tail := valid.tail
  have free := r.free_toNat valid
  have size := r.size_toNat valid
  have zero : (0 : UInt16).toNat = 0 := rfl
  have one : (1 : UInt16).toNat = 1 := rfl
  have difference := toNat_sub_of_le (Nat.le_of_lt head)
  have reserved : ¬ count > r.free := fun more =>
    absurd (UInt16.lt_iff_toNat_lt.mp more) (Nat.not_lt.mpr fits)
  rw [Ring.writeReserve, if_neg reserved]
  refine ⟨_, rfl, regions_splits ?_⟩
  by_cases ordered : r.tail.toNat ≤ r.head.toNat
  · rw [if_pos (UInt16.le_iff_toNat_le.mpr ordered)]
    rw [if_pos ordered] at size
    by_cases atZero : r.tail = 0
    · have tailZero : r.tail.toNat = 0 := by rw [atZero, zero]
      rw [if_pos atZero, toNat_sub_of_le (by omega), difference, one]
      omega
    · have tailPositive : r.tail.toNat ≠ 0 := fun same => atZero (UInt16.toNat_inj.mp same)
      rw [if_neg atZero, UInt16.sub_zero, difference]
  · rw [if_neg fun le => ordered (UInt16.le_iff_toNat_le.mp le)]
    rw [if_neg ordered] at size
    have room := toNat_sub_of_le (Nat.le_of_lt (Nat.lt_of_not_le ordered))
    rw [toNat_sub_of_le (by omega), room, one]
    omega

theorem writeReserve_none {count : UInt16} (more : r.free.toNat < count.toNat) :
    r.writeReserve count = none := if_pos (UInt16.lt_iff_toNat_lt.mpr more)

theorem readReserve_none (empty : r.size.toNat = 0) : r.readReserve = none :=
  if_pos (UInt16.toNat_inj.mp empty)

/-- **Reserving bytes to read** succeeds exactly for a ring with contents, at the tail. -/
theorem readReserve_eq (valid : r.Valid) (some_ : r.size.toNat ≠ 0) :
    ∃ out, r.readReserve = some out ∧
      Splits r.capacity.toNat r.tail.toNat r.size.toNat out := by
  have head := valid.head
  have tail := valid.tail
  have size := r.size_toNat valid
  have reserved : r.size ≠ 0 := fun zero => some_ (by rw [zero]; rfl)
  rw [Ring.readReserve, if_neg reserved]
  refine ⟨_, rfl, regions_splits ?_⟩
  by_cases ordered : r.head.toNat ≤ r.tail.toNat
  · rw [if_pos (UInt16.le_iff_toNat_le.mpr ordered), toNat_sub_of_le (Nat.le_of_lt tail)]
  · rw [if_neg fun le => ordered (UInt16.le_iff_toNat_le.mp le)]
    rw [if_pos (by omega)] at size
    rw [toNat_sub_of_le (by omega)]
    omega

/-- The first region is a beginning of the window it was reserved from. -/
theorem Splits.window_first {Item : Type*} (buffer : Nat → Item) {capacity start count : Nat}
    {out : Regions} (splits : Splits capacity start count out) :
    segment buffer out.first.toNat out.cont1.toNat =
      (window buffer capacity start count).take out.cont1.toNat := by
  have cont1 := splits.cont1
  rw [Circular.window_take _ (by omega), splits.first]
  rcases Nat.eq_zero_or_pos out.cont1.toNat with none_ | some_
  · rw [none_]
    rfl
  · exact (Circular.window_eq_segment (by omega)).symm

/-- The second region is the rest. -/
theorem Splits.window_second {Item : Type*} (buffer : Nat → Item) {capacity start count : Nat}
    {out : Regions} (splits : Splits capacity start count out) (inside : start < capacity)
    (fits : count ≤ capacity) :
    segment buffer 0 out.cont2.toNat =
      (window buffer capacity start count).drop out.cont1.toNat := by
  have cont1 := splits.cont1
  have cont2 := splits.cont2
  rw [Circular.window_drop _ (by omega), ← cont2]
  rcases Nat.eq_zero_or_pos out.cont2.toNat with none_ | some_
  · rw [none_]
    rfl
  · rw [show start + out.cont1.toNat = capacity by omega, ← Circular.window_mod, Nat.mod_self,
      Circular.window_eq_segment (by omega)]

/-- The first region of the reserved bytes is a beginning of the contents. -/
theorem Splits.segment_first {out : Regions}
    (splits : Splits r.capacity.toNat r.tail.toNat r.size.toNat out) :
    segment r.buffer out.first.toNat out.cont1.toNat = r.contents.take out.cont1.toNat :=
  splits.window_first r.buffer

theorem Splits.segment_second (valid : r.Valid) {out : Regions}
    (splits : Splits r.capacity.toNat r.tail.toNat r.size.toNat out) :
    segment r.buffer 0 out.cont2.toNat = r.contents.drop out.cont1.toNat :=
  splits.window_second r.buffer valid.tail (Nat.le_of_lt (r.size_lt valid))

end Reserve

/-! ### Committing -/

section Commit

variable {r : Ring} {count : UInt16}

theorem writeCommit_valid (valid : r.Valid) (within : count.toNat ≤ r.capacity.toNat) :
    (r.writeCommit count).Valid := by
  refine ⟨?_, valid.tail⟩
  show (advance r.capacity r.head count).toNat < r.capacity.toNat
  rw [advance_toNat valid.head within]
  exact Nat.mod_lt _ (Nat.zero_lt_of_lt valid.head)

theorem readCommit_valid (valid : r.Valid) (within : count.toNat ≤ r.capacity.toNat) :
    (r.readCommit count).Valid := by
  refine ⟨valid.head, ?_⟩
  show (advance r.capacity r.tail count).toNat < r.capacity.toNat
  rw [advance_toNat valid.tail within]
  exact Nat.mod_lt _ (Nat.zero_lt_of_lt valid.head)

theorem readCommit_zero (valid : r.Valid) : r.readCommit 0 = r := by
  have same : advance r.capacity r.tail 0 = r.tail := by
    have zero : (0 : UInt16).toNat = 0 := rfl
    rw [← UInt16.toNat_inj, advance_toNat valid.tail (Nat.zero_le _), zero, Nat.add_zero,
      Nat.mod_eq_of_lt valid.tail]
  rw [Ring.readCommit, same]

/-- Without the modulus, for indices inside the ring. -/
theorem advance_cases {capacity index : UInt16} (inside : index.toNat < capacity.toNat)
    (within : count.toNat ≤ capacity.toNat) :
    (advance capacity index count).toNat = if index.toNat + count.toNat < capacity.toNat then
      index.toNat + count.toNat else index.toNat + count.toNat - capacity.toNat := by
  rw [advance_toNat inside within]
  split
  case isTrue fits => exact Nat.mod_eq_of_lt fits
  case isFalse wraps => rw [Nat.mod_eq_sub_mod (by omega), Nat.mod_eq_of_lt (by omega)]

theorem writeCommit_size (valid : r.Valid) (room : r.size.toNat + count.toNat < r.capacity.toNat) :
    (r.writeCommit count).size.toNat = r.size.toNat + count.toNat := by
  have head := valid.head
  have tail := valid.tail
  have size := r.size_toNat valid
  have next := (r.writeCommit count).size_toNat (writeCommit_valid valid (by omega))
  have advanced : (r.writeCommit count).head.toNat = _ :=
    advance_cases valid.head (by omega)
  have sameTail : (r.writeCommit count).tail.toNat = r.tail.toNat := rfl
  have sameCapacity : (r.writeCommit count).capacity.toNat = r.capacity.toNat := rfl
  split at size <;> split at next <;> split at advanced <;> omega

theorem readCommit_size (valid : r.Valid) (within : count.toNat ≤ r.size.toNat) :
    (r.readCommit count).size.toNat = r.size.toNat - count.toNat := by
  have head := valid.head
  have tail := valid.tail
  have size := r.size_toNat valid
  have next := (r.readCommit count).size_toNat (readCommit_valid valid (by split at size <;> omega))
  have advanced : (r.readCommit count).tail.toNat = _ :=
    advance_cases valid.tail (by split at size <;> omega)
  have sameHead : (r.readCommit count).head.toNat = r.head.toNat := rfl
  have sameCapacity : (r.readCommit count).capacity.toNat = r.capacity.toNat := rfl
  split at size <;> split at next <;> split at advanced <;> omega

/-- **Committing a read** drops the bytes from the front. -/
theorem readCommit_contents (valid : r.Valid) (within : count.toNat ≤ r.size.toNat) :
    (r.readCommit count).contents = r.contents.drop count.toNat := by
  have size := r.size_lt valid
  unfold Ring.contents
  rw [readCommit_size valid within, Circular.window_drop _ within]
  show window r.buffer r.capacity.toNat (advance r.capacity r.tail count).toNat _ = _
  rw [advance_toNat valid.tail (by omega), Circular.window_mod]

end Commit

/-! ### Copying in -/

/-- The bytes `data` copied to the reserved regions: `memcpy` to the first, and to the second where
there is one. -/
def Ring.copyIn (r : Ring) (out : Regions) (data : List UInt8) : Ring :=
  let r := { r with buffer := store r.buffer out.first.toNat (data.take out.cont1.toNat) }
  match out.second with
  | none => r
  | some second => { r with
      buffer := store r.buffer second.toNat ((data.drop out.cont1.toNat).take out.cont2.toNat) }

section CopyIn

variable {r : Ring} {out : Regions} {data : List UInt8}

theorem copyIn_indices (r : Ring) (out : Regions) (data : List UInt8) :
    (r.copyIn out data).capacity = r.capacity ∧ (r.copyIn out data).head = r.head ∧
      (r.copyIn out data).tail = r.tail := by
  unfold Ring.copyIn
  cases out.second <;> exact ⟨rfl, rfl, rfl⟩

theorem copyIn_size (r : Ring) (out : Regions) (data : List UInt8) :
    (r.copyIn out data).size = r.size := by
  obtain ⟨capacity, head, tail⟩ := copyIn_indices r out data
  unfold Ring.size
  rw [capacity, head, tail]

theorem copyIn_valid (out : Regions) (data : List UInt8) (valid : r.Valid) :
    (r.copyIn out data).Valid := by
  obtain ⟨capacity, head, tail⟩ := copyIn_indices r out data
  refine ⟨?_, ?_⟩
  · rw [head, capacity]
    exact valid.head
  · rw [tail, capacity]
    exact valid.tail

/-- The copies store the data in two regions, of which the second may be empty. -/
theorem copyIn_buffer (splits : Splits r.capacity.toNat r.head.toNat data.length out) :
    (r.copyIn out data).buffer =
      store (store r.buffer r.head.toNat (data.take out.cont1.toNat)) 0
        (data.drop out.cont1.toNat) := by
  have rest : (data.drop out.cont1.toNat).length = out.cont2.toNat := by
    rw [List.length_drop, splits.cont2]
  rcases splits.second_cases with ⟨second, none_⟩ | ⟨second, -⟩
  · rw [none_] at rest
    rw [List.eq_nil_of_length_eq_zero rest, Circular.store_nil, Ring.copyIn, second, splits.first]
  · rw [Ring.copyIn, second, splits.first, ← rest, List.take_length]
    rfl

/-- The memory behind the contents after the copies. -/
theorem copyIn_window (valid : r.Valid)
    (splits : Splits r.capacity.toNat r.head.toNat data.length out)
    (room : r.size.toNat + data.length < r.capacity.toNat) :
    window (r.copyIn out data).buffer r.capacity.toNat r.tail.toNat (r.size.toNat + data.length) =
      r.contents ++ data := by
  rw [copyIn_buffer splits]
  exact Circular.window_store_two r.buffer data (r.head_eq valid) valid.head (le_of_lt room)
    splits.cont1

/-- **Reserving, copying and committing** appends. -/
theorem copyIn_contents (valid : r.Valid)
    (splits : Splits r.capacity.toNat r.head.toNat data.length out)
    (room : r.size.toNat + data.length < r.capacity.toNat) {count : UInt16}
    (all : count.toNat = data.length) :
    ((r.copyIn out data).writeCommit count).contents = r.contents ++ data := by
  obtain ⟨capacity, head, tail⟩ := copyIn_indices r out data
  have size := writeCommit_size (copyIn_valid out data valid)
    (show _ + count.toNat < _ by rw [copyIn_size, capacity, all]; exact room)
  rw [Ring.contents, size, copyIn_size, all]
  show window (r.copyIn out data).buffer (r.copyIn out data).capacity.toNat
    (r.copyIn out data).tail.toNat _ = _
  rw [capacity, tail]
  exact copyIn_window valid splits room

end CopyIn

end ForgeDrive.Fd
