/-
**The byte buffer of the tool is a bounded queue** (`RingBuffer.hpp`).

The capacity is rounded up to a power of two, `head_` and `tail_` count freely modulo `2^64`, and a
position in the storage is a counter under the mask. A buffer that is `Valid` holds the `contents`
from head to tail, at most `capacity_` bytes; it may have gone around the counters any number of
times.

* `new_spec` — the loop of the constructor ends for every requested capacity up to `2^63`;
* `push_spec`, `pop_spec` — pushing appends what there is room for, popping takes from the front;
* `new_isByteQueue` — so the buffer that the constructor makes is a queue in every sequence of calls.

The constructor resizes `buf_` to the capacity. Where there is not so much memory it throws, and there
is no buffer; what is said here is of the buffers there are.
-/

import ForgeDrive.Library.Circular
import ForgeDrive.Library.EventMachine

namespace ForgeDrive.Host

open Circular (segment store window)
open EventMachine (run Along)

/-! ### The buffer -/

/-- `ecolib::RingBuffer`. The vector `buf_` is the memory it owns, of `capacity_` bytes. -/
structure RingBuffer where
  buf_ : Nat → UInt8
  capacity_ : UInt64
  mask_ : UInt64
  head_ : UInt64
  tail_ : UInt64

/-- `while (capacity_ < capacity) capacity_ <<= 1`; `none` if the condition is still met after
`fuel` tests. -/
def roundUp (capacity : UInt64) : (fuel : Nat) → UInt64 → Option UInt64
  | 0, _ => none
  | fuel + 1, capacity_ =>
    if capacity_ < capacity then roundUp capacity fuel (capacity_ <<< 1) else some capacity_

/-- `RingBuffer::RingBuffer`, where `buf_.resize` does not throw; `none` where the loop does not end. -/
def RingBuffer.new (capacity : UInt64) : Option RingBuffer :=
  (roundUp capacity 64 1).map fun capacity_ =>
    { buf_ := fun _ => 0
      capacity_ := capacity_
      mask_ := capacity_ - 1
      head_ := 0
      tail_ := 0 }

/-- `std::min`. -/
def stdMin (a b : UInt64) : UInt64 := if b < a then b else a

namespace RingBuffer

/-- `RingBuffer::empty`. -/
def empty (ring : RingBuffer) : Bool := ring.head_ = ring.tail_

/-- `RingBuffer::available`. -/
def available (ring : RingBuffer) : UInt64 := ring.tail_ - ring.head_

/-- `RingBuffer::push`, and how many bytes it took. `data` is `none` for the null pointer, and
otherwise the `len` bytes it points to. -/
def push (ring : RingBuffer) (data : Option (List UInt8)) (len : UInt64) : RingBuffer × UInt64 :=
  match data with
  | none => (ring, 0)
  | some data =>
    if len = 0 then (ring, 0)
    else
      let free_space := ring.capacity_ - (ring.tail_ - ring.head_)
      let to_write := stdMin len free_space
      let write_pos := ring.tail_ &&& ring.mask_
      let first_chunk := stdMin to_write (ring.capacity_ - write_pos)
      let buf_ := store ring.buf_ write_pos.toNat (data.take first_chunk.toNat)
      let buf_ := if to_write > first_chunk then
          store buf_ 0 ((data.drop first_chunk.toNat).take (to_write - first_chunk).toNat)
        else buf_
      ({ ring with buf_ := buf_, tail_ := ring.tail_ + to_write }, to_write)

/-- `RingBuffer::pop`, how many bytes it returns and which it has stored at `dst`, which is the null
pointer or not. -/
def pop (ring : RingBuffer) (dst : Bool) (len : UInt64) : RingBuffer × UInt64 × List UInt8 :=
  if dst = false ∨ len = 0 then (ring, 0, [])
  else
    let used_space := ring.tail_ - ring.head_
    let to_read := stdMin len used_space
    let read_pos := ring.head_ &&& ring.mask_
    let first_chunk := stdMin to_read (ring.capacity_ - read_pos)
    let bytes := segment ring.buf_ read_pos.toNat first_chunk.toNat
    let bytes := if to_read > first_chunk then
        bytes ++ segment ring.buf_ 0 (to_read - first_chunk).toNat
      else bytes
    ({ ring with head_ := ring.head_ + to_read }, to_read, bytes)

/-- `RingBuffer::clear`. -/
def clear (ring : RingBuffer) : RingBuffer := { ring with head_ := 0, tail_ := 0 }

/-! ### The contents -/

/-- The capacity is a power of two, and there are no more bytes than that. -/
structure Valid (ring : RingBuffer) : Prop where
  power : ∃ exponent ≤ 63, ring.capacity_.toNat = 2 ^ exponent
  mask : ring.mask_ = ring.capacity_ - 1
  used : ring.available.toNat ≤ ring.capacity_.toNat

/-- The bytes pushed and not yet popped. -/
def contents (ring : RingBuffer) : List UInt8 :=
  window ring.buf_ ring.capacity_.toNat ring.head_.toNat ring.available.toNat

@[simp] theorem contents_length (ring : RingBuffer) :
    ring.contents.length = ring.available.toNat := Circular.window_length _ _ _ _

end RingBuffer

namespace RingBuffer

variable {ring : RingBuffer}

theorem contents_none (none_ : ring.available = 0) : ring.contents = [] := by
  rw [contents, none_]
  exact Circular.window_zero _ _ _

theorem Valid.of_none (power : ∃ exponent ≤ 63, ring.capacity_.toNat = 2 ^ exponent)
    (mask : ring.mask_ = ring.capacity_ - 1) (none_ : ring.available = 0) : ring.Valid :=
  ⟨power, mask, by rw [none_]; exact Nat.zero_le _⟩

end RingBuffer

/-! ### The constructor -/

theorem toNat_stdMin (a b : UInt64) : (stdMin a b).toNat = min a.toNat b.toNat := by
  unfold stdMin
  split
  case isTrue less =>
    have lessNat := UInt64.lt_iff_toNat_lt.mp less
    omega
  case isFalse notLess =>
    have leNat := UInt64.le_iff_toNat_le.mp (UInt64.not_lt.mp notLess)
    omega

/-- The loop, with `turns` doublings left until `2^63`. -/
theorem roundUp_spec {capacity : UInt64} (fits : capacity.toNat ≤ 2 ^ 63) (turns : Nat)
    {capacity_ : UInt64} {exponent : Nat} (power : capacity_.toNat = 2 ^ exponent)
    (left : exponent + turns = 63) :
    ∃ result, roundUp capacity (turns + 1) capacity_ = some result ∧
      capacity.toNat ≤ result.toNat ∧ ∃ exponent ≤ 63, result.toNat = 2 ^ exponent := by
  induction turns generalizing capacity_ exponent with
  | zero =>
    have last : exponent = 63 := left
    have enough : ¬ capacity_ < capacity := fun less => by
      have lessNat := UInt64.lt_iff_toNat_lt.mp less
      rw [power, last] at lessNat
      omega
    refine ⟨capacity_, if_neg enough, ?_, exponent, last.le, power⟩
    rw [power, last]
    exact fits
  | succ turns ih =>
    rw [roundUp]
    split
    case isTrue less =>
      have doubled : (capacity_ <<< 1).toNat = 2 ^ (exponent + 1) := by
        have one : (1 : UInt64).toNat % 64 = 1 := rfl
        have below : 2 ^ (exponent + 1) < 2 ^ 64 := Nat.pow_lt_pow_right (by decide) (by omega)
        rw [UInt64.toNat_shiftLeft, one, power, Nat.shiftLeft_eq, ← pow_succ,
          Nat.mod_eq_of_lt below]
      exact ih doubled (by omega)
    case isFalse enough =>
      exact ⟨capacity_, rfl, UInt64.le_iff_toNat_le.mp (UInt64.not_lt.mp enough), exponent,
        by omega, power⟩

/-- **The constructor** ends, with a capacity that is a power of two and as large as asked for, and
the buffer is empty. -/
theorem new_spec {requested : UInt64} (fits : requested.toNat ≤ 2 ^ 63) :
    ∃ ring, RingBuffer.new requested = some ring ∧ ring.Valid ∧
      requested.toNat ≤ ring.capacity_.toNat ∧ ring.contents = [] := by
  have one : (1 : UInt64).toNat = 2 ^ 0 := rfl
  obtain ⟨capacity_, rounded, enough, power⟩ := roundUp_spec fits 63 one rfl
  exact ⟨⟨fun _ => 0, capacity_, capacity_ - 1, 0, 0⟩, congrArg _ rounded,
    .of_none power rfl (UInt64.sub_self _), enough, RingBuffer.contents_none (UInt64.sub_self _)⟩

namespace RingBuffer

section Valid

variable {ring : RingBuffer}

theorem Valid.positive (valid : ring.Valid) : 0 < ring.capacity_.toNat := by
  obtain ⟨exponent, -, power⟩ := valid.power
  rw [power]
  exact Nat.two_pow_pos exponent

theorem Valid.capacity_le (valid : ring.Valid) : ring.capacity_.toNat ≤ 9223372036854775808 := by
  obtain ⟨exponent, few, power⟩ := valid.power
  rw [power]
  exact Nat.pow_le_pow_right (by decide) few

/-- A capacity divides the range of the counters. -/
theorem Valid.dvd (valid : ring.Valid) : ring.capacity_.toNat ∣ 18446744073709551616 := by
  obtain ⟨exponent, few, power⟩ := valid.power
  rw [power]
  exact Nat.pow_dvd_pow 2 (Nat.le_succ_of_le few)

/-- **A position** is a counter modulo the capacity. -/
theorem Valid.and_mask (valid : ring.Valid) (counter : UInt64) :
    (counter &&& ring.mask_).toNat = counter.toNat % ring.capacity_.toNat := by
  have positive := valid.positive
  obtain ⟨exponent, _, power⟩ := valid.power
  have one : (1 : UInt64).toNat = 1 := rfl
  rw [UInt64.toNat_and, valid.mask,
    UInt64.toNat_sub_of_le _ _ (UInt64.le_iff_toNat_le.mpr (by omega)), one, power,
    Nat.and_two_pow_sub_one_eq_mod]

/-- The tail is the bytes in use ahead of the head, however often both went around. -/
theorem tail_eq (ring : RingBuffer) :
    ring.tail_.toNat = (ring.head_.toNat + ring.available.toNat) % 18446744073709551616 := by
  have head := ring.head_.toNat_lt
  have tail := ring.tail_.toNat_lt
  rw [available, UInt64.toNat_sub]
  omega

theorem Valid.tail_mod (valid : ring.Valid) : ring.tail_.toNat % ring.capacity_.toNat =
    (ring.head_.toNat + ring.available.toNat) % ring.capacity_.toNat := by
  rw [tail_eq, Nat.mod_mod_of_dvd _ valid.dvd]

theorem Valid.free (valid : ring.Valid) : (ring.capacity_ - (ring.tail_ - ring.head_)).toNat =
    ring.capacity_.toNat - ring.contents.length := by
  rw [contents_length]
  exact UInt64.toNat_sub_of_le _ _ (UInt64.le_iff_toNat_le.mpr valid.used)

theorem empty_eq (ring : RingBuffer) : ring.empty = decide (ring.contents = []) := by
  have same : ring.head_ = ring.tail_ ↔ ring.contents = [] := by
    rw [← List.length_eq_zero_iff, contents_length, available, ← UInt64.toNat_inj,
      UInt64.toNat_sub]
    have head := ring.head_.toNat_lt
    have tail := ring.tail_.toNat_lt
    omega
  exact decide_eq_decide.mpr same

theorem clear_spec (valid : ring.Valid) : ring.clear.Valid ∧ ring.clear.contents = [] :=
  ⟨.of_none valid.power valid.mask (UInt64.sub_self _), contents_none (UInt64.sub_self _)⟩

/-! ### Pushing and popping -/

/-- The storage after the one or two copies of a push. -/
theorem copy_eq (buffer : Nat → UInt8) (position : Nat) (data : List UInt8)
    {to_write first : UInt64} (part : first.toNat ≤ to_write.toNat) :
    (if to_write > first then
      store (store buffer position (data.take first.toNat)) 0
        ((data.drop first.toNat).take (to_write - first).toNat)
      else store buffer position (data.take first.toNat)) =
    store (store buffer position ((data.take to_write.toNat).take first.toNat)) 0
      ((data.take to_write.toNat).drop first.toNat) := by
  have rest : (to_write - first).toNat = to_write.toNat - first.toNat :=
    UInt64.toNat_sub_of_le _ _ (UInt64.le_iff_toNat_le.mpr part)
  rw [List.take_take, Nat.min_eq_left part, List.drop_take, rest]
  split
  case isTrue => rfl
  case isFalse notMore =>
    have same : to_write.toNat - first.toNat = 0 :=
      Nat.sub_eq_zero_of_le (UInt64.le_iff_toNat_le.mp (UInt64.not_lt.mp notMore))
    rw [same, List.take_zero, Circular.store_nil]

/-- The first of the two parts of `count` bytes goes up to the end of the storage. -/
theorem Valid.first_chunk (valid : ring.Valid) (counter count : UInt64) :
    (stdMin count (ring.capacity_ - (counter &&& ring.mask_))).toNat =
      min count.toNat (ring.capacity_.toNat - counter.toNat % ring.capacity_.toNat) := by
  have inside := Nat.mod_lt counter.toNat valid.positive
  have position := valid.and_mask counter
  rw [toNat_stdMin, UInt64.toNat_sub_of_le _ _ (UInt64.le_iff_toNat_le.mpr (by omega)), position]

/-- The count behind a push. -/
theorem Valid.available_push (valid : ring.Valid) {count : UInt64}
    (fits : ring.available.toNat + count.toNat ≤ ring.capacity_.toNat) :
    (ring.tail_ + count - ring.head_).toNat = ring.available.toNat + count.toNat := by
  have capacity := valid.capacity_le
  rw [available, UInt64.toNat_sub] at fits ⊢
  rw [UInt64.toNat_sub, UInt64.toNat_add]
  omega

/-- The count behind a pop. -/
theorem Valid.available_pop (valid : ring.Valid) {count : UInt64}
    (fits : count.toNat ≤ ring.available.toNat) :
    (ring.tail_ - (ring.head_ + count)).toNat = ring.available.toNat - count.toNat := by
  have used := valid.used
  have head := ring.head_.toNat_lt
  rw [available, UInt64.toNat_sub] at fits used ⊢
  rw [UInt64.toNat_sub, UInt64.toNat_add]
  omega

/-- The copies of a pop read two regions, of which the second may be empty. -/
theorem Valid.read_eq (valid : ring.Valid) (count chunk : UInt64) :
    (if count > chunk then
        segment ring.buf_ (ring.head_ &&& ring.mask_).toNat chunk.toNat ++
          segment ring.buf_ 0 (count - chunk).toNat
      else segment ring.buf_ (ring.head_ &&& ring.mask_).toNat chunk.toNat) =
      segment ring.buf_ (ring.head_.toNat % ring.capacity_.toNat) chunk.toNat ++
        segment ring.buf_ 0 (count.toNat - chunk.toNat) := by
  rw [valid.and_mask]
  split
  case isTrue more => rw [UInt64.toNat_sub_of_le _ _ (UInt64.le_of_lt more)]
  case isFalse all =>
    have none_ : count.toNat - chunk.toNat = 0 :=
      Nat.sub_eq_zero_of_le (UInt64.le_iff_toNat_le.mp (UInt64.not_lt.mp all))
    rw [none_, Circular.segment_zero, List.append_nil]

/-- **Pushing** appends as many of the bytes as there is room for. -/
theorem push_spec (valid : ring.Valid) (data : List UInt8) {len : UInt64}
    (whole : len.toNat = data.length) :
    (ring.push (some data) len).1.Valid ∧
      (ring.push (some data) len).1.capacity_ = ring.capacity_ ∧
      (ring.push (some data) len).1.contents =
        ring.contents ++ data.take (ring.capacity_.toNat - ring.contents.length) ∧
      (ring.push (some data) len).2.toNat =
        min data.length (ring.capacity_.toNat - ring.contents.length) := by
  unfold push
  by_cases none_ : len = 0
  · have nothing : data = [] := by
      rw [← List.length_eq_zero_iff, ← whole, none_]
      rfl
    simp only [if_pos none_, nothing, List.take_nil, List.append_nil, List.length_nil,
      Nat.zero_min, true_and]
    exact ⟨valid, rfl⟩
  · simp only [if_neg none_, true_and]
    have used := valid.used
    have free := valid.free
    have count : (stdMin len (ring.capacity_ - (ring.tail_ - ring.head_))).toNat =
        min data.length (ring.capacity_.toNat - ring.contents.length) := by
      rw [toNat_stdMin, whole, free]
    generalize stdMin len (ring.capacity_ - (ring.tail_ - ring.head_)) = to_write at count ⊢
    have first := valid.first_chunk ring.tail_ to_write
    generalize stdMin to_write (ring.capacity_ - (ring.tail_ &&& ring.mask_)) = chunk at first ⊢
    rw [copy_eq _ _ _ (by omega), valid.and_mask]
    rw [contents_length] at count
    have more : (ring.tail_ + to_write - ring.head_).toNat = _ := valid.available_push (by omega)
    refine ⟨⟨valid.power, valid.mask, ?_⟩, ?_, by rw [count, contents_length]⟩
    · show (ring.tail_ + to_write - ring.head_).toNat ≤ ring.capacity_.toNat
      omega
    · have taken : (data.take to_write.toNat).length = to_write.toNat := by
        rw [List.length_take]
        omega
      have stored := Circular.window_store_two ring.buf_ (data.take to_write.toNat) valid.tail_mod
        (Nat.mod_lt _ valid.positive) (by omega) (taken.symm ▸ first)
      rw [taken] at stored
      have same : data.take (ring.capacity_.toNat - ring.contents.length) =
          data.take to_write.toNat := by
        rw [List.take_eq_take_iff, contents_length]
        omega
      show window _ ring.capacity_.toNat ring.head_.toNat
        (ring.tail_ + to_write - ring.head_).toNat = _
      rw [more, stored, same]
      rfl

/-- **Popping** takes as many of the first bytes as there are. -/
theorem pop_spec (valid : ring.Valid) (len : UInt64) :
    (ring.pop true len).1.Valid ∧ (ring.pop true len).1.capacity_ = ring.capacity_ ∧
      (ring.pop true len).1.contents = ring.contents.drop len.toNat ∧
      (ring.pop true len).2.1.toNat = min len.toNat ring.contents.length ∧
      (ring.pop true len).2.2 = ring.contents.take len.toNat := by
  unfold pop
  by_cases none_ : len = 0
  · rw [if_pos (Or.inr none_), none_]
    exact ⟨valid, rfl, rfl, (Nat.zero_min _).symm, rfl⟩
  · simp only [none_, Bool.true_eq_false, or_self, if_false, true_and]
    have used := valid.used
    have count : (stdMin len (ring.tail_ - ring.head_)).toNat =
        min len.toNat ring.contents.length := by
      rw [toNat_stdMin, contents_length]
      rfl
    generalize stdMin len (ring.tail_ - ring.head_) = to_read at count ⊢
    have first := valid.first_chunk ring.head_ to_read
    generalize stdMin to_read (ring.capacity_ - (ring.head_ &&& ring.mask_)) = chunk at first ⊢
    rw [contents_length] at count
    have less : (ring.tail_ - (ring.head_ + to_read)).toNat = _ := valid.available_pop (by omega)
    refine ⟨⟨valid.power, valid.mask, ?_⟩, ?_, by rw [count, contents_length], ?_⟩
    · show (ring.tail_ - (ring.head_ + to_read)).toNat ≤ ring.capacity_.toNat
      omega
    · have same : ring.contents.drop len.toNat = ring.contents.drop to_read.toNat := by
        rw [List.drop_eq_drop_iff, contents_length]
        omega
      have moved : (ring.head_ + to_read).toNat % ring.capacity_.toNat =
          (ring.head_.toNat + to_read.toNat) % ring.capacity_.toNat := by
        rw [UInt64.toNat_add, Nat.mod_mod_of_dvd _ valid.dvd]
      show window ring.buf_ ring.capacity_.toNat (ring.head_ + to_read).toNat
        (ring.tail_ - (ring.head_ + to_read)).toNat = _
      rw [same, contents, Circular.window_drop _ (by omega), less, ← Circular.window_mod, moved,
        Circular.window_mod]
    · have same : ring.contents.take len.toNat = ring.contents.take to_read.toNat := by
        rw [List.take_eq_take_iff, contents_length]
        omega
      rw [valid.read_eq, same, contents, Circular.window_take _ (by omega),
        Circular.window_eq_two _ valid.positive (by omega) first]

/-! ### The storage that is touched -/

/-- Start and length of the copies for `count` bytes from a counter on. -/
def copies (ring : RingBuffer) (counter count : UInt64) : List (Nat × Nat) :=
  let position := counter &&& ring.mask_
  let first_chunk := stdMin count (ring.capacity_ - position)
  (position.toNat, first_chunk.toNat) ::
    if count > first_chunk then [(0, (count - first_chunk).toNat)] else []

/-- The copies end inside the storage. -/
theorem copies_inside (valid : ring.Valid) (counter : UInt64) {count : UInt64}
    (fits : count.toNat ≤ ring.capacity_.toNat) :
    ∀ part ∈ ring.copies counter count, part.1 + part.2 ≤ ring.capacity_.toNat := by
  have first := valid.first_chunk counter count
  have position := Nat.mod_lt counter.toNat valid.positive
  simp only [copies, List.forall_mem_cons, valid.and_mask]
  refine ⟨by omega, fun part member => ?_⟩
  split at member
  case isTrue more =>
    rw [List.mem_singleton.mp member, UInt64.toNat_sub_of_le _ _ (UInt64.le_of_lt more)]
    show 0 + (count.toNat - _) ≤ ring.capacity_.toNat
    omega
  case isFalse => exact absurd member List.not_mem_nil

end Valid

end RingBuffer

/-! ### The queue -/

/-- A call on the buffer; `pushNull` and `popNull` are calls with the null pointer. -/
inductive BufferCall
  | push (data : List UInt8) (short : data.length < 2 ^ 64)
  | pushNull (len : UInt64)
  | pop (len : UInt64)
  | popNull (len : UInt64)
  | available
  | empty
  | clear

/-- What a call returns, and the bytes that a pop stores. -/
inductive BufferAnswer
  | count (length : Nat)
  | bytes (taken : List UInt8)
  | isEmpty (result : Bool)
  deriving DecidableEq, Repr

/-- A call on the buffer. -/
def bufferStep (ring : RingBuffer) : BufferCall → RingBuffer × List BufferAnswer
  | .push data _ =>
    let pushed := ring.push (some data) (UInt64.ofNat data.length)
    (pushed.1, [.count pushed.2.toNat])
  | .pushNull len =>
    let pushed := ring.push none len
    (pushed.1, [.count pushed.2.toNat])
  | .pop len =>
    let popped := ring.pop true len
    (popped.1, [.count popped.2.1.toNat, .bytes popped.2.2])
  | .popNull len =>
    let popped := ring.pop false len
    (popped.1, [.count popped.2.1.toNat, .bytes popped.2.2])
  | .available => (ring, [.count ring.available.toNat])
  | .empty => (ring, [.isEmpty ring.empty])
  | .clear => (ring.clear, [])

/-- A call on a queue of at most `capacity` bytes. -/
def byteQueueStep (capacity : Nat) (queue : List UInt8) :
    BufferCall → List UInt8 × List BufferAnswer
  | .push data _ =>
    (queue ++ data.take (capacity - queue.length),
      [.count (min data.length (capacity - queue.length))])
  | .pushNull _ => (queue, [.count 0])
  | .pop len =>
    (queue.drop len.toNat, [.count (min len.toNat queue.length), .bytes (queue.take len.toNat)])
  | .popNull _ => (queue, [.count 0, .bytes []])
  | .available => (queue, [.count queue.length])
  | .empty => (queue, [.isEmpty (queue = [])])
  | .clear => ([], [])

/-- The copies that a call makes from or to the storage. -/
def bufferCopies (ring : RingBuffer) : BufferCall → List (Nat × Nat)
  | .push data _ =>
    if UInt64.ofNat data.length = 0 then []
    else ring.copies ring.tail_
      (stdMin (UInt64.ofNat data.length) (ring.capacity_ - (ring.tail_ - ring.head_)))
  | .pop len =>
    if len = 0 then [] else ring.copies ring.head_ (stdMin len (ring.tail_ - ring.head_))
  | .pushNull _ | .popNull _ | .available | .empty | .clear => []

/-- A call touches the storage inside. -/
def CopiesInside (ring : RingBuffer) (call : BufferCall) : Prop :=
  ∀ part ∈ bufferCopies ring call, part.1 + part.2 ≤ ring.capacity_.toNat

/-! ### One call -/

section Step

variable {ring : RingBuffer}

/-- **One call** on a valid buffer leaves it valid, does to its contents what it does to the queue,
and is answered as the queue answers. -/
theorem bufferStep_simulates (valid : ring.Valid) (call : BufferCall) :
    (bufferStep ring call).1.Valid ∧ (bufferStep ring call).1.capacity_ = ring.capacity_ ∧
      (bufferStep ring call).1.contents =
        (byteQueueStep ring.capacity_.toNat ring.contents call).1 ∧
      (bufferStep ring call).2 = (byteQueueStep ring.capacity_.toNat ring.contents call).2 := by
  cases call with
  | push data short =>
    obtain ⟨validAfter, capacity, contents, count⟩ :=
      RingBuffer.push_spec valid data (UInt64.toNat_ofNat_of_lt' short)
    exact ⟨validAfter, capacity, contents, by rw [bufferStep, byteQueueStep, count]⟩
  | pop len =>
    obtain ⟨validAfter, capacity, contents, count, bytes⟩ := RingBuffer.pop_spec valid len
    exact ⟨validAfter, capacity, contents, by rw [bufferStep, byteQueueStep, count, bytes]⟩
  | pushNull len => exact ⟨valid, rfl, rfl, rfl⟩
  | popNull len => exact ⟨valid, rfl, rfl, rfl⟩
  | available =>
    exact ⟨valid, rfl, rfl, by rw [bufferStep, byteQueueStep, RingBuffer.contents_length]⟩
  | empty => exact ⟨valid, rfl, rfl, by rw [bufferStep, byteQueueStep, RingBuffer.empty_eq]⟩
  | clear =>
    obtain ⟨validAfter, contents⟩ := RingBuffer.clear_spec valid
    exact ⟨validAfter, rfl, contents, rfl⟩

theorem bufferCopies_inside (valid : ring.Valid) (call : BufferCall) : CopiesInside ring call := by
  have used := valid.used
  have free := valid.free
  cases call with
  | push data short =>
    simp only [CopiesInside, bufferCopies]
    split
    · exact List.forall_mem_nil _
    · refine RingBuffer.copies_inside valid _ ?_
      rw [toNat_stdMin, free]
      omega
  | pop len =>
    simp only [CopiesInside, bufferCopies]
    split
    · exact List.forall_mem_nil _
    · refine RingBuffer.copies_inside valid _ ?_
      rw [toNat_stdMin]
      exact (Nat.min_le_right _ _).trans used
  | pushNull len | popNull len | available | empty | clear => exact List.forall_mem_nil _

end Step

/-! ### Every sequence of calls -/

/-- **The buffer is a bounded queue of bytes** through these calls: the answers are those of the
queue, before, between and after the calls the buffer holds the bytes of the queue, never more than
its capacity, and no call touches anything outside the storage. -/
structure IsByteQueue (ring : RingBuffer) (calls : List BufferCall) : Prop where
  answers : (run bufferStep ring calls).2 =
    (run (byteQueueStep ring.capacity_.toNat) [] calls).2
  contents : ∀ before, before <+: calls → (run bufferStep ring before).1.contents =
    (run (byteQueueStep ring.capacity_.toNat) [] before).1
  bounded : ∀ before, before <+: calls →
    (run (byteQueueStep ring.capacity_.toNat) [] before).1.length ≤ ring.capacity_.toNat
  inside : Along bufferStep CopiesInside ring calls

/-- **For every requested capacity up to `2^63`** the constructor makes a buffer of at least that
capacity, a power of two, and in every sequence of calls it is a bounded queue of bytes, also where
its counters wrap. -/
theorem new_isByteQueue {requested : UInt64} (fits : requested.toNat ≤ 2 ^ 63)
    (calls : List BufferCall) :
    ∃ ring, RingBuffer.new requested = some ring ∧ requested.toNat ≤ ring.capacity_.toNat ∧
      (∃ exponent ≤ 63, ring.capacity_.toNat = 2 ^ exponent) ∧ IsByteQueue ring calls := by
  obtain ⟨ring, made, valid, enough, none_⟩ := new_spec fits
  refine ⟨ring, made, enough, valid.power, ?_⟩
  let Simulates (other : RingBuffer) (queue : List UInt8) : Prop :=
    other.Valid ∧ other.capacity_ = ring.capacity_ ∧ other.contents = queue
  have start : Simulates ring [] := ⟨valid, rfl, none_⟩
  have step : ∀ other queue call, Simulates other queue →
      (bufferStep other call).2 = (byteQueueStep ring.capacity_.toNat queue call).2 ∧
        Simulates (bufferStep other call).1
          (byteQueueStep ring.capacity_.toNat queue call).1 := by
    rintro other _ call ⟨validOther, sized, rfl⟩
    obtain ⟨validAfter, same, contents, answers⟩ := bufferStep_simulates validOther call
    rw [sized] at contents answers
    exact ⟨answers, validAfter, same.trans sized, contents⟩
  have related : ∀ before, Simulates (run bufferStep ring before).1
      (run (byteQueueStep ring.capacity_.toNat) [] before).1 :=
    EventMachine.run_related bufferStep _ Simulates
      (fun other queue call holds => (step other queue call holds).2) start
  refine ⟨EventMachine.run_same bufferStep _ Simulates step start calls, fun before _ => ?_,
    fun before _ => ?_, ?_⟩
  · exact (related before).2.2
  · obtain ⟨validAfter, sized, contents⟩ := related before
    rw [← contents, RingBuffer.contents_length, ← sized]
    exact validAfter.used
  · exact EventMachine.along_of_invariant bufferStep RingBuffer.Valid
      (fun other call validOther => (bufferStep_simulates validOther call).1)
      (fun other call validOther => bufferCopies_inside validOther call) valid calls

/-- Three bytes are asked for and four are there: of six pushed, four are stored. -/
theorem new_isByteQueue_three :
    (3 : UInt64).toNat ≤ 2 ^ 63 ∧ ∃ ring, RingBuffer.new 3 = some ring ∧
      (3 : UInt64).toNat ≤ ring.capacity_.toNat ∧
      (∃ exponent ≤ 63, ring.capacity_.toNat = 2 ^ exponent) ∧
      IsByteQueue ring [.push [1, 2, 3, 4, 5, 6] (by decide), .pop 3, .push [7, 8] (by decide),
        .available, .pop 9, .empty] :=
  ⟨by decide, new_isByteQueue (by decide) _⟩

end ForgeDrive.Host
