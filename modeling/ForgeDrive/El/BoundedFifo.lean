/-
**The ring `el::ring_fast` is a bounded queue**, through all its calls for one item, for several and
for both regions of a read.

The abstract queue (`Numbered`) is the list of the items pushed and not yet read, and how many were
read since it was cleared; the item with the number `n` is at index `n % capacity`.

* `step_simulates` — each permitted call does to the contents what it does to the queue;
* `answer_eq_iff` — and is answered as the queue answers, except that `distanceFromTail` takes a
  negative index for the one a multiple of the capacity above it, where an item may be;
* `refines_iff` — the run: exactly if no call of `distanceFromTail` takes such an index, the ring
  and the queue give the same answers.
-/

import ForgeDrive.El.RingFast
import ForgeDrive.Library.EventMachine

namespace ForgeDrive.El

open Circular (segment window)
open Fd (Regions Splits)
open EventMachine (run Along)

variable {Item : Type*}

/-! ### The other calls of the ring -/

/-- `ring_fast::empty`. -/
def RingFast.empty (r : RingFast Item) : Bool := r.head_ = r.tail_

/-- `ring_fast::full`. -/
def RingFast.full (r : RingFast Item) : Bool := (r.head_ + 1) &&& r.mask_ = r.tail_

/-- `ring_fast::advance`, and whether there were so many items. -/
def RingFast.advance (r : RingFast Item) (n : UInt16) : RingFast Item × Bool :=
  if n > r.size then (r, false) else ({ r with tail_ := (r.tail_ + n) &&& r.mask_ }, true)

/-- `ring_fast::pop`, with the item; `none` where it returns `false`. -/
def RingFast.popItem (r : RingFast Item) : RingFast Item × Option Item :=
  if r.head_ = r.tail_ then (r, none)
  else ({ r with tail_ := (r.tail_ + 1) &&& r.mask_ }, some (r.buffer_ r.tail_.toNat))

/-- The items in both regions that `read_reserve` hands out. -/
def RingFast.copyRegions (r : RingFast Item) (out : Regions) : List Item :=
  segment r.buffer_ out.first.toNat out.cont1.toNat ++
    match out.second with
    | some second => segment r.buffer_ second.toNat out.cont2.toNat
    | none => []

/-! ### The queue -/

/-- The items pushed and not yet read, and the number of those that were read. -/
structure Numbered (Item : Type*) where
  read : Nat
  items : List Item

namespace Numbered

/-- The index, in a ring of this capacity, of the item at a place in the queue. -/
def index (capacity : Nat) (queue : Numbered Item) (place : Nat) : Nat :=
  (queue.read + place) % capacity

/-- The place of the item that is stored at an index, if one is. -/
def place? (capacity : Nat) (queue : Numbered Item) (idx : Int) : Option Nat :=
  (List.range queue.items.length).find? fun place => idx = queue.index capacity place

/-- The first items are read. -/
def drop (queue : Numbered Item) (count : Nat) : Numbered Item where
  read := queue.read + count
  items := queue.items.drop count

/-- An item comes last. -/
def push (queue : Numbered Item) (item : Item) : Numbered Item :=
  { queue with items := queue.items ++ [item] }

end Numbered

/-- A call on the ring. `read` is `read_reserve`, a copy of both regions, and `read_commit`. -/
inductive Call (Item : Type*)
  | push (item : Item)
  | pushFast (item : Item)
  | pop
  | peek
  | advance (n : UInt16)
  | clear
  | read (count : UInt16)
  | distanceFromTail (idx : Int16)

/-- What a call returns. -/
inductive Answer (Item : Type*)
  | accepted (success : Bool)
  | first (item : Option Item)
  | copied (items : List Item)
  | distance (place : Option Nat)
  deriving DecidableEq

/-- A call on a queue of at most `capacity - 1` items. -/
def queueStep (capacity : Nat) (queue : Numbered Item) :
    Call Item → Numbered Item × List (Answer Item)
  | .push item =>
    if queue.items.length < capacity - 1 then (queue.push item, [.accepted true])
    else (queue, [.accepted false])
  | .pushFast item => (queue.push item, [])
  | .pop => (queue.drop (min 1 queue.items.length), [.first queue.items.head?])
  | .peek => (queue, [.first queue.items.head?])
  | .advance n =>
    if n.toNat ≤ queue.items.length then (queue.drop n.toNat, [.accepted true])
    else (queue, [.accepted false])
  | .clear => (⟨0, []⟩, [])
  | .read count => (queue.drop count.toNat, [.copied queue.items])
  | .distanceFromTail idx => (queue, [.distance (queue.place? capacity idx.toInt)])

/-! ### The ring -/

/-- A call on the ring. -/
def ringStep (r : RingFast Item) : Call Item → RingFast Item × List (Answer Item)
  | .push item => ((r.push item).1, [.accepted (r.push item).2])
  | .pushFast item => (r.pushFast item, [])
  | .pop => (r.popItem.1, [.first r.popItem.2])
  | .peek => (r, [.first r.peek])
  | .advance n => ((r.advance n).1, [.accepted (r.advance n).2])
  | .clear => (r.clear, [])
  | .read count =>
    (r.readCommit count, [.copied ((r.readReserve.map r.copyRegions).getD [])])
  | .distanceFromTail idx => (r, [.distance ((r.distanceFromTail idx).map UInt16.toNat)])

/-- How many items `read_reserve` reserves: the lengths of both regions. -/
def reservedCount (r : RingFast Item) : Nat :=
  match r.readReserve with
  | some out => out.cont1.toNat + out.cont2.toNat
  | none => 0

/-- What the caller has to see to: room before `pushFast`, and no commit beyond the reserved. -/
def Permitted (r : RingFast Item) : Call Item → Prop
  | .pushFast _ => r.free ≥ 1
  | .read count => count.toNat ≤ reservedCount r
  | _ => True

instance (r : RingFast Item) : (call : Call Item) → Decidable (Permitted r call)
  | .pushFast _ => UInt16.decLe _ _
  | .read _ => Nat.decLe _ _
  | .push _ | .pop | .peek | .advance _ | .clear | .distanceFromTail _ => isTrue trivial

/-- The index of a call of `distanceFromTail` is not negative, or no item is stored a multiple of
the capacity above it. -/
def Unaliased (capacity : Nat) (queue : Numbered Item) : Call Item → Prop
  | .distanceFromTail idx => 0 ≤ idx.toInt ∨
    ∀ place < queue.items.length, (queue.index capacity place : Int) ≠ idx.toInt % capacity
  | _ => True

namespace RingFast

variable {r : RingFast Item}

theorem popItem_eq (valid : r.Valid) : r.popItem = (r.pop, r.contents.head?) := by
  rw [← peek_eq valid, popItem, pop, peek]
  split <;> rfl

theorem advance_eq {n : UInt16} (within : n.toNat ≤ r.size.toNat) :
    r.advance n = (r.readCommit n, true) :=
  if_neg fun more => Nat.not_lt.mpr within (UInt16.lt_iff_toNat_lt.mp more)

theorem advance_refused {n : UInt16} (more : r.size.toNat < n.toNat) :
    r.advance n = (r, false) := if_pos (UInt16.lt_iff_toNat_lt.mpr more)

theorem empty_eq (valid : r.Valid) : r.empty = true ↔ r.contents = [] := by
  rw [empty, decide_eq_true_iff, empty_iff valid, ← contents_length, List.length_eq_zero_iff]

theorem full_eq (valid : r.Valid) :
    r.full = true ↔ r.contents.length = r.capacity_.toNat - 1 := by
  have less := size_lt valid
  rw [full, decide_eq_true_iff, next_eq_iff valid, contents_length]
  omega

/-! ### Both regions of a read -/

theorem reservedCount_eq (valid : r.Valid) : reservedCount r = r.size.toNat := by
  unfold reservedCount
  rcases Nat.eq_zero_or_pos r.size.toNat with none_ | some_
  · rw [readReserve_none none_, none_]
  · obtain ⟨out, reserved, splits⟩ := readReserve_eq valid (Nat.ne_of_gt some_)
    have first := splits.cont1
    have second := splits.cont2
    rw [reserved]
    show out.cont1.toNat + out.cont2.toNat = r.size.toNat
    omega

/-- **The two regions cover the contents**, wherever the wrap is. -/
theorem copyRegions_eq (valid : r.Valid) :
    (r.readReserve.map r.copyRegions).getD [] = r.contents := by
  rcases Nat.eq_zero_or_pos r.size.toNat with none_ | some_
  · rw [readReserve_none none_, contents, none_, Circular.window_zero]
    rfl
  · obtain ⟨out, reserved, splits⟩ := readReserve_eq valid (Nat.ne_of_gt some_)
    have inFirst := splits.window_first r.buffer_
    have inSecond := splits.window_second r.buffer_ valid.tail (Nat.le_of_lt (size_lt valid))
    rw [reserved, Option.map_some, Option.getD_some, copyRegions, inFirst,
      ← List.take_append_drop out.cont1.toNat r.contents]
    refine congrArg _ ?_
    rcases splits.second_cases with ⟨second, none_⟩ | ⟨second, -⟩
    · rw [second]
      rw [none_] at inSecond
      exact inSecond
    · rw [second]
      exact inSecond

/-! ### The place of an index -/

/-- **The distance from the tail**, of any `int16_t`: the item so far behind the tail is at the
index, up to a multiple of the capacity. -/
theorem distance_index (valid : r.Valid) (idx : Int16) :
    (((r.tail_.toNat + ((idx.toUInt16 - r.tail_) &&& r.mask_).toNat) % r.capacity_.toNat : Nat) :
      Int) = idx.toInt % r.capacity_.toNat := by
  obtain ⟨turns, range⟩ := valid.dvd
  have tail := r.tail_.toNat_lt
  have masked : ((idx.toUInt16 - r.tail_) &&& r.mask_).toNat =
      (65536 - r.tail_.toNat + idx.toUInt16.toNat) % r.capacity_.toNat := by
    rw [valid.and_mask, UInt16.toNat_sub]
    exact Nat.mod_mod_of_dvd _ valid.dvd
  have value : idx.toInt = if 2 * idx.toUInt16.toNat < 65536 then (idx.toUInt16.toNat : Int)
      else (idx.toUInt16.toNat : Int) - 65536 := BitVec.toInt_eq_toNat_cond _
  have turn : ((idx.toUInt16.toNat : Int) - 65536) % r.capacity_.toNat =
      (idx.toUInt16.toNat : Int) % r.capacity_.toNat := by
    rw [show (65536 : Int) = (r.capacity_.toNat : Int) * turns by exact_mod_cast range,
      Int.sub_mul_emod_self_left]
  have sum : (r.tail_.toNat + (65536 - r.tail_.toNat + idx.toUInt16.toNat)) % r.capacity_.toNat =
      idx.toUInt16.toNat % r.capacity_.toNat := by
    rw [show r.tail_.toNat + (65536 - r.tail_.toNat + idx.toUInt16.toNat) =
      idx.toUInt16.toNat + r.capacity_.toNat * turns by omega, Nat.add_mul_mod_self_left]
  rw [masked, Nat.add_mod_mod, sum, value]
  split
  · exact Int.natCast_emod _ _
  · rw [turn]
    exact Int.natCast_emod _ _

theorem distance_lt (valid : r.Valid) (idx : Int16) :
    ((idx.toUInt16 - r.tail_) &&& r.mask_).toNat < r.capacity_.toNat := by
  rw [valid.and_mask]
  exact Nat.mod_lt _ (Nat.zero_lt_of_lt valid.head)

end RingFast

section Place

variable {capacity : Nat} {queue : Numbered Item}

/-- Two items of a queue that fits the ring are at different indices. -/
theorem index_inj {first second : Nat} (firstLt : first < capacity) (secondLt : second < capacity)
    (same : queue.index capacity first = queue.index capacity second) : first = second := by
  by_contra different
  exact Circular.index_ne firstLt secondLt different same

theorem place?_eq_none {idx : Int}
    (nowhere : ∀ place < queue.items.length, idx ≠ queue.index capacity place) :
    queue.place? capacity idx = none := by
  rw [Numbered.place?, List.find?_range_eq_none]
  intro place inside
  rw [Bool.not_eq_true', decide_eq_false_iff_not]
  exact nowhere place inside

theorem place?_eq_some (fits : queue.items.length ≤ capacity) {place : Nat}
    (inside : place < queue.items.length) :
    queue.place? capacity (queue.index capacity place) = some place := by
  rw [Numbered.place?, List.find?_range_eq_some]
  refine ⟨decide_eq_true rfl, List.mem_range.mpr inside, fun other before => ?_⟩
  rw [Bool.not_eq_true', decide_eq_false_iff_not, Int.natCast_inj]
  intro same
  have equal := index_inj (by omega) (by omega) same
  omega

end Place

/-! ### One call -/

/-- The ring holds the items of the queue, the first of them where its number says. -/
structure Simulates (capacity : UInt16) (r : RingFast Item) (queue : Numbered Item) : Prop where
  valid : r.Valid
  sized : r.capacity_ = capacity
  items : r.contents = queue.items
  tail : r.tail_.toNat = queue.read % capacity.toNat

section Simulation

variable {capacity : UInt16} {r : RingFast Item} {queue : Numbered Item}

theorem Simulates.length (simulates : Simulates capacity r queue) :
    queue.items.length = r.size.toNat := by
  rw [← simulates.items, RingFast.contents_length]

theorem Simulates.length_lt (simulates : Simulates capacity r queue) :
    queue.items.length < capacity.toNat := by
  rw [simulates.length, ← simulates.sized]
  exact RingFast.size_lt simulates.valid

theorem Simulates.free (simulates : Simulates capacity r queue) :
    r.free.toNat = capacity.toNat - 1 - queue.items.length := by
  rw [RingFast.free_toNat simulates.valid, simulates.sized, simulates.length]

theorem Simulates.new (storage : Nat → Item)
    (power : ∃ exponent ≤ 15, capacity.toNat = 2 ^ exponent) :
    Simulates capacity (RingFast.new storage capacity) ⟨0, []⟩ where
  valid := RingFast.new_valid storage power
  sized := rfl
  items := RingFast.new_contents storage capacity
  tail := (Nat.zero_mod _).symm

theorem Simulates.pushFast (simulates : Simulates capacity r queue)
    (room : queue.items.length < capacity.toNat - 1) (item : Item) :
    Simulates capacity (r.pushFast item) (queue.push item) where
  valid := RingFast.pushFast_valid simulates.valid item
  sized := simulates.sized
  items := by
    have length := simulates.length
    have same := simulates.sized
    have pushed := RingFast.pushFast_contents simulates.valid (by rw [same]; omega) item
    rw [pushed, simulates.items]
    rfl
  tail := simulates.tail

theorem Simulates.readCommit (simulates : Simulates capacity r queue) {count : UInt16}
    (within : count.toNat ≤ queue.items.length) :
    Simulates capacity (r.readCommit count) (queue.drop count.toNat) where
  valid := RingFast.readCommit_valid simulates.valid count
  sized := simulates.sized
  items := by
    rw [simulates.length] at within
    rw [RingFast.readCommit_contents simulates.valid within, simulates.items]
    rfl
  tail := by
    rw [RingFast.readCommit_tail simulates.valid, simulates.sized, simulates.tail,
      Nat.mod_add_mod]
    rfl

theorem Simulates.clear (simulates : Simulates capacity r queue) :
    Simulates capacity r.clear ⟨0, []⟩ where
  valid := RingFast.clear_valid simulates.valid
  sized := simulates.sized
  items := RingFast.clear_contents r
  tail := (Nat.zero_mod _).symm

theorem Simulates.pop (simulates : Simulates capacity r queue) :
    Simulates capacity r.pop (queue.drop (min 1 queue.items.length)) := by
  rcases Nat.eq_zero_or_pos queue.items.length with none_ | some_
  · have nothing : r.size.toNat = 0 := simulates.length.symm.trans none_
    have same : r.pop = r := if_pos ((RingFast.empty_iff simulates.valid).mpr nothing)
    rw [same, none_]
    exact simulates
  · have one : min 1 queue.items.length = (1 : UInt16).toNat := Nat.min_eq_left some_
    have popped := RingFast.pop_eq simulates.valid (by rw [← simulates.length]; omega)
    rw [popped, one]
    exact simulates.readCommit some_

/-- **One permitted call** does to the ring what it does to the queue. -/
theorem step_simulates (simulates : Simulates capacity r queue) (call : Call Item)
    (permitted : Permitted r call) :
    Simulates capacity (ringStep r call).1 (queueStep capacity.toNat queue call).1 := by
  have length := simulates.length
  have same := simulates.sized
  cases call with
  | push item =>
    simp only [ringStep, queueStep]
    by_cases room : queue.items.length < capacity.toNat - 1
    · rw [if_pos room, RingFast.push_eq simulates.valid (by rw [same]; omega)]
      exact simulates.pushFast room item
    · rw [if_neg room, RingFast.push_full simulates.valid (by rw [same]; omega)]
      exact simulates
  | pushFast item =>
    have free := simulates.free
    have room : 1 ≤ r.free.toNat := UInt16.le_iff_toNat_le.mp permitted
    exact simulates.pushFast (by omega) item
  | pop =>
    simp only [ringStep, queueStep]
    rw [RingFast.popItem_eq simulates.valid]
    exact simulates.pop
  | peek => exact simulates
  | advance n =>
    simp only [ringStep, queueStep]
    by_cases within : n.toNat ≤ queue.items.length
    · rw [if_pos within, RingFast.advance_eq (by omega)]
      exact simulates.readCommit within
    · rw [if_neg within, RingFast.advance_refused (by omega)]
      exact simulates
  | clear => exact simulates.clear
  | read count =>
    have within : count.toNat ≤ reservedCount r := permitted
    rw [RingFast.reservedCount_eq simulates.valid] at within
    exact simulates.readCommit (by omega)
  | distanceFromTail idx => exact simulates

/-- **The place of an index** is answered as the queue answers it exactly if the index is not
negative or no item is stored a multiple of the capacity above it. -/
theorem distanceFromTail_iff (simulates : Simulates capacity r queue) (idx : Int16) :
    (r.distanceFromTail idx).map UInt16.toNat = queue.place? capacity.toNat idx.toInt ↔
      Unaliased capacity.toNat queue (.distanceFromTail idx) := by
  have length := simulates.length
  have fits := simulates.length_lt
  have same := simulates.sized
  have less := RingFast.distance_lt simulates.valid idx
  have found := RingFast.distance_index simulates.valid idx
  rw [simulates.tail, same, Nat.mod_add_mod] at found
  rw [same] at less
  unfold RingFast.distanceFromTail Unaliased
  generalize (idx.toUInt16 - r.tail_) &&& r.mask_ = distance at less found ⊢
  change (queue.index capacity.toNat distance.toNat : Int) = _ at found
  -- an item is stored there exactly if the distance is within the contents
  have stored : ∀ place < queue.items.length,
      (queue.index capacity.toNat place : Int) = idx.toInt % capacity.toNat →
        distance.toNat < queue.items.length := by
    intro place inside at_
    have equal := index_inj (by omega) less (Int.natCast_inj.mp (at_.trans found.symm))
    omega
  have below : ∀ place, queue.index capacity.toNat place < capacity.toNat := fun place =>
    Nat.mod_lt _ (by omega)
  have behind : distance ≥ r.size ↔ ¬ distance.toNat < queue.items.length := by
    rw [length, not_lt]
    exact UInt16.le_iff_toNat_le
  rw [same]
  by_cases negative : 0 ≤ idx.toInt
  · refine iff_of_true ?_ (Or.inl negative)
    by_cases inside : idx.toInt < capacity.toNat
    · rw [Int.emod_eq_of_lt negative inside] at found stored
      rw [if_neg (not_le.mpr inside), ← found]
      by_cases within : distance.toNat < queue.items.length
      · rw [place?_eq_some (Nat.le_of_lt fits) within]
        exact congrArg _ (if_neg fun after => behind.mp after within)
      · rw [place?_eq_none fun place placed at_ => within (stored place placed (by omega))]
        exact congrArg _ (if_pos (behind.mpr within))
    · rw [if_pos (not_lt.mp inside), place?_eq_none fun place _ at_ => ?_]
      · rfl
      · have index := below place
        omega
  · have inside : ¬ idx.toInt ≥ capacity.toNat := by omega
    rw [if_neg inside, place?_eq_none fun place _ at_ => by omega]
    by_cases within : distance.toNat < queue.items.length
    · refine iff_of_false ?_ ?_
      · rw [if_neg fun after => behind.mp after within]
        exact Option.some_ne_none _
      · rintro (positive | nowhere)
        · exact negative positive
        · exact nowhere _ within found
    · refine iff_of_true ?_ (Or.inr fun place placed at_ => within (stored place placed at_))
      exact congrArg _ (if_pos (behind.mpr within))

/-- A call is answered as often as on the queue. -/
theorem answers_length (r : RingFast Item) (capacity : Nat) (queue : Numbered Item)
    (call : Call Item) :
    (ringStep r call).2.length = (queueStep capacity queue call).2.length := by
  cases call with
  | push item | advance n => simp only [ringStep, queueStep]; split <;> rfl
  | pushFast item | pop | peek | clear | read count | distanceFromTail idx => rfl

/-- **One permitted call** is answered as the queue answers it, except for an aliased index. -/
theorem answer_eq_iff (simulates : Simulates capacity r queue) (call : Call Item)
    (permitted : Permitted r call) :
    (ringStep r call).2 = (queueStep capacity.toNat queue call).2 ↔
      Unaliased capacity.toNat queue call := by
  have length := simulates.length
  have same := simulates.sized
  cases call with
  | push item =>
    refine iff_of_true ?_ trivial
    simp only [ringStep, queueStep]
    by_cases room : queue.items.length < capacity.toNat - 1
    · rw [if_pos room, RingFast.push_eq simulates.valid (by rw [same]; omega)]
    · rw [if_neg room, RingFast.push_full simulates.valid (by rw [same]; omega)]
  | pushFast item => exact iff_of_true rfl trivial
  | pop =>
    refine iff_of_true ?_ trivial
    simp only [ringStep, queueStep]
    rw [RingFast.popItem_eq simulates.valid, simulates.items]
  | peek =>
    refine iff_of_true ?_ trivial
    simp only [ringStep, queueStep]
    rw [RingFast.peek_eq simulates.valid, simulates.items]
  | advance n =>
    refine iff_of_true ?_ trivial
    simp only [ringStep, queueStep]
    by_cases within : n.toNat ≤ queue.items.length
    · rw [if_pos within, RingFast.advance_eq (by omega)]
    · rw [if_neg within, RingFast.advance_refused (by omega)]
  | clear => exact iff_of_true rfl trivial
  | read count =>
    refine iff_of_true ?_ trivial
    simp only [ringStep, queueStep]
    rw [RingFast.copyRegions_eq simulates.valid, simulates.items]
  | distanceFromTail idx =>
    rw [← distanceFromTail_iff simulates idx]
    simp only [ringStep, queueStep, List.cons.injEq, and_true, Answer.distance.injEq]

/-- What the ring reports of itself is what the queue is. -/
structure Reports (capacity : Nat) (r : RingFast Item) (queue : Numbered Item) : Prop where
  items : r.contents = queue.items
  bounded : queue.items.length ≤ capacity - 1
  size : r.size.toNat = queue.items.length
  free : r.free.toNat = capacity - 1 - queue.items.length
  empty : r.empty = true ↔ queue.items = []
  full : r.full = true ↔ queue.items.length = capacity - 1

theorem Simulates.reports (simulates : Simulates capacity r queue) :
    Reports capacity.toNat r queue where
  items := simulates.items
  bounded := Nat.le_sub_one_of_lt simulates.length_lt
  size := simulates.length.symm
  free := simulates.free
  empty := by rw [← simulates.items, RingFast.empty_eq simulates.valid]
  full := by rw [← simulates.items, RingFast.full_eq simulates.valid, simulates.sized]

end Simulation

/-! ### Every sequence of calls -/

/-- **The ring is a bounded queue** through these calls: the answers are those of the queue, and
before, between and after the calls the ring reports what the queue is. -/
structure IsBoundedFifo (storage : Nat → Item) (capacity : UInt16) (calls : List (Call Item)) :
    Prop where
  answers : (run ringStep (RingFast.new storage capacity) calls).2 =
    (run (queueStep capacity.toNat) ⟨0, []⟩ calls).2
  reports : ∀ before, before <+: calls → Reports capacity.toNat
    (run ringStep (RingFast.new storage capacity) before).1
    (run (queueStep capacity.toNat) ⟨0, []⟩ before).1

/-- **For every capacity and every sequence of permitted calls the ring is a bounded queue** exactly
if no call of `distanceFromTail` takes a negative index that a stored item is a multiple of the
capacity above. -/
theorem isBoundedFifo_iff (storage : Nat → Item) {capacity : UInt16}
    (power : ∃ exponent ≤ 15, capacity.toNat = 2 ^ exponent) {calls : List (Call Item)}
    (permitted : Along ringStep Permitted (RingFast.new storage capacity) calls) :
    IsBoundedFifo storage capacity calls ↔
      Along (queueStep capacity.toNat) (Unaliased capacity.toNat) ⟨0, []⟩ calls := by
  have start := Simulates.new storage power
  have kept : ∀ (r : RingFast Item) queue call, Simulates capacity r queue → Permitted r call →
      Simulates capacity (ringStep r call).1 (queueStep capacity.toNat queue call).1 :=
    fun r queue call simulates allowed => step_simulates simulates call allowed
  have answers := EventMachine.run_same_iff_along ringStep (queueStep capacity.toNat)
    (Simulates capacity) kept (fun r queue call _ _ => answers_length r _ queue call)
    (fun r queue call simulates allowed => answer_eq_iff simulates call allowed) start permitted
  constructor
  · intro fifo
    exact answers.mp fifo.answers
  · intro unaliased
    refine ⟨answers.mpr unaliased, ?_⟩
    rintro before ⟨after, rfl⟩
    have begins := (EventMachine.along_append ringStep Permitted _ before after).mp permitted
    exact (EventMachine.run_related_along ringStep (queueStep capacity.toNat)
      (Simulates capacity) kept start begins.1).reports

/-- Four cells: the index of the one item, and a negative index where there is none. -/
theorem isBoundedFifo_four :
    (∃ exponent ≤ 15, (4 : UInt16).toNat = 2 ^ exponent) ∧
      IsBoundedFifo (fun _ => 0) 4
        [.push (7 : Nat), .distanceFromTail 0, .read 1, .pushFast 8, .distanceFromTail (-4)] :=
  have power : ∃ exponent ≤ 15, (4 : UInt16).toNat = 2 ^ exponent := ⟨2, by decide, rfl⟩
  have permitted : Along ringStep Permitted (RingFast.new (fun _ => 0) 4)
      [.push (7 : Nat), .distanceFromTail 0, .read 1, .pushFast 8, .distanceFromTail (-4)] :=
    ⟨trivial, trivial, by decide, by decide, trivial, trivial⟩
  ⟨power, (isBoundedFifo_iff (fun _ => 0) power permitted).mpr
    ⟨trivial, Or.inl (by decide), trivial, trivial, Or.inr (by decide), trivial⟩⟩

/-- **An index four below the only item is taken for the item's.** -/
theorem not_isBoundedFifo_negative :
    (∃ exponent ≤ 15, (4 : UInt16).toNat = 2 ^ exponent) ∧
      Along ringStep Permitted (RingFast.new (fun _ => 0) 4)
        [.push (7 : Nat), .distanceFromTail (-4)] ∧
      ¬ IsBoundedFifo (fun _ => 0) 4 [.push (7 : Nat), .distanceFromTail (-4)] :=
  ⟨⟨2, by decide, rfl⟩, ⟨trivial, trivial, trivial⟩, fun fifo => absurd fifo.answers (by decide)⟩

end ForgeDrive.El
