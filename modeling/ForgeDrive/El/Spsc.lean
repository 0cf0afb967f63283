/-
**One producer and one consumer on `el::ring_fast`** (`fd/ring.h`).

`push` and `pop` are sequences of reads and writes of `head_`, `tail_` and a slot; the steps of the
two parties interleave in any order. What a party has read it holds as a local value, which may be
out of date.

* `PushPc.Sound`, `PopPc.Sound` — what the local values of a party tell about the ring, at each of
  its program points; the steps of the other party keep it;
* `SpscInvariant` — with that, the items popped and those in the ring are the items pushed;
* `spsc_correct` — so the ring is a queue, a slot that is written holds no unread item, and a push
  fails only if the ring is full.
-/

import ForgeDrive.El.RingFast
import ForgeDrive.Library.LabelledSystem

namespace ForgeDrive.El

open LabelledSystem (exec)

variable {Item : Type*}

/-! ### The system -/

/-- Where the producer is in `push`: what it reads or writes next, with its locals. -/
inductive PushPc (Item : Type*)
  | idle
  | testFull (item : Item) (next : UInt16)
  | readHead (item : Item) (next : UInt16)
  | writeSlot (item : Item) (next index : UInt16)
  | writeHead (item : Item) (next : UInt16)

/-- Where the consumer is in `pop`: what it reads or writes next, with its locals. -/
inductive PopPc (Item : Type*)
  | idle
  | testEmpty (head : UInt16)
  | readTail
  | readSlot (index : UInt16)
  | readNext (item : Item)
  | writeTail (item : Item) (next : UInt16)

/-- The ring with its two parties, the items whose `push` returned `true`, and the items returned by
`pop`. -/
structure Spsc (Item : Type*) where
  ring : RingFast Item
  producer : PushPc Item
  consumer : PopPc Item
  pushed : List Item
  popped : List Item

/-- The first step of a call, and the next step in it. -/
inductive SpscStep (Item : Type*)
  | push (item : Item)
  | produce
  | pop
  | consume

/-- A new ring, and both parties outside their calls. -/
def Spsc.init (buffer : Nat → Item) (size : UInt16) : Spsc Item :=
  ⟨RingFast.new buffer size, .idle, .idle, [], []⟩

/-- The next step of `push`. -/
def Spsc.produce (s : Spsc Item) : Option (Spsc Item) :=
  match s.producer with
  | .idle => none
  | .testFull item next =>
    some { s with producer := if next = s.ring.tail_ then .idle else .readHead item next }
  | .readHead item next => some { s with producer := .writeSlot item next s.ring.head_ }
  | .writeSlot item next index => some { s with
      ring := { s.ring with buffer_ := Function.update s.ring.buffer_ index.toNat item }
      producer := .writeHead item next }
  | .writeHead item next => some { s with
      ring := { s.ring with head_ := next }
      producer := .idle
      pushed := s.pushed ++ [item] }

/-- The next step of `pop`. -/
def Spsc.consume (s : Spsc Item) : Option (Spsc Item) :=
  match s.consumer with
  | .idle => none
  | .testEmpty head =>
    some { s with consumer := if head = s.ring.tail_ then .idle else .readTail }
  | .readTail => some { s with consumer := .readSlot s.ring.tail_ }
  | .readSlot index => some { s with consumer := .readNext (s.ring.buffer_ index.toNat) }
  | .readNext item =>
    some { s with consumer := .writeTail item ((s.ring.tail_ + 1) &&& s.ring.mask_) }
  | .writeTail item next => some { s with
      ring := { s.ring with tail_ := next }
      consumer := .idle
      popped := s.popped ++ [item] }

/-- One step of the system. A call begins with the read of `head_`, the left operand of the test. -/
def Spsc.step (s : Spsc Item) : SpscStep Item → Option (Spsc Item)
  | .push item =>
    match s.producer with
    | .idle => some { s with producer := .testFull item ((s.ring.head_ + 1) &&& s.ring.mask_) }
    | _ => none
  | .produce => s.produce
  | .pop =>
    match s.consumer with
    | .idle => some { s with consumer := .testEmpty s.ring.head_ }
    | _ => none
  | .consume => s.consume

/-- The steps of `push`, taken without interruption, are the function. -/
theorem push_steps (s : Spsc Item) (outside : s.producer = .idle) (item : Item) :
    ∃ count after, exec Spsc.step s (.push item :: List.replicate count .produce) = some after ∧
      after.producer = .idle ∧ after.ring = (s.ring.push item).1 ∧
      after.pushed = if (s.ring.push item).2 then s.pushed ++ [item] else s.pushed := by
  by_cases full : (s.ring.head_ + 1) &&& s.ring.mask_ = s.ring.tail_
  · refine ⟨1, { s with producer := .idle }, ?_, rfl, ?_, ?_⟩
    · simp [Spsc.step, Spsc.produce, outside, full]
    · rw [RingFast.push, if_pos full]
    · rw [RingFast.push, if_pos full]
      rfl
  · refine ⟨4, { s with
      ring := s.ring.pushFast item, producer := .idle, pushed := s.pushed ++ [item] }, ?_, rfl,
        ?_, ?_⟩
    · simp [List.replicate, Spsc.step, Spsc.produce, outside, full, RingFast.pushFast]
    · rw [RingFast.push, if_neg full]
    · rw [RingFast.push, if_neg full]
      rfl

/-- An item that has been pushed and not yet popped is in this slot. -/
def Spsc.Unread (s : Spsc Item) (index : UInt16) : Prop :=
  ∃ offset < s.ring.size.toNat,
    index.toNat = (s.ring.tail_.toNat + offset) % s.ring.capacity_.toNat

/-- The next step of the producer makes `push` return `false`. -/
def Spsc.Refuses (s : Spsc Item) : Prop := ∃ item, s.producer = .testFull item s.ring.tail_

/-- **The ring is a queue of one producer and one consumer.** -/
structure Spsc.Correct (s : Spsc Item) : Prop where
  fifo : s.popped <+: s.pushed
  unread : ∀ item next index, s.producer = .writeSlot item next index → ¬ s.Unread index
  full : s.Refuses → s.ring.size.toNat = s.ring.capacity_.toNat - 1

/-! ### What the local values tell -/

/-- What the producer's values tell about the ring: there is room from the test on, and its index is
the head. -/
def PushPc.Sound (r : RingFast Item) : PushPc Item → Prop
  | .idle => True
  | .testFull _ next => next = (r.head_ + 1) &&& r.mask_
  | .readHead _ next =>
    next = (r.head_ + 1) &&& r.mask_ ∧ r.size.toNat + 1 < r.capacity_.toNat
  | .writeSlot _ next index =>
    next = (r.head_ + 1) &&& r.mask_ ∧ r.size.toNat + 1 < r.capacity_.toNat ∧ index = r.head_
  | .writeHead item next =>
    next = (r.head_ + 1) &&& r.mask_ ∧ r.size.toNat + 1 < r.capacity_.toNat ∧
      r.buffer_ r.head_.toNat = item

/-- What the consumer's values tell about the ring: a head apart from the tail, though it may be an
old one, shows that there is an item, and the item at the tail stays. -/
def PopPc.Sound (r : RingFast Item) : PopPc Item → Prop
  | .idle => True
  | .testEmpty head => head ≠ r.tail_ → 0 < r.size.toNat
  | .readTail => 0 < r.size.toNat
  | .readSlot index => 0 < r.size.toNat ∧ index = r.tail_
  | .readNext item => 0 < r.size.toNat ∧ r.buffer_ r.tail_.toNat = item
  | .writeTail item next =>
    0 < r.size.toNat ∧ r.buffer_ r.tail_.toNat = item ∧ next = (r.tail_ + 1) &&& r.mask_

section Frames

variable {r after : RingFast Item}

/-- **What the consumer does** keeps what the producer knows. -/
theorem PushPc.Sound.consumed {pc : PushPc Item} (sound : pc.Sound r)
    (head : after.head_ = r.head_) (mask : after.mask_ = r.mask_)
    (capacity : after.capacity_ = r.capacity_) (buffer : after.buffer_ = r.buffer_)
    (size : after.size.toNat ≤ r.size.toNat) : pc.Sound after := by
  have room : r.size.toNat + 1 < r.capacity_.toNat →
      after.size.toNat + 1 < after.capacity_.toNat := by
    rw [capacity]
    omega
  cases pc with
  | idle => trivial
  | testFull item next =>
    rw [PushPc.Sound, head, mask]
    exact sound
  | readHead item next =>
    rw [PushPc.Sound, head, mask]
    exact ⟨sound.1, room sound.2⟩
  | writeSlot item next index =>
    rw [PushPc.Sound, head, mask]
    exact ⟨sound.1, room sound.2.1, sound.2.2⟩
  | writeHead item next =>
    rw [PushPc.Sound, head, mask, buffer]
    exact ⟨sound.1, room sound.2.1, sound.2.2⟩

/-- **What the producer does** keeps what the consumer knows. -/
theorem PopPc.Sound.produced {pc : PopPc Item} (sound : pc.Sound r) (tail : after.tail_ = r.tail_)
    (mask : after.mask_ = r.mask_) (size : r.size.toNat ≤ after.size.toNat)
    (slot : 0 < r.size.toNat → after.buffer_ r.tail_.toNat = r.buffer_ r.tail_.toNat) :
    pc.Sound after := by
  have some_ : 0 < r.size.toNat → 0 < after.size.toNat := fun some_ => by omega
  cases pc with
  | idle => trivial
  | testEmpty head =>
    rw [PopPc.Sound, tail]
    exact fun apart => some_ (sound apart)
  | readTail => exact some_ sound
  | readSlot index =>
    rw [PopPc.Sound, tail]
    exact ⟨some_ sound.1, sound.2⟩
  | readNext item =>
    rw [PopPc.Sound, tail, slot sound.1]
    exact ⟨some_ sound.1, sound.2⟩
  | writeTail item next =>
    rw [PopPc.Sound, tail, mask, slot sound.1]
    exact ⟨some_ sound.1, sound.2⟩

end Frames

/-- The invariant of the system: the items pushed were popped or are in the ring. -/
structure SpscInvariant (s : Spsc Item) : Prop where
  valid : s.ring.Valid
  producer : s.producer.Sound s.ring
  consumer : s.consumer.Sound s.ring
  queue : s.pushed = s.popped ++ s.ring.contents

/-! ### The steps -/

section Steps

variable {r : RingFast Item} {s next : Spsc Item}

/-- **A write behind the head** is not seen, and not in the slot of the tail if that holds an
item. -/
theorem update_head (valid : r.Valid) (item : Item) :
    ({ r with buffer_ := Function.update r.buffer_ r.head_.toNat item } : RingFast Item).contents =
        r.contents ∧
      (0 < r.size.toNat →
        Function.update r.buffer_ r.head_.toNat item r.tail_.toNat = r.buffer_ r.tail_.toNat) := by
  have less := RingFast.size_lt valid
  constructor
  · show Circular.window (Function.update r.buffer_ r.head_.toNat item) r.capacity_.toNat
      r.tail_.toNat r.size.toNat = _
    rw [RingFast.head_eq valid, Circular.window_update le_rfl less]
    rfl
  · intro some_
    refine Function.update_of_ne (fun same => ?_) _ _
    have empty := (RingFast.empty_iff valid).mp (UInt16.toNat_inj.mp same.symm)
    omega

/-- The first item of a ring that is not empty, and the ring without it. -/
theorem contents_eq_cons (valid : r.Valid) (some_ : 0 < r.size.toNat) :
    r.contents = r.buffer_ r.tail_.toNat :: (r.readCommit 1).contents := by
  have tail := valid.tail
  have within : (1 : UInt16).toNat ≤ r.size.toNat := some_
  obtain ⟨rest, size⟩ := Nat.exists_eq_add_of_le some_
  rw [RingFast.readCommit_contents valid within, RingFast.contents, size, Nat.add_comm,
    Circular.window_succ, Nat.mod_eq_of_lt tail]
  rfl

theorem SpscInvariant.writeSlot (holds : SpscInvariant s) {item : Item} {next index : UInt16}
    (pc : s.producer = .writeSlot item next index) :
    SpscInvariant { s with
      ring := { s.ring with buffer_ := Function.update s.ring.buffer_ index.toNat item }
      producer := .writeHead item next } := by
  have sound := holds.producer
  rw [pc] at sound
  obtain ⟨advanced, room, rfl⟩ := sound
  obtain ⟨contents, slot⟩ := update_head holds.valid item
  refine ⟨⟨holds.valid.power, holds.valid.mask, holds.valid.head, holds.valid.tail⟩,
    ⟨advanced, room, Function.update_self ..⟩, ?_, ?_⟩
  · exact holds.consumer.produced rfl rfl le_rfl slot
  · rw [contents]
    exact holds.queue

theorem SpscInvariant.writeHead (holds : SpscInvariant s) {item : Item} {next : UInt16}
    (pc : s.producer = .writeHead item next) :
    SpscInvariant { s with
      ring := { s.ring with head_ := next }, producer := .idle, pushed := s.pushed ++ [item] } := by
  have sound := holds.producer
  rw [pc] at sound
  obtain ⟨rfl, room, slot⟩ := sound
  have pushed : ({ s.ring with head_ := (s.ring.head_ + 1) &&& s.ring.mask_ } : RingFast Item) =
      s.ring.pushFast item := by
    rw [RingFast.pushFast, ← slot, Function.update_eq_self]
  rw [pushed]
  refine ⟨RingFast.pushFast_valid holds.valid item, trivial, ?_, ?_⟩
  · refine holds.consumer.produced rfl rfl ?_ fun _ => ?_
    · rw [RingFast.pushFast_size holds.valid room item]
      exact Nat.le_succ _
    · rw [← pushed]
  · show s.pushed ++ [item] = s.popped ++ (s.ring.pushFast item).contents
    rw [RingFast.pushFast_contents holds.valid room item, holds.queue, List.append_assoc]

theorem SpscInvariant.writeTail (holds : SpscInvariant s) {item : Item} {next : UInt16}
    (pc : s.consumer = .writeTail item next) :
    SpscInvariant { s with
      ring := { s.ring with tail_ := next }, consumer := .idle, popped := s.popped ++ [item] } := by
  have sound := holds.consumer
  rw [pc] at sound
  obtain ⟨some_, slot, rfl⟩ := sound
  have within : (1 : UInt16).toNat ≤ s.ring.size.toNat := some_
  have sizeAfter := RingFast.readCommit_size holds.valid within
  refine ⟨RingFast.readCommit_valid holds.valid 1, ?_, trivial, ?_⟩
  · exact holds.producer.consumed rfl rfl rfl rfl (sizeAfter.le.trans (Nat.sub_le _ _))
  · show s.pushed = s.popped ++ [item] ++ (s.ring.readCommit 1).contents
    rw [holds.queue, contents_eq_cons holds.valid some_, slot, List.append_assoc]
    rfl

/-- **Every step of the producer** keeps the invariant. -/
theorem SpscInvariant.produce (holds : SpscInvariant s) (taken : s.produce = some next) :
    SpscInvariant next := by
  have sound := holds.producer
  rw [Spsc.produce] at taken
  cases pc : s.producer with
  | idle =>
    rw [pc] at taken
    cases taken
  | testFull item advanced =>
    rw [pc] at taken sound
    obtain rfl := Option.some.inj taken
    refine ⟨holds.valid, ?_, holds.consumer, holds.queue⟩
    show PushPc.Sound s.ring (if advanced = s.ring.tail_ then _ else _)
    split
    case isTrue => trivial
    case isFalse apart =>
      obtain rfl : advanced = (s.ring.head_ + 1) &&& s.ring.mask_ := sound
      exact ⟨rfl, not_not.mp fun full => apart ((RingFast.next_eq_iff holds.valid).mpr full)⟩
  | readHead item advanced =>
    rw [pc] at taken sound
    obtain rfl := Option.some.inj taken
    exact ⟨holds.valid, ⟨sound.1, sound.2, rfl⟩, holds.consumer, holds.queue⟩
  | writeSlot item advanced index =>
    rw [pc] at taken
    obtain rfl := Option.some.inj taken
    exact holds.writeSlot pc
  | writeHead item advanced =>
    rw [pc] at taken
    obtain rfl := Option.some.inj taken
    exact holds.writeHead pc

/-- **Every step of the consumer** keeps the invariant. -/
theorem SpscInvariant.consume (holds : SpscInvariant s) (taken : s.consume = some next) :
    SpscInvariant next := by
  have sound := holds.consumer
  rw [Spsc.consume] at taken
  cases pc : s.consumer with
  | idle =>
    rw [pc] at taken
    cases taken
  | testEmpty head =>
    rw [pc] at taken sound
    obtain rfl := Option.some.inj taken
    refine ⟨holds.valid, holds.producer, ?_, holds.queue⟩
    show PopPc.Sound s.ring (if head = s.ring.tail_ then _ else _)
    split
    case isTrue => trivial
    case isFalse apart => exact sound apart
  | readTail =>
    rw [pc] at taken sound
    obtain rfl := Option.some.inj taken
    exact ⟨holds.valid, holds.producer, ⟨sound, rfl⟩, holds.queue⟩
  | readSlot index =>
    rw [pc] at taken sound
    obtain rfl := Option.some.inj taken
    obtain ⟨some_, rfl⟩ := sound
    exact ⟨holds.valid, holds.producer, ⟨some_, rfl⟩, holds.queue⟩
  | readNext item =>
    rw [pc] at taken sound
    obtain rfl := Option.some.inj taken
    exact ⟨holds.valid, holds.producer, ⟨sound.1, sound.2, rfl⟩, holds.queue⟩
  | writeTail item advanced =>
    rw [pc] at taken
    obtain rfl := Option.some.inj taken
    exact holds.writeTail pc

theorem SpscInvariant.step (holds : SpscInvariant s) {label : SpscStep Item}
    (taken : s.step label = some next) : SpscInvariant next := by
  cases label with
  | produce => exact holds.produce taken
  | consume => exact holds.consume taken
  | push item =>
    rw [Spsc.step] at taken
    split at taken
    · obtain rfl := Option.some.inj taken
      exact ⟨holds.valid, rfl, holds.consumer, holds.queue⟩
    · cases taken
  | pop =>
    rw [Spsc.step] at taken
    split at taken
    · obtain rfl := Option.some.inj taken
      refine ⟨holds.valid, holds.producer, fun apart => ?_, holds.queue⟩
      exact Nat.pos_of_ne_zero fun empty => apart ((RingFast.empty_iff holds.valid).mpr empty)
    · cases taken

/-- **In the states of the invariant the ring is correct.** -/
theorem SpscInvariant.correct (holds : SpscInvariant s) : s.Correct := by
  have less := RingFast.size_lt holds.valid
  have sound := holds.producer
  refine ⟨⟨_, holds.queue.symm⟩, ?_, ?_⟩
  · rintro item advanced index pc ⟨offset, inside, place⟩
    rw [pc] at sound
    obtain ⟨-, -, rfl⟩ := sound
    rw [RingFast.head_eq holds.valid] at place
    exact Circular.index_ne less (lt_trans inside less) (Nat.ne_of_gt inside) place
  · rintro ⟨item, pc⟩
    rw [pc] at sound
    have full := (RingFast.next_eq_iff holds.valid).mp (Eq.symm sound)
    omega

end Steps

/-! ### The runs -/

/-- **The ring is a correct queue of one producer and one consumer**, in every interleaving of any
number of calls: what is popped is a beginning of what was pushed, no slot is written while it holds
an unread item, and a push that fails found the ring full when it read the tail. -/
theorem spsc_correct (buffer : Nat → Item) (size : UInt16)
    (power : ∃ exponent ≤ 15, size.toNat = 2 ^ exponent) (steps : List (SpscStep Item))
    (reached : Spsc Item) (run : exec Spsc.step (Spsc.init buffer size) steps = some reached) :
    reached.Correct := by
  have start : SpscInvariant (Spsc.init buffer size) :=
    ⟨RingFast.new_valid buffer power, trivial, trivial, (RingFast.new_contents buffer size).symm⟩
  have always : LabelledSystem.Meets Spsc.step (fun _ _ => True) (Spsc.init buffer size) steps :=
    LabelledSystem.meets_of_forall (fun _ _ => trivial) _ steps
  exact (LabelledSystem.exec_invariant SpscInvariant
    (fun _ _ _ holds _ taken => holds.step taken) start always run).correct

/-- An item pushed in a ring of two, while the consumer looks at the empty ring, and then popped. -/
theorem spsc_correct_one :
    ∃ reached, exec Spsc.step (Spsc.init (fun _ => 0) 2)
        [.push 7, .pop, .produce, .consume, .produce, .produce, .produce, .pop, .consume, .consume,
          .consume, .consume, .consume] = some reached ∧ reached.popped = [7] ∧ reached.Correct :=
  ⟨_, rfl, rfl, spsc_correct (fun _ => 0) 2 ⟨1, by decide, rfl⟩
    [.push 7, .pop, .produce, .consume, .produce, .produce, .produce, .pop, .consume, .consume,
      .consume, .consume, .consume] _ rfl⟩

end ForgeDrive.El
