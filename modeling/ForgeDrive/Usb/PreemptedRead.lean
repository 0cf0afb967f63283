/-
**`fd_usbxch_read`, preempted by the receive interrupt at any access** (`fd_usbxch.c`, `fd_ring.h`).

`fd_ring_read_reserve` asks for the size twice, compares the indices and reads the head once more for
the space in front of the end. Between any two of these, and between any two bytes of the copies, the
core may store bytes behind the head and the interrupt may commit them. The tail is written by the
main thread alone.

* `ReadPc.Sound` — what the locals of the call tell about the ring, at each of its accesses; the
  interrupt keeps it;
* `preempted_read_linearizes` — with any interruptions the ring is the bounded queue, and a read
  returns at least as many bytes as there were when it was called, if so many are asked for;
* `read_steps` — without interruption the steps are `fd_usbxch_read`.

The reads ask for at most 65535 bytes; the code takes a length of 32 bits, and truncates what is left
of it.
-/

import ForgeDrive.Usb.PreemptedWrite

namespace ForgeDrive.Usb

open Circular (segment store window)
open EventMachine (run)
open Fd (Ring Regions Splits regions)
open LabelledSystem (exec Throughout)

/-! ### The system -/

/-- Where the main thread is in `fd_usbxch_read`: what it reads or writes next, with its locals and
the bytes that were in the ring at the call. -/
inductive ReadPc
  | outside
  | sizeAgain (length : UInt16) (available : Nat)
  | compare (length : UInt16) (available : Nat) (count : UInt16)
  | spaceBefore (length : UInt16) (available : Nat) (count : UInt16)
  | copy (length : UInt16) (available : Nat) (out : Regions) (taken : List UInt8)

/-- A read that has returned: the bytes asked for, those in the ring at its call, and what it
returned. -/
structure Returned where
  length : UInt16
  available : Nat
  bytes : List UInt8

/-- The ring, the main thread, the calls that took effect so far with their answers, and the reads
that have returned. -/
structure ReadSystem where
  ring : Ring
  pc : ReadPc
  log : List (RingCall × Answer)
  returned : List Returned

/-- The call of `fd_usbxch_read` with its first test of the size, its next step, a byte that the core
stores so far behind the head, and the interrupt that commits bytes. `fd_usbxch_read` takes a
`uint32_t` and cuts what is left of it to 16 bits, so that a read of more than 65535 bytes may leave
what it could return; these are not modelled. -/
inductive ReadStep
  | read (length : UInt16)
  | next
  | receive (offset : Nat) (byte : UInt8)
  | commit (count : UInt16)

def ReadSystem.init (storage : Nat → UInt8) (capacity : UInt16) : ReadSystem :=
  ⟨Ring.init storage capacity, .outside, [], []⟩

/-- The next step of `fd_usbxch_read`. Each reads the head at most once. -/
def ReadSystem.next (s : ReadSystem) : Option ReadSystem :=
  match s.pc with
  | .outside => none
  | .sizeAgain length available => some { s with pc := .compare length available s.ring.size }
  | .compare length available count => some { s with
      pc := if s.ring.tail ≥ s.ring.head then
          .copy length available
            (regions s.ring.tail (s.ring.capacity - s.ring.tail) count) []
        else .spaceBefore length available count }
  | .spaceBefore length available count => some { s with
      pc := .copy length available
        (regions s.ring.tail (s.ring.head - s.ring.tail) count) [] }
  | .copy length available out taken =>
    match (readAccesses out length.toNat)[taken.length]? with
    | some index =>
      some { s with pc := .copy length available out (taken ++ [s.ring.buffer index]) }
    | none => some {
        ring := s.ring.readCommit (UInt16.ofNat taken.length)
        pc := .outside
        log := s.log ++ [(.read (UInt16.ofNat taken.length), .bytes taken)]
        returned := s.returned ++ [⟨length, available, taken⟩] }

/-- The bytes stored behind the head, as many as a count tells. -/
def stored (r : Ring) (count : UInt16) : Payload :=
  ⟨window r.buffer r.capacity.toNat r.head.toNat count.toNat, by
    rw [Circular.window_length]; exact count.toNat_lt⟩

/-- One step of the system. -/
def ReadSystem.step (s : ReadSystem) : ReadStep → Option ReadSystem
  | .read length =>
    match s.pc with
    | .outside =>
      if s.ring.size = 0 then some { s with
        log := s.log ++ [(.read length, .bytes [])]
        returned := s.returned ++ [⟨length, 0, []⟩] }
      else some { s with pc := .sizeAgain length s.ring.size.toNat }
    | _ => none
  | .next => s.next
  | .receive offset byte =>
    if offset < s.ring.free.toNat then some { s with
      ring := { s.ring with
        buffer := Function.update s.ring.buffer
          ((s.ring.head.toNat + offset) % s.ring.capacity.toNat) byte } }
    else none
  | .commit count =>
    if count ≤ s.ring.free then some { s with
      ring := s.ring.writeCommit count
      log := s.log ++ [(.write (stored s.ring count).1 (stored s.ring count).2, .refused 0)] }
    else none

/-- The next byte that is copied is the next of the unread ones. -/
def ReadSystem.CopiesUnread (s : ReadSystem) : Prop :=
  ∀ length available out taken index, s.pc = .copy length available out taken →
    (readAccesses out length.toNat)[taken.length]? = some index →
      taken.length < s.ring.size.toNat ∧ index < s.ring.capacity.toNat ∧
        index = (s.ring.tail.toNat + taken.length) % s.ring.capacity.toNat

/-- **The ring is the bounded queue**: the calls that took effect, one after the other, leave the
queue with what the ring holds, and it answers as they were answered; and a read returns all that was
asked for, or at least all that was there at its call. -/
structure ReadSystem.Linearized (s : ReadSystem) : Prop where
  queue : run (queueStep s.ring.capacity.toNat) [] (s.log.map Prod.fst) =
    (s.ring.contents, s.log.map Prod.snd)
  enough : ∀ r ∈ s.returned,
    min r.length.toNat r.available ≤ r.bytes.length ∧ r.bytes.length ≤ r.length.toNat
  unread : s.CopiesUnread

/-! ### The elements read -/

/-- The copies of a read touch the elements from the tail on, around the end of the buffer. -/
theorem readAccesses_eq {capacity start count : Nat} {out : Regions}
    (splits : Splits capacity start count out) (inside : start < capacity) (fits : count ≤ capacity)
    {length : Nat} (short : length < 65536) :
    readAccesses out length =
      (List.range (min length count)).map fun i => (start + i) % capacity := by
  have first := splits.first
  have cont1 := splits.cont1
  have cont2 := splits.cont2
  have fromFirst : copyFromFirst out length = min length out.cont1.toNat := by
    rw [copyFromFirst, Nat.mod_eq_of_lt (by omega)]
    omega
  have front : List.range' out.first.toNat (min length out.cont1.toNat) =
      (List.range (min length out.cont1.toNat)).map fun i => (start + i) % capacity := by
    rw [List.range'_eq_map_range, first]
    refine List.map_congr_left fun i member => ?_
    have less := List.mem_range.mp member
    exact (Nat.mod_eq_of_lt (by omega)).symm
  have parts : (List.range (min length count)).map (fun i => (start + i) % capacity) =
      (List.range (min length out.cont1.toNat)).map (fun i => (start + i) % capacity) ++
        (List.range (min length count - min length out.cont1.toNat)).map
          fun i => (start + (min length out.cont1.toNat + i)) % capacity := by
    rw [show min length count = min length out.cont1.toNat +
      (min length count - min length out.cont1.toNat) by omega, List.range_add, List.map_append,
      List.map_map, Nat.add_sub_cancel_left]
    rfl
  rw [parts, readAccesses, fromFirst, front]
  refine congrArg (List.append _) ?_
  rcases splits.second_cases with ⟨second, none_⟩ | ⟨second, -⟩
  · rw [second, show min length count - min length out.cont1.toNat = 0 by omega]
    rfl
  · simp only [second]
    split
    case isTrue more =>
      rw [Nat.mod_eq_of_lt (by omega), show min (length - min length out.cont1.toNat)
        out.cont2.toNat = min length count - min length out.cont1.toNat by omega,
        List.range'_eq_map_range]
      refine List.map_congr_left fun i member => ?_
      have less := List.mem_range.mp member
      rw [Nat.mod_eq_sub_mod (by omega), Nat.mod_eq_of_lt (by omega)]
      show 0 + i = _
      omega
    case isFalse less =>
      rw [show min length count - min length out.cont1.toNat = 0 by omega]
      rfl

/-! ### What the locals tell -/

/-- What the locals of the call tell about the ring: what was counted is there, at least as much as at
the call; a head in front of the tail was further than that; and from the copies on the regions split
what was counted, of which a beginning is copied. -/
def ReadPc.Sound (r : Ring) : ReadPc → Prop
  | .outside => True
  | .sizeAgain _ available => available ≤ r.size.toNat
  | .compare _ available count => count.toNat ≤ r.size.toNat ∧ available ≤ count.toNat
  | .spaceBefore _ available count =>
    (count.toNat ≤ r.size.toNat ∧ available ≤ count.toNat) ∧
      r.tail.toNat + count.toNat < r.capacity.toNat
  | .copy length available out taken => ∃ count,
    (count ≤ r.size.toNat ∧ available ≤ count) ∧
      Splits r.capacity.toNat r.tail.toNat count out ∧
      taken.length ≤ min length.toNat count ∧
      taken = window r.buffer r.capacity.toNat r.tail.toNat taken.length

/-- The invariant of the system. -/
structure ReadInvariant (s : ReadSystem) : Prop where
  valid : s.ring.Valid
  sound : s.pc.Sound s.ring
  queue : run (queueStep s.ring.capacity.toNat) [] (s.log.map Prod.fst) =
    (s.ring.contents, s.log.map Prod.snd)
  enough : ∀ r ∈ s.returned,
    min r.length.toNat r.available ≤ r.bytes.length ∧ r.bytes.length ≤ r.length.toNat

section Sound

variable {r after : Ring}

/-- **What the interrupt does** keeps what the main thread knows: the tail stays, there is no less
in the ring, and what is there stays. -/
theorem ReadPc.Sound.produced {pc : ReadPc} (sound : pc.Sound r) (tail : after.tail = r.tail)
    (capacity : after.capacity = r.capacity) (size : r.size.toNat ≤ after.size.toNat)
    (unread : ∀ taken ≤ r.size.toNat,
      window after.buffer r.capacity.toNat r.tail.toNat taken =
        window r.buffer r.capacity.toNat r.tail.toNat taken) : pc.Sound after := by
  cases pc with
  | outside => trivial
  | sizeAgain length available => exact le_trans sound size
  | compare length available count => exact ⟨sound.1.trans size, sound.2⟩
  | spaceBefore length available count =>
    refine ⟨⟨sound.1.1.trans size, sound.1.2⟩, ?_⟩
    rw [tail, capacity]
    exact sound.2
  | copy length available out taken =>
    obtain ⟨count, ⟨within, enough⟩, splits, part, copies⟩ := sound
    refine ⟨count, ⟨within.trans size, enough⟩, ?_, part, ?_⟩
    · rw [tail, capacity]
      exact splits
    · rw [tail, capacity, unread _ (by omega)]
      exact copies

/-- **The space between the tail and the head**, whether or not the head has wrapped since it was
seen in front of the tail: if it has, the difference has no meaning, but is large enough. -/
theorem spaceBefore_read_splits (valid : r.Valid) {count : UInt16}
    (within : count.toNat ≤ r.size.toNat) (apart : r.tail.toNat + count.toNat < r.capacity.toNat) :
    Splits r.capacity.toNat r.tail.toNat count.toNat (regions r.tail (r.head - r.tail) count) := by
  have size := r.size_toNat valid
  have head := valid.head
  have small := r.capacity.toNat_lt
  refine Fd.regions_splits ?_
  have enough : count.toNat ≤ (r.head - r.tail).toNat := by
    rw [UInt16.toNat_sub]
    split at size <;> omega
  omega

/-- The element that is read next. -/
theorem ReadPc.Sound.index (valid : r.Valid) {length : UInt16} {available : Nat} {out : Regions}
    {taken : List UInt8} (sound : (ReadPc.copy length available out taken).Sound r) :
    (readAccesses out length.toNat)[taken.length]? =
      if taken.length < min length.toNat (out.cont1.toNat + out.cont2.toNat) then
        some ((r.tail.toNat + taken.length) % r.capacity.toNat) else none := by
  obtain ⟨count, ⟨within, -⟩, splits, -, -⟩ := sound
  have size := r.size_lt valid
  have cont1 := splits.cont1
  have cont2 := splits.cont2
  rw [readAccesses_eq splits valid.tail (by omega) length.toNat_lt,
    show out.cont1.toNat + out.cont2.toNat = count by omega]
  split
  case isTrue less => rw [List.getElem?_map, List.getElem?_range less, Option.map_some]
  case isFalse done =>
    rw [List.getElem?_eq_none (by rw [List.length_map, List.length_range]; omega)]

end Sound

/-! ### The steps -/

section Steps

variable {s after : ReadSystem}

/-- The core stores a byte behind the head. -/
theorem ReadInvariant.receive (holds : ReadInvariant s) {offset : Nat} (byte : UInt8)
    (free : offset < s.ring.free.toNat) :
    ReadInvariant { s with
      ring := { s.ring with
        buffer := Function.update s.ring.buffer
          ((s.ring.head.toNat + offset) % s.ring.capacity.toNat) byte } } := by
  have room := s.ring.free_toNat holds.valid
  have unread : ∀ taken ≤ s.ring.size.toNat,
      window (Function.update s.ring.buffer
        ((s.ring.head.toNat + offset) % s.ring.capacity.toNat) byte) s.ring.capacity.toNat
          s.ring.tail.toNat taken =
        window s.ring.buffer s.ring.capacity.toNat s.ring.tail.toNat taken := fun taken le => by
    rw [s.ring.head_eq holds.valid, Nat.mod_add_mod, Nat.add_assoc]
    exact Circular.window_update (by omega) (by omega) byte
  refine ⟨⟨holds.valid.head, holds.valid.tail⟩, ?_, ?_, holds.enough⟩
  · exact holds.sound.produced rfl rfl le_rfl unread
  · exact holds.queue.trans (congrArg (·, _) (unread _ le_rfl).symm)

/-- The interrupt commits bytes: they are written to the queue. -/
theorem ReadInvariant.commit (holds : ReadInvariant s) {count : UInt16}
    (free : count.toNat ≤ s.ring.free.toNat) :
    ReadInvariant { s with
      ring := s.ring.writeCommit count
      log := s.log ++ [(.write (stored s.ring count).1 (stored s.ring count).2, .refused 0)] } := by
  have size := s.ring.size_lt holds.valid
  have room := s.ring.free_toNat holds.valid
  have larger : (s.ring.writeCommit count).size.toNat = _ :=
    Fd.writeCommit_size holds.valid (by omega)
  refine ⟨Fd.writeCommit_valid holds.valid (by omega), ?_, logged holds.queue ?_, holds.enough⟩
  · exact holds.sound.produced rfl rfl (by rw [larger]; omega) fun _ _ => rfl
  · have fits : (stored s.ring count).1.length ≤
        s.ring.capacity.toNat - 1 - s.ring.contents.length := by
      rw [Ring.contents_length, stored, Circular.window_length]
      omega
    show queueStep s.ring.capacity.toNat _ _ = _
    rw [queueStep, if_pos fits, writeCommit_contents holds.valid free]
    rfl

/-- The call returns what it has copied: the read takes effect. -/
theorem ReadInvariant.return (holds : ReadInvariant s) {length : UInt16} {available : Nat}
    {out : Regions} {taken : List UInt8} (pc : s.pc = .copy length available out taken)
    (done : ¬ taken.length < min length.toNat (out.cont1.toNat + out.cont2.toNat)) :
    ReadInvariant {
      ring := s.ring.readCommit (UInt16.ofNat taken.length)
      pc := .outside
      log := s.log ++ [(.read (UInt16.ofNat taken.length), .bytes taken)]
      returned := s.returned ++ [⟨length, available, taken⟩] } := by
  have sound := holds.sound
  rw [pc] at sound
  obtain ⟨count, ⟨within, enough⟩, splits, part, copies⟩ := sound
  have size := s.ring.size_lt holds.valid
  have cont1 := splits.cont1
  have cont2 := splits.cont2
  have short := length.toNat_lt
  have exact_ : (UInt16.ofNat taken.length).toNat = taken.length :=
    UInt16.toNat_ofNat_of_lt' (show taken.length < 2 ^ 16 by omega)
  have fits : (UInt16.ofNat taken.length).toNat ≤ s.ring.size.toNat := by omega
  refine ⟨Fd.readCommit_valid holds.valid (by omega), trivial, logged holds.queue ?_, ?_⟩
  · show queueStep s.ring.capacity.toNat _ _ = _
    rw [queueStep, Ring.contents_length, Nat.min_eq_left fits,
      Fd.readCommit_contents holds.valid fits, exact_, Ring.contents,
      Circular.window_take _ (by omega), ← copies]
  · rw [List.forall_mem_append]
    refine ⟨holds.enough, ?_⟩
    rw [List.forall_mem_singleton]
    show min length.toNat available ≤ taken.length ∧ taken.length ≤ length.toNat
    omega

/-- A byte is copied. -/
theorem ReadInvariant.copyByte (holds : ReadInvariant s) {length : UInt16} {available : Nat}
    {out : Regions} {taken : List UInt8} (pc : s.pc = .copy length available out taken)
    (less : taken.length < min length.toNat (out.cont1.toNat + out.cont2.toNat)) :
    ReadInvariant { s with pc := .copy length available out (taken ++
      [s.ring.buffer ((s.ring.tail.toNat + taken.length) % s.ring.capacity.toNat)]) } := by
  have sound := holds.sound
  rw [pc] at sound
  obtain ⟨count, counted, splits, part, copies⟩ := sound
  have cont1 := splits.cont1
  have cont2 := splits.cont2
  refine ⟨holds.valid, ⟨count, counted, splits, ?_, ?_⟩, holds.queue, holds.enough⟩
  · rw [List.length_append, List.length_singleton]
    omega
  · show _ = window s.ring.buffer s.ring.capacity.toNat s.ring.tail.toNat _
    rw [List.length_append, List.length_singleton, Circular.window_concat, ← copies]

/-- **Every step of the call** keeps the invariant. -/
theorem ReadInvariant.next (holds : ReadInvariant s) (taken : s.next = some after) :
    ReadInvariant after := by
  have sound := holds.sound
  have size := s.ring.size_toNat holds.valid
  have head := holds.valid.head
  have tail := holds.valid.tail
  rw [ReadSystem.next] at taken
  cases pc : s.pc with
  | outside =>
    rw [pc] at taken
    cases taken
  | sizeAgain length available =>
    rw [pc] at taken sound
    obtain rfl := Option.some.inj taken
    exact ⟨holds.valid, ⟨le_rfl, sound⟩, holds.queue, holds.enough⟩
  | compare length available count =>
    rw [pc] at taken sound
    obtain rfl := Option.some.inj taken
    refine ⟨holds.valid, ?_, holds.queue, holds.enough⟩
    show ReadPc.Sound s.ring (if _ then _ else _)
    split
    case isTrue behind =>
      refine ⟨count.toNat, sound, Fd.regions_splits ?_, Nat.zero_le _, rfl⟩
      rw [Fd.toNat_sub_of_le (Nat.le_of_lt tail)]
    case isFalse before =>
      have apart : ¬ s.ring.head.toNat ≤ s.ring.tail.toNat := fun le =>
        before (UInt16.le_iff_toNat_le.mpr le)
      have within : count.toNat ≤ s.ring.size.toNat := sound.1
      rw [if_pos (by omega)] at size
      exact ⟨sound, by omega⟩
  | spaceBefore length available count =>
    rw [pc] at taken sound
    obtain rfl := Option.some.inj taken
    exact ⟨holds.valid, ⟨count.toNat, sound.1,
      spaceBefore_read_splits holds.valid sound.1.1 sound.2, Nat.zero_le _, rfl⟩, holds.queue,
      holds.enough⟩
  | copy length available out copied =>
    rw [pc] at taken sound
    have index := ReadPc.Sound.index holds.valid sound
    simp only [index] at taken
    split at taken
    case h_1 place found =>
      obtain rfl := Option.some.inj taken
      split at found
      case isTrue less =>
        obtain rfl := Option.some.inj found
        exact holds.copyByte pc less
      case isFalse => cases found
    case h_2 found =>
      obtain rfl := Option.some.inj taken
      split at found
      case isTrue => cases found
      case isFalse done => exact holds.return pc done

/-- **Every step** keeps the invariant. -/
theorem ReadInvariant.step (holds : ReadInvariant s) {label : ReadStep}
    (taken : s.step label = some after) : ReadInvariant after := by
  cases label with
  | next => exact holds.next taken
  | receive offset byte =>
    rw [ReadSystem.step] at taken
    split at taken
    case isTrue free =>
      obtain rfl := Option.some.inj taken
      exact holds.receive byte free
    case isFalse => cases taken
  | commit count =>
    rw [ReadSystem.step] at taken
    split at taken
    case isTrue free =>
      obtain rfl := Option.some.inj taken
      exact holds.commit (UInt16.le_iff_toNat_le.mp free)
    case isFalse => cases taken
  | read length =>
    simp only [ReadSystem.step] at taken
    split at taken
    · split at taken
      case isTrue empty =>
        obtain rfl := Option.some.inj taken
        have none_ : s.ring.contents = [] := by
          refine List.eq_nil_of_length_eq_zero ?_
          rw [Ring.contents_length, empty]
          rfl
        refine ⟨holds.valid, holds.sound, ?_, ?_⟩
        · refine logged holds.queue ?_
          simp only [queueStep, none_, List.length_nil, Nat.min_zero, List.drop_nil, List.take_nil]
        · rw [List.forall_mem_append]
          refine ⟨holds.enough, ?_⟩
          rw [List.forall_mem_singleton]
          exact ⟨(Nat.min_le_right _ _).trans (Nat.zero_le _), Nat.zero_le _⟩
      case isFalse =>
        obtain rfl := Option.some.inj taken
        exact ⟨holds.valid, le_rfl, holds.queue, holds.enough⟩
    · cases taken

/-- **In the states of the invariant** the ring is the bounded queue. -/
theorem ReadInvariant.linearized (holds : ReadInvariant s) : s.Linearized := by
  refine ⟨holds.queue, holds.enough, ?_⟩
  intro length available out taken index pc found
  have sound := holds.sound
  rw [pc] at sound
  rw [ReadPc.Sound.index holds.valid sound] at found
  obtain ⟨count, ⟨within, -⟩, splits, -, -⟩ := sound
  have size := s.ring.size_lt holds.valid
  have cont1 := splits.cont1
  have cont2 := splits.cont2
  split at found
  case isTrue less =>
    obtain rfl := Option.some.inj found
    exact ⟨by omega, Nat.mod_lt _ (by omega), rfl⟩
  case isFalse => cases found

end Steps

/-! ### The runs -/

/-- **A read preempted anywhere is a read of the bounded queue**: for every capacity, all calls that ask
for at most 65535 bytes, and bytes stored and committed between any two accesses of the main thread,
each call takes effect at one of its steps, copies unread bytes only, and returns all that it asks for
or at least all that was there when it was called. -/
theorem preempted_read_linearizes (storage : Nat → UInt8) {capacity : UInt16}
    (positive : 1 ≤ capacity) (steps : List ReadStep) :
    Throughout ReadSystem.step ReadSystem.Linearized (ReadSystem.init storage capacity) steps := by
  have start : ReadInvariant (ReadSystem.init storage capacity) :=
    ⟨Ring.init_valid storage (UInt16.lt_of_lt_of_le (by decide) positive), trivial,
      Prod.ext (Ring.init_contents storage capacity).symm rfl, List.forall_mem_nil _⟩
  have always : LabelledSystem.Meets ReadSystem.step (fun _ _ => True)
      (ReadSystem.init storage capacity) steps :=
    LabelledSystem.meets_of_forall (fun _ _ => trivial) _ steps
  have invariant := LabelledSystem.throughout_of_meets ReadInvariant
    (fun _ _ _ holds _ taken => holds.step taken) start always
  exact fun before after split reached run => (invariant before after split reached run).linearized

/-- Four elements, of which the last three are unread. The head is in front of the tail when they are
compared; the interrupt commits one more byte before the subtraction, which finds the head wrapped. -/
theorem preempted_read_linearizes_four :
    (1 : UInt16) ≤ 4 ∧ Throughout ReadSystem.step ReadSystem.Linearized
      (ReadSystem.init (fun _ => 0) 4)
      [.receive 0 1, .receive 1 2, .receive 2 3, .commit 3, .read 1, .next, .next, .next, .next,
        .next, .read 3, .next, .next, .receive 0 4, .commit 1, .next, .next, .next, .next] :=
  ⟨by decide, preempted_read_linearizes (fun _ => 0) (by decide) _⟩

/-! ### Without interruption -/

/-- The steps of the copies. -/
theorem copy_read_steps {r : Ring} {length : UInt16} {available : Nat} {out : Regions}
    (log : List (RingCall × Answer)) (returned : List Returned) {count : Nat}
    (within : count ≤ (readAccesses out length.toNat).length) :
    exec ReadSystem.step ⟨r, .copy length available out [], log, returned⟩
        (List.replicate count .next) =
      some ⟨r, .copy length available out (((readAccesses out length.toNat).take count).map r.buffer),
        log, returned⟩ := by
  induction count with
  | zero => rfl
  | succ count ih =>
    have copied : (((readAccesses out length.toNat).take count).map r.buffer).length = count := by
      rw [List.length_map, List.length_take]
      omega
    rw [List.replicate_succ', LabelledSystem.exec_append _ (ih (by omega)),
      LabelledSystem.exec_cons, List.take_succ_eq_append_getElem within, List.map_append]
    simp only [ReadSystem.step, ReadSystem.next, copied, List.getElem?_eq_getElem within,
      LabelledSystem.exec_nil, Option.bind_some]
    rfl

/-- The reservation takes two steps, or three. -/
theorem reserve_read_steps {r : Ring} (log : List (RingCall × Answer)) (returned : List Returned)
    (length : UInt16) {out : Regions} (empty : ¬ r.size = 0) (reserved : r.readReserve = some out) :
    ∃ count, exec ReadSystem.step ⟨r, .outside, log, returned⟩
      (.read length :: List.replicate count .next) =
        some ⟨r, .copy length r.size.toNat out [], log, returned⟩ := by
  rw [Ring.readReserve, if_neg empty] at reserved
  by_cases behind : r.tail ≥ r.head
  · refine ⟨2, ?_⟩
    simp only [if_pos behind] at reserved
    simp only [List.replicate, LabelledSystem.exec_cons, ReadSystem.step, ReadSystem.next,
      if_neg empty, if_pos behind, Option.bind_some, LabelledSystem.exec_nil]
    exact Option.some.inj reserved ▸ rfl
  · refine ⟨3, ?_⟩
    simp only [if_neg behind] at reserved
    simp only [List.replicate, LabelledSystem.exec_cons, ReadSystem.step, ReadSystem.next,
      if_neg empty, if_neg behind, Option.bind_some, LabelledSystem.exec_nil]
    exact Option.some.inj reserved ▸ rfl

/-- **The steps of the call, taken without interruption, are `fd_usbxch_read`.** -/
theorem read_steps {r : Ring} (valid : r.Valid) (log : List (RingCall × Answer))
    (returned : List Returned) (length : UInt16) :
    ∃ count after, exec ReadSystem.step ⟨r, .outside, log, returned⟩
        (.read length :: List.replicate count .next) = some after ∧ after.pc = .outside ∧
      after.ring = ((onRing r).read length.toUInt32).1.rx ∧
      after.returned = returned ++
        [⟨length, r.size.toNat, ((onRing r).read length.toUInt32).2⟩] := by
  by_cases empty : r.size = 0
  · have none_ : r.readReserve = none := if_pos empty
    refine ⟨0, ⟨r, .outside, log ++ [(.read length, .bytes [])], returned ++ [⟨length, 0, []⟩]⟩,
      ?_, rfl, ?_, ?_⟩
    · simp only [List.replicate_zero, LabelledSystem.exec_cons, ReadSystem.step, if_pos empty,
        LabelledSystem.exec_nil, Option.bind_some]
    · simp only [Exchange.read, onRing, none_]
    · simp only [Exchange.read, onRing, none_, empty]
      rfl
  · obtain ⟨out, reserved, -⟩ := Fd.readReserve_eq valid fun zero => empty (UInt16.toNat_inj.mp zero)
    have bytes : ((onRing r).read length.toUInt32).2 =
        (readAccesses out length.toNat).map r.buffer := by
      simp only [Exchange.read, onRing, reserved, UInt16.toNat_toUInt32]
      exact copyOut_eq_map _ _ _
    have ring : ((onRing r).read length.toUInt32).1.rx =
        r.readCommit (UInt16.ofNat ((readAccesses out length.toNat).map r.buffer).length) := by
      rw [← bytes]
      simp only [Exchange.read, onRing, reserved]
    obtain ⟨count, reservation⟩ := reserve_read_steps log returned length empty reserved
    have parts : ReadStep.read length ::
        List.replicate (count + ((readAccesses out length.toNat).length + 1)) .next =
          (.read length :: List.replicate count .next) ++
            (List.replicate (readAccesses out length.toNat).length .next ++ [.next]) := by
      rw [List.replicate_add, ← List.replicate_succ']
      rfl
    rw [bytes, ring]
    generalize taken_ : (readAccesses out length.toNat).map r.buffer = taken
    have all : taken.length = (readAccesses out length.toNat).length := by
      rw [← taken_, List.length_map]
    refine ⟨count + ((readAccesses out length.toNat).length + 1),
      ⟨r.readCommit (UInt16.ofNat taken.length), .outside,
        log ++ [(.read (UInt16.ofNat taken.length), .bytes taken)],
        returned ++ [⟨length, r.size.toNat, taken⟩]⟩, ?_, rfl, rfl, rfl⟩
    rw [parts, LabelledSystem.exec_append _ reservation,
      LabelledSystem.exec_append _ (copy_read_steps log returned le_rfl), List.take_length, taken_,
      LabelledSystem.exec_cons]
    simp only [ReadSystem.step, ReadSystem.next, List.getElem?_eq_none all.ge, Option.bind_some,
      LabelledSystem.exec_nil]

end ForgeDrive.Usb
