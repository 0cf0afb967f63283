/-
**`fd_usbxch_write`, preempted by the completion interrupt at any access** (`fd_usbxch.c`,
`fd_ring.h`).

The main thread reads the volatile indices of the ring several times in one call: for the free space,
for the test of `fd_ring_write_reserve`, and once more for the space in front of the end. Between any
two of these, and between any two bytes of the copies, the interrupt may release bytes, so that the
test and the subtraction see different tails. The head is written by the main thread alone.

* `WritePc.Sound` — what the locals of the call tell about the ring, at each of its accesses; the
  interrupt keeps it;
* `write_steps` — without interruption the steps are `fd_usbxch_write`;
* `preempted_write_linearizes` — with any interruptions the ring is the bounded queue: every call
  takes effect at one of its steps, and no byte is copied to the slot of an unread one.

The writes are of fewer than 65536 bytes; the code takes a length of 32 bits, and truncates it.
-/

import ForgeDrive.Library.LabelledSystem
import ForgeDrive.Usb.ByteQueue

namespace ForgeDrive.Usb

open Circular (segment store window)
open EventMachine (run)
open Fd (Ring Regions Splits regions)
open LabelledSystem (exec Throughout)

/-! ### The system -/

/-- The bytes of a write, as many as the counts of the ring can tell. `fd_usbxch_write` takes a
`uint32_t` and cuts it to 16 bits, so that of 65536 bytes or more it accepts what it does not store. -/
abbrev Payload := {data : List UInt8 // data.length < 65536}

/-- `(uint16_t)length`. -/
def Payload.count (data : Payload) : UInt16 := (UInt32.ofNat data.1.length).toUInt16

/-- Where the main thread is in `fd_usbxch_write`: what it reads or writes next, with its locals. -/
inductive WritePc
  | outside
  | compare (data : Payload)
  | spaceBehind (data : Payload)
  | spaceBefore (data : Payload)
  | copy (data : Payload) (out : Regions) (copied : Nat)

/-- The ring, the main thread, and the calls that took effect so far with their answers. -/
structure WriteSystem where
  ring : Ring
  pc : WritePc
  log : List (RingCall × Answer)

/-- The call of `fd_usbxch_write` with its test for free space, its next step, and an interrupt that
takes bytes from the ring. -/
inductive WriteStep
  | write (data : Payload)
  | next
  | consume (count : UInt16)

def WriteSystem.init (storage : Nat → UInt8) (capacity : UInt16) : WriteSystem :=
  ⟨Ring.init storage capacity, .outside, []⟩

/-- The element of the buffer to which the copies bring the `i`-th byte. -/
def slot (out : Regions) (i : Nat) : Nat :=
  if i < out.cont1.toNat then out.first.toNat + i
  else (out.second.getD 0).toNat + (i - out.cont1.toNat)

/-- The next step of `fd_usbxch_write`. Each reads the tail at most once. -/
def WriteSystem.next (s : WriteSystem) : Option WriteSystem :=
  match s.pc with
  | .outside => none
  | .compare data => some { s with
      pc := if s.ring.head ≥ s.ring.tail then .spaceBehind data else .spaceBefore data }
  | .spaceBehind data =>
    let space := s.ring.capacity - s.ring.head - (if s.ring.tail = 0 then 1 else 0)
    some { s with pc := .copy data (regions s.ring.head space data.count) 0 }
  | .spaceBefore data =>
    let space := s.ring.tail - s.ring.head - 1
    some { s with pc := .copy data (regions s.ring.head space data.count) 0 }
  | .copy data out copied =>
    match data.1[copied]? with
    | some byte => some { s with
        ring := { s.ring with buffer := Function.update s.ring.buffer (slot out copied) byte }
        pc := .copy data out (copied + 1) }
    | none => some {
        ring := s.ring.writeCommit data.count
        pc := .outside
        log := s.log ++ [(.write data.1 data.2, .refused 0)] }

/-- One step of the system. -/
def WriteSystem.step (s : WriteSystem) : WriteStep → Option WriteSystem
  | .write data =>
    match s.pc with
    | .outside =>
      if data.count > s.ring.free then
        some { s with log := s.log ++ [(.write data.1 data.2, .refused data.1.length)] }
      else some { s with pc := .compare data }
    | _ => none
  | .next => s.next
  | .consume count =>
    if count ≤ s.ring.size then
      some { s with
        ring := s.ring.readCommit count
        log := s.log ++ [(.read count, .bytes (s.ring.contents.take count.toNat))] }
    else none

/-- The next byte that is copied goes to an element of the buffer that holds no unread byte. -/
def WriteSystem.CopiesApart (s : WriteSystem) : Prop :=
  ∀ data out copied, s.pc = .copy data out copied → copied < data.1.length →
    slot out copied < s.ring.capacity.toNat ∧ ∀ offset < s.ring.size.toNat,
      slot out copied ≠ (s.ring.tail.toNat + offset) % s.ring.capacity.toNat

/-- **The ring is the bounded queue**: the calls that took effect, one after the other, leave the
queue with what the ring holds, and it answers as they were answered. -/
structure WriteSystem.Linearized (s : WriteSystem) : Prop where
  queue : run (queueStep s.ring.capacity.toNat) [] (s.log.map Prod.fst) =
    (s.ring.contents, s.log.map Prod.snd)
  apart : s.CopiesApart

/-! ### The copies, byte by byte -/

theorem Payload.count_toNat (data : Payload) : data.count.toNat = data.1.length :=
  length_toUInt16 data.2

section Copies

variable {r : Ring} {out : Regions} {data : List UInt8}

/-- The bytes go to the elements behind the head, around the end of the buffer. -/
theorem slot_eq {capacity start count : Nat} (splits : Splits capacity start count out)
    (inside : start < capacity) (fits : count ≤ capacity) {i : Nat} (less : i < count) :
    slot out i = (start + i) % capacity := by
  have first := splits.first
  have cont1 := splits.cont1
  have cont2 := splits.cont2
  unfold slot
  split
  case isTrue => rw [first, Nat.mod_eq_of_lt (by omega)]
  case isFalse behind =>
    rcases splits.second_cases with ⟨-, none_⟩ | ⟨second, -⟩
    · omega
    · rw [second, Nat.mod_eq_sub_mod (by omega), Nat.mod_eq_of_lt (by omega)]
      show 0 + (i - out.cont1.toNat) = _
      omega

/-- One more byte of the copies. -/
theorem copyIn_succ (splits : Splits r.capacity.toNat r.head.toNat data.length out) {i : Nat}
    (less : i < data.length) :
    (r.copyIn out (data.take (i + 1))).buffer =
      Function.update (r.copyIn out (data.take i)).buffer (slot out i) data[i] := by
  have cont1 := splits.cont1
  have cont2 := splits.cont2
  have more : data.take (i + 1) = data.take i ++ [data[i]] :=
    List.take_succ_eq_append_getElem less
  have length : (data.take i).length = i := by rw [List.length_take]; omega
  unfold slot
  split
  case isTrue front =>
    have whole : (data.take (i + 1)).take out.cont1.toNat = data.take i ++ [data[i]] := by
      rw [List.take_of_length_le (by rw [List.length_take]; omega), more]
    have before : (data.take i).take out.cont1.toNat = data.take i :=
      List.take_of_length_le (by omega)
    have none_ : ∀ j ≤ out.cont1.toNat, (data.take j).drop out.cont1.toNat = [] := fun j le =>
      List.drop_eq_nil_of_le (by rw [List.length_take]; omega)
    unfold Ring.copyIn
    rw [whole, before, none_ i (by omega), none_ (i + 1) (by omega), Circular.store_concat, length]
    cases out.second with
    | none => rfl
    | some second => simp only [List.take_nil, Circular.store_nil]
  case isFalse behind =>
    rcases splits.second_cases with ⟨-, none_⟩ | ⟨second, -⟩
    · omega
    · have first : (data.take (i + 1)).take out.cont1.toNat = (data.take i).take out.cont1.toNat := by
        rw [List.take_take, List.take_take, Nat.min_eq_left (by omega), Nat.min_eq_left (by omega)]
      have whole : ∀ j, j ≤ data.length → ((data.take j).drop out.cont1.toNat).take
          out.cont2.toNat = (data.take j).drop out.cont1.toNat := fun j le =>
        List.take_of_length_le (by rw [List.length_drop, List.length_take]; omega)
      have rest : (data.take (i + 1)).drop out.cont1.toNat =
          (data.take i).drop out.cont1.toNat ++ [data[i]] := by
        rw [more, List.drop_append_of_le_length (by omega)]
      simp only [Ring.copyIn, second, first, whole _ (show i ≤ data.length by omega),
        Option.getD_some]
      rw [whole _ (show i + 1 ≤ data.length by omega), rest, Circular.store_concat,
        List.length_drop, length]

end Copies

/-! ### What the locals tell -/

/-- What the locals of the call tell about the ring: the bytes fit from the first test on; a tail
that was behind the head stays there, and one that was before it was so by more than the bytes; and
from the copies on the regions split the room behind the head. -/
def WritePc.Sound (r : Ring) : WritePc → Prop
  | .outside => True
  | .compare data => data.1.length ≤ r.free.toNat
  | .spaceBehind data => data.1.length ≤ r.free.toNat ∧ r.tail.toNat ≤ r.head.toNat
  | .spaceBefore data =>
    data.1.length ≤ r.free.toNat ∧ r.head.toNat + data.1.length + 1 < r.capacity.toNat
  | .copy data out copied =>
    data.1.length ≤ r.free.toNat ∧ Splits r.capacity.toNat r.head.toNat data.1.length out ∧
      copied ≤ data.1.length ∧
      window r.buffer r.capacity.toNat r.head.toNat copied = data.1.take copied

/-- The invariant of the system. -/
structure WriteInvariant (s : WriteSystem) : Prop where
  valid : s.ring.Valid
  sound : s.pc.Sound s.ring
  queue : run (queueStep s.ring.capacity.toNat) [] (s.log.map Prod.fst) =
    (s.ring.contents, s.log.map Prod.snd)

section Sound

variable {r : Ring} {count : UInt16}

/-- Releasing bytes makes room. -/
theorem readCommit_free (valid : r.Valid) (within : count.toNat ≤ r.size.toNat) :
    (r.readCommit count).free.toNat = r.free.toNat + count.toNat := by
  have size := r.size_lt valid
  have valid' : (r.readCommit count).Valid := Fd.readCommit_valid valid (by omega)
  rw [Ring.free_toNat valid', Ring.free_toNat valid, Fd.readCommit_size valid within]
  show r.capacity.toNat - 1 - _ = _
  omega

/-- A tail behind the head does not overtake it. -/
theorem readCommit_behind (valid : r.Valid) (within : count.toNat ≤ r.size.toNat)
    (behind : r.tail.toNat ≤ r.head.toNat) :
    (r.readCommit count).tail.toNat ≤ (r.readCommit count).head.toNat := by
  have size := r.size_toNat valid
  have head := valid.head
  rw [if_pos behind] at size
  have advanced : (r.readCommit count).tail.toNat = _ :=
    Fd.advance_cases valid.tail (show count.toNat ≤ _ by omega)
  rw [advanced, if_pos (by omega)]
  show _ ≤ r.head.toNat
  omega

/-- Committing appends what is behind the head. -/
theorem writeCommit_contents (valid : r.Valid) (room : count.toNat ≤ r.free.toNat) :
    (r.writeCommit count).contents =
      r.contents ++ window r.buffer r.capacity.toNat r.head.toNat count.toNat := by
  have free := r.free_toNat valid
  have size := r.size_lt valid
  rw [Ring.contents, Fd.writeCommit_size valid (by omega), Circular.window_add, r.head_eq valid,
    Circular.window_mod]
  rfl

/-- **The interrupt** keeps what the main thread knows. -/
theorem WritePc.Sound.consumed {pc : WritePc} (sound : pc.Sound r) (valid : r.Valid)
    (within : count.toNat ≤ r.size.toNat) : pc.Sound (r.readCommit count) := by
  have free := readCommit_free valid within
  cases pc with
  | outside => trivial
  | compare data =>
    show _ ≤ _
    rw [free]
    exact Nat.le_add_right_of_le sound
  | spaceBehind data =>
    refine ⟨?_, readCommit_behind valid within sound.2⟩
    rw [free]
    exact Nat.le_add_right_of_le sound.1
  | spaceBefore data =>
    refine ⟨?_, sound.2⟩
    rw [free]
    exact Nat.le_add_right_of_le sound.1
  | copy data out copied =>
    refine ⟨?_, sound.2⟩
    rw [free]
    exact Nat.le_add_right_of_le sound.1

/-- The space behind the head of a ring whose tail is not before it. -/
theorem spaceBehind_splits (valid : r.Valid) {data : Payload}
    (sound : (WritePc.spaceBehind data).Sound r) :
    Splits r.capacity.toNat r.head.toNat data.1.length
      (regions r.head (r.capacity - r.head - (if r.tail = 0 then 1 else 0)) data.count) := by
  obtain ⟨fits, behind⟩ := sound
  rw [← data.count_toNat] at fits ⊢
  obtain ⟨out, reserved, splits⟩ := Fd.writeReserve_eq valid _ fits
  rw [Ring.writeReserve, if_neg (fun more => absurd (UInt16.lt_iff_toNat_lt.mp more)
    (Nat.not_lt.mpr fits)), if_pos (UInt16.le_iff_toNat_le.mpr behind)] at reserved
  exact (Option.some.inj reserved).symm ▸ splits

/-- **The space between the head and the tail**, whether or not the tail has wrapped since it was
seen before the head: if it has, the difference has no meaning, but is large enough. -/
theorem spaceBefore_splits (valid : r.Valid) {data : Payload}
    (sound : (WritePc.spaceBefore data).Sound r) :
    Splits r.capacity.toNat r.head.toNat data.1.length
      (regions r.head (r.tail - r.head - 1) data.count) := by
  obtain ⟨fits, apart⟩ := sound
  have free := r.free_toNat valid
  have size := r.size_toNat valid
  have tail := valid.tail
  have small := r.capacity.toNat_lt
  rw [← data.count_toNat] at fits apart ⊢
  refine Fd.regions_splits ?_
  have enough : data.count.toNat ≤ (r.tail - r.head - 1).toNat := by
    have one : (1 : UInt16).toNat = 1 := rfl
    rw [UInt16.toNat_sub, UInt16.toNat_sub, one]
    split at size <;> omega
  omega

/-- The slot of the next byte. -/
theorem copy_slot (valid : r.Valid) {data : Payload} {out : Regions} {copied : Nat}
    (sound : (WritePc.copy data out copied).Sound r) (less : copied < data.1.length) :
    slot out copied = (r.tail.toNat + (r.size.toNat + copied)) % r.capacity.toNat := by
  have free := r.free_toNat valid
  rw [slot_eq sound.2.1 valid.head (by have := sound.1; omega) less, r.head_eq valid,
    Nat.mod_add_mod, Nat.add_assoc]

end Sound

/-! ### The steps -/

section Steps

variable {s after : WriteSystem}

/-- A call that takes effect. -/
theorem logged {capacity : Nat} {log : List (RingCall × Answer)} {contents later : List UInt8}
    {call : RingCall} {answer : Answer}
    (queue : run (queueStep capacity) [] (log.map Prod.fst) = (contents, log.map Prod.snd))
    (step : queueStep capacity contents call = (later, [answer])) :
    run (queueStep capacity) [] ((log ++ [(call, answer)]).map Prod.fst) =
      (later, (log ++ [(call, answer)]).map Prod.snd) := by
  rw [List.map_append, List.map_append, EventMachine.run_append, queue]
  show ((run _ contents [call]).1, _ ++ (run _ contents [call]).2) = _
  rw [EventMachine.run_singleton, step]
  rfl

theorem WriteInvariant.consume (holds : WriteInvariant s) {count : UInt16}
    (within : count.toNat ≤ s.ring.size.toNat) :
    WriteInvariant { s with
      ring := s.ring.readCommit count
      log := s.log ++ [(.read count, .bytes (s.ring.contents.take count.toNat))] } := by
  have size := s.ring.size_lt holds.valid
  refine ⟨Fd.readCommit_valid holds.valid (by omega), holds.sound.consumed holds.valid within, ?_⟩
  refine logged holds.queue ?_
  rw [Fd.readCommit_contents holds.valid within, queueStep, Ring.contents_length,
    Nat.min_eq_left within]

/-- A byte is copied. -/
theorem WriteInvariant.copyByte (holds : WriteInvariant s) {data : Payload} {out : Regions}
    {copied : Nat} (pc : s.pc = .copy data out copied) (less : copied < data.1.length) :
    WriteInvariant { s with
      ring := { s.ring with
        buffer := Function.update s.ring.buffer (slot out copied) data.1[copied] }
      pc := .copy data out (copied + 1) } := by
  have sound := holds.sound
  rw [pc] at sound
  have free := s.ring.free_toNat holds.valid
  have place := copy_slot holds.valid sound less
  obtain ⟨fits, splits, -, copies⟩ := sound
  have size := s.ring.size_lt holds.valid
  refine ⟨⟨holds.valid.head, holds.valid.tail⟩, ⟨fits, splits, less, ?_⟩, ?_⟩
  · show window (Function.update _ _ _) s.ring.capacity.toNat s.ring.head.toNat _ = _
    rw [slot_eq splits holds.valid.head (by omega) less, Circular.window_push (by omega), copies,
      List.take_succ_eq_append_getElem less]
  · show _ = (window (Function.update _ _ _) s.ring.capacity.toNat s.ring.tail.toNat
      s.ring.size.toNat, _)
    rw [place, Circular.window_update (Nat.le_add_right _ _) (by omega)]
    exact holds.queue

/-- The bytes are committed: the write takes effect. -/
theorem WriteInvariant.commit (holds : WriteInvariant s) {data : Payload} {out : Regions}
    {copied : Nat} (pc : s.pc = .copy data out copied) (all : data.1.length ≤ copied) :
    WriteInvariant {
      ring := s.ring.writeCommit data.count
      pc := .outside
      log := s.log ++ [(.write data.1 data.2, .refused 0)] } := by
  have sound := holds.sound
  rw [pc] at sound
  obtain ⟨fits, -, within, copies⟩ := sound
  obtain rfl : copied = data.1.length := Nat.le_antisymm within all
  have count := data.count_toNat
  have free := s.ring.free_toNat holds.valid
  have size := s.ring.size_lt holds.valid
  refine ⟨Fd.writeCommit_valid holds.valid (by omega), trivial, ?_⟩
  refine logged holds.queue ?_
  have room : data.1.length ≤ s.ring.capacity.toNat - 1 - s.ring.contents.length := by
    rw [Ring.contents_length]
    omega
  have contents : (s.ring.writeCommit data.count).contents = s.ring.contents ++ data.1 := by
    rw [writeCommit_contents holds.valid (by omega), count, copies, List.take_length]
  show queueStep s.ring.capacity.toNat _ _ = _
  rw [queueStep, if_pos room, contents]

/-- **Every step of the call** keeps the invariant. -/
theorem WriteInvariant.next (holds : WriteInvariant s) (taken : s.next = some after) :
    WriteInvariant after := by
  have sound := holds.sound
  have free := s.ring.free_toNat holds.valid
  have size := s.ring.size_toNat holds.valid
  have tail := holds.valid.tail
  rw [WriteSystem.next] at taken
  cases pc : s.pc with
  | outside =>
    rw [pc] at taken
    cases taken
  | compare data =>
    rw [pc] at taken sound
    obtain rfl := Option.some.inj taken
    refine ⟨holds.valid, ?_, holds.queue⟩
    show WritePc.Sound s.ring (if _ then _ else _)
    split
    case isTrue behind => exact ⟨sound, UInt16.le_iff_toNat_le.mp behind⟩
    case isFalse before =>
      have apart : ¬ s.ring.tail.toNat ≤ s.ring.head.toNat := fun le =>
        before (UInt16.le_iff_toNat_le.mpr le)
      have fits : data.1.length ≤ s.ring.free.toNat := sound
      rw [if_neg apart] at size
      exact ⟨sound, by omega⟩
  | spaceBehind data =>
    rw [pc] at taken sound
    obtain rfl := Option.some.inj taken
    exact ⟨holds.valid, ⟨sound.1, spaceBehind_splits holds.valid sound, Nat.zero_le _, rfl⟩,
      holds.queue⟩
  | spaceBefore data =>
    rw [pc] at taken sound
    obtain rfl := Option.some.inj taken
    exact ⟨holds.valid, ⟨sound.1, spaceBefore_splits holds.valid sound, Nat.zero_le _, rfl⟩,
      holds.queue⟩
  | copy data out copied =>
    rw [pc] at taken
    rcases Nat.lt_or_ge copied data.1.length with less | all
    · simp only [List.getElem?_eq_getElem less] at taken
      obtain rfl := Option.some.inj taken
      exact holds.copyByte pc less
    · simp only [List.getElem?_eq_none all] at taken
      obtain rfl := Option.some.inj taken
      exact holds.commit pc all

/-- **Every step** keeps the invariant. -/
theorem WriteInvariant.step (holds : WriteInvariant s) {label : WriteStep}
    (taken : s.step label = some after) : WriteInvariant after := by
  cases label with
  | next => exact holds.next taken
  | consume count =>
    rw [WriteSystem.step] at taken
    split at taken
    case isTrue within =>
      obtain rfl := Option.some.inj taken
      exact holds.consume (UInt16.le_iff_toNat_le.mp within)
    case isFalse => cases taken
  | write data =>
    simp only [WriteSystem.step] at taken
    split at taken
    · have free := s.ring.free_toNat holds.valid
      have count := data.count_toNat
      split at taken
      case isTrue more =>
        obtain rfl := Option.some.inj taken
        refine ⟨holds.valid, holds.sound, logged holds.queue ?_⟩
        have less := UInt16.lt_iff_toNat_lt.mp more
        have refused : ¬ data.1.length ≤ s.ring.capacity.toNat - 1 - s.ring.contents.length := by
          rw [Ring.contents_length]
          omega
        exact if_neg refused
      case isFalse fits =>
        obtain rfl := Option.some.inj taken
        have le := UInt16.le_iff_toNat_le.mp (UInt16.not_lt.mp fits)
        have sound : data.1.length ≤ s.ring.free.toNat := by omega
        exact ⟨holds.valid, sound, holds.queue⟩
    · cases taken

/-- **In the states of the invariant** the ring is the bounded queue. -/
theorem WriteInvariant.linearized (holds : WriteInvariant s) : s.Linearized := by
  refine ⟨holds.queue, ?_⟩
  intro data out copied pc less
  have sound := holds.sound
  rw [pc] at sound
  have place := copy_slot holds.valid sound less
  have free := s.ring.free_toNat holds.valid
  have size := s.ring.size_lt holds.valid
  have fits : data.1.length ≤ s.ring.free.toNat := sound.1
  rw [place]
  refine ⟨Nat.mod_lt _ (by omega), fun offset inside => ?_⟩
  exact Circular.index_ne (by omega) (by omega) (by omega)

end Steps

/-! ### The runs -/

/-- **A write preempted anywhere is a write to the bounded queue**: for every capacity, all calls with
fewer than 65536 bytes, and interrupts that take any bytes between any two accesses of the main
thread, each call takes effect at one of its steps, and no byte is copied to the slot of an unread
one. -/
theorem preempted_write_linearizes (storage : Nat → UInt8) {capacity : UInt16}
    (positive : 1 ≤ capacity) (steps : List WriteStep) :
    Throughout WriteSystem.step WriteSystem.Linearized (WriteSystem.init storage capacity)
      steps := by
  have start : WriteInvariant (WriteSystem.init storage capacity) :=
    ⟨Ring.init_valid storage (UInt16.lt_of_lt_of_le (by decide) positive), trivial,
      Prod.ext (Ring.init_contents storage capacity).symm rfl⟩
  have always : LabelledSystem.Meets WriteSystem.step (fun _ _ => True)
      (WriteSystem.init storage capacity) steps :=
    LabelledSystem.meets_of_forall (fun _ _ => trivial) _ steps
  have invariant := LabelledSystem.throughout_of_meets WriteInvariant
    (fun _ _ _ holds _ taken => holds.step taken) start always
  exact fun before after split reached run => (invariant before after split reached run).linearized

/-- Four elements. The head has wrapped and the tail has not when they are compared; the interrupt
takes both bytes before the subtraction, which finds the tail at the head. -/
theorem preempted_write_linearizes_four :
    (1 : UInt16) ≤ 4 ∧ Throughout WriteSystem.step WriteSystem.Linearized
      (WriteSystem.init (fun _ => 0) 4)
      [.write ⟨[1, 2, 3], by decide⟩, .next, .next, .next, .next, .next, .next, .consume 2,
        .write ⟨[4], by decide⟩, .next, .next, .next, .next,
        .write ⟨[5], by decide⟩, .next, .consume 2, .next, .next, .next] :=
  ⟨by decide, preempted_write_linearizes (fun _ => 0) (by decide) _⟩

/-! ### Without interruption -/

/-- The copies write the buffer only. -/
theorem copyIn_eq (r : Ring) (out : Regions) (data : List UInt8) :
    { r with buffer := (r.copyIn out data).buffer } = r.copyIn out data := by
  unfold Ring.copyIn
  cases out.second <;> rfl

/-- The steps of the copies. -/
theorem copy_steps {r : Ring} {data : Payload} {out : Regions}
    (splits : Splits r.capacity.toNat r.head.toNat data.1.length out)
    (log : List (RingCall × Answer)) {count : Nat} (within : count ≤ data.1.length) :
    exec WriteSystem.step ⟨r, .copy data out 0, log⟩ (List.replicate count .next) =
      some ⟨r.copyIn out (data.1.take count), .copy data out count, log⟩ := by
  induction count with
  | zero =>
    have none_ : r.copyIn out (data.1.take 0) = r := by
      unfold Ring.copyIn
      cases out.second <;> simp [Circular.store_nil]
    rw [none_]
    rfl
  | succ count ih =>
    rw [List.replicate_succ', LabelledSystem.exec_append _ (ih (by omega)),
      LabelledSystem.exec_cons]
    simp only [WriteSystem.step, WriteSystem.next, List.getElem?_eq_getElem within,
      LabelledSystem.exec_nil, Option.bind_some]
    obtain ⟨capacity, head, tail⟩ := Fd.copyIn_indices r out (data.1.take count)
    rw [← copyIn_succ splits within, ← copyIn_eq r out (data.1.take (count + 1)), capacity, head,
      tail]

/-- The reservation takes two steps. -/
theorem reserve_write_steps {r : Ring} (log : List (RingCall × Answer)) {data : Payload}
    {out : Regions} (test : ¬ data.count > r.free) (reserved : r.writeReserve data.count = some out) :
    exec WriteSystem.step ⟨r, .outside, log⟩ [.write data, .next, .next] =
      some ⟨r, .copy data out 0, log⟩ := by
  rw [Ring.writeReserve, if_neg test] at reserved
  simp only [LabelledSystem.exec_cons, WriteSystem.step, WriteSystem.next, if_neg test,
    Option.bind_some, LabelledSystem.exec_nil]
  by_cases behind : r.head ≥ r.tail
  · rw [if_pos behind] at reserved ⊢
    exact Option.some.inj reserved ▸ rfl
  · rw [if_neg behind] at reserved ⊢
    exact Option.some.inj reserved ▸ rfl

/-- **The steps of the call, taken without interruption, are `fd_usbxch_write`.** -/
theorem write_steps {r : Ring} (valid : r.Valid) (log : List (RingCall × Answer))
    (data : Payload) :
    ∃ count, exec WriteSystem.step ⟨r, .outside, log⟩
        (.write data :: List.replicate count .next) = some {
      ring := ((onRing r).write data.1).1.tx
      pc := .outside
      log := log ++ [(.write data.1 data.2, .refused ((onRing r).write data.1).2.toNat)] } := by
  have count := data.count_toNat
  rcases Nat.lt_or_ge r.free.toNat data.1.length with more | fits
  · have refused := write_refused_eq (h := onRing r) data.2 more
    have test : data.count > r.free := UInt16.lt_iff_toNat_lt.mpr (by omega)
    refine ⟨0, ?_⟩
    rw [refused, UInt32.toNat_ofNat_of_lt' (show data.1.length < 2 ^ 32 by have := data.2; omega)]
    simp only [List.replicate_zero, LabelledSystem.exec_cons, WriteSystem.step, if_pos test,
      LabelledSystem.exec_nil, Option.bind_some]
    rfl
  · obtain ⟨out, reserved, splits⟩ := Fd.writeReserve_eq valid data.count (by omega)
    have written : (onRing r).write data.1 =
        ({ onRing r with tx := (r.copyIn out data.1).writeCommit data.count }, 0) := by
      have reserved : (onRing r).tx.writeReserve (UInt32.ofNat data.1.length).toUInt16 = some out :=
        reserved
      simp only [Exchange.write, reserved]
      rfl
    have test : ¬ data.count > r.free := fun more =>
      absurd (UInt16.lt_iff_toNat_lt.mp more) (Nat.not_lt.mpr (by omega))
    rw [count] at splits
    have reservation := reserve_write_steps log test reserved
    have parts : WriteStep.write data :: List.replicate (2 + (data.1.length + 1)) .next =
        [.write data, .next, .next] ++ (List.replicate data.1.length .next ++ [.next]) := by
      rw [List.replicate_add, ← List.replicate_succ']
      rfl
    refine ⟨2 + (data.1.length + 1), ?_⟩
    rw [parts, LabelledSystem.exec_append _ reservation,
      LabelledSystem.exec_append _ (copy_steps splits log le_rfl), LabelledSystem.exec_cons]
    simp only [WriteSystem.step, WriteSystem.next, List.getElem?_eq_none le_rfl,
      List.take_length, Option.bind_some, LabelledSystem.exec_nil]
    rw [written]
    rfl

end ForgeDrive.Usb
