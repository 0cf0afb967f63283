/-
**The ring of the driver is a bounded queue of bytes.**

The abstract queue (`Queue`) is the list of the bytes written and not yet read, at most
`capacity - 1` of them. On one ring, `fd_usbxch_write` and `fd_usbxch_read` reserve, copy both
regions and commit; `step_simulates`: each of them does to the contents what the queue does, answers
what the queue answers, and touches elements inside the buffer only.

`ring_refines_queue` is the run: for every capacity and every sequence of calls the ring and the
queue give the same answers, and `fd_ring_size` and `fd_ring_free` report the queue's size and room.
-/

import ForgeDrive.Library.EventMachine
import ForgeDrive.Usb.RxStorage

namespace ForgeDrive.Usb

open Circular (segment store)
open Fd (Ring Regions Splits)
open EventMachine (run Along)

/-! ### The queue -/

/-- A call on the ring, of a length below `65536`. -/
inductive RingCall
  | write (data : List UInt8) (short : data.length < 65536)
  | read (length : UInt16)

/-- What a call returns: a write the number of bytes refused, a read the bytes. -/
inductive Answer
  | refused (length : Nat)
  | bytes (taken : List UInt8)
  deriving DecidableEq, Repr

/-- A call on a queue of at most `capacity - 1` bytes. -/
def queueStep (capacity : Nat) (queue : List UInt8) : RingCall → List UInt8 × List Answer
  | .write data _ =>
    if data.length ≤ capacity - 1 - queue.length then (queue ++ data, [.refused 0])
    else (queue, [.refused data.length])
  | .read length =>
    (queue.drop (min length.toNat queue.length),
      [.bytes (queue.take (min length.toNat queue.length))])

/-! ### The ring -/

/-- The driver on this ring, whichever way its bytes go. -/
def onRing (r : Ring) : Exchange := ⟨0, r, 0, r, 0, 0⟩

/-- A call on one ring: `fd_usbxch_write`, or `fd_usbxch_read`. -/
def ringStep (r : Ring) : RingCall → Ring × List Answer
  | .write data _ =>
    let written := (onRing r).write data
    (written.1.tx, [.refused written.2.toNat])
  | .read length =>
    let taken := (onRing r).read length.toUInt32
    (taken.1.rx, [.bytes taken.2])

/-- The elements of the buffer that the copies of a write touch. -/
def writeAccesses (out : Regions) : List Nat :=
  List.range' out.first.toNat out.cont1.toNat ++
    match out.second with
    | some second => List.range' second.toNat out.cont2.toNat
    | none => []

/-- The elements of the buffer that the copies of a read touch. -/
def readAccesses (out : Regions) (length : Nat) : List Nat :=
  let first := copyFromFirst out length
  List.range' out.first.toNat first ++
    match out.second with
    | some second =>
      if first < length then
        List.range' second.toNat (min ((length - first) % 65536) out.cont2.toNat)
      else []
    | none => []

/-- The elements of the buffer that a call touches. -/
def ringAccesses (r : Ring) : RingCall → List Nat
  | .write data _ =>
    match r.writeReserve (UInt32.ofNat data.length).toUInt16 with
    | some out => writeAccesses out
    | none => []
  | .read length =>
    match r.readReserve with
    | some out => readAccesses out length.toNat
    | none => []

/-- A call touches the buffer inside. -/
def AccessesInside (r : Ring) (call : RingCall) : Prop :=
  ∀ index ∈ ringAccesses r call, index < r.capacity.toNat

/-! ### The copies touch these elements -/

theorem segment_eq_range' (buffer : Nat → UInt8) (start count : Nat) :
    segment buffer start count = (List.range' start count).map buffer := by
  rw [List.range'_eq_map_range, List.map_map]
  rfl

/-- The bytes a read returns are those at the elements it touches. -/
theorem copyOut_eq_map (h : Exchange) (out : Regions) (length : Nat) :
    h.copyOut out length = (readAccesses out length).map h.rx.buffer := by
  simp only [Exchange.copyOut, readAccesses, List.map_append, segment_eq_range']
  refine congrArg _ ?_
  cases out.second with
  | none => rfl
  | some second =>
    show (if _ then _ else _) = List.map _ (if _ then _ else _)
    split <;> rfl

/-- A write changes no element that it does not touch. -/
theorem copyIn_untouched (r : Ring) {out : Regions} {data : List UInt8} {i : Nat}
    (untouched : i ∉ writeAccesses out) : (r.copyIn out data).buffer i = r.buffer i := by
  have outside : ∀ (buffer : Nat → UInt8) (start count : Nat) (bytes : List UInt8),
      bytes.length ≤ count → i ∉ List.range' start count →
        store buffer start bytes i = buffer i := by
    intro buffer start count bytes le notMem
    rw [List.mem_range'_1] at notMem
    exact Circular.store_apply_of_outside (by omega)
  unfold writeAccesses at untouched
  rw [List.mem_append, not_or] at untouched
  unfold Ring.copyIn
  cases second : out.second with
  | none => exact outside _ _ _ _ (List.length_take_le _ _) untouched.1
  | some start =>
    rw [second] at untouched
    exact (outside _ _ _ _ (List.length_take_le _ _) untouched.2).trans
      (outside _ _ _ _ (List.length_take_le _ _) untouched.1)

/-- Two regions that split a part of the ring are inside the buffer. -/
theorem writeAccesses_inside {capacity start count : Nat} {out : Regions}
    (splits : Splits capacity start count out) (inside : start < capacity)
    (fits : count ≤ capacity) : ∀ index ∈ writeAccesses out, index < capacity := by
  have first := splits.first
  have cont1 := splits.cont1
  have cont2 := splits.cont2
  intro index member
  rcases List.mem_append.mp member with inFirst | inSecond
  · rw [List.mem_range'_1] at inFirst
    omega
  · rcases splits.second_cases with ⟨second, -⟩ | ⟨second, -⟩
    · rw [second] at inSecond
      cases inSecond
    · rw [second, List.mem_range'_1] at inSecond
      have zero : (0 : UInt16).toNat = 0 := rfl
      omega

/-- A read touches no more than the regions it has reserved. -/
theorem readAccesses_subset (out : Regions) (length : Nat) :
    ∀ index ∈ readAccesses out length, index ∈ writeAccesses out := by
  intro index member
  unfold readAccesses at member
  unfold writeAccesses
  have first : copyFromFirst out length ≤ out.cont1.toNat := Nat.min_le_right _ _
  rcases List.mem_append.mp member with inFirst | inSecond
  · rw [List.mem_range'_1] at inFirst
    exact List.mem_append_left _ (List.mem_range'_1.mpr (by omega))
  · refine List.mem_append_right _ ?_
    cases second : out.second with
    | none =>
      rw [second] at inSecond
      cases inSecond
    | some start =>
      simp only [second] at inSecond ⊢
      split at inSecond
      · have part := Nat.min_le_right ((length - copyFromFirst out length) % 65536) out.cont2.toNat
        rw [List.mem_range'_1] at inSecond ⊢
        omega
      · cases inSecond

/-! ### One call -/

/-- A read of a length that fits 16 bits touches as many elements as it is long, or all. -/
theorem readAccesses_length {capacity start count : Nat} {out : Regions}
    (splits : Splits capacity start count out) {length : Nat} (short : length < 65536) :
    (readAccesses out length).length = min length count := by
  have cont1 := splits.cont1
  have cont2 := splits.cont2
  have first : copyFromFirst out length = min length out.cont1.toNat := by
    rw [copyFromFirst, Nat.mod_eq_of_lt (by omega)]
    omega
  simp only [readAccesses, List.length_append, List.length_range', first]
  rcases splits.second_cases with ⟨second, none_⟩ | ⟨second, -⟩
  · rw [second, List.length_nil]
    omega
  · simp only [second]
    split
    · rw [List.length_range', Nat.mod_eq_of_lt (by omega)]
      omega
    · rw [List.length_nil]
      omega

/-- **A read** returns the first bytes, as many as asked for if there are so many, and removes
them. -/
theorem read_exact {h : Exchange} (valid : h.rx.Valid) {length : UInt32}
    (short : length.toNat < 65536) :
    (h.read length).2 = h.rx.contents.take (min length.toNat h.rx.size.toNat) ∧
      (h.read length).1.rx.Valid ∧ (h.read length).1.rx.capacity = h.rx.capacity ∧
      (h.read length).1.rx.contents = h.rx.contents.drop (min length.toNat h.rx.size.toNat) := by
  obtain ⟨count, within, after, taken⟩ := read_eq h valid length
  have size := h.rx.size_lt valid
  have counted : count.toNat = min length.toNat h.rx.size.toNat := by
    have lengths := congrArg List.length taken
    rw [List.length_take, Ring.contents_length, Nat.min_eq_left within] at lengths
    rw [← lengths]
    rcases Nat.eq_zero_or_pos h.rx.size.toNat with empty | some_
    · simp only [Exchange.read, Fd.readReserve_none empty, List.length_nil]
      omega
    · obtain ⟨out, reserved, splits⟩ := Fd.readReserve_eq valid (Nat.ne_of_gt some_)
      simp only [Exchange.read, reserved]
      rw [copyOut_eq_map, List.length_map, readAccesses_length splits short]
  rw [after, taken, ← counted]
  exact ⟨rfl, Fd.readCommit_valid valid (by omega), rfl, Fd.readCommit_contents valid within⟩

section Simulation

variable {r : Ring}

/-- Every element that a call touches is inside the buffer. -/
theorem accesses_inside (valid : r.Valid) (call : RingCall) : AccessesInside r call := by
  have size := r.size_lt valid
  cases call with
  | write data short =>
    rcases Nat.lt_or_ge r.free.toNat data.length with more | fits
    · have refused := Fd.writeReserve_none (r := r) ((length_toUInt16 short).symm ▸ more)
      simp only [AccessesInside, ringAccesses, refused]
      exact List.forall_mem_nil _
    · have free := r.free_toNat valid
      obtain ⟨out, reserved, splits⟩ := Fd.writeReserve_eq valid _
        ((length_toUInt16 short).le.trans fits)
      rw [length_toUInt16 short] at splits
      simp only [AccessesInside, ringAccesses, reserved]
      exact writeAccesses_inside splits valid.head (by omega)
  | read length =>
    rcases Nat.eq_zero_or_pos r.size.toNat with empty | some_
    · simp only [AccessesInside, ringAccesses, Fd.readReserve_none empty]
      exact List.forall_mem_nil _
    · obtain ⟨out, reserved, splits⟩ := Fd.readReserve_eq valid (Nat.ne_of_gt some_)
      simp only [AccessesInside, ringAccesses, reserved]
      exact fun index member => writeAccesses_inside splits valid.tail size.le index
        (readAccesses_subset out _ index member)

/-- **One call** on a valid ring leaves it valid, does to its contents what it does to the queue,
and is answered as the queue answers. -/
theorem step_simulates (valid : r.Valid) (call : RingCall) :
    (ringStep r call).1.Valid ∧ (ringStep r call).1.capacity = r.capacity ∧
      (ringStep r call).1.contents = (queueStep r.capacity.toNat r.contents call).1 ∧
      (ringStep r call).2 = (queueStep r.capacity.toNat r.contents call).2 := by
  have free := r.free_toNat valid
  have length := r.contents_length
  cases call with
  | write data short =>
    by_cases fits : data.length ≤ r.capacity.toNat - 1 - r.contents.length
    · obtain ⟨accepted, tx, after, validAfter, capacity, contents⟩ :=
        write_fits (h := onRing r) valid (show data.length ≤ r.free.toNat by omega)
      simp only [ringStep, queueStep, if_pos fits, accepted, after]
      exact ⟨validAfter, capacity, contents, rfl⟩
    · have refused := write_refused_eq (h := onRing r) short (show r.free.toNat < _ by omega)
      simp only [ringStep, queueStep, if_neg fits, refused]
      refine ⟨valid, rfl, rfl, ?_⟩
      rw [UInt32.toNat_ofNat_of_lt' (show data.length < 2 ^ 32 by omega)]
  | read length =>
    obtain ⟨taken, validAfter, capacity, contents⟩ :=
      read_exact (h := onRing r) valid (show length.toUInt32.toNat < 65536 by
        rw [UInt16.toNat_toUInt32]; exact length.toNat_lt)
    rw [UInt16.toNat_toUInt32] at taken contents
    simp only [ringStep, queueStep, Ring.contents_length, taken]
    exact ⟨validAfter, capacity, contents, rfl⟩

end Simulation

/-! ### Every sequence of calls -/

/-- **The ring is a bounded queue of bytes** through these calls: the answers are those of the queue
(`answers`); before, between and after the calls the ring holds the bytes of the queue and reports
its size and its room (`reports`); a write that is refused changes nothing (`refused`); and no call
touches anything outside the buffer (`inside`). -/
structure RefinesQueue (r : Ring) (calls : List RingCall) : Prop where
  answers : (run ringStep r calls).2 = (run (queueStep r.capacity.toNat) [] calls).2
  reports : ∀ before, before <+: calls →
    (run ringStep r before).1.contents = (run (queueStep r.capacity.toNat) [] before).1 ∧
    (run ringStep r before).1.size.toNat =
      (run (queueStep r.capacity.toNat) [] before).1.length ∧
    (run ringStep r before).1.free.toNat =
      r.capacity.toNat - 1 - (run (queueStep r.capacity.toNat) [] before).1.length
  refused : Along ringStep (fun r call => ∀ data short, call = .write data short →
    r.free.toNat < data.length → (ringStep r call).1 = r) r calls
  inside : Along ringStep AccessesInside r calls

/-- **For every capacity and every sequence of calls the ring is a bounded queue of bytes.** -/
theorem ring_refines_queue (storage : Nat → UInt8) {capacity : UInt16} (positive : 1 ≤ capacity)
    (calls : List RingCall) : RefinesQueue (Ring.init storage capacity) calls := by
  let Simulates (r : Ring) (queue : List UInt8) : Prop :=
    r.Valid ∧ r.capacity = capacity ∧ r.contents = queue
  have start : Simulates (Ring.init storage capacity) [] :=
    ⟨Ring.init_valid storage (UInt16.lt_of_lt_of_le (by decide) positive), rfl,
      Ring.init_contents storage capacity⟩
  have step : ∀ r queue call, Simulates r queue →
      (ringStep r call).2 = (queueStep capacity.toNat queue call).2 ∧
        Simulates (ringStep r call).1 (queueStep capacity.toNat queue call).1 := by
    rintro r _ call ⟨valid, rfl, rfl⟩
    obtain ⟨validAfter, same, contents, answers⟩ := step_simulates valid call
    exact ⟨answers, validAfter, same, contents⟩
  have validStep : ∀ r call, r.Valid → (ringStep r call).1.Valid := fun r call valid =>
    (step_simulates valid call).1
  refine ⟨EventMachine.run_same ringStep _ Simulates step start calls, fun before _ => ?_, ?_, ?_⟩
  · obtain ⟨valid, same, contents⟩ := EventMachine.run_related ringStep
      (queueStep capacity.toNat) Simulates (fun r queue call holds => (step r queue call holds).2)
      start before
    have size := Ring.contents_length (run ringStep (Ring.init storage capacity) before).1
    have free := Ring.free_toNat valid
    rw [contents] at size
    rw [← size, same] at free
    exact ⟨contents, size.symm, free⟩
  · refine EventMachine.along_of_forall ringStep (fun r call data short same more => ?_) _ calls
    rw [same, ringStep, write_refused_eq (h := onRing r) short more]
    rfl
  · exact EventMachine.along_of_invariant ringStep Ring.Valid validStep
      (fun r call valid => accesses_inside valid call) start.1 calls

/-- Four elements: two bytes are written, one is read, and a write of three is refused. -/
theorem ring_refines_queue_four :
    (1 : UInt16) ≤ 4 ∧ RefinesQueue (Ring.init (fun _ => 0) 4)
      [.write [1, 2] (by decide), .read 1, .write [3, 4, 5] (by decide)] :=
  ⟨by decide, ring_refines_queue (fun _ => 0) (by decide) _⟩

end ForgeDrive.Usb
