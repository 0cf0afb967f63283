/-
**The receive storage that is armed for the host.**

The OUT endpoint is armed with the free region at the head of the receive ring, but is programmed in
whole packets of 64 bytes, so the host may deliver more than was armed.

* `RxInvariant` — as long as every delivery stays within the armed region, the region is free and
  contiguous at the head, and all bytes delivered were returned or are in the ring;
* `rxStorage_safe_iff` — and then the next delivery is safe, whatever the host sends, if and only if
  the armed region is a non-zero multiple of 64 bytes.
-/

import ForgeDrive.Library.LabelledSystem
import ForgeDrive.Usb.Exchange

namespace ForgeDrive.Usb

open Circular (segment store)
open Fd (Ring Regions Splits)
open LabelledSystem (exec Meets)

/-! ### The system -/

/-- `XCH_OUT_MPS`, the packet size of the OUT endpoint. -/
def packetSize : Nat := 64

/-- What the core may deliver after `PrepareReceive` with `length` bytes: `USB_EPStartXfer` programs
the endpoint with one packet for an empty transfer, else with as many as the length takes. -/
def deliverable (length : Nat) : Nat :=
  if length = 0 then packetSize else packetSize * ((length + packetSize - 1) / packetSize)

/-- The driver, and all bytes delivered by the host and returned by `fd_usbxch_read` so far. -/
structure RxSystem where
  link : Exchange
  delivered : List UInt8
  returned : List UInt8

inductive RxStep
  | read (length : UInt32)
  | dataOut (bytes : List UInt8)
  deriving DecidableEq, Repr

/-- `USBD_XCH_Init`: the endpoint is armed. -/
def RxSystem.init (txStorage rxStorage : Nat → UInt8) (txSize rxSize : UInt16) : RxSystem where
  link := (Exchange.init txStorage rxStorage txSize rxSize).getRxStorage
  delivered := []
  returned := []

/-- The core has written `bytes` to the armed pointer. -/
def Exchange.receive (h : Exchange) (bytes : List UInt8) : Exchange :=
  { h with rx := { h.rx with buffer := store h.rx.buffer h.r1.toNat bytes } }

/-- `USBD_XCH_DataOut`: the bytes are committed, and the endpoint is armed again. -/
def Exchange.dataOut (h : Exchange) (bytes : List UInt8) : Exchange :=
  ((h.receive bytes).rxComplete (UInt32.ofNat bytes.length).toUInt16).getRxStorage

/-- One step of the system. -/
def RxSystem.step (s : RxSystem) : RxStep → Option RxSystem
  | .read length => some { s with
      link := (s.link.read length).1, returned := s.returned ++ (s.link.read length).2 }
  | .dataOut bytes =>
    if bytes.length ≤ deliverable s.link.c1.toNat then
      some { s with link := s.link.dataOut bytes, delivered := s.delivered ++ bytes }
    else none

/-- All bytes delivered were returned or are still in the ring, in order. -/
def RxSystem.Kept (s : RxSystem) : Prop := s.delivered = s.returned ++ s.link.rx.contents

/-- **The next delivery is safe**: whatever the core may deliver lies inside the armed region, its
commit leaves the ring at `capacity - 1` bytes at most, and no byte is overwritten or dropped. -/
structure RxSafe (s : RxSystem) : Prop where
  inside : ∀ bytes : List UInt8, bytes.length ≤ deliverable s.link.c1.toNat →
    bytes.length ≤ s.link.c1.toNat
  fits : ∀ bytes : List UInt8, bytes.length ≤ deliverable s.link.c1.toNat →
    s.link.rx.size.toNat + bytes.length ≤ s.link.rx.capacity.toNat - 1
  kept : ∀ bytes next, s.step (.dataOut bytes) = some next → next.Kept

/-- The delivery stays within the bytes that were armed. -/
def Contained (s : RxSystem) : RxStep → Prop
  | .read _ => True
  | .dataOut bytes => bytes.length ≤ s.link.c1.toNat

/-! ### The invariant -/

/-- The armed region is free, contiguous, and at the head. -/
structure Armed (h : Exchange) : Prop where
  first : h.r1 = h.rx.head
  free : h.c1.toNat ≤ h.rx.free.toNat
  contiguous : h.rx.head.toNat + h.c1.toNat ≤ h.rx.capacity.toNat

structure RxInvariant (s : RxSystem) : Prop where
  valid : s.link.rx.Valid
  armed : Armed s.link
  kept : s.Kept

/-- Arming leaves the ring alone. -/
theorem getRxStorage_rx (h : Exchange) : h.getRxStorage.rx = h.rx := by
  unfold Exchange.getRxStorage
  split <;> rfl

theorem getRxStorage_armed {h : Exchange} (valid : h.rx.Valid) : Armed h.getRxStorage := by
  have head := valid.head
  obtain ⟨out, reserved, splits⟩ := Fd.writeReserve_eq valid h.rx.free le_rfl
  have cont1 := splits.cont1
  have armed : h.getRxStorage = { h with r1 := out.first, c1 := out.cont1 } := by
    simp only [Exchange.getRxStorage, reserved]
  rw [armed]
  refine ⟨UInt16.toNat_inj.mp splits.first, ?_, ?_⟩
  · show out.cont1.toNat ≤ h.rx.free.toNat
    omega
  · show h.rx.head.toNat + out.cont1.toNat ≤ h.rx.capacity.toNat
    omega

theorem RxInvariant.init (txStorage rxStorage : Nat → UInt8) (txSize : UInt16) {rxSize : UInt16}
    (positive : 0 < rxSize) : RxInvariant (RxSystem.init txStorage rxStorage txSize rxSize) := by
  have valid : (Exchange.init txStorage rxStorage txSize rxSize).rx.Valid :=
    Ring.init_valid rxStorage positive
  refine ⟨?_, getRxStorage_armed valid, ?_⟩
  · show (Exchange.getRxStorage _).rx.Valid
    rw [getRxStorage_rx]
    exact valid
  · show [] = [] ++ (Exchange.getRxStorage _).rx.contents
    rw [getRxStorage_rx]
    exact (Ring.init_contents rxStorage rxSize).symm

/-! ### Reading -/

/-- The two copies of a read are one beginning of the contents. -/
theorem copyOut_eq (h : Exchange) (valid : h.rx.Valid) {out : Regions}
    (splits : Splits h.rx.capacity.toNat h.rx.tail.toNat h.rx.size.toNat out) (length : Nat) :
    ∃ count, count ≤ h.rx.size.toNat ∧ h.copyOut out length = h.rx.contents.take count := by
  have cont1 := splits.cont1
  have cont2 := splits.cont2
  have small := h.rx.size_lt valid
  have capacity := h.rx.capacity.toNat_lt
  have fromFirst : segment h.rx.buffer out.first.toNat (copyFromFirst out length) =
      h.rx.contents.take (copyFromFirst out length) := by
    have within : copyFromFirst out length ≤ out.cont1.toNat := Nat.min_le_right _ _
    rw [← Circular.segment_take _ within, splits.segment_first, List.take_take,
      Nat.min_eq_left within]
  by_cases both : copyFromFirst out length = out.cont1.toNat ∧ copyFromFirst out length < length ∧
      out.second = some 0
  · obtain ⟨whole, more, second⟩ := both
    refine ⟨out.cont1.toNat + min ((length - out.cont1.toNat) % 65536) out.cont2.toNat,
      by omega, ?_⟩
    simp only [Exchange.copyOut, second, if_pos more, fromFirst]
    rw [whole, List.take_add, ← splits.segment_second valid, Circular.segment_take _
      (Nat.min_le_right _ _)]
    rfl
  · refine ⟨copyFromFirst out length, ?_, ?_⟩
    · unfold copyFromFirst
      omega
    · have onlyFirst : h.copyOut out length =
          segment h.rx.buffer out.first.toNat (copyFromFirst out length) := by
        unfold Exchange.copyOut
        cases second : out.second with
        | none => exact List.append_nil _
        | some start =>
          have ended : ¬ copyFromFirst out length < length := fun more =>
            both ⟨by unfold copyFromFirst at more ⊢; omega, more,
              by rw [second, splits.second_zero second]⟩
          simp only [if_neg ended, List.append_nil]
      rw [onlyFirst, fromFirst]

/-- **A read** takes bytes from the front of the ring, and returns them. -/
theorem read_eq (h : Exchange) (valid : h.rx.Valid) (length : UInt32) :
    ∃ count : UInt16, count.toNat ≤ h.rx.size.toNat ∧
      (h.read length).1 = { h with rx := h.rx.readCommit count } ∧
      (h.read length).2 = h.rx.contents.take count.toNat := by
  rcases Nat.eq_zero_or_pos h.rx.size.toNat with empty | some_
  · have reserved := Fd.readReserve_none empty
    refine ⟨0, Nat.zero_le _, ?_, ?_⟩
    · simp only [Exchange.read, reserved, Fd.readCommit_zero valid]
    · simp only [Exchange.read, reserved]
      rfl
  · obtain ⟨out, reserved, splits⟩ := Fd.readReserve_eq valid (Nat.ne_of_gt some_)
    obtain ⟨count, within, taken⟩ := copyOut_eq h valid splits length.toNat
    have small := h.rx.size_lt valid
    have capacity := h.rx.capacity.toNat_lt
    have counted : (UInt16.ofNat count).toNat = count :=
      UInt16.toNat_ofNat_of_lt' (lt_of_le_of_lt within (lt_trans small capacity))
    have length_ : (h.rx.contents.take count).length = count := by
      rw [List.length_take, Ring.contents_length, Nat.min_eq_left within]
    refine ⟨UInt16.ofNat count, by rw [counted]; exact within, ?_, ?_⟩
    · simp only [Exchange.read, reserved]
      rw [taken, length_]
    · simp only [Exchange.read, reserved]
      rw [taken, counted]

/-! ### The steps -/

/-- **A delivery inside the armed region** is appended to the ring, and the endpoint is armed with a
free region again. -/
theorem dataOut_eq {h : Exchange} (valid : h.rx.Valid) (armed : Armed h) {bytes : List UInt8}
    (inside : bytes.length ≤ h.c1.toNat) :
    (h.dataOut bytes).rx.Valid ∧ (h.dataOut bytes).rx.contents = h.rx.contents ++ bytes ∧
      Armed (h.dataOut bytes) := by
  have size := h.rx.size_lt valid
  have free := h.rx.free_toNat valid
  have armedFree := armed.free
  have contiguous := armed.contiguous
  have small := h.c1.toNat_lt
  have counted := length_toUInt16 (show bytes.length < 65536 by omega)
  let out : Regions := ⟨h.r1, (UInt32.ofNat bytes.length).toUInt16, none, 0⟩
  have splits : Splits h.rx.capacity.toNat h.rx.head.toNat bytes.length out := by
    have zero : (0 : UInt16).toNat = 0 := rfl
    refine ⟨congrArg UInt16.toNat armed.first, ?_, ?_, rfl⟩
    · show (UInt32.ofNat bytes.length).toUInt16.toNat = _
      omega
    · show (0 : UInt16).toNat = bytes.length - (UInt32.ofNat bytes.length).toUInt16.toNat
      omega
  have copied : (h.receive bytes).rx = h.rx.copyIn out bytes := by
    have whole : (h.rx.copyIn out bytes).buffer = store h.rx.buffer h.r1.toNat
        (bytes.take (UInt32.ofNat bytes.length).toUInt16.toNat) := rfl
    rw [counted, List.take_length] at whole
    exact congrArg (fun buffer => { h.rx with buffer := buffer }) whole.symm
  obtain ⟨capacity, -, -⟩ := Fd.copyIn_indices h.rx out bytes
  have committed : (h.dataOut bytes).rx =
      (h.rx.copyIn out bytes).writeCommit (UInt32.ofNat bytes.length).toUInt16 := by
    rw [Exchange.dataOut, getRxStorage_rx, Exchange.rxComplete, copied]
  have validAfter : (h.dataOut bytes).rx.Valid := by
    rw [committed]
    exact Fd.writeCommit_valid (Fd.copyIn_valid _ _ valid) (by rw [capacity, counted]; omega)
  refine ⟨validAfter, ?_, ?_⟩
  · rw [committed]
    exact Fd.copyIn_contents valid splits (by omega) counted
  · rw [Exchange.dataOut] at validAfter ⊢
    rw [getRxStorage_rx] at validAfter
    exact getRxStorage_armed validAfter

section Steps

variable {s next : RxSystem}

theorem RxInvariant.read (holds : RxInvariant s) (length : UInt32) :
    RxInvariant { s with
      link := (s.link.read length).1, returned := s.returned ++ (s.link.read length).2 } := by
  obtain ⟨count, within, after, taken⟩ := read_eq s.link holds.valid length
  have size := s.link.rx.size_lt holds.valid
  have valid := Fd.readCommit_valid holds.valid (show count.toNat ≤ _ by omega)
  have free := s.link.rx.free_toNat holds.valid
  have freeAfter := (s.link.rx.readCommit count).free_toNat valid
  have sizeAfter := Fd.readCommit_size holds.valid within
  have armedFree := holds.armed.free
  have sameCapacity : (s.link.rx.readCommit count).capacity = s.link.rx.capacity := rfl
  rw [after, taken]
  refine ⟨valid, ⟨holds.armed.first, ?_, holds.armed.contiguous⟩, ?_⟩
  · show s.link.c1.toNat ≤ (s.link.rx.readCommit count).free.toNat
    rw [freeAfter, sameCapacity, sizeAfter]
    omega
  · show s.delivered = s.returned ++ s.link.rx.contents.take count.toNat ++
      (s.link.rx.readCommit count).contents
    rw [Fd.readCommit_contents holds.valid within, List.append_assoc, List.take_append_drop]
    exact holds.kept

theorem RxInvariant.dataOut (holds : RxInvariant s) {bytes : List UInt8}
    (inside : bytes.length ≤ s.link.c1.toNat) :
    RxInvariant { s with link := s.link.dataOut bytes, delivered := s.delivered ++ bytes } := by
  obtain ⟨valid, contents, armed⟩ := dataOut_eq holds.valid holds.armed inside
  refine ⟨valid, armed, ?_⟩
  show s.delivered ++ bytes = s.returned ++ (s.link.dataOut bytes).rx.contents
  rw [contents, holds.kept, List.append_assoc]

/-- **Every contained step** keeps the invariant. -/
theorem RxInvariant.step (holds : RxInvariant s) {label : RxStep} (contained : Contained s label)
    (taken : s.step label = some next) : RxInvariant next := by
  cases label with
  | read length =>
    obtain rfl := Option.some.inj taken
    exact holds.read length
  | dataOut bytes =>
    rw [RxSystem.step] at taken
    split at taken
    · obtain rfl := Option.some.inj taken
      exact holds.dataOut contained
    · cases taken

/-- The endpoint delivers no more than was armed exactly for a non-zero multiple of its packets. -/
theorem deliverable_le_iff (length : Nat) :
    deliverable length ≤ length ↔ 0 < length ∧ packetSize ∣ length := by
  unfold deliverable packetSize
  split <;> omega

/-- In an invariant state, the next delivery is safe exactly if it cannot exceed what was armed. -/
theorem RxInvariant.safe_iff (holds : RxInvariant s) :
    RxSafe s ↔ 0 < s.link.c1.toNat ∧ packetSize ∣ s.link.c1.toNat := by
  rw [← deliverable_le_iff]
  constructor
  · intro safe
    have most := safe.inside (List.replicate (deliverable s.link.c1.toNat) 0)
      (by rw [List.length_replicate])
    rwa [List.length_replicate] at most
  · intro most
    have free := s.link.rx.free_toNat holds.valid
    have size := s.link.rx.size_lt holds.valid
    have armedFree := holds.armed.free
    refine ⟨fun bytes sent => sent.trans most, fun bytes sent => by omega, ?_⟩
    intro bytes next taken
    rw [RxSystem.step] at taken
    split at taken
    case isTrue sent =>
      obtain rfl := Option.some.inj taken
      exact (holds.dataOut (sent.trans most)).kept
    case isFalse => cases taken

end Steps

/-! ### The runs -/

/-- **When the receive storage is safe**: in every run in which every delivery so far stayed within
the bytes armed for it, no byte was overwritten or dropped, and the next delivery is safe if and only
if the region armed for it is a non-zero multiple of 64 bytes. -/
theorem rxStorage_safe_iff (txStorage rxStorage : Nat → UInt8) (txSize rxSize : UInt16)
    (positive : 0 < rxSize) (steps : List RxStep)
    (contained : Meets RxSystem.step Contained
      (RxSystem.init txStorage rxStorage txSize rxSize) steps)
    (reached : RxSystem)
    (run : exec RxSystem.step (RxSystem.init txStorage rxStorage txSize rxSize) steps =
      some reached) :
    reached.Kept ∧ reached.link.rx.size.toNat ≤ reached.link.rx.capacity.toNat - 1 ∧
      (RxSafe reached ↔ 0 < reached.link.c1.toNat ∧ packetSize ∣ reached.link.c1.toNat) := by
  have holds : RxInvariant reached := LabelledSystem.exec_invariant RxInvariant
    (fun _ _ _ holds allowed taken => holds.step allowed taken)
    (RxInvariant.init txStorage rxStorage txSize positive) contained run
  exact ⟨holds.kept, Nat.le_sub_one_of_lt (reached.link.rx.size_lt holds.valid), holds.safe_iff⟩

/-- Two bytes delivered into the `255` bytes armed at first, and one of them read. -/
theorem rxStorage_safe_iff_two :
    ∃ reached, exec RxSystem.step (RxSystem.init (fun _ => 0) (fun _ => 0) 4096 256)
        [.dataOut [1, 2], .read 1] = some reached ∧ reached.Kept :=
  ⟨_, rfl, (rxStorage_safe_iff (fun _ => 0) (fun _ => 0) 4096 256 (by decide)
    [.dataOut [1, 2], .read 1]
    ⟨(by decide : 2 ≤ 255), fun _ _ => ⟨trivial, fun _ _ => trivial⟩⟩ _ rfl).1⟩

/-- Four full packets into the `255` bytes armed at first: the head wraps onto the tail. -/
theorem rxStorage_overrun :
    ¬ ∀ (txStorage rxStorage : Nat → UInt8) (txSize rxSize : UInt16), 0 < rxSize →
      ∀ (steps : List RxStep) (reached : RxSystem),
        exec RxSystem.step (RxSystem.init txStorage rxStorage txSize rxSize) steps = some reached →
          reached.Kept ∧ RxSafe reached := by
  intro always
  set bytes : List UInt8 := List.replicate 256 1 with bytesDef
  have length : bytes.length = 256 := List.length_replicate
  set start := RxSystem.init (fun _ => 0) (fun _ => 0) 4096 256 with startDef
  have taken : exec RxSystem.step start [.dataOut bytes] =
      some { start with link := start.link.dataOut bytes, delivered := bytes } := by
    rw [LabelledSystem.exec_cons, RxSystem.step, if_pos (by rw [length, startDef]; decide)]
    rfl
  have kept := congrArg List.length
    (always (fun _ => 0) (fun _ => 0) 4096 256 (by decide) [.dataOut bytes] _ taken).1
  -- The head has wrapped to the tail: the ring that took 256 bytes is empty.
  have empty : (start.link.dataOut bytes).rx.size = 0 := by
    rw [Exchange.dataOut, getRxStorage_rx, length]
    decide +kernel
  rw [List.length_append, Ring.contents_length, length] at kept
  exact absurd kept (by rw [empty]; decide)

end ForgeDrive.Usb
