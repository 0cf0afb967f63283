/-
**Any number of flipped bits in a header.**

The register of the checksum, fed the `32` bits of an error, ends at what the table holds for its
syndrome (`foldl_feed_errorBits`). The generator `0x2F` has an even number of terms, so an odd number
of flips has an odd syndrome (`parity_syndrome`); and its last term is one, so no burst of up to eight
bits has syndrome zero (`syndrome_burst`).

* `reportsMismatch_all` — for every error whatsoever, whether the receiver reports it;
* `reportsMismatch_odd` — an odd number of flips is reported in every header: `0xFF` has an even
  number of bits, so sending it for `0x00` hides none of them;
* `reportsMismatch_burst` — a burst of up to eight bits is reported, unless that hides it.
-/

import ForgeDrive.Abf.HeaderErrors
import ForgeDrive.Library.ErrorDetection
import Mathlib.Algebra.Ring.Parity

namespace ForgeDrive.Abf

open Checksum (checksum merged)
open ShiftRegister (bits parity table feed)

/-! ### The bits of an error -/

/-- Where a bit is in the order in which the checksum reads them. -/
def place (bit : BitPosition) : Nat := 8 * bit.1 + (7 - bit.2)

/-- The bits in this order: each byte from its top bit on. -/
def places : List BitPosition :=
  (List.finRange 4).flatMap fun byte => (List.finRange 8).map fun i => (byte, i.rev)

/-- An error as a string of bits. -/
def errorBits (flips : Finset BitPosition) : List Bool := places.map fun bit => decide (bit ∈ flips)

theorem mask_insert {bit : BitPosition} {flips : Finset BitPosition} (new : bit ∉ flips)
    (byte : Fin 4) : mask (insert bit flips) byte = mask {bit} byte ^^^ mask flips byte := by
  unfold mask
  rw [Finset.fold_insert new, Finset.fold_singleton, UInt8.xor_zero]

theorem getMsbD_mask_single : ∀ (bit : BitPosition) (byte : Fin 4) (i : Fin 8),
    (mask {bit} byte).toBitVec.getMsbD i = decide ((byte, i.rev) = bit) := by
  decide +kernel

/-- **A bit of the mask** says whether it is flipped. -/
theorem getMsbD_mask (flips : Finset BitPosition) (byte : Fin 4) (i : Fin 8) :
    (mask flips byte).toBitVec.getMsbD i = decide ((byte, i.rev) ∈ flips) := by
  induction flips using Finset.induction_on with
  | empty => simp [mask]
  | insert bit flips new ih =>
    rw [mask_insert new, UInt8.toBitVec_xor, BitVec.getMsbD_xor, ih, getMsbD_mask_single]
    by_cases this : (byte, i.rev) = bit
    · rw [this]
      simp [new]
    · simp [this]

/-- The bits of a byte of an error. -/
theorem bits_mask (flips : Finset BitPosition) (byte : Fin 4) :
    bits (mask flips byte).toBitVec =
      (List.finRange 8).map fun i => decide ((byte, i.rev) ∈ flips) := by
  apply List.ext_getElem
  · simp [bits]
  · intro n inside _
    have inside : n < 8 := by simpa [bits] using inside
    have bit := getMsbD_mask flips byte ⟨n, inside⟩
    simp only [bits, List.getElem_map, List.getElem_range, List.getElem_finRange]
    exact bit

/-- **After all bits of an error** the register is what the table holds for its syndrome. -/
theorem foldl_feed_errorBits (flips : Finset BitPosition) :
    (errorBits flips).foldl (feed crc8Autosar.polynomial) 0 =
      table crc8Autosar.polynomial (syndrome flips).toBitVec := by
  have words := toBitVec_checksum 0 ((List.finRange 4).map (mask flips))
  have bitwise : errorBits flips =
      (((List.finRange 4).map (mask flips)).map UInt8.toBitVec).flatMap bits := by
    rw [errorBits, places, List.map_flatMap, List.map_map, List.flatMap_map]
    apply List.flatMap_congr
    intro byte _
    rw [List.map_map]
    exact (bits_mask flips byte).symm
  rw [bitwise, ShiftRegister.foldl_feed_flatMap, ← toBitVec_lookup]
  exact words.symm

/-! ### Odd numbers of flips -/

/-- The bits of an error are odd if their number is. -/
theorem parity_errorBits (flips : Finset BitPosition) :
    parity (errorBits flips) = decide (Odd flips.card) := by
  induction flips using Finset.induction_on with
  | empty => decide
  | insert bit flips new ih =>
    have both : errorBits (insert bit flips) =
        places.map fun other => decide (other = bit) ^^ decide (other ∈ flips) := by
      apply List.map_congr_left
      intro other _
      by_cases this : other = bit
      · rw [this]
        simp [new]
      · simp [this]
    have one : ∀ bit : BitPosition, parity (places.map fun other => decide (other = bit)) = true := by
      decide +kernel
    rw [both, ShiftRegister.parity_map_xor, one]
    show (true ^^ parity (errorBits flips)) = _
    rw [ih, Finset.card_insert_of_notMem new]
    by_cases odd : Odd flips.card
    · simp [odd, Nat.odd_add_one]
    · simp [odd, Nat.odd_add_one]

/-- **The syndrome is odd if the number of flipped bits is.** -/
theorem parity_syndrome (flips : Finset BitPosition) :
    parity (bits (syndrome flips).toBitVec) = decide (Odd flips.card) := by
  have even : parity (bits crc8Autosar.polynomial) = true := by decide
  have all := ShiftRegister.parity_foldl_feed even (errorBits flips) 0
  rw [foldl_feed_errorBits, ShiftRegister.parity_table even, ShiftRegister.parity_bits_zero,
    Bool.false_xor, parity_errorBits] at all
  exact all

/-! ### Bursts -/

/-- The flipped bits are among eight consecutive ones. -/
def WithinEight (flips : Finset BitPosition) : Prop :=
  ∃ first, ∀ bit ∈ flips, first ≤ place bit ∧ place bit < first + 8

theorem mem_places : ∀ bit, bit ∈ places := by
  decide +kernel

theorem place_get : ∀ n : Fin places.length, place (places.get n) = n := by
  decide +kernel

theorem place_lt (bit : BitPosition) : place bit < 32 := by
  have byte := bit.1.isLt
  have inByte := bit.2.isLt
  unfold place
  omega

/-- Where the first bits are. -/
theorem place_take {n : Nat} {bit : BitPosition} (member : bit ∈ places.take n) : place bit < n := by
  obtain ⟨i, inside, rfl⟩ := List.mem_take_iff_getElem.mp member
  have at_ := place_get ⟨i, inside.trans_le (Nat.min_le_right _ _)⟩
  exact at_.trans_lt (inside.trans_le (Nat.min_le_left _ _))

theorem place_drop {n : Nat} {bit : BitPosition} (member : bit ∈ places.drop n) : n ≤ place bit := by
  obtain ⟨i, inside, rfl⟩ := List.mem_drop_iff_getElem.mp member
  have at_ := place_get ⟨n + i, (Nat.add_comm n i).trans_lt inside⟩
  exact (Nat.le_add_right n i).trans at_.ge

/-- A part of an error with no flipped bits. -/
theorem map_clear {flips : Finset BitPosition} {part : List BitPosition}
    (clear : ∀ bit ∈ flips, bit ∉ part) :
    (part.map fun bit => decide (bit ∈ flips)) = List.replicate part.length false := by
  rw [List.eq_replicate_iff, List.length_map]
  refine ⟨rfl, fun flipped member => ?_⟩
  obtain ⟨bit, inPart, rfl⟩ := List.mem_map.mp member
  exact decide_eq_false fun flipped => clear bit flipped inPart

/-- **A burst does not have syndrome zero.** -/
theorem syndrome_burst {flips : Finset BitPosition} (some_ : flips.Nonempty)
    (burst : WithinEight flips) : syndrome flips ≠ 0 := by
  obtain ⟨start, within⟩ := burst
  -- Eight bits of the header, also where the burst is at its end.
  set first := min start 24 with firstDef
  have window (bit : BitPosition) (flipped : bit ∈ flips) :
      first ≤ place bit ∧ place bit < first + 8 := by
    have := within bit flipped
    have := place_lt bit
    omega
  have parts : places = places.take first ++ (places.drop first).take 8 ++
      places.drop (first + 8) := by
    rw [List.append_assoc, ← List.drop_drop, List.take_append_drop, List.take_append_drop]
  have before : ∀ bit ∈ flips, bit ∉ places.take first := fun bit flipped member =>
    absurd (place_take member) (Nat.not_lt_of_le (window bit flipped).1)
  have after : ∀ bit ∈ flips, bit ∉ places.drop (first + 8) := fun bit flipped member =>
    absurd (place_drop member) (Nat.not_le_of_lt (window bit flipped).2)
  have inWindow : true ∈ ((places.drop first).take 8).map fun bit => decide (bit ∈ flips) := by
    obtain ⟨bit, flipped⟩ := some_
    have somewhere := mem_places bit
    rw [parts, List.mem_append, List.mem_append] at somewhere
    refine List.mem_map.mpr ⟨bit, ?_, decide_eq_true flipped⟩
    exact (somewhere.resolve_right (after bit flipped)).resolve_left (before bit flipped)
  have eight : (((places.drop first).take 8).map fun bit => decide (bit ∈ flips)).length = 8 := by
    rw [List.length_map, List.length_take, List.length_drop, show places.length = 32 from rfl]
    omega
  have last : crc8Autosar.polynomial.getLsbD 0 = true := rfl
  have seen := ShiftRegister.foldl_feed_burst last (places.take first).length
    (places.drop (first + 8)).length eight inWindow
  intro zero
  have register := foldl_feed_errorBits flips
  rw [zero, show (0 : UInt8).toBitVec = 0 from rfl, ShiftRegister.table_zero, errorBits, parts,
    List.map_append, List.map_append, map_clear before, map_clear after] at register
  exact seen register

/-! ### The receiver -/

/-- Flipped bits that a receiver does not see: their syndrome is zero, and the sending of `0xFF` for
`0x00` does not show them; or it is `0xFF`, and that hides them. -/
def Unseen (crc : UInt8) (flips : Finset BitPosition) : Prop :=
  (syndrome flips = 0 ∧ (change flips = 0 ∨ crc ≠ 0 ∧ crc ≠ change flips)) ∨
    (syndrome flips = 0xFF ∧ change flips ≠ 0 ∧ (crc = 0 ∨ crc = change flips))

/-- The checksum of the header of a frame, before `0xFF` is sent for `0x00`. -/
def frameCrc (serviceId : UInt8) (payload : List UInt8) : UInt8 :=
  crc8Calculate [serviceId, UInt8.ofNat payload.length, codeByte payload]

/-- **Which errors a receiver reports**: for every frame that `encode` accepts, and whatever bits of
its header are flipped. -/
theorem reportsMismatch_all {start : Stream} (hunt : start.state = .huntSync)
    (header : Nat → UInt8) {serviceId : UInt8} {payload : List UInt8} (service : serviceId ≠ 0)
    (nonempty : 1 ≤ payload.length) (short : payload.length ≤ 255) (flips : Finset BitPosition) :
    ReportsMismatch start (encode header payload serviceId (UInt8.ofNat payload.length)).2.1 flips ↔
      ¬ Unseen (frameCrc serviceId payload) flips := by
  obtain ⟨after, encoded, syncAt, serviceAt, lengthAt, codeAt, crcAt⟩ :=
    encode_header header service nonempty (Nat.lt_succ_of_le short)
  unfold frameCrc
  generalize UInt8.ofNat payload.length = payloadLen at *
  generalize codeByte payload = code at *
  generalize crcIs : crc8Calculate [serviceId, payloadLen, code] = crc
  have received : crc8Calculate [serviceId ^^^ mask flips 0, payloadLen ^^^ mask flips 1,
      code ^^^ mask flips 2] = crc ^^^ change flips := by
    rw [← crcIs]
    exact crc8Calculate_xor [_, _, _] [_, _, _] rfl
  rw [encoded]
  show eventsAt start [after 0, after 1 ^^^ _, after 2 ^^^ _, after 3 ^^^ _] (after 4 ^^^ _) = _ ↔ _
  rw [syncAt, serviceAt, lengthAt, codeAt, crcAt, show syncByte = 0 from rfl, eventsAt_fifth hunt,
    headerCrc_eq, headerCrc_eq, received, crcIs]
  apply not_congr
  by_cases zero : syndrome flips = 0
  · have same : mask flips 3 = change flips := ((xor_exclusive.eq_iff _ _).mp zero).symm
    rw [same, Checksum.merged_same_iff xor_exclusive (by decide)]
    refine ⟨fun agrees => .inl ⟨zero, agrees⟩, fun unseen => ?_⟩
    rcases unseen with ⟨-, agrees⟩ | ⟨other, -⟩
    · exact agrees
    · rw [zero] at other
      exact absurd other (by decide)
  · rw [Checksum.merged_eq_iff xor_exclusive zero]
    refine ⟨fun ⟨changes, merges, crc⟩ => .inr ⟨merges, changes, crc⟩, fun unseen => ?_⟩
    rcases unseen with ⟨none, -⟩ | ⟨merges, changes, crc⟩
    · exact absurd none zero
    · exact ⟨changes, merges, crc⟩

/-- **Every odd number of flipped bits is reported**: for every frame that `encode` accepts. -/
theorem reportsMismatch_odd {start : Stream} (hunt : start.state = .huntSync)
    (header : Nat → UInt8) {serviceId : UInt8} {payload : List UInt8} (service : serviceId ≠ 0)
    (nonempty : 1 ≤ payload.length) (short : payload.length ≤ 255) {flips : Finset BitPosition}
    (odd : Odd flips.card) :
    ReportsMismatch start (encode header payload serviceId (UInt8.ofNat payload.length)).2.1
      flips := by
  have parityIs := parity_syndrome flips
  rw [decide_eq_true odd] at parityIs
  apply (reportsMismatch_all hunt header service nonempty short flips).mpr
  rintro (⟨zero, -⟩ | ⟨merges, -⟩)
  · rw [zero] at parityIs
    exact absurd parityIs (by decide)
  · rw [merges] at parityIs
    exact absurd parityIs (by decide)

/-- Three flipped bits, two of which alone the merging could hide. -/
theorem reportsMismatch_odd_three :
    ReportsMismatch (Stream.new (fun _ => 0) 255) (encode (fun _ => 0) [1] 243 1).2.1
      {(0, 0), (0, 6), (3, 1)} :=
  reportsMismatch_odd (show (Stream.new (fun _ => 0) 255).state = .huntSync from rfl)
    (fun _ => 0) (show (243 : UInt8) ≠ 0 by decide) (show 1 ≤ [(1 : UInt8)].length by decide)
    (by decide) (by decide)

/-- **Every burst of up to eight bits is reported**, for every frame that `encode` accepts, but those
with syndrome `0xFF`, where the checksum is `0x00` as it was sent or as it is received. -/
theorem reportsMismatch_burst {start : Stream} (hunt : start.state = .huntSync)
    (header : Nat → UInt8) {serviceId : UInt8} {payload : List UInt8} (service : serviceId ≠ 0)
    (nonempty : 1 ≤ payload.length) (short : payload.length ≤ 255) {flips : Finset BitPosition}
    (some_ : flips.Nonempty) (burst : WithinEight flips) :
    ReportsMismatch start (encode header payload serviceId (UInt8.ofNat payload.length)).2.1 flips ↔
      ¬ (syndrome flips = 0xFF ∧ change flips ≠ 0 ∧
        (frameCrc serviceId payload = 0 ∨ frameCrc serviceId payload = change flips)) := by
  rw [reportsMismatch_all hunt header service nonempty short flips]
  exact not_congr (or_iff_right fun zero => syndrome_burst some_ burst zero.1)

/-- A burst over the end of the service id and the start of the payload size. -/
theorem reportsMismatch_burst_across :
    ReportsMismatch (Stream.new (fun _ => 0) 255) (encode (fun _ => 0) [1] 7 1).2.1
        {(0, 2), (0, 0), (1, 7), (1, 3)} ↔
      ¬ (syndrome {(0, 2), (0, 0), (1, 7), (1, 3)} = 0xFF ∧
        change {(0, 2), (0, 0), (1, 7), (1, 3)} ≠ 0 ∧
        (frameCrc 7 [1] = 0 ∨ frameCrc 7 [1] = change {(0, 2), (0, 0), (1, 7), (1, 3)})) :=
  reportsMismatch_burst (show (Stream.new (fun _ => 0) 255).state = .huntSync from rfl)
    (fun _ => 0) (show (7 : UInt8) ≠ 0 by decide) (show 1 ≤ [(1 : UInt8)].length by decide)
    (by decide) (by decide) ⟨5, by decide⟩

end ForgeDrive.Abf
