/-
**Flipped bits in a header.**

The lookup table is additive for exclusive or (`lookup_xor`), so an error changes the checksum of a
header by its own checksum. The syndromes of the `32` single flips (`singleSyndromes`) are different
and not zero, so no error of one or two bits has syndrome zero (`syndrome_ne_zero`).

Sending `0xFF` for the checksum `0x00` merges two classes of headers. Four pairs of bits have the
syndrome `0xFF`, and are not seen where the checksum is `0x00` before or after they are flipped
(`reportsMismatch_iff`); every other error of one or two bits is reported at the fifth header byte.
-/

import ForgeDrive.Abf.Crc8Autosar
import ForgeDrive.Abf.HeaderCheck
import Mathlib.Data.Finset.Card
import Mathlib.Data.Finset.Fold
import Mathlib.Data.Fintype.Prod

namespace ForgeDrive.Abf

open Checksum (checksum merged)

/-! ### The checksum -/

/-- The header checksum is the checksum with `0xFF` sent for `0x00`. -/
theorem headerCrc_eq (serviceId payloadLen code : UInt8) :
    headerCrc serviceId payloadLen code =
      merged 0 0xFF (crc8Calculate [serviceId, payloadLen, code]) := rfl

/-- **Flipped bits change a checksum by the checksum of the flips.** -/
theorem crc8Calculate_xor (data flips : List UInt8) (length : data.length = flips.length) :
    crc8Calculate (List.zipWith (fun a b => a ^^^ b) data flips) =
      crc8Calculate data ^^^ checksum (fun a b => a ^^^ b) lookup 0 flips := by
  have combined := Checksum.checksum_combine xor_exclusive lookup_xor data flips length
    0xFF 0
  rw [crc8Calculate_eq, crc8Calculate_eq, UInt8.xor_assoc, UInt8.xor_comm 0xFF, ← UInt8.xor_assoc,
    ← combined]
  rfl

/-! ### Flipped bits -/

/-- A bit of the four header bytes behind the sync byte. -/
abbrev BitPosition := Fin 4 × Fin 8

/-- The bits of one of these bytes that are flipped. -/
def mask (flips : Finset BitPosition) (byte : Fin 4) : UInt8 :=
  flips.fold (fun a b => a ^^^ b) 0 fun bit => if bit.1 = byte then 1 <<< UInt8.ofNat bit.2 else 0

/-- What flipped bits add to the checksum that the receiver computes. -/
def change (flips : Finset BitPosition) : UInt8 :=
  checksum (fun a b => a ^^^ b) lookup 0 [mask flips 0, mask flips 1, mask flips 2]

/-- What they add to the difference of the computed and the received checksum. -/
def syndrome (flips : Finset BitPosition) : UInt8 := change flips ^^^ mask flips 3

/-- The pairs of bits whose syndrome is `0xFF`, with what they add to the computed checksum: two
bits of the service id; a bit of the service id and one of the code; a bit of the service id and one
of the checksum; a bit of the payload size and one of the checksum. -/
def mergedPairs : List (BitPosition × BitPosition × UInt8) :=
  [((0, 0), (0, 6), 0xFF), ((0, 1), (2, 7), 0xFF), ((0, 5), (3, 4), 0xEF), ((1, 1), (3, 1), 0xFD)]

theorem mask_pair {first second : BitPosition} (different : first ≠ second) (byte : Fin 4) :
    mask {first, second} byte = mask {first} byte ^^^ mask {second} byte := by
  unfold mask
  rw [Finset.fold_insert (Finset.notMem_singleton.mpr different), Finset.fold_singleton,
    Finset.fold_singleton, UInt8.xor_zero, UInt8.xor_zero]

/-- The syndromes of single flips: a row for each byte, from bit `0` on. -/
def singleSyndromes : Vector (Vector UInt8 8) 4 :=
  #v[#v[0x0E, 0x1C, 0x38, 0x70, 0xE0, 0xEF, 0xF1, 0xCD],
    #v[0xE9, 0xFD, 0xD5, 0x85, 0x25, 0x4A, 0x94, 0x07],
    #v[0x2F, 0x5E, 0xBC, 0x57, 0xAE, 0x73, 0xE6, 0xE3],
    #v[0x01, 0x02, 0x04, 0x08, 0x10, 0x20, 0x40, 0x80]]

/-- The syndrome of one flip. -/
def singleSyndrome (bit : BitPosition) : UInt8 := (singleSyndromes.get bit.1).get bit.2

/-- What one flip adds to the computed checksum: a flip of the checksum byte adds nothing. -/
def singleChange (bit : BitPosition) : UInt8 := if bit.1 = 3 then 0 else singleSyndrome bit

theorem syndrome_single : ∀ bit : BitPosition, syndrome {bit} = singleSyndrome bit := by
  decide +kernel

theorem change_single : ∀ bit : BitPosition, change {bit} = singleChange bit := by
  decide +kernel

theorem change_pair {first second : BitPosition} (different : first ≠ second) :
    change {first, second} = singleChange first ^^^ singleChange second := by
  have combined := Checksum.checksum_combine xor_exclusive lookup_xor
    [mask {first} 0, mask {first} 1, mask {first} 2]
    [mask {second} 0, mask {second} 1, mask {second} 2] rfl 0 0
  simp only [List.zipWith_cons_cons, List.zipWith_nil_left, UInt8.xor_self] at combined
  rw [← change_single, ← change_single]
  unfold change
  rw [mask_pair different, mask_pair different, mask_pair different]
  exact combined

theorem syndrome_pair {first second : BitPosition} (different : first ≠ second) :
    syndrome {first, second} = singleSyndrome first ^^^ singleSyndrome second := by
  rw [← syndrome_single, ← syndrome_single]
  unfold syndrome
  rw [change_pair different, change_single, change_single, mask_pair different]
  exact xor_exclusive.op_op_comm _ _ _ _

/-- **The syndromes of single flips** are not zero, not `0xFF`, and all different. -/
theorem singleSyndrome_ne : (∀ bit, singleSyndrome bit ≠ 0 ∧ singleSyndrome bit ≠ 0xFF) ∧
    ∀ first second : BitPosition, first ≠ second →
      singleSyndrome first ≠ singleSyndrome second := by
  decide +kernel

/-- What is listed of a pair is true of it. -/
theorem mergedPairs_sound : ∀ pair ∈ mergedPairs, pair.1 ≠ pair.2.1 ∧
    singleSyndrome pair.1 ^^^ singleSyndrome pair.2.1 = 0xFF ∧
    singleChange pair.1 ^^^ singleChange pair.2.1 = pair.2.2 ∧ pair.2.2 ≠ 0 := by
  have all : mergedPairs.all fun pair => decide (pair.1 ≠ pair.2.1 ∧
      singleSyndrome pair.1 ^^^ singleSyndrome pair.2.1 = 0xFF ∧
      singleChange pair.1 ^^^ singleChange pair.2.1 = pair.2.2 ∧ pair.2.2 ≠ 0) := by decide +kernel
  exact fun pair listed => of_decide_eq_true (List.all_eq_true.mp all pair listed)

/-- Every pair whose syndrome is `0xFF` is listed. -/
theorem mergedPairs_complete : ∀ first second : BitPosition,
    singleSyndrome first ^^^ singleSyndrome second = 0xFF →
      ∃ pair ∈ mergedPairs, (first = pair.1 ∧ second = pair.2.1) ∨
        (first = pair.2.1 ∧ second = pair.1) := by
  decide +kernel

/-- **No one or two flipped bits have syndrome zero.** -/
theorem syndrome_ne_zero {flips : Finset BitPosition} (some_ : 1 ≤ flips.card)
    (few : flips.card ≤ 2) : syndrome flips ≠ 0 := by
  rcases Nat.lt_or_ge flips.card 2 with one | two
  · obtain ⟨bit, rfl⟩ := Finset.card_eq_one.mp (le_antisymm (Nat.le_of_lt_succ one) some_)
    rw [syndrome_single]
    exact (singleSyndrome_ne.1 bit).1
  · obtain ⟨first, second, different, rfl⟩ := Finset.card_eq_two.mp (le_antisymm few two)
    rw [syndrome_pair different]
    exact fun none =>
      singleSyndrome_ne.2 first second different ((xor_exclusive.eq_iff _ _).mp none)

/-- **Which one or two flipped bits have the syndrome `0xFF`.** -/
theorem syndrome_eq_iff {flips : Finset BitPosition} (some_ : 1 ≤ flips.card)
    (few : flips.card ≤ 2) :
    syndrome flips = 0xFF ↔ ∃ pair ∈ mergedPairs, flips = {pair.1, pair.2.1} := by
  constructor
  · intro merges
    rcases Nat.lt_or_ge flips.card 2 with one | two
    · obtain ⟨bit, rfl⟩ := Finset.card_eq_one.mp (le_antisymm (Nat.le_of_lt_succ one) some_)
      rw [syndrome_single] at merges
      exact absurd merges (singleSyndrome_ne.1 bit).2
    · obtain ⟨first, second, different, rfl⟩ := Finset.card_eq_two.mp (le_antisymm few two)
      rw [syndrome_pair different] at merges
      obtain ⟨pair, listed, ⟨rfl, rfl⟩ | ⟨rfl, rfl⟩⟩ := mergedPairs_complete first second merges
      · exact ⟨pair, listed, rfl⟩
      · exact ⟨pair, listed, Finset.pair_comm _ _⟩
  · rintro ⟨pair, listed, rfl⟩
    obtain ⟨different, merges, -, -⟩ := mergedPairs_sound pair listed
    rw [syndrome_pair different]
    exact merges

/-! ### The receiver -/

/-- The fifth byte of this header, received with flipped bits, reports a checksum mismatch. -/
def ReportsMismatch (start : Stream) (header : Nat → UInt8) (flips : Finset BitPosition) : Prop :=
  eventsAt start [header 0, header 1 ^^^ mask flips 0, header 2 ^^^ mask flips 1,
    header 3 ^^^ mask flips 2] (header 4 ^^^ mask flips 3) = [.onError .headerCrcMismatch]

instance (start : Stream) (header : Nat → UInt8) (flips : Finset BitPosition) :
    Decidable (ReportsMismatch start header flips) := inferInstanceAs (Decidable (_ = _))

/-- Flipped bits that the merging of `0x00` with `0xFF` hides: one of the four pairs, and the
checksum, before `0xFF` is sent for `0x00`, is `0x00` as it was sent or as it is received. -/
def Hidden (crc : UInt8) (flips : Finset BitPosition) : Prop :=
  ∃ pair ∈ mergedPairs, flips = {pair.1, pair.2.1} ∧ (crc = 0 ∨ crc = pair.2.2)

/-- What the fifth byte of a received header reports. -/
theorem eventsAt_fifth {start : Stream} (hunt : start.state = .huntSync)
    (serviceId payloadLen code crc : UInt8) :
    eventsAt start [0, serviceId, payloadLen, code] crc = [.onError .headerCrcMismatch] ↔
      headerCrc serviceId payloadLen code ≠ crc := by
  have reported : eventsAt start ([] ++ [0, serviceId, payloadLen, code]) crc = _ :=
    eventsAt_crc hunt
  rw [List.nil_append] at reported
  rw [reported]
  split
  · rename_i good
    exact iff_of_false (fun same => by cases same) (not_not_intro good)
  · rename_i bad
    exact iff_of_true rfl bad

/-- **Which errors of one or two bits a receiver reports**: for every frame that `encode` accepts,
all but those that the merging hides. -/
theorem reportsMismatch_iff {start : Stream} (hunt : start.state = .huntSync)
    (header : Nat → UInt8) {serviceId : UInt8} {payload : List UInt8} (service : serviceId ≠ 0)
    (nonempty : 1 ≤ payload.length) (short : payload.length ≤ 255) {flips : Finset BitPosition}
    (some_ : 1 ≤ flips.card) (few : flips.card ≤ 2) :
    ReportsMismatch start (encode header payload serviceId (UInt8.ofNat payload.length)).2.1 flips ↔
      ¬ Hidden (crc8Calculate [serviceId, UInt8.ofNat payload.length, codeByte payload]) flips := by
  obtain ⟨after, encoded, syncAt, serviceAt, lengthAt, codeAt, crcAt⟩ :=
    encode_header header service nonempty (Nat.lt_succ_of_le short)
  generalize UInt8.ofNat payload.length = payloadLen at *
  generalize codeByte payload = code at *
  have received : crc8Calculate [serviceId ^^^ mask flips 0, payloadLen ^^^ mask flips 1,
      code ^^^ mask flips 2] = crc8Calculate [serviceId, payloadLen, code] ^^^ change flips :=
    crc8Calculate_xor [_, _, _] [_, _, _] rfl
  have hides : merged 0 0xFF (crc8Calculate [serviceId, payloadLen, code] ^^^ change flips) =
      merged 0 0xFF (crc8Calculate [serviceId, payloadLen, code]) ^^^ mask flips 3 ↔ _ :=
    Checksum.merged_eq_iff xor_exclusive (syndrome_ne_zero some_ few) _
  rw [encoded]
  show eventsAt start [after 0, after 1 ^^^ _, after 2 ^^^ _, after 3 ^^^ _] (after 4 ^^^ _) = _ ↔ _
  rw [syncAt, serviceAt, lengthAt, codeAt, crcAt, show syncByte = 0 from rfl, eventsAt_fifth hunt,
    headerCrc_eq, headerCrc_eq, received]
  refine not_congr (hides.trans ?_)
  constructor
  · rintro ⟨-, merges, crc⟩
    obtain ⟨pair, listed, rfl⟩ := (syndrome_eq_iff some_ few).mp merges
    obtain ⟨different, -, adds, -⟩ := mergedPairs_sound pair listed
    rw [change_pair different, adds] at crc
    exact ⟨pair, listed, rfl, crc⟩
  · rintro ⟨pair, listed, rfl, crc⟩
    obtain ⟨different, -, adds, nonzero⟩ := mergedPairs_sound pair listed
    refine ⟨?_, (syndrome_eq_iff some_ few).mpr ⟨pair, listed, rfl⟩, ?_⟩
    · rw [change_pair different, adds]
      exact nonzero
    · rw [change_pair different, adds]
      exact crc

/-- Two flipped bits of a service id that are reported: they are two that the merging could hide,
but the checksum of the frame is `0x0B`. -/
theorem reportsMismatch_iff_pair :
    ReportsMismatch (Stream.new (fun _ => 0) 255) (encode (fun _ => 0) [1] 7 1).2.1
      {(0, 0), (0, 6)} := by
  refine (reportsMismatch_iff (show (Stream.new (fun _ => 0) 255).state = .huntSync from rfl)
    (fun _ => 0) (show (7 : UInt8) ≠ 0 by decide) (show 1 ≤ [(1 : UInt8)].length by decide)
    (by decide) (by decide) (by decide)).mpr ?_
  have checksumIs : crc8Calculate [7, UInt8.ofNat [(1 : UInt8)].length, codeByte [1]] = 0x0B := by
    decide +kernel
  rw [checksumIs]
  rintro ⟨pair, listed, -, crc⟩
  simp only [mergedPairs, List.mem_cons, List.not_mem_nil, or_false] at listed
  rcases listed with rfl | rfl | rfl | rfl <;> exact absurd crc (by decide)

/-- Two flipped bits of a service id that are not reported: the checksum of the header is `0x00`, is
sent as `0xFF`, and the flips make it `0xFF`. -/
theorem not_always_reportsMismatch :
    ¬ ∀ (start : Stream) (header : Nat → UInt8) (serviceId : UInt8) (payload : List UInt8)
      (flips : Finset BitPosition), start.state = .huntSync → serviceId ≠ 0 →
      1 ≤ payload.length → payload.length ≤ 255 → 1 ≤ flips.card → flips.card ≤ 2 →
      ReportsMismatch start (encode header payload serviceId (UInt8.ofNat payload.length)).2.1
        flips := by
  intro always
  have reported := always (Stream.new (fun _ => 0) 255) (fun _ => 0) 243 [1] {(0, 0), (0, 6)} rfl
    (by decide) (by decide) (by decide) (by decide) (by decide)
  revert reported
  decide +kernel

end ForgeDrive.Abf
