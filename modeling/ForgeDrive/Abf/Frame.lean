/-
**What `encode` puts on the wire.**

The in-place loop of `encode` walks a pointer from zero to zero. `encode_eq`: its result is the zero
stuffing of the payload, with the distance to the first zero as the header's code byte. So no byte
after the sync byte is zero, but for a code byte that stands for the distance `256`.
-/

import ForgeDrive.Abf.Stream
import ForgeDrive.Library.ZeroStuffing

namespace ForgeDrive.Abf

open ZeroStuffing
open Circular (segment)

/-! ### Bytes as distances -/

/-- Distances in bytes: `1 … 256`, with `256` written as `0`. -/
def byteCode : DistanceCode UInt8 where
  zero := 0
  code := UInt8.ofNat
  next := fun countdown => countdown - 1
  limit := 256
  next_code := fun distance _ => by
    show UInt8.ofNat (distance + 1) - 1 = UInt8.ofNat distance
    rw [UInt8.ofNat_add]
    exact UInt8.add_sub_cancel _ _
  code_ne_one := fun distance one le same => by
    have values := congrArg UInt8.toNat same
    rw [UInt8.toNat_ofNat', UInt8.toNat_ofNat'] at values
    omega
  code_ne_zero := fun distance positive lt same => by
    have values := congrArg UInt8.toNat same
    rw [UInt8.toNat_ofNat'] at values
    change distance % 2 ^ 8 = 0 at values
    omega
  code_limit := rfl

@[simp] theorem byteCode_zero : byteCode.zero = 0 := rfl
@[simp] theorem byteCode_code (distance : Nat) :
    byteCode.code distance = UInt8.ofNat distance := rfl
@[simp] theorem byteCode_next (countdown : UInt8) : byteCode.next countdown = countdown - 1 := rfl
@[simp] theorem byteCode_limit : byteCode.limit = 256 := rfl

/-- The code byte of a payload: the distance to its first zero. -/
def codeByte (payload : List UInt8) : UInt8 := UInt8.ofNat (stuff byteCode payload).1

/-- The payload with its zeros overwritten by distances. -/
def encodedPayload (payload : List UInt8) : List UInt8 := (stuff byteCode payload).2

/-- The five header bytes of a frame. -/
def headerBytes (serviceId : UInt8) (payload : List UInt8) : List UInt8 :=
  let payloadLen := UInt8.ofNat payload.length
  [syncByte, serviceId, payloadLen, codeByte payload,
    headerCrc serviceId payloadLen (codeByte payload)]

@[simp] theorem encodedPayload_length (payload : List UInt8) :
    (encodedPayload payload).length = payload.length := stuff_length _ _

theorem encodedPayload_ne_zero {payload : List UInt8} (short : payload.length < 256) :
    ∀ byte ∈ encodedPayload payload, byte ≠ 0 := stuff_ne_zero byteCode payload short

/-! ### The pointer walk of `encode` -/

/-- Writing a distance at the end of the loop: what is left of the encoder. -/
def Encoder.finish (e : Encoder) (distance : UInt8) : (Nat → UInt8) × List UInt8 :=
  ((e.writeDistance distance).header, (e.writeDistance distance).payload)

/-- The pointer of an encoder points before index `i`. -/
def NextZeroPos.Before (i : Nat) : NextZeroPos → Prop
  | .code => True
  | .payload index => index < i

theorem NextZeroPos.Before.mono {pointer : NextZeroPos} {i j : Nat} (before : pointer.Before i)
    (le : i ≤ j) : pointer.Before j := by
  cases pointer with
  | code => trivial
  | payload index => exact lt_of_lt_of_le before le

/-- A zero at the loop index: the pending distance is written, and the pointer moves here. -/
theorem step_zero {e : Encoder} {i : Nat} (zero : e.payload[i]? = some 0) :
    e.step i = { e.writeDistance (e.zeroDistance + 1) with
      nextZeroPos := .payload i, zeroDistance := 0 } := by
  unfold Encoder.step
  simp only [zero, if_true, Encoder.writeDistance]
  cases e.nextZeroPos <;> rfl

/-- Any other byte only counts. -/
theorem step_of_ne {e : Encoder} {i : Nat} (nonzero : e.payload[i]? ≠ some 0) :
    e.step i = { e with zeroDistance := e.zeroDistance + 1 } := if_neg nonzero

/-- **The pointer walk is zero stuffing.** With the loop at index `done.length` and the bytes before
it already rewritten, the rest of the loop stuffs the rest of the payload, and adds the distance to
its first zero to the distance counted so far. -/
theorem foldl_step_finish (rest done : List UInt8) (e : Encoder)
    (payload : e.payload = done ++ rest) (before : e.nextZeroPos.Before done.length) :
    ((List.range' done.length rest.length).foldl Encoder.step e).finish
        (((List.range' done.length rest.length).foldl Encoder.step e).zeroDistance + 1) =
      ({ e with payload := done ++ (stuff byteCode rest).2 } : Encoder).finish
        (e.zeroDistance + UInt8.ofNat (stuff byteCode rest).1) := by
  induction rest generalizing done e with
  | nil =>
    rw [List.append_nil] at payload
    simp only [List.length_nil, List.range'_zero, List.foldl_nil, stuff, List.append_nil, ← payload]
    rfl
  | cons byte rest ih =>
    have current : e.payload[done.length]? = some byte := by
      rw [payload, List.getElem?_append_right (Nat.le_refl _), Nat.sub_self]
      rfl
    rw [List.length_cons, List.range'_succ, List.foldl_cons]
    by_cases isZero : byte = 0
    · subst isZero
      rw [step_zero current, show (0 : UInt8) = byteCode.zero from rfl, stuff_cons_zero]
      -- The bytes before the index, with the pending distance written where the pointer was.
      cases pointer : e.nextZeroPos with
      | code =>
        have next := ih (done ++ [0])
          { e.writeDistance (e.zeroDistance + 1) with
            nextZeroPos := .payload done.length, zeroDistance := 0 }
          (by simp [Encoder.writeDistance, pointer, payload])
          (by simp [NextZeroPos.Before])
        rw [List.length_append, List.length_singleton] at next
        apply next.trans
        simp [Encoder.finish, Encoder.writeDistance, pointer]
      | payload index =>
        rw [pointer] at before
        have next := ih (done.set index (e.zeroDistance + 1) ++ [0])
          { e.writeDistance (e.zeroDistance + 1) with
            nextZeroPos := .payload done.length, zeroDistance := 0 }
          (by simp [Encoder.writeDistance, pointer, payload, List.set_append_left _ _ before])
          (by simp [NextZeroPos.Before])
        rw [List.length_append, List.length_singleton, List.length_set] at next
        apply next.trans
        simp [Encoder.finish, Encoder.writeDistance, pointer, List.set_append_left _ _ before]
    · have nonzero : e.payload[done.length]? ≠ some 0 := by
        rw [current]
        exact fun same => isZero (Option.some.inj same)
      have beforeNext : e.nextZeroPos.Before (done.length + 1) := before.mono (Nat.le_succ _)
      have distance : e.zeroDistance + 1 + UInt8.ofNat (stuff byteCode rest).1 =
          e.zeroDistance + UInt8.ofNat ((stuff byteCode rest).1 + 1) := by
        rw [UInt8.ofNat_add, UInt8.add_assoc, UInt8.add_comm 1]
        rfl
      rw [step_of_ne nonzero, stuff_cons_of_ne byteCode isZero]
      have next := ih (done ++ [byte]) { e with zeroDistance := e.zeroDistance + 1 }
        (by rw [List.append_assoc]; exact payload)
        (by rw [List.length_append]; exact beforeNext)
      rw [List.length_append, List.length_singleton] at next
      apply next.trans
      simp only [distance, List.append_assoc, List.singleton_append]
      unfold Encoder.finish Encoder.writeDistance
      cases e.nextZeroPos <;> rfl

/-! ### The frame -/

/-- **What `encode` computes**, for a service and a payload it accepts. -/
theorem encode_eq (header : Nat → UInt8) {serviceId : UInt8} {payload : List UInt8}
    (service : serviceId ≠ 0) (nonempty : 0 < payload.length) (short : payload.length < 256) :
    ∃ after, encode header payload serviceId (UInt8.ofNat payload.length) =
        (.ok, after, encodedPayload payload) ∧
      segment after 0 headerSize = headerBytes serviceId payload := by
  have length : (UInt8.ofNat payload.length).toNat = payload.length :=
    UInt8.toNat_ofNat_of_lt' short
  have lengthNonzero : UInt8.ofNat payload.length ≠ 0 := by
    intro zero
    rw [zero] at length
    exact absurd length (Nat.ne_of_lt nonempty)
  let start : Nat → UInt8 := Function.update (Function.update (Function.update header 0 syncByte) 1
    serviceId) 2 (UInt8.ofNat payload.length)
  let last := (List.range payload.length).foldl Encoder.step ⟨start, payload, .code, 0⟩
  let written := last.writeDistance (last.zeroDistance + 1)
  have walk : (written.header, written.payload) =
      (Function.update start 3 (0 + codeByte payload), encodedPayload payload) := by
    have walked := foldl_step_finish payload [] ⟨start, payload, .code, 0⟩ rfl trivial
    rw [List.length_nil, ← List.range_eq_range'] at walked
    exact walked
  obtain ⟨headerWalk, payloadWalk⟩ := Prod.mk.inj walk
  rw [UInt8.zero_add] at headerWalk
  refine ⟨Function.update written.header 4
    (headerCrc (written.header 1) (written.header 2) (written.header 3)), ?_, ?_⟩
  · rw [encode, if_neg lengthNonzero, if_neg service, length, ← payloadWalk]
  · rw [headerWalk]
    rfl

/-- The bytes of a frame on the wire: the header and the payload that `encode` leaves behind. -/
def frameBytes (header : Nat → UInt8) (serviceId : UInt8) (payload : List UInt8) : List UInt8 :=
  let encoded := encode header payload serviceId (UInt8.ofNat payload.length)
  segment encoded.2.1 0 headerSize ++ encoded.2.2

/-- A service and a payload that `encode` accepts, its length a `uint8_t`. -/
structure Sendable (frame : UInt8 × List UInt8) : Prop where
  service : frame.1 ≠ 0
  nonempty : 0 < frame.2.length
  short : frame.2.length < 256

theorem Sendable.encode_ok {frame : UInt8 × List UInt8} (sendable : Sendable frame)
    (header : Nat → UInt8) :
    (encode header frame.2 frame.1 (UInt8.ofNat frame.2.length)).1 = .ok := by
  obtain ⟨after, encoded, _⟩ :=
    encode_eq header sendable.service sendable.nonempty sendable.short
  rw [encoded]

theorem Sendable.frameBytes_eq {frame : UInt8 × List UInt8} (sendable : Sendable frame)
    (header : Nat → UInt8) :
    frameBytes header frame.1 frame.2 = headerBytes frame.1 frame.2 ++ encodedPayload frame.2 := by
  obtain ⟨after, encoded, bytes⟩ :=
    encode_eq header sendable.service sendable.nonempty sendable.short
  simp only [frameBytes, encoded, bytes]

/-! ### Zeros on the wire -/

/-- **The sync byte occurs once**: what `encode` returned is a frame in which no header byte but the
first and no byte of the rewritten payload is `0x00`. -/
structure SyncOnce (encoded : Err × (Nat → UInt8) × List UInt8) : Prop where
  ok : encoded.1 = .ok
  header : ∀ i, 1 ≤ i → i ≤ 4 → encoded.2.1 i ≠ 0
  payload : ∀ byte ∈ encoded.2.2, byte ≠ 0

/-- The header bytes one by one. -/
theorem encode_header (header : Nat → UInt8) {serviceId : UInt8} {payload : List UInt8}
    (service : serviceId ≠ 0) (nonempty : 0 < payload.length) (short : payload.length < 256) :
    ∃ after, encode header payload serviceId (UInt8.ofNat payload.length) =
        (.ok, after, encodedPayload payload) ∧
      after 0 = syncByte ∧ after 1 = serviceId ∧ after 2 = UInt8.ofNat payload.length ∧
      after 3 = codeByte payload ∧ after 4 =
        headerCrc serviceId (UInt8.ofNat payload.length) (codeByte payload) := by
  obtain ⟨after, encoded, bytes⟩ := encode_eq header service nonempty short
  have same : [after 0, after 1, after 2, after 3, after 4] = headerBytes serviceId payload := bytes
  simp only [headerBytes, List.cons.injEq] at same
  exact ⟨after, encoded, same.1, same.2.1, same.2.2.1, same.2.2.2.1, same.2.2.2.2.1⟩

/-- The code byte is zero for the longest payload without a zero only: its distance is `256`. -/
theorem codeByte_eq_zero_iff {payload : List UInt8} (short : payload.length ≤ 255) :
    codeByte payload = 0 ↔ payload.length = 255 ∧ ∀ byte ∈ payload, byte ≠ 0 := by
  have positive := stuff_distance_pos byteCode payload
  have bound := stuff_distance_le byteCode payload
  have noZero := stuff_distance_eq_iff byteCode payload
  rw [byteCode_zero] at noZero
  have wraps : codeByte payload = 0 ↔ (stuff byteCode payload).1 = 256 := by
    rw [codeByte, ← UInt8.toNat_inj, UInt8.toNat_ofNat']
    show _ % 256 = 0 ↔ _
    omega
  have absent : (∀ byte ∈ payload, byte ≠ 0) ↔ 0 ∉ payload :=
    ⟨fun all member => all 0 member rfl, fun none byte member same => none (same ▸ member)⟩
  rw [wraps, absent, ← noZero]
  omega

/-- **When a frame holds its sync byte only once**: for every service and payload that `encode`
accepts, unless the payload has the maximal length of `255` bytes and no zero among them. -/
theorem encode_syncOnce_iff (header : Nat → UInt8) {serviceId : UInt8} {payload : List UInt8}
    (service : serviceId ≠ 0) (nonempty : 1 ≤ payload.length) (short : payload.length ≤ 255) :
    SyncOnce (encode header payload serviceId (UInt8.ofNat payload.length)) ↔
      ¬ (payload.length = 255 ∧ ∀ byte ∈ payload, byte ≠ 0) := by
  obtain ⟨after, encoded, -, serviceAt, lengthAt, codeAt, crcAt⟩ :=
    encode_header header service nonempty (Nat.lt_succ_of_le short)
  have length : UInt8.ofNat payload.length ≠ 0 := by
    rw [Ne, ← UInt8.toNat_inj, UInt8.toNat_ofNat_of_lt' (Nat.lt_succ_of_le short)]
    exact Nat.ne_of_gt nonempty
  rw [encoded, ← codeByte_eq_zero_iff short]
  constructor
  · intro once
    rw [← codeAt]
    exact once.header 3 (by decide) (by decide)
  · intro code
    refine ⟨rfl, fun i positive le => ?_, encodedPayload_ne_zero (Nat.lt_succ_of_le short)⟩
    match i, positive, le with
    | 1, _, _ => exact fun zero => service (serviceAt.symm.trans zero)
    | 2, _, _ => exact fun zero => length (lengthAt.symm.trans zero)
    | 3, _, _ => exact fun zero => code (codeAt.symm.trans zero)
    | 4, _, _ => exact fun zero => headerCrc_ne_zero _ _ _ (crcAt.symm.trans zero)

/-- A payload of one zero, the shortest there is. -/
theorem encode_syncOnce_iff_zero :
    (7 : UInt8) ≠ 0 ∧ SyncOnce (encode (fun _ => 0) [0] 7 1) :=
  ⟨by decide, (encode_syncOnce_iff (fun _ => 0) (show (7 : UInt8) ≠ 0 by decide)
    (show 1 ≤ [(0 : UInt8)].length by decide) (by decide)).mpr (by decide)⟩

/-- `255` bytes without a zero: the distance `256` is written as the code byte `0x00`. -/
theorem not_always_syncOnce :
    ¬ ∀ (header : Nat → UInt8) (serviceId : UInt8) (payload : List UInt8), serviceId ≠ 0 →
      1 ≤ payload.length → payload.length ≤ 255 →
      SyncOnce (encode header payload serviceId (UInt8.ofNat payload.length)) := by
  intro always
  have length : (List.replicate 255 (1 : UInt8)).length = 255 := List.length_replicate
  obtain ⟨after, encoded, -, -, -, codeAt, -⟩ := encode_header (fun _ => 0)
    (show (7 : UInt8) ≠ 0 by decide) (show 0 < (List.replicate 255 (1 : UInt8)).length by
      rw [length]; decide) (by rw [length]; decide)
  have once := always (fun _ => 0) 7 (List.replicate 255 1) (by decide) (length.symm ▸ by decide)
    length.le
  rw [encoded] at once
  refine once.header 3 (by decide) (by decide) (codeAt.trans ((codeByte_eq_zero_iff length.le).mpr
    ⟨length, fun byte member => ?_⟩))
  rw [List.eq_of_mem_replicate member]
  decide

end ForgeDrive.Abf
