/-
**Frames survive the wire.**

`process_frame`: a hunting receiver with room for the payload delivers an encoded frame and hunts
again. By induction over the frames of a stream, and because the receiver does not see how the
stream is cut into chunks (`EventMachine.run_chunks`), `process_frames_roundTrip`: every service
and payload given to `encode` is delivered exactly once, in order, and no error is reported.
-/

import ForgeDrive.Abf.Receive

namespace ForgeDrive.Abf

open ZeroStuffing
open Circular (segment store)

@[simp] theorem startPayload_header_two (s : Stream) (serviceId payloadLen code crc : UInt8) :
    (s.startPayload serviceId payloadLen code crc).header 2 = payloadLen := rfl

/-- Decoding an encoded payload into the buffer restores the payload. -/
theorem segment_acceptAll {s : Stream} (fromStart : s.rxPos = 0) {payload : List UInt8}
    (short : payload.length < 256) (countdown : s.rxNextZero = codeByte payload) :
    segment (s.acceptAll (encodedPayload payload)).rxPayload 0 payload.length = payload := by
  have decoded : unstuff byteCode s.rxNextZero (encodedPayload payload) = payload := by
    rw [countdown]
    exact unstuff_stuff byteCode payload short
  show segment (store s.rxPayload s.rxPos _) 0 payload.length = payload
  rw [decoded, fromStart]
  exact Circular.segment_store _ _ _

/-- The receiver after a frame. -/
def Stream.afterFrame (s : Stream) (serviceId : UInt8) (payload : List UInt8) : Stream :=
  ((s.startPayload serviceId (UInt8.ofNat payload.length) (codeByte payload)
    (headerCrc serviceId (UInt8.ofNat payload.length) (codeByte payload))).acceptAll
      (encodedPayload payload)).reset

/-- **One frame**: delivered, with the receiver hunting again. -/
theorem process_frame {s : Stream} (hunt : s.state = .huntSync) {frame : UInt8 × List UInt8}
    (sendable : Sendable frame) (capacity : frame.2.length ≤ s.rxCapacity) :
    s.process (headerBytes frame.1 frame.2 ++ encodedPayload frame.2) =
      (s.afterFrame frame.1 frame.2, [.onFrame frame.1 frame.2]) := by
  have length : (UInt8.ofNat frame.2.length).toNat = frame.2.length :=
    UInt8.toNat_ofNat_of_lt' sendable.short
  have some_ : encodedPayload frame.2 ≠ [] := by
    rw [← List.length_pos_iff, encodedPayload_length]
    exact sendable.nonempty
  have header := process_header hunt frame.1 (UInt8.ofNat frame.2.length) (codeByte frame.2)
    (headerCrc frame.1 (UInt8.ofNat frame.2.length) (codeByte frame.2))
  rw [if_pos rfl] at header
  rw [process_append, headerBytes, syncByte, header, process_payload_whole rfl some_
    (by rw [startPayload_header_two, length, encodedPayload_length]; exact Nat.zero_add _)
    (by rw [startPayload_header_two, length]; exact capacity)
    (encodedPayload_ne_zero sendable.short), List.nil_append]
  refine Prod.ext rfl (congrArg (fun event => [event]) ?_)
  show Event.onFrame frame.1 (segment _ 0 (UInt8.ofNat frame.2.length).toNat) = _
  rw [length, segment_acceptAll rfl sendable.short rfl]

/-- The bytes of a list of frames, one after the other. -/
def wireBytes (header : Nat → UInt8) (frames : List (UInt8 × List UInt8)) : List UInt8 :=
  (frames.map fun frame => frameBytes header frame.1 frame.2).flatten

/-- The deliveries of a list of frames. -/
def deliveries (frames : List (UInt8 × List UInt8)) : List Event :=
  frames.map fun frame => .onFrame frame.1 frame.2

/-- **A stream of frames**, fed in one piece. -/
theorem process_wireBytes (header : Nat → UInt8) {s : Stream} (hunt : s.state = .huntSync)
    {frames : List (UInt8 × List UInt8)} (sendable : ∀ frame ∈ frames, Sendable frame)
    (capacity : ∀ frame ∈ frames, frame.2.length ≤ s.rxCapacity) :
    (s.process (wireBytes header frames)).1.state = .huntSync ∧
      (s.process (wireBytes header frames)).2 = deliveries frames := by
  induction frames generalizing s with
  | nil => exact ⟨hunt, rfl⟩
  | cons frame rest ih =>
    have here := sendable frame List.mem_cons_self
    rw [wireBytes, List.map_cons, List.flatten_cons, here.frameBytes_eq, process_append,
      process_frame hunt here (capacity frame List.mem_cons_self)]
    have later := ih (s := s.afterFrame frame.1 frame.2) rfl
      (fun other member => sendable other (List.mem_cons_of_mem _ member))
      (fun other member => capacity other (List.mem_cons_of_mem _ member))
    exact ⟨later.1, congrArg (_ :: ·) later.2⟩

/-- **The framing round trip**: every list of frames that `encode` accepts, fed in any chunks to a
hunting receiver with room for the payloads, is delivered frame by frame and nothing else
happens. -/
theorem process_frames_roundTrip (header : Nat → UInt8) (s : Stream) (hunt : s.state = .huntSync)
    (frames : List (UInt8 × List UInt8)) (sendable : ∀ frame ∈ frames, Sendable frame)
    (capacity : ∀ frame ∈ frames, frame.2.length ≤ s.rxCapacity) (chunks : List (List UInt8))
    (split : chunks.flatten = wireBytes header frames) :
    (∀ frame ∈ frames,
        (encode header frame.2 frame.1 (UInt8.ofNat frame.2.length)).1 = .ok) ∧
      (EventMachine.run Stream.process s chunks).2 = deliveries frames ∧
      (EventMachine.run Stream.process s chunks).1.state = .huntSync := by
  have fed : EventMachine.run Stream.process s chunks = s.process (wireBytes header frames) := by
    rw [← split]
    exact EventMachine.run_chunks _ _ _
  have stream := process_wireBytes header hunt sendable capacity
  rw [fed]
  exact ⟨fun frame member => (sendable frame member).encode_ok header, stream.2, stream.1⟩

/-- Two frames with zeros, cut inside the first header and inside the second payload. -/
theorem process_frames_roundTrip_two :
    (EventMachine.run Stream.process (Stream.new (fun _ => 0) 255)
        [[0, 0x21, 3], [1, 0x4C, 2, 0x41], [1, 0, 7, 2, 2, 0x1F, 5], [1]]).2 =
      [.onFrame 0x21 [0, 0x41, 0], .onFrame 7 [5, 0]] :=
  (process_frames_roundTrip (fun _ => 0) (Stream.new (fun _ => 0) 255) rfl
    [(0x21, [0, 0x41, 0]), (7, [5, 0])]
    (by
      intro frame member
      rcases List.mem_pair.mp member with rfl | rfl
      · exact ⟨by decide, by decide, by decide⟩
      · exact ⟨by decide, by decide, by decide⟩)
    (by
      intro frame member
      rcases List.mem_pair.mp member with rfl | rfl
      · exact (by decide : 3 ≤ 255)
      · exact (by decide : 2 ≤ 255))
    [[0, 0x21, 3], [1, 0x4C, 2, 0x41], [1, 0, 7, 2, 2, 0x1F, 5], [1]] (by decide +kernel)).2.1

end ForgeDrive.Abf
