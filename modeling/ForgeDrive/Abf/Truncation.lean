/-
**A truncated frame takes the next one with it.**

When a frame is cut inside its payload, the sync byte of the next frame arrives as a payload byte.
It is reported and resets the parser, but it is consumed by the turn that reports it: the receiver
hunts after it, and since no other byte of an encoded frame is zero it skips the whole next frame
(`process_truncated`). So the frame after a truncated one is never delivered, whatever the two
frames are (`not_costsOnlyItself`).
-/

import ForgeDrive.Abf.HeaderCheck

namespace ForgeDrive.Abf

open ZeroStuffing
open Circular (segment store)

/-- An encoded frame, cut after `received` payload bytes. -/
def truncatedFrame (header : Nat → UInt8) (frame : UInt8 × List UInt8) (received : Nat) :
    List UInt8 :=
  (frameBytes header frame.1 frame.2).take (headerSize + received)

/-- **A truncated frame costs only itself**: the frame `next` that follows it is delivered exactly
once, the truncated one is not delivered, and the sync byte that interrupts the payload begins the
next frame. -/
structure CostsOnlyItself (header : Nat → UInt8) (s : Stream) (cut : UInt8 × List UInt8)
    (received : Nat) (next : UInt8 × List UInt8) : Prop where
  delivered : (s.process (truncatedFrame header cut received ++
    frameBytes header next.1 next.2)).2.count (.onFrame next.1 next.2) = 1
  dropped : .onFrame cut.1 cut.2 ∉ (s.process (truncatedFrame header cut received ++
    frameBytes header next.1 next.2)).2
  resumed : (s.process (truncatedFrame header cut received ++ [syncByte])).1.state = .readHeader

theorem codeByte_ne_zero {payload : List UInt8} (short : payload.length < 255) :
    codeByte payload ≠ 0 := by
  have bound := stuff_distance_le byteCode payload
  exact byteCode.code_ne_zero _ (stuff_distance_pos byteCode payload)
    (by rw [byteCode_limit]; omega)

/-- After the sync byte, no byte of a frame with a payload of at most `254` bytes is zero. -/
theorem frameBytes_eq_sync_cons (header : Nat → UInt8) {frame : UInt8 × List UInt8}
    (sendable : Sendable frame) (short : frame.2.length < 255) :
    ∃ rest, frameBytes header frame.1 frame.2 = syncByte :: rest ∧ ∀ byte ∈ rest, byte ≠ 0 := by
  rw [sendable.frameBytes_eq, headerBytes]
  refine ⟨_, rfl, fun byte member => ?_⟩
  have length : UInt8.ofNat frame.2.length ≠ 0 :=
    byteCode.code_ne_zero _ sendable.nonempty (lt_trans short (by decide))
  rcases List.mem_append.mp member with member | member
  · simp only [List.mem_cons, List.not_mem_nil, or_false] at member
    rcases member with rfl | rfl | rfl | rfl
    · exact sendable.service
    · exact length
    · exact codeByte_ne_zero short
    · exact headerCrc_ne_zero _ _ _
  · exact encodedPayload_ne_zero sendable.short byte member

/-- **The receiver after a frame that was cut inside its payload**, and nothing reported yet. -/
theorem process_truncated (header : Nat → UInt8) {s : Stream} (hunt : s.state = .huntSync)
    {cut : UInt8 × List UInt8} (sendable : Sendable cut) (capacity : cut.2.length ≤ s.rxCapacity)
    {received : Nat} (inside : received < cut.2.length) :
    s.process (truncatedFrame header cut received) =
      (s.inPayload cut.1 (UInt8.ofNat cut.2.length) (codeByte cut.2)
        (headerCrc cut.1 (UInt8.ofNat cut.2.length) (codeByte cut.2))
        ((encodedPayload cut.2).take received), []) := by
  have length : (UInt8.ofNat cut.2.length).toNat = cut.2.length :=
    UInt8.toNat_ofNat_of_lt' sendable.short
  have taken : ((encodedPayload cut.2).take received).length = received := by
    rw [List.length_take, encodedPayload_length]
    omega
  have bytes : truncatedFrame header cut received =
      headerBytes cut.1 cut.2 ++ (encodedPayload cut.2).take received := by
    rw [truncatedFrame, sendable.frameBytes_eq]
    show List.take ((headerBytes cut.1 cut.2).length + received) _ = _
    exact List.take_length_add_append received
  have headed := process_header hunt cut.1 (UInt8.ofNat cut.2.length) (codeByte cut.2)
    (headerCrc cut.1 (UInt8.ofNat cut.2.length) (codeByte cut.2))
  rw [if_pos rfl] at headed
  rw [bytes, process_append, headerBytes, syncByte, headed, process_payload_open rfl
    (by rw [startPayload_header_two, length, taken]; exact (Nat.zero_add _).trans_lt inside)
    (by rw [taken]; exact (Nat.zero_add _).trans_le (inside.le.trans capacity))
    fun byte member => encodedPayload_ne_zero sendable.short byte (List.mem_of_mem_take member)]
  rfl

/-- The interrupting sync byte: reported, and the receiver hunts behind it. Where the payload was to
be a single byte, the zero is delivered in its place. -/
theorem inPayload_interrupted (s : Stream) (serviceId payloadLen code crc : UInt8)
    (taken : List UInt8) (inside : taken.length < payloadLen.toNat) (room : 0 < s.rxCapacity) :
    ∃ after : Stream, after.state = .huntSync ∧
      (s.inPayload serviceId payloadLen code crc taken).processOne syncByte =
        (after, .onError .payloadIncomplete ::
          if payloadLen.toNat = 1 then [.onFrame serviceId [0]] else []) := by
  set t := s.inPayload serviceId payloadLen code crc taken with tDef
  have insideState : t.rxPos < (t.header 2).toNat := by
    rw [tDef, inPayload_rxPos, inPayload_header_two]
    exact inside
  rw [syncByte, processOne_zero rfl insideState room]
  have position : (t.reset.accept 0).rxPos = 1 := accept_rxPos _ _
  have declared : (t.reset.accept 0).header 2 = payloadLen := by
    rw [accept_header]
    rfl
  have service : (t.reset.accept 0).header 1 = serviceId := by
    rw [accept_header]
    rfl
  have stored : (t.reset.accept 0).rxPayload 0 = 0 := by
    unfold Stream.accept
    split <;> rfl
  by_cases single : payloadLen.toNat = 1
  · refine ⟨(t.reset.accept 0).reset, rfl, ?_⟩
    rw [deliver_complete (by rw [position, declared, single]), if_pos single, Stream.frame, service,
      declared, single]
    simp [Circular.segment, stored]
  · refine ⟨t.reset.accept 0, accept_state _ _, ?_⟩
    rw [deliver_open (by rw [position, declared]; exact Ne.symm single), if_neg single]

/-- **A frame after a truncated one is lost.** Whatever the two frames and the cut are, the receiver
reports the incomplete payload, delivers at most the one-byte payload `[0]` of the truncated frame,
hunts, and does not deliver the frame that follows: there is no input on which a truncated frame
costs only itself. -/
theorem not_costsOnlyItself (header : Nat → UInt8) (s : Stream) (hunt : s.state = .huntSync)
    (cut next : UInt8 × List UInt8) (sendableCut : Sendable cut) (sendableNext : Sendable next)
    (shortNext : next.2.length < 255) (capacity : cut.2.length ≤ s.rxCapacity) (received : Nat)
    (inside : received < cut.2.length) :
    ¬ CostsOnlyItself header s cut received next ∧
      (s.process (truncatedFrame header cut received ++
        frameBytes header next.1 next.2)).1.state = .huntSync ∧
      (s.process (truncatedFrame header cut received ++ frameBytes header next.1 next.2)).2 =
        .onError .payloadIncomplete ::
          if cut.2.length = 1 then [.onFrame cut.1 [0]] else [] := by
  have length : (UInt8.ofNat cut.2.length).toNat = cut.2.length :=
    UInt8.toNat_ofNat_of_lt' sendableCut.short
  have taken : ((encodedPayload cut.2).take received).length = received := by
    rw [List.length_take, encodedPayload_length]
    omega
  obtain ⟨rest, bytes, nonzero⟩ := frameBytes_eq_sync_cons header sendableNext shortNext
  obtain ⟨after, hunting, interrupted⟩ := inPayload_interrupted s cut.1
    (UInt8.ofNat cut.2.length) (codeByte cut.2)
    (headerCrc cut.1 (UInt8.ofNat cut.2.length) (codeByte cut.2))
    ((encodedPayload cut.2).take received) (by rw [taken, length]; exact inside)
    (lt_of_lt_of_le (Nat.zero_lt_of_lt inside) capacity)
  rw [length] at interrupted
  have fed := process_truncated header hunt sendableCut capacity inside
  refine ⟨fun property => ?_, ?_, ?_⟩
  · have resumed := property.resumed
    rw [process_append, fed, process_cons, interrupted, process_nil, hunting] at resumed
    exact State.noConfusion resumed
  · rw [process_append, fed, bytes, process_cons, interrupted, process_skip hunting nonzero]
    exact hunting
  · rw [process_append, fed, bytes, process_cons, interrupted, process_skip hunting nonzero,
      List.append_nil, List.nil_append]

/-- A three byte payload cut after its first byte, and a one byte frame behind it. -/
theorem not_costsOnlyItself_cut :
    (Stream.process (Stream.new (fun _ => 0) 255) (truncatedFrame (fun _ => 0) (0x21, [1, 2, 3]) 1 ++
      frameBytes (fun _ => 0) 0x22 [9])).2 = [.onError .payloadIncomplete] :=
  (not_costsOnlyItself (fun _ => 0) (Stream.new (fun _ => 0) 255) rfl (0x21, [1, 2, 3]) (0x22, [9])
    ⟨by decide, by decide, by decide⟩ ⟨by decide, by decide, by decide⟩ (by decide) (by decide) 1
    (by decide)).2.2

theorem costsOnlyItself_fails :
    ¬ ∀ (header : Nat → UInt8) (s : Stream) (cut next : UInt8 × List UInt8) (received : Nat),
      s.state = .huntSync → Sendable cut → Sendable next → cut.2.length < 255 →
      next.2.length < 255 → cut.2.length ≤ s.rxCapacity → next.2.length ≤ s.rxCapacity →
      received < cut.2.length → CostsOnlyItself header s cut received next := by
  intro always
  have property := always (fun _ => 0) (Stream.new (fun _ => 0) 255) (0x21, [1, 2, 3]) (0x22, [9]) 1
    rfl ⟨by decide, by decide, by decide⟩ ⟨by decide, by decide, by decide⟩ (by decide) (by decide)
    (by decide) (by decide) (by decide)
  exact absurd property.delivered (by decide +kernel)

end ForgeDrive.Abf
