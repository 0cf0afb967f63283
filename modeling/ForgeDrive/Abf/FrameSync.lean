/-
**The receiver is back in step after two frames.**

A frame is a sync byte with bytes behind it that are not zero. Fed to a receiver that is in the
middle of a header, it completes that header with bytes of its own, and the receiver is hunting or
in a payload of a length it made up (`outside_frame`). In a payload, the sync byte of the next frame
ends it, and the rest of that frame is skipped (`Outside.after_frame`). From then on every frame is
delivered.

* `hunting_two_frames` — after any bytes and two frames the receiver hunts;
* `process_resynchronises` — the third of three frames is delivered, and nothing else happens while
  its bytes are consumed, however the stream is cut.
-/

import ForgeDrive.Abf.Truncation

namespace ForgeDrive.Abf

section Outside

variable {start : Stream} {before : List UInt8}

/-- The receiver is not in a header after these bytes. -/
def Outside (start : Stream) (bytes : List UInt8) : Prop :=
  (start.process bytes).1.state ≠ .readHeader

theorem Hunting.outside (hunt : Hunting start before) : Outside start before := by
  rw [Outside, hunt]
  exact State.noConfusion

/-- A hunting receiver hunts through bytes that are not zero. -/
theorem Hunting.skip (hunt : Hunting start before) {bytes : List UInt8}
    (nonzero : ∀ byte ∈ bytes, byte ≠ 0) : Hunting start (before ++ bytes) := by
  rw [Hunting, process_append, process_skip hunt nonzero]
  exact hunt

/-- Behind a header is a payload. -/
theorem outside_header {earlier : List UInt8} (hunt : Hunting start earlier)
    (serviceId payloadLen code crc : UInt8) :
    Outside start (earlier ++ [0, serviceId, payloadLen, code, crc]) := by
  rw [Outside, process_header_fst hunt]
  exact State.noConfusion

/-- A header is begun by a zero only. -/
theorem Outside.concat (fresh : start.state = .huntSync) (outside : Outside start before)
    {byte : UInt8} (nonzero : byte ≠ 0) : Outside start (before ++ [byte]) := by
  cases position fresh before with
  | hunting hunt => exact (hunt.skip (List.forall_mem_singleton.mpr nonzero)).outside
  | header hunt missing =>
    rw [Outside, process_append] at outside
    exact absurd (process_sync_open hunt missing).1 outside
  | @payload earlier taken serviceId payloadLen code crc hunt inside room clean =>
    rcases payloadStep_at code crc hunt inside room clean byte with
      ⟨-, next, -⟩ | ⟨-, next, -⟩ | ⟨-, insideNext, roomNext, -, -⟩
    · exact (hunting_concat next).outside
    · exact (hunting_concat next).outside
    · have cleanNext : ∀ other ∈ taken ++ [byte], other ≠ 0 :=
        List.forall_mem_append.mpr ⟨clean, List.forall_mem_singleton.mpr nonzero⟩
      rw [Outside, List.append_assoc, process_inPayload hunt (.inl insideNext) roomNext cleanNext]
      exact State.noConfusion

theorem Outside.append (fresh : start.state = .huntSync) (outside : Outside start before)
    {bytes : List UInt8} (nonzero : ∀ byte ∈ bytes, byte ≠ 0) :
    Outside start (before ++ bytes) := by
  induction bytes generalizing before with
  | nil => rwa [List.append_nil]
  | cons byte rest ih =>
    obtain ⟨here, later⟩ := List.forall_mem_cons.mp nonzero
    rw [List.append_cons]
    exact ih (outside.concat fresh here) later

/-- A zero in a payload ends it. -/
theorem Outside.sync (fresh : start.state = .huntSync) (outside : Outside start before)
    (busy : ¬ Hunting start before) : Hunting start (before ++ [0]) := by
  cases position fresh before with
  | hunting hunt => exact absurd hunt busy
  | header hunt missing =>
    rw [Outside, process_append] at outside
    exact absurd (process_sync_open hunt missing).1 outside
  | @payload earlier taken serviceId payloadLen code crc hunt inside room clean =>
    rcases payloadStep_at code crc hunt inside room clean 0 with
      ⟨-, next, -⟩ | ⟨-, next, -⟩ | ⟨-, -, -, nonzero, -⟩
    · exact hunting_concat next
    · exact hunting_concat next
    · exact absurd rfl nonzero

end Outside

/-! ### Frames -/

/-- A frame a receiver of this capacity has room for, its payload of at most `254` bytes. -/
structure Receivable (capacity : Nat) (frame : UInt8 × List UInt8) : Prop where
  sendable : Sendable frame
  short : frame.2.length < 255
  room : frame.2.length ≤ capacity

section Frames

variable (header : Nat → UInt8) {start : Stream} {before : List UInt8} {frame : UInt8 × List UInt8}

/-- A frame, as the bytes it may give to a header that was begun before, and the bytes behind. -/
theorem Receivable.bytes {capacity : Nat} (receivable : Receivable capacity frame) :
    ∃ first second third rest,
      frameBytes header frame.1 frame.2 = 0 :: first :: second :: third :: rest ∧
        ∀ byte ∈ first :: second :: third :: rest, byte ≠ 0 := by
  obtain ⟨rest, bytes, nonzero⟩ :=
    frameBytes_eq_sync_cons header receivable.sendable receivable.short
  rw [receivable.sendable.frameBytes_eq, headerBytes] at bytes
  obtain ⟨-, rfl⟩ := List.cons.inj bytes
  refine ⟨_, _, _, _, ?_, nonzero⟩
  rw [receivable.sendable.frameBytes_eq, headerBytes]
  rfl

/-- A hunting receiver hunts again after a frame. -/
theorem Hunting.after_frame (hunt : Hunting start before)
    (receivable : Receivable start.rxCapacity frame) :
    Hunting start (before ++ frameBytes header frame.1 frame.2) := by
  have room : frame.2.length ≤ (start.process before).1.rxCapacity :=
    receivable.room.trans (process_rxCapacity start before).ge
  rw [Hunting, process_append, receivable.sendable.frameBytes_eq,
    process_frame hunt receivable.sendable room]
  rfl

/-- **A receiver that is not in a header hunts after a frame.** -/
theorem Outside.after_frame (fresh : start.state = .huntSync) (outside : Outside start before)
    (receivable : Receivable start.rxCapacity frame) :
    Hunting start (before ++ frameBytes header frame.1 frame.2) := by
  by_cases hunt : Hunting start before
  · exact hunt.after_frame header receivable
  · obtain ⟨first, second, third, rest, bytes, nonzero⟩ := receivable.bytes header
    rw [bytes, List.append_cons]
    exact (outside.sync fresh hunt).skip nonzero

/-- **After a frame a receiver is not in a header.** To a header that was begun before, the frame
gives the missing bytes; those behind them are not zero. -/
theorem outside_frame (fresh : start.state = .huntSync) (before : List UInt8)
    (receivable : Receivable start.rxCapacity frame) :
    Outside start (before ++ frameBytes header frame.1 frame.2) := by
  by_cases outside : Outside start before
  · exact (outside.after_frame header fresh receivable).outside
  · obtain ⟨first, second, third, rest, bytes, nonzero⟩ := receivable.bytes header
    rw [bytes]
    cases position fresh before with
    | hunting hunt => exact absurd hunt.outside outside
    | payload serviceId payloadLen code crc hunt inside room clean =>
      refine absurd ?_ outside
      rw [Outside, process_inPayload hunt inside room clean]
      exact State.noConfusion
    | @header earlier read hunt missing =>
      have later (n : Nat) : ∀ byte ∈ (first :: second :: third :: rest).drop n, byte ≠ 0 :=
        fun byte member => nonzero byte (List.mem_of_mem_drop member)
      rw [List.append_assoc]
      match read, missing with
      | [], _ =>
        rw [show 0 :: [] ++ 0 :: first :: second :: third :: rest =
          [0, 0, first, second, third] ++ rest from rfl, ← List.append_assoc]
        exact (outside_header hunt 0 first second third).append fresh (later 3)
      | [x], _ =>
        rw [show 0 :: [x] ++ 0 :: first :: second :: third :: rest =
          [0, x, 0, first, second] ++ third :: rest from rfl, ← List.append_assoc]
        exact (outside_header hunt x 0 first second).append fresh (later 2)
      | [x, y], _ =>
        rw [show 0 :: [x, y] ++ 0 :: first :: second :: third :: rest =
          [0, x, y, 0, first] ++ second :: third :: rest from rfl, ← List.append_assoc]
        exact (outside_header hunt x y 0 first).append fresh (later 1)
      | [x, y, z], _ =>
        rw [show 0 :: [x, y, z] ++ 0 :: first :: second :: third :: rest =
          [0, x, y, z, 0] ++ first :: second :: third :: rest from rfl, ← List.append_assoc]
        exact (outside_header hunt x y z 0).append fresh (later 0)

/-- **After any bytes and two frames the receiver hunts.** -/
theorem hunting_two_frames (fresh : start.state = .huntSync) (garbage : List UInt8)
    {first second : UInt8 × List UInt8} (receivableFirst : Receivable start.rxCapacity first)
    (receivableSecond : Receivable start.rxCapacity second) :
    Hunting start (garbage ++ wireBytes header [first, second]) := by
  have outside := outside_frame header fresh garbage receivableFirst
  have hunt := outside.after_frame header fresh receivableSecond
  rwa [List.append_assoc, ← List.append_nil (frameBytes header second.1 second.2)] at hunt

end Frames

/-- **Two frames bring a receiver back into step.** After any bytes, of three frames fed one after
the other the third is delivered; that is all that happens while its bytes are consumed, and the
receiver hunts behind it. -/
theorem process_resynchronises (header buffer : Nat → UInt8) (bufferSize : UInt8)
    (garbage : List UInt8) (first second third : UInt8 × List UInt8)
    (receivable : ∀ frame ∈ [first, second, third], Receivable bufferSize.toNat frame)
    (chunks : List (List UInt8))
    (split : chunks.flatten = garbage ++ wireBytes header [first, second, third]) :
    (EventMachine.run Stream.process (Stream.new buffer bufferSize) chunks).1.state = .huntSync ∧
      (EventMachine.run Stream.process (Stream.new buffer bufferSize) chunks).2 =
        ((Stream.new buffer bufferSize).process (garbage ++ wireBytes header [first, second])).2 ++
          [.onFrame third.1 third.2] := by
  set start := Stream.new buffer bufferSize with startDef
  have thirdReceivable := receivable third (by simp)
  have hunt : Hunting start (garbage ++ wireBytes header [first, second]) :=
    hunting_two_frames header rfl garbage (receivable first (by simp)) (receivable second (by simp))
  have bytes : chunks.flatten =
      garbage ++ wireBytes header [first, second] ++ wireBytes header [third] := by
    rw [split, List.append_assoc]
    simp [wireBytes]
  have fed : EventMachine.run Stream.process start chunks = start.process chunks.flatten :=
    EventMachine.run_chunks _ _ _
  have room := thirdReceivable.room.trans (process_rxCapacity start
    (garbage ++ wireBytes header [first, second])).ge
  have stream := process_wireBytes header hunt
    (List.forall_mem_singleton.mpr thirdReceivable.sendable) (List.forall_mem_singleton.mpr room)
  rw [fed, bytes, process_append, stream.2]
  exact ⟨stream.1, rfl⟩

/-- A receiver that has read two bytes of a header: the first frame completes a header that asks for
`0` bytes, and the empty frame is delivered. -/
theorem process_resynchronises_header :
    (EventMachine.run Stream.process (Stream.new (fun _ => 0) 16)
        [[9, 0, 7], wireBytes (fun _ => 0) [(1, [5]), (2, [6]), (3, [0, 8])]]).2 =
      ((Stream.new (fun _ => 0) 16).process
        ([9, 0, 7] ++ wireBytes (fun _ => 0) [(1, [5]), (2, [6])])).2 ++ [.onFrame 3 [0, 8]] :=
  (process_resynchronises (fun _ => 0) (fun _ => 0) 16 [9, 0, 7] (1, [5]) (2, [6]) (3, [0, 8])
    (by
      intro frame member
      simp only [List.mem_cons, List.not_mem_nil, or_false] at member
      rcases member with rfl | rfl | rfl <;>
        exact ⟨⟨by decide, by decide, by decide⟩, by decide, by decide⟩)
    _ rfl).2

end ForgeDrive.Abf
