/-
**A stream of frames that is disturbed again and again.**

Between the frames of a stream there is noise: any bytes, among them what is left of frames that were
cut or changed. The noise may bring frames of its own, since the checksum of a header does not keep
them out, and errors; it costs the two frames behind it at most.

`noisy_stream`: whatever the noise is and however the stream is cut into chunks, the frames in front of
the first noise are delivered, and behind each noise all frames but the first two, one right after the
other.

The payloads are of at most 254 bytes. `encode` takes one byte more; the code in the header of such a
frame can be a second sync byte, and after noise the receiver may take it for the first.
-/

import ForgeDrive.Abf.FrameSync

namespace ForgeDrive.Abf

/-- Noise, and the frames behind it. -/
structure Disturbed where
  noise : List UInt8
  frames : List (UInt8 × List UInt8)

/-- Its bytes. -/
def Disturbed.bytes (header : Nat → UInt8) (part : Disturbed) : List UInt8 :=
  part.noise ++ wireBytes header part.frames

/-- The callbacks of a disturbed part: those of the noise and of the two frames behind it, and then the
frames that are left. -/
def Disturbed.callbacks (part : Disturbed) (noisy : List Event) : List Event :=
  noisy ++ deliveries (part.frames.drop 2)

section Parts

variable (header : Nat → UInt8) {start : Stream}

/-- **One disturbed part**, behind any bytes. -/
theorem disturbed_part (fresh : start.state = .huntSync) (before : List UInt8) (part : Disturbed)
    (receivable : ∀ frame ∈ part.frames, Receivable start.rxCapacity frame) :
    ∃ noisy, ((start.process before).1.process (part.bytes header)).2 = part.callbacks noisy := by
  obtain ⟨noise, frames⟩ := part
  match frames, receivable with
  | [], _ => exact ⟨_, (List.append_nil _).symm⟩
  | [_], _ => exact ⟨_, (List.append_nil _).symm⟩
  | first :: second :: rest, receivable =>
    have hunt := hunting_two_frames header fresh (before ++ noise)
      (receivable first List.mem_cons_self)
      (receivable second (List.mem_cons_of_mem _ List.mem_cons_self))
    have inRest : ∀ frame ∈ rest, Receivable start.rxCapacity frame := fun frame member =>
      receivable frame (List.mem_cons_of_mem _ (List.mem_cons_of_mem _ member))
    have stream := process_wireBytes header hunt (fun frame member => (inRest frame member).sendable)
      fun frame member => (inRest frame member).room.trans (process_rxCapacity start _).ge
    have bytes : Disturbed.bytes header ⟨noise, first :: second :: rest⟩ =
        (noise ++ wireBytes header [first, second]) ++ wireBytes header rest := by
      rw [Disturbed.bytes, List.append_assoc]
      simp [wireBytes]
    have behind : ((start.process before).1.process (noise ++ wireBytes header [first, second])).1 =
        (start.process (before ++ noise ++ wireBytes header [first, second])).1 := by
      rw [List.append_assoc, process_append start before]
    rw [bytes, process_append, behind, stream.2]
    exact ⟨_, rfl⟩

/-- The parts, one after the other. -/
theorem disturbed_parts (fresh : start.state = .huntSync) (before : List UInt8)
    (parts : List Disturbed)
    (receivable : ∀ part ∈ parts, ∀ frame ∈ part.frames, Receivable start.rxCapacity frame) :
    ∃ noisy : List (List Event), noisy.length = parts.length ∧
      ((start.process before).1.process (parts.flatMap (Disturbed.bytes header))).2 =
        (List.zipWith Disturbed.callbacks parts noisy).flatten := by
  induction parts generalizing before with
  | nil => exact ⟨[], rfl, rfl⟩
  | cons part rest ih =>
    obtain ⟨here, later⟩ := List.forall_mem_cons.mp receivable
    obtain ⟨events, callbacks⟩ := disturbed_part header fresh before part here
    obtain ⟨noisy, length, behind⟩ := ih (before ++ part.bytes header) later
    refine ⟨events :: noisy, congrArg (· + 1) length, ?_⟩
    rw [process_append start before] at behind
    rw [List.flatMap_cons, process_append, callbacks, behind]
    rfl

end Parts

/-- **Noise costs the two frames behind it, at most**, if the payloads are of at most 254 bytes and the
receiver has room for them. -/
theorem noisy_stream (header buffer : Nat → UInt8) (bufferSize : UInt8)
    (frames : List (UInt8 × List UInt8)) (parts : List Disturbed)
    (receivable : ∀ frame ∈ frames, Receivable bufferSize.toNat frame)
    (receivableParts : ∀ part ∈ parts, ∀ frame ∈ part.frames, Receivable bufferSize.toNat frame)
    (chunks : List (List UInt8))
    (split : chunks.flatten = wireBytes header frames ++ parts.flatMap (Disturbed.bytes header)) :
    ∃ noisy : List (List Event), noisy.length = parts.length ∧
      (EventMachine.run Stream.process (Stream.new buffer bufferSize) chunks).2 =
        deliveries frames ++ (List.zipWith Disturbed.callbacks parts noisy).flatten := by
  have fed : EventMachine.run Stream.process (Stream.new buffer bufferSize) chunks =
      (Stream.new buffer bufferSize).process chunks.flatten := EventMachine.run_chunks _ _ _
  have stream := process_wireBytes header (show (Stream.new buffer bufferSize).state = .huntSync from
    rfl) (fun frame member => (receivable frame member).sendable)
    fun frame member => (receivable frame member).room
  obtain ⟨noisy, length, behind⟩ := disturbed_parts header
    (show (Stream.new buffer bufferSize).state = .huntSync from rfl) (wireBytes header frames) parts
    receivableParts
  refine ⟨noisy, length, ?_⟩
  rw [fed, split, process_append, stream.2, behind]

/-- Noise that looks like the start of a frame in front of three frames, and once more. -/
theorem noisy_stream_twice :
    ∃ noisy : List (List Event), noisy.length = 2 ∧
      (EventMachine.run Stream.process (Stream.new (fun _ => 0) 16)
        [wireBytes (fun _ => 0) [(4, [1, 2])] ++ [9, 0],
          [7] ++ wireBytes (fun _ => 0) [(1, [5]), (2, [6]), (3, [0, 8])] ++ [9] ++
            wireBytes (fun _ => 0) [(1, [5]), (2, [6]), (3, [0, 8])]]).2 =
        deliveries [(4, [1, 2])] ++ (List.zipWith Disturbed.callbacks
          [⟨[9, 0, 7], [(1, [5]), (2, [6]), (3, [0, 8])]⟩, ⟨[9], [(1, [5]), (2, [6]), (3, [0, 8])]⟩]
          noisy).flatten :=
  noisy_stream (fun _ => 0) (fun _ => 0) 16 [(4, [1, 2])]
    [⟨[9, 0, 7], [(1, [5]), (2, [6]), (3, [0, 8])]⟩, ⟨[9], [(1, [5]), (2, [6]), (3, [0, 8])]⟩]
    (List.forall_mem_singleton.mpr ⟨⟨by decide, by decide, by decide⟩, by decide, by decide⟩)
    (by
      intro part partMember frame member
      simp only [List.mem_cons, List.not_mem_nil, or_false] at partMember
      rcases partMember with rfl | rfl <;>
        simp only [List.mem_cons, List.not_mem_nil, or_false] at member <;>
        rcases member with rfl | rfl | rfl <;>
        exact ⟨⟨by decide, by decide, by decide⟩, by decide, by decide⟩)
    _ (by simp [Disturbed.bytes])

end ForgeDrive.Abf
