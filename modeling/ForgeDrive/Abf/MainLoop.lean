/-
**The firmware main loop on a stream of frames.**

The bytes of a list of frames reach the loop in reads of `1 … 255` bytes. `mainLoop_iff`: with the
one array of the firmware the loop delivers the frames of every such stream, exactly when no read
begins inside a payload — after its first byte for any payload, at its first byte for payloads with
two zeros or more.

* `InStep` — the loop and a loop with two arrays agree so far; `inStep_of_harmless` keeps it over
  the reads, harmless cut by harmless cut.
* `sharedFrames_cut` — behind the first cut inside a payload, the first byte of the payload has been
  overwritten when the frame is delivered.
-/

import ForgeDrive.Abf.SharedBuffer
import ForgeDrive.Abf.Truncation
import Mathlib.Data.List.Forall2
import Mathlib.Data.List.SplitLengths

namespace ForgeDrive.Abf

open ZeroStuffing
open Circular (segment store)

/-! ### The two loops -/

/-- The stream of the firmware: a buffer of `255` bytes. -/
def firmwareStream (buffer : Nat → UInt8) : Stream := Stream.new buffer 255

def Event.isFrame : Event → Bool
  | .onFrame _ _ => true
  | .onError _ => false

/-- The `onFrame` calls of the main loop over these reads. -/
def sharedFrames (buffer : Nat → UInt8) (reads : List (List UInt8)) : List Event :=
  (EventMachine.run mainLoopPass (firmwareStream buffer) reads).2.filter Event.isFrame

/-- The `onFrame` calls of a loop that reads into an array of its own. -/
def separateFrames (buffer : Nat → UInt8) (reads : List (List UInt8)) : List Event :=
  (EventMachine.run Stream.process (firmwareStream buffer) reads).2.filter Event.isFrame

/-- The number of bytes of a list of frames. -/
def wireLength (frames : List (UInt8 × List UInt8)) : Nat :=
  (frames.map fun frame => headerSize + frame.2.length).sum

/-- Frames with payloads of the same lengths, and no more zeros in any of them. -/
def SameShape (others frames : List (UInt8 × List UInt8)) : Prop :=
  List.Forall₂ (fun other frame => Sendable other ∧ other.2.length = frame.2.length ∧
    other.2.count 0 ≤ frame.2.count 0) others frames

/-- A position in a stream of frames inside a payload, `received` bytes after its beginning. -/
structure CutsPayload (frames : List (UInt8 × List UInt8)) (position : Nat)
    (sent : List (UInt8 × List UInt8)) (frame : UInt8 × List UInt8)
    (left : List (UInt8 × List UInt8)) (received : Nat) : Prop where
  split : frames = sent ++ frame :: left
  inside : received < frame.2.length
  place : position = wireLength sent + headerSize + received

/-- A read may begin at this position: not inside a payload, but at the first byte of a payload with
at most one zero. -/
def HarmlessAt (frames : List (UInt8 × List UInt8)) (position : Nat) : Prop :=
  ∀ sent frame left received, CutsPayload frames position sent frame left received →
    received = 0 ∧ frame.2.count 0 ≤ 1

/-- **Harmless cuts**: every read may begin where it does. -/
def Harmless (frames : List (UInt8 × List UInt8)) (sizes : List Nat) : Prop :=
  ∀ earlier later, sizes = earlier ++ later → HarmlessAt frames earlier.sum

/-! ### Places in a stream of frames -/

section Places

variable (header : Nat → UInt8) {s : Stream}

theorem wireBytes_append (first second : List (UInt8 × List UInt8)) :
    wireBytes header (first ++ second) = wireBytes header first ++ wireBytes header second := by
  simp only [wireBytes, List.map_append, List.flatten_append]

theorem wireBytes_cons (frame : UInt8 × List UInt8) (rest : List (UInt8 × List UInt8)) :
    wireBytes header (frame :: rest) = frameBytes header frame.1 frame.2 ++ wireBytes header rest :=
  rfl

theorem frameBytes_length {frame : UInt8 × List UInt8} (sendable : Sendable frame) :
    (frameBytes header frame.1 frame.2).length = headerSize + frame.2.length := by
  rw [sendable.frameBytes_eq, List.length_append, encodedPayload_length]
  rfl

theorem wireBytes_length {frames : List (UInt8 × List UInt8)}
    (sendable : ∀ frame ∈ frames, Sendable frame) :
    (wireBytes header frames).length = wireLength frames := by
  induction frames with
  | nil => rfl
  | cons frame rest ih =>
    rw [wireBytes_cons, List.length_append, frameBytes_length header (sendable _ List.mem_cons_self),
      ih fun other member => sendable other (List.mem_cons_of_mem _ member)]
    rfl

/-- The receiver inside the payload of a frame of a stream. -/
theorem process_place (s : Stream) (hunt : s.state = .huntSync) {sent : List (UInt8 × List UInt8)}
    {frame : UInt8 × List UInt8} (sendable : ∀ other ∈ sent, Sendable other)
    (capacity : ∀ other ∈ sent, other.2.length ≤ s.rxCapacity) (sendableHere : Sendable frame)
    (capacityHere : frame.2.length ≤ s.rxCapacity) {received : Nat}
    (inside : received < frame.2.length) :
    s.process (wireBytes header sent ++ truncatedFrame header frame received) =
      ((s.process (wireBytes header sent)).1.inPayload frame.1 (UInt8.ofNat frame.2.length)
        (codeByte frame.2) (headerCrc frame.1 (UInt8.ofNat frame.2.length) (codeByte frame.2))
        ((encodedPayload frame.2).take received), deliveries sent) := by
  obtain ⟨hunting, delivered⟩ := process_wireBytes header hunt sendable capacity
  rw [process_append, delivered, process_truncated header hunting sendableHere
    (by rw [process_rxCapacity]; exact capacityHere) inside, List.append_nil]

/-- The beginning of a frame, before the end of its header. -/
theorem process_headerBegun (hunt : s.state = .huntSync) {frame : UInt8 × List UInt8}
    (sendable : Sendable frame) {count : Nat} (short : count < headerSize) :
    (s.process ((frameBytes header frame.1 frame.2).take count)).1.state ≠ .readPayload := by
  rw [sendable.frameBytes_eq, List.take_append_of_le_length (Nat.le_of_lt short)]
  cases count with
  | zero =>
    rw [List.take_zero, process_nil, hunt]
    exact State.noConfusion
  | succ count =>
    have missing : (([frame.1, UInt8.ofNat frame.2.length, codeByte frame.2, headerCrc frame.1
        (UInt8.ofNat frame.2.length) (codeByte frame.2)] : List UInt8).take count).length ≤ 3 := by
      rw [List.length_take]
      exact (Nat.min_le_left _ _).trans (Nat.le_of_lt_succ (Nat.lt_of_succ_lt_succ short))
    obtain ⟨state, -⟩ := process_sync_open hunt missing
    rw [headerBytes, List.take_succ_cons, syncByte, state]
    exact State.noConfusion

/-- **Where a receiver in a payload is** in a stream of frames. -/
theorem readPayload_place (hunt : s.state = .huntSync) {frames : List (UInt8 × List UInt8)}
    (sendable : ∀ frame ∈ frames, Sendable frame)
    (capacity : ∀ frame ∈ frames, frame.2.length ≤ s.rxCapacity) {bytes : List UInt8}
    (begun : bytes <+: wireBytes header frames)
    (reading : (s.process bytes).1.state = .readPayload) :
    ∃ sent frame left received, frames = sent ++ frame :: left ∧ received < frame.2.length ∧
      bytes = wireBytes header sent ++ truncatedFrame header frame received := by
  induction frames generalizing s bytes with
  | nil =>
    rw [List.prefix_nil.mp begun, process_nil, hunt] at reading
    cases reading
  | cons frame rest ih =>
    have here := sendable frame List.mem_cons_self
    have room := capacity frame List.mem_cons_self
    have length := frameBytes_length header here
    rw [wireBytes_cons] at begun
    rcases Nat.lt_or_ge bytes.length (headerSize + frame.2.length) with within | beyond
    · have taken : bytes = (frameBytes header frame.1 frame.2).take bytes.length :=
        List.prefix_iff_eq_take.mp (List.prefix_of_prefix_length_le begun
          (List.prefix_append _ _) (by omega))
      rcases Nat.lt_or_ge bytes.length headerSize with short | long
      · rw [taken] at reading
        exact absurd reading (process_headerBegun header hunt here short)
      · refine ⟨[], frame, rest, bytes.length - headerSize, rfl, by omega, ?_⟩
        rw [truncatedFrame, Nat.add_sub_cancel' long]
        exact taken
    · obtain ⟨more, rfl⟩ : frameBytes header frame.1 frame.2 <+: bytes :=
        List.prefix_of_prefix_length_le (List.prefix_append _ _) begun (by omega)
      have frameDone := process_frame hunt here room
      rw [← here.frameBytes_eq header] at frameDone
      rw [process_append, frameDone] at reading
      obtain ⟨sent, other, left, received, split, inside, place⟩ := ih (s := s.afterFrame _ _) rfl
        (fun other member => sendable other (List.mem_cons_of_mem _ member))
        (fun other member => capacity other (List.mem_cons_of_mem _ member))
        ((List.prefix_append_right_inj _).mp begun) reading
      refine ⟨frame :: sent, other, left, received, by rw [split]; rfl, inside, ?_⟩
      rw [place, wireBytes_cons, List.append_assoc]

end Places

/-! ### In step with two arrays -/

/-- Whatever was read so far, one array or two made the same callbacks. -/
structure InStep (buffer : Nat → UInt8) (reads : List (List UInt8)) : Prop where
  similar : Similar (EventMachine.run mainLoopPass (firmwareStream buffer) reads).1
    ((firmwareStream buffer).process reads.flatten).1
  events : (EventMachine.run mainLoopPass (firmwareStream buffer) reads).2 =
    ((firmwareStream buffer).process reads.flatten).2

section InStep

variable {buffer : Nat → UInt8} {header : Nat → UInt8} {frames : List (UInt8 × List UInt8)}
  {reads : List (List UInt8)}

theorem Sendable.fits {frame : UInt8 × List UInt8} (sendable : Sendable frame) :
    frame.2.length ≤ (firmwareStream buffer).rxCapacity := Nat.le_of_lt_succ sendable.short

theorem inStep_nil : InStep buffer [] := ⟨(Agree.refl _).similar, rfl⟩

theorem flatten_concat (read : List UInt8) : (reads ++ [read]).flatten = reads.flatten ++ read := by
  rw [List.flatten_append, List.flatten_singleton]

/-- A read that does not begin inside a payload. -/
theorem InStep.concat_outside (inStep : InStep buffer reads)
    (outside : ((firmwareStream buffer).process reads.flatten).1.state ≠ .readPayload)
    (read : List UInt8) : InStep buffer (reads ++ [read]) := by
  obtain ⟨similar, events⟩ := mainLoopPass_trailing inStep.similar
    (fun reading => outside (inStep.similar.state.symm.trans reading)) read
  constructor
  · rw [EventMachine.run_concat_fst, flatten_concat, process_append]
    exact similar
  · rw [EventMachine.run_concat_snd, flatten_concat, process_append, inStep.events, events]

/-- **A read that begins right at a payload**, and holds all of it. -/
theorem InStep.concat_inPlace (inStep : InStep buffer reads)
    {sent left : List (UInt8 × List UInt8)} {frame : UInt8 × List UInt8}
    (sendable : ∀ other ∈ sent ++ frame :: left, Sendable other)
    (place : reads.flatten = wireBytes header sent ++ truncatedFrame header frame 0)
    (rest : List UInt8) :
    Similar (EventMachine.run mainLoopPass (firmwareStream buffer)
        (reads ++ [encodedPayload frame.2 ++ rest])).1
        ((firmwareStream buffer).process
          (reads ++ [encodedPayload frame.2 ++ rest]).flatten).1 ∧
      ∃ later, (EventMachine.run mainLoopPass (firmwareStream buffer)
          (reads ++ [encodedPayload frame.2 ++ rest])).2 =
          deliveries sent ++ .onFrame frame.1
            (overwrite byteCode (codeByte frame.2) (encodedPayload frame.2)) :: later ∧
        ((firmwareStream buffer).process
            (reads ++ [encodedPayload frame.2 ++ rest]).flatten).2 =
          deliveries sent ++ .onFrame frame.1 frame.2 :: later := by
  have here : Sendable frame := sendable frame (List.mem_append_right _ List.mem_cons_self)
  have length : (UInt8.ofNat frame.2.length).toNat = frame.2.length :=
    UInt8.toNat_ofNat_of_lt' here.short
  have placed := process_place header (firmwareStream buffer) rfl
    (fun other (member : other ∈ sent) => sendable other (List.mem_append_left _ member))
    (fun other member => (sendable other (List.mem_append_left _ member)).fits) here here.fits
    here.nonempty
  rw [List.take_zero, Stream.inPayload, acceptAll_nil] at placed
  rw [← place] at placed
  set t := ((firmwareStream buffer).process (wireBytes header sent)).1.startPayload frame.1
    (UInt8.ofNat frame.2.length) (codeByte frame.2)
    (headerCrc frame.1 (UInt8.ofNat frame.2.length) (codeByte frame.2)) with tDef
  have capacity : t.rxCapacity = (firmwareStream buffer).rxCapacity :=
    process_rxCapacity (firmwareStream buffer) (wireBytes header sent)
  have similar := inStep.similar
  rw [placed] at similar
  have some_ : encodedPayload frame.2 ≠ [] := by
    rw [← List.length_pos_iff, encodedPayload_length]
    exact here.nonempty
  obtain ⟨after, later, shared, separate⟩ := mainLoopPass_inPlace
    (similar.inPayload similar.state) rfl rfl rest some_
    (by rw [encodedPayload_length, tDef, startPayload_header_two, length])
    (by rw [encodedPayload_length, capacity]; exact here.fits) (encodedPayload_ne_zero here.short)
  have delivered : (t.acceptAll (encodedPayload frame.2)).frame = .onFrame frame.1 frame.2 := by
    show Event.onFrame frame.1 (segment _ 0 (UInt8.ofNat frame.2.length).toNat) = _
    rw [length, segment_acceptAll rfl here.short rfl]
  have events := inStep.events
  rw [placed] at events
  rw [delivered] at separate
  rw [EventMachine.run_concat_fst, EventMachine.run_concat_snd, flatten_concat, process_append,
    placed, events, shared, separate]
  exact ⟨after, later, rfl, rfl⟩

/-- The decoded payload that is delivered is the right one if it has at most one zero. -/
theorem overwrite_encodedPayload_iff {payload : List UInt8} (short : payload.length < 256) :
    overwrite byteCode (codeByte payload) (encodedPayload payload) = payload ↔
      payload.count 0 ≤ 1 :=
  overwrite_stuff_iff byteCode payload short

/-- A position inside a payload, in terms of the bytes read so far. -/
theorem cutsPayload_of_place (header : Nat → UInt8) {sent left : List (UInt8 × List UInt8)}
    {frame : UInt8 × List UInt8}
    {received : Nat} (sendable : ∀ other ∈ sent ++ frame :: left, Sendable other)
    (inside : received < frame.2.length) {bytes : List UInt8}
    (place : bytes = wireBytes header sent ++ truncatedFrame header frame received) :
    CutsPayload (sent ++ frame :: left) bytes.length sent frame left received := by
  have here : Sendable frame := sendable frame (List.mem_append_right _ List.mem_cons_self)
  refine ⟨rfl, inside, ?_⟩
  rw [place, List.length_append,
    wireBytes_length header fun other member => sendable other (List.mem_append_left _ member),
    truncatedFrame, List.length_take, frameBytes_length header here, Nat.min_eq_left (by omega),
    Nat.add_assoc]

/-- The bytes ahead of a position inside a payload. -/
theorem ahead_of_place {sent left : List (UInt8 × List UInt8)} {frame : UInt8 × List UInt8}
    (here : Sendable frame) {received : Nat} {bytes more : List UInt8}
    (place : bytes = wireBytes header sent ++ truncatedFrame header frame received)
    (whole : bytes ++ more = wireBytes header (sent ++ frame :: left)) :
    more = (encodedPayload frame.2).drop received ++ wireBytes header left := by
  have frameSplit := List.take_append_drop (headerSize + received)
    (frameBytes header frame.1 frame.2)
  have dropped : (frameBytes header frame.1 frame.2).drop (headerSize + received) =
      (encodedPayload frame.2).drop received := by
    rw [here.frameBytes_eq]
    show List.drop ((headerBytes frame.1 frame.2).length + received) _ = _
    exact List.drop_length_add_append received
  rw [place, wireBytes_append, wireBytes_cons, List.append_assoc, List.append_cancel_left_eq,
    truncatedFrame, ← frameSplit, List.append_assoc, frameSplit, List.append_cancel_left_eq,
    dropped] at whole
  exact whole

/-- The read that begins right at a payload. -/
theorem read_payload {sent left : List (UInt8 × List UInt8)} {frame : UInt8 × List UInt8}
    (here : Sendable frame) {bytes read : List UInt8}
    (place : bytes = wireBytes header sent ++ truncatedFrame header frame 0)
    (begun : bytes ++ read <+: wireBytes header (sent ++ frame :: left)) :
    read <+: encodedPayload frame.2 ++ wireBytes header left := by
  obtain ⟨more, whole⟩ := begun
  rw [List.append_assoc] at whole
  exact ⟨more, ahead_of_place here place whole⟩

/-- **Harmless cuts keep the loop in step**: the reads so far begin at harmless places, and do not
end inside a payload. -/
theorem inStep_of_harmless (sendable : ∀ frame ∈ frames, Sendable frame)
    (nonempty : ∀ read ∈ reads, read ≠ []) (begun : reads.flatten <+: wireBytes header frames)
    (harmless : ∀ earlier later, reads = earlier ++ later → later ≠ [] →
      HarmlessAt frames earlier.flatten.length)
    (outside : ∀ sent frame left received,
      CutsPayload frames reads.flatten.length sent frame left received → received = 0) :
    InStep buffer reads := by
  induction reads using List.reverseRecOn with
  | nil => exact inStep_nil
  | append_singleton reads read ih =>
    have harmlessHere := harmless reads [read] rfl (List.cons_ne_nil _ _)
    have begunHere : reads.flatten <+: wireBytes header frames := by
      rw [flatten_concat] at begun
      exact (List.prefix_append _ _).trans begun
    have inStep : InStep buffer reads := ih
      (fun other member => nonempty other (List.mem_append_left _ member)) begunHere
      (fun earlier later split some_ => harmless earlier (later ++ [read])
        (by rw [split, List.append_assoc]) (List.append_ne_nil_of_left_ne_nil some_ _))
      (fun sent frame left received cut => (harmlessHere sent frame left received cut).1)
    by_cases reading : ((firmwareStream buffer).process reads.flatten).1.state = .readPayload
    · obtain ⟨sent, frame, left, received, rfl, inside, place⟩ := readPayload_place header
        (s := firmwareStream buffer) rfl sendable (fun frame member => (sendable frame member).fits)
        begunHere reading
      have here : Sendable frame := sendable frame (List.mem_append_right _ List.mem_cons_self)
      obtain ⟨rfl, few⟩ := harmlessHere _ _ _ _ (cutsPayload_of_place header sendable inside place)
      rw [flatten_concat] at begun
      have ahead := read_payload here place begun
      -- A read that ends inside the same payload would leave a cut there.
      have whole : frame.2.length ≤ read.length := by
        by_contra short
        have readSome : 0 < read.length := List.length_pos_iff.mpr
          (nonempty read (List.mem_append_right _ List.mem_cons_self))
        have placeLength := (cutsPayload_of_place header sendable inside place).place
        have stays := outside sent frame left read.length ⟨rfl, Nat.lt_of_not_le short, by
          rw [flatten_concat, List.length_append, placeLength, Nat.add_zero]⟩
        omega
      obtain ⟨rest, rfl⟩ : encodedPayload frame.2 <+: read :=
        List.prefix_of_prefix_length_le (List.prefix_append _ _) ahead
          (by rw [encodedPayload_length]; exact whole)
      obtain ⟨similar, later, shared, separate⟩ := inStep.concat_inPlace sendable place rest
      rw [(overwrite_encodedPayload_iff here.short).mpr few] at shared
      exact ⟨similar, shared.trans separate.symm⟩
    · exact inStep.concat_outside reading read

end InStep

/-! ### Behind a cut inside a payload -/

/-- The receiver inside a payload with no zero ahead. -/
structure Calm (s : Stream) (serviceId : UInt8) (payloadLen : Nat) : Prop where
  reading : s.state = .readPayload
  service : s.header 1 = serviceId
  declared : (s.header 2).toNat = payloadLen
  room : payloadLen ≤ s.rxCapacity
  inside : s.rxPos < payloadLen
  short : payloadLen < 256
  countdown : s.rxNextZero = byteCode.code (payloadLen + 1 - s.rxPos)

theorem segment_head? (cells : Nat → UInt8) {count : Nat} (some_ : 0 < count) :
    (segment cells 0 count).head? = some (cells 0) := by
  obtain ⟨rest, rfl⟩ : ∃ rest, count = 1 + rest :=
    Nat.exists_eq_add_of_lt some_ |>.imp fun _ h => by
    omega
  rw [Circular.segment_add]
  rfl

section Calm

variable {s : Stream} {serviceId : UInt8} {payloadLen : Nat}

theorem Calm.far (calm : Calm s serviceId payloadLen) : s.rxNextZero ≠ 1 := by
  have position := calm.inside
  have short := calm.short
  rw [calm.countdown]
  exact byteCode.code_ne_one _ (by omega) (by rw [byteCode_limit]; omega)

theorem Calm.accept_eq (calm : Calm s serviceId payloadLen) (byte : UInt8) :
    s.accept byte = { s.storePayload byte with rxNextZero := s.rxNextZero - 1 } :=
  if_neg calm.far

/-- With no zero ahead a byte is stored as it is read, wherever it is read. -/
theorem Calm.processAt (calm : Calm s serviceId payloadLen) {i : Nat}
    (nonzero : s.rxPayload i ≠ 0) :
    s.processAt i = (s.accept (s.rxPayload i)).deliver := by
  have checked : (s.checkByte fun t => t.rxPayload i) = (s, []) := if_neg nonzero
  have stored : (s.storeByte fun t => t.rxPayload i) = (s.accept (s.rxPayload i), []) := by
    unfold Stream.storeByte
    rw [if_pos (lt_of_lt_of_le calm.inside calm.room), if_neg calm.far, calm.accept_eq]
    rfl
  have inside : s.rxPos < (s.header 2).toNat := by
    rw [calm.declared]
    exact calm.inside
  simp only [Stream.processAt, Stream.processByte, calm.reading, Stream.readPayload, inside,
    if_true, Stream.takePayload, checked, stored, List.nil_append]

theorem Calm.accept (calm : Calm s serviceId payloadLen) (byte : UInt8)
    (open_ : s.rxPos + 1 < payloadLen) : Calm (s.accept byte) serviceId payloadLen := by
  have position := calm.inside
  refine ⟨by rw [accept_state, calm.reading], by rw [accept_header, calm.service],
    by rw [accept_header, calm.declared], by rw [accept_rxCapacity]; exact calm.room,
    by rw [accept_rxPos]; exact open_, calm.short, ?_⟩
  rw [accept_rxPos, calm.accept_eq]
  show s.rxNextZero - 1 = _
  rw [calm.countdown, ← byteCode_next, show payloadLen + 1 - s.rxPos = payloadLen + 1 -
    (s.rxPos + 1) + 1 by omega, byteCode.next_code _ (by omega)]

theorem Calm.accept_rxPayload (calm : Calm s serviceId payloadLen) (byte : UInt8) (index : Nat) :
    (s.accept byte).rxPayload index = if index = s.rxPos then byte else s.rxPayload index := by
  rw [calm.accept_eq]
  exact Function.update_apply _ _ _ _

/-- Cells that are not zero stay so when one of them is stored. -/
theorem Calm.accept_nonzero (calm : Calm s serviceId payloadLen) {i count : Nat}
    (nonzero : ∀ index, i ≤ index → index < i + (count + 1) → s.rxPayload index ≠ 0) :
    ∀ index, i + 1 ≤ index → index < i + 1 + count →
      (s.accept (s.rxPayload i)).rxPayload index ≠ 0 := by
  intro index from_ to_
  rw [calm.accept_rxPayload]
  split
  · exact nonzero i le_rfl (by omega)
  · exact nonzero index (by omega) (by omega)

/-- **A part of the payload**, read from wherever: stored, and the cells before it are as before. -/
theorem Calm.run_open (calm : Calm s serviceId payloadLen) (i count : Nat)
    (nonzero : ∀ index, i ≤ index → index < i + count → s.rxPayload index ≠ 0)
    (open_ : s.rxPos + count < payloadLen) :
    ∃ after : Stream,
      EventMachine.run Stream.processAt s (List.range' i count) = (after, []) ∧
      Calm after serviceId payloadLen ∧ after.rxPos = s.rxPos + count ∧
      ∀ index < s.rxPos, after.rxPayload index = s.rxPayload index := by
  induction count generalizing s i with
  | zero => exact ⟨s, rfl, calm, rfl, fun _ _ => rfl⟩
  | succ count ih =>
    have next := calm.accept (s.rxPayload i) (by omega)
    obtain ⟨after, run, calmAfter, position, kept⟩ := ih next _ (calm.accept_nonzero nonzero)
      (by rw [accept_rxPos]; omega)
    rw [accept_rxPos] at position kept
    refine ⟨after, ?_, calmAfter, by omega, fun index before => ?_⟩
    · rw [List.range'_succ, EventMachine.run_cons, calm.processAt (nonzero i le_rfl (by omega)),
        deliver_open (by rw [accept_rxPos, accept_header, calm.declared]; omega), run]
      rfl
    · rw [kept index (by omega), calm.accept_rxPayload, if_neg (by omega)]

/-- **The rest of the payload**, read from wherever: a frame is delivered, and its first byte is
still the first byte of the array. -/
theorem Calm.run_whole (calm : Calm s serviceId payloadLen) (i count : Nat)
    (nonzero : ∀ index, i ≤ index → index < i + count → s.rxPayload index ≠ 0)
    (begun : 0 < s.rxPos) (complete : s.rxPos + count = payloadLen) :
    ∃ after payload,
      EventMachine.run Stream.processAt s (List.range' i count) =
        (after, [.onFrame serviceId payload]) ∧ payload.head? = some (s.rxPayload 0) := by
  induction count generalizing s i with
  | zero => exact absurd complete (Nat.ne_of_lt calm.inside)
  | succ count ih =>
    have first : (s.accept (s.rxPayload i)).rxPayload 0 = s.rxPayload 0 := by
      rw [calm.accept_rxPayload, if_neg (Nat.ne_of_lt begun)]
    have step := calm.processAt (nonzero i le_rfl (by omega))
    rw [List.range'_succ, EventMachine.run_cons, step]
    rcases Nat.eq_zero_or_pos count with last | more
    · have declared : ((s.accept (s.rxPayload i)).header 2).toNat = payloadLen := by
        rw [accept_header, calm.declared]
      rw [deliver_complete (by rw [accept_rxPos, declared]; omega), Stream.frame, declared,
        accept_header, calm.service, last, List.range'_zero, EventMachine.run_nil]
      refine ⟨_, _, rfl, ?_⟩
      rw [segment_head? _ (Nat.zero_lt_of_lt calm.inside), first]
    · obtain ⟨after, payload, run, head⟩ := ih (calm.accept _ (by omega)) _
        (calm.accept_nonzero nonzero) (by rw [accept_rxPos]; omega) (by rw [accept_rxPos]; omega)
      refine ⟨after, payload, ?_, head.trans (congrArg some first)⟩
      rw [deliver_open (by rw [accept_rxPos, accept_header, calm.declared]; omega), run]
      rfl

/-- **Behind a cut inside a payload** whose other bytes are all `byte`, the frame is delivered with
`byte` as its first byte. -/
theorem Calm.run_reads (calm : Calm s serviceId payloadLen) (begun : 0 < s.rxPos) {byte : UInt8}
    (byteNonzero : byte ≠ 0) {reads : List (List UInt8)} (nonempty : ∀ read ∈ reads, read ≠ [])
    {more : List UInt8}
    (ahead : reads.flatten = List.replicate (payloadLen - s.rxPos) byte ++ more) :
    ∃ payload later, (EventMachine.run mainLoopPass s reads).2 =
      .onFrame serviceId payload :: later ∧ payload.head? = some byte := by
  induction reads generalizing s with
  | nil =>
    have length := congrArg List.length ahead
    have inside := calm.inside
    rw [List.length_append, List.length_replicate, List.flatten_nil, List.length_nil] at length
    omega
  | cons read rest ih =>
    rw [List.flatten_cons] at ahead
    have inside := calm.inside
    have some_ : 0 < read.length :=
      List.length_pos_iff.mpr (nonempty read List.mem_cons_self)
    have loadedCells : ∀ index < read.length, index < payloadLen - s.rxPos →
        (s.load read).rxPayload index = byte := by
      intro index inRead inPayload
      have cell := congrArg (fun bytes => bytes[index]?) ahead
      rw [List.getElem?_append_left inRead, List.getElem?_append_left
        (by rw [List.length_replicate]; exact inPayload), List.getElem?_replicate,
        if_pos inPayload] at cell
      simp only [Stream.load, store, Nat.zero_le, if_true, Nat.sub_zero, cell, Option.getD_some]
    have calmLoad : Calm (s.load read) serviceId payloadLen :=
      ⟨calm.reading, calm.service, calm.declared, calm.room, calm.inside, calm.short,
        calm.countdown⟩
    have position : (s.load read).rxPos = s.rxPos := rfl
    rw [EventMachine.run_cons]
    rcases Nat.lt_or_ge (s.rxPos + read.length) payloadLen with open_ | whole
    · obtain ⟨after, run, calmAfter, positionAfter, kept⟩ := calmLoad.run_open 0 read.length
        (fun index _ to_ => by rw [loadedCells index (by omega) (by omega)]; exact byteNonzero)
        open_
      rw [← List.range_eq_range'] at run
      have pass : mainLoopPass s read = (after, []) := run
      have aheadRest : rest.flatten =
          List.replicate (payloadLen - after.rxPos) byte ++ more := by
        have dropped := congrArg (List.drop read.length) ahead
        rw [List.drop_left, List.drop_append_of_le_length
          (by rw [List.length_replicate]; omega), List.drop_replicate] at dropped
        rw [dropped, positionAfter, position, Nat.sub_sub]
      rw [pass, List.nil_append]
      exact ih calmAfter (by rw [positionAfter, position]; omega)
        (fun other member => nonempty other (List.mem_cons_of_mem _ member)) aheadRest
    · obtain ⟨after, payload, run, head⟩ := calmLoad.run_whole 0
        (payloadLen - s.rxPos)
        (fun index _ to_ => by rw [loadedCells index (by omega) (by omega)]; exact byteNonzero)
        begun (by rw [position]; omega)
      rw [loadedCells 0 some_ (by omega)] at head
      have cut : List.range read.length = List.range' 0 (payloadLen - s.rxPos) ++
          List.range' (payloadLen - s.rxPos) (read.length - (payloadLen - s.rxPos)) := by
        obtain ⟨left, length⟩ : ∃ left, read.length = payloadLen - s.rxPos + left :=
          Nat.exists_eq_add_of_le (by omega)
        rw [length, List.range_eq_range', ← List.range'_append_1, Nat.zero_add,
          Nat.add_sub_cancel_left]
      rw [mainLoopPass, Stream.processShared, cut, EventMachine.run_append, run]
      exact ⟨payload, _, rfl, head⟩

end Calm

/-! ### The first cut inside a payload -/

section Cut

variable {buffer : Nat → UInt8} {header : Nat → UInt8} {frames : List (UInt8 × List UInt8)}
  {reads : List (List UInt8)}

/-- Some beginning of a list is the first to have a property. -/
theorem exists_first_prefix {Item : Type*} {P : List Item → Prop} {list : List Item}
    (holds : P list) : ∃ first rest, list = first ++ rest ∧ P first ∧
      ∀ earlier later, first = earlier ++ later → later ≠ [] → ¬ P earlier := by
  by_cases shorter : ∃ earlier later, list = earlier ++ later ∧ later ≠ [] ∧ P earlier
  · obtain ⟨earlier, later, split, some_, holdsEarlier⟩ := shorter
    have decreasing : earlier.length < list.length := by
      rw [split, List.length_append]
      exact Nat.lt_add_of_pos_right (List.length_pos_iff.mpr some_)
    obtain ⟨first, rest, splitEarlier, holdsFirst, least⟩ := exists_first_prefix holdsEarlier
    exact ⟨first, rest ++ later, by rw [split, splitEarlier, List.append_assoc], holdsFirst, least⟩
  · exact ⟨list, [], (List.append_nil _).symm, holds, fun earlier later split some_ holdsEarlier =>
      shorter ⟨earlier, later, split, some_, holdsEarlier⟩⟩
termination_by list.length

/-- A payload without zeros whose first byte is like no other. -/
def plainPayload (length : Nat) : List UInt8 := 1 :: List.replicate (length - 1) 2

theorem plainPayload_no_zero (length : Nat) : (0 : UInt8) ∉ plainPayload length := by
  intro member
  rcases List.mem_cons.mp member with one | member
  · exact absurd one (by decide)
  · exact absurd (List.eq_of_mem_replicate member) (by decide)

theorem plainPayload_length {length : Nat} (some_ : 0 < length) :
    (plainPayload length).length = length := by
  rw [plainPayload, List.length_cons, List.length_replicate]
  omega

theorem encodedPayload_plain (length : Nat) :
    encodedPayload (plainPayload length) = plainPayload length :=
  congrArg Prod.snd (stuff_of_no_zero byteCode _ (plainPayload_no_zero length))

theorem codeByte_plain {length : Nat} (some_ : 0 < length) :
    codeByte (plainPayload length) = byteCode.code (length + 1) := by
  have distance := congrArg Prod.fst (stuff_of_no_zero byteCode _ (plainPayload_no_zero length))
  rw [plainPayload_length some_] at distance
  exact congrArg UInt8.ofNat distance

theorem plainPayload_drop {length dropped : Nat} (some_ : 0 < dropped) :
    (plainPayload length).drop dropped = List.replicate (length - dropped) 2 := by
  obtain ⟨before, rfl⟩ : ∃ before, dropped = before + 1 := ⟨dropped - 1, by omega⟩
  rw [plainPayload, List.drop_succ_cons, List.drop_replicate, Nat.sub_sub, Nat.add_comm 1]

/-- The bytes read so far, from their number. -/
theorem place_of_cutsPayload {sent left : List (UInt8 × List UInt8)} {frame : UInt8 × List UInt8}
    {received : Nat} (sendable : ∀ other ∈ frames, Sendable other) {bytes : List UInt8}
    (begun : bytes <+: wireBytes header frames)
    (cut : CutsPayload frames bytes.length sent frame left received) :
    bytes = wireBytes header sent ++ truncatedFrame header frame received := by
  obtain ⟨rfl, inside, place⟩ := cut
  have whole : wireBytes header sent ++ truncatedFrame header frame received <+:
      wireBytes header (sent ++ frame :: left) := by
    rw [wireBytes_append, wireBytes_cons, List.prefix_append_right_inj]
    exact (List.take_prefix _ _).trans (List.prefix_append _ _)
  have length := (cutsPayload_of_place header sendable inside rfl).place
  exact (List.prefix_of_prefix_length_le begun whole (by omega)).eq_of_length (by omega)

theorem calm_of_agree {s t : Stream} {serviceId : UInt8} {payloadLen : Nat} (agree : Agree s t)
    (calm : Calm t serviceId payloadLen) : Calm s serviceId payloadLen := by
  refine ⟨agree.state.trans calm.reading, ?_, ?_, ?_, ?_, calm.short, ?_⟩
  · rw [agree.header, calm.service]
  · rw [agree.header, calm.declared]
  · rw [agree.rxCapacity]
    exact calm.room
  · rw [agree.rxPos]
    exact calm.inside
  · rw [agree.rxNextZero, agree.rxPos, calm.countdown]

/-- A frame with a plain payload. -/
def Plain (frame : UInt8 × List UInt8) : Prop := frame.2 = plainPayload frame.2.length

/-- The receiver with two arrays, inside a plain payload. -/
theorem calm_place (buffer header : Nat → UInt8) {sent : List (UInt8 × List UInt8)}
    {frame : UInt8 × List UInt8}
    (sendable : ∀ other ∈ sent, Sendable other) (here : Sendable frame) (plain : Plain frame)
    {received : Nat} (inside : received < frame.2.length) :
    Calm ((firmwareStream buffer).process
        (wireBytes header sent ++ truncatedFrame header frame received)).1 frame.1 frame.2.length ∧
      ((firmwareStream buffer).process
        (wireBytes header sent ++ truncatedFrame header frame received)).1.rxPos = received ∧
      ((firmwareStream buffer).process
        (wireBytes header sent ++ truncatedFrame header frame received)).2 = deliveries sent := by
  have taken : ((encodedPayload frame.2).take received).length = received := by
    rw [List.length_take, encodedPayload_length]
    omega
  rw [process_place header (firmwareStream buffer) rfl sendable
    (fun other member => (sendable other member).fits) here
    here.fits inside]
  refine ⟨⟨rfl, rfl, UInt8.toNat_ofNat_of_lt' here.short, ?_, ?_, here.short, ?_⟩, ?_, rfl⟩
  · rw [inPayload_rxCapacity, process_rxCapacity]
    exact here.fits
  · rw [inPayload_rxPos, taken]
    exact inside
  · have short := here.short
    have code : codeByte frame.2 = byteCode.code (frame.2.length + 1) := by
      rw [plain, codeByte_plain here.nonempty, plainPayload_length here.nonempty]
    rw [inPayload_rxPos, taken]
    show countdownAfter byteCode (codeByte frame.2) _ = _
    rw [code, countdownAfter_far byteCode _ (by rw [taken]; omega)
      (by rw [byteCode_limit]; omega), taken]
  · rw [inPayload_rxPos, taken]

/-- A read that begins right at a plain payload and ends inside it. -/
theorem InStep.concat_part (inStep : InStep buffer reads)
    {sent : List (UInt8 × List UInt8)} {frame : UInt8 × List UInt8}
    (sendable : ∀ other ∈ sent, Sendable other) (here : Sendable frame) (plain : Plain frame)
    (place : reads.flatten = wireBytes header sent ++ truncatedFrame header frame 0)
    {read rest : List UInt8} (ahead : read <+: encodedPayload frame.2 ++ rest)
    (part : read.length < frame.2.length) :
    ∃ after, EventMachine.run mainLoopPass (firmwareStream buffer) (reads ++ [read]) =
        (after, deliveries sent) ∧
      Calm after frame.1 frame.2.length ∧ after.rxPos = read.length := by
  obtain ⟨calm, position, events⟩ := calm_place buffer header sendable here
    plain here.nonempty
  rw [← place] at calm position events
  have agree := inStep.similar.inPayload (inStep.similar.state.trans calm.reading)
  have calmHere := calm_of_agree agree calm
  set s := (EventMachine.run mainLoopPass (firmwareStream buffer) reads).1 with sDef
  have calmLoad : Calm (s.load read) frame.1 frame.2.length :=
    ⟨calmHere.reading, calmHere.service, calmHere.declared, calmHere.room, calmHere.inside,
      calmHere.short, calmHere.countdown⟩
  have positionLoad : (s.load read).rxPos = 0 := agree.rxPos.trans position
  have inPayload : read <+: encodedPayload frame.2 :=
    List.prefix_of_prefix_length_le ahead (List.prefix_append _ _)
      (by rw [encodedPayload_length]; exact Nat.le_of_lt part)
  have nonzero : ∀ index, 0 ≤ index → index < 0 + read.length →
      (s.load read).rxPayload index ≠ 0 := by
    intro index _ inside
    rw [Nat.zero_add] at inside
    have cell := Circular.store_apply_of_lt s.rxPayload 0 inside
    rw [Nat.zero_add] at cell
    show store s.rxPayload 0 read index ≠ 0
    rw [cell]
    exact encodedPayload_ne_zero here.short _ (inPayload.subset (List.getElem_mem inside))
  obtain ⟨after, run, calmAfter, positionAfter, -⟩ := calmLoad.run_open 0 _ nonzero
    (by rw [positionLoad]; omega)
  rw [← List.range_eq_range'] at run
  refine ⟨after, ?_, calmAfter, by rw [positionAfter, positionLoad, Nat.zero_add]⟩
  rw [EventMachine.run_append, inStep.events, events, ← sDef, EventMachine.run_cons,
    show mainLoopPass s read = (after, []) from run]
  exact Prod.ext rfl (List.append_nil _)

/-- With one array the receiver is in the payload of a frame, having delivered those before it. -/
def CalmInside (buffer header : Nat → UInt8) (frames : List (UInt8 × List UInt8))
    (reads : List (List UInt8)) : Prop :=
  ∃ sent frame left received after, frames = sent ++ frame :: left ∧ 0 < received ∧
    received < frame.2.length ∧
    reads.flatten = wireBytes header sent ++ truncatedFrame header frame received ∧
    EventMachine.run mainLoopPass (firmwareStream buffer) reads = (after, deliveries sent) ∧
    Calm after frame.1 frame.2.length ∧ after.rxPos = received

/-- Where the two loops are in step, the receiver is where it is with two arrays. -/
theorem InStep.calmInside {buffer : Nat → UInt8} (inStep : InStep buffer reads)
    (sendable : ∀ frame ∈ frames, Sendable frame) (plain : ∀ frame ∈ frames, Plain frame)
    (begun : reads.flatten <+: wireBytes header frames) {sent left : List (UInt8 × List UInt8)}
    {frame : UInt8 × List UInt8} {received : Nat}
    (cut : CutsPayload frames reads.flatten.length sent frame left received)
    (some_ : 0 < received) : CalmInside buffer header frames reads := by
  have place := place_of_cutsPayload sendable begun cut
  obtain ⟨rfl, inside, -⟩ := cut
  obtain ⟨calm, position, events⟩ := calm_place buffer header
    (fun other member => sendable other (List.mem_append_left _ member))
    (sendable frame (List.mem_append_right _ List.mem_cons_self))
    (plain frame (List.mem_append_right _ List.mem_cons_self)) inside
  rw [← place] at calm position events
  have agree := inStep.similar.inPayload (inStep.similar.state.trans calm.reading)
  exact ⟨sent, frame, left, received, _, rfl, some_, inside, place,
    Prod.ext rfl (inStep.events.trans events), calm_of_agree agree calm,
    agree.rxPos.trans position⟩

/-- **At the first cut inside a payload** the receiver is in that payload with one array as well. -/
theorem calm_of_firstCut (buffer : Nat → UInt8) (sendable : ∀ frame ∈ frames, Sendable frame)
    (plain : ∀ frame ∈ frames, Plain frame) (nonempty : ∀ read ∈ reads, read ≠ [])
    (begun : reads.flatten <+: wireBytes header frames) {sent left : List (UInt8 × List UInt8)}
    {frame : UInt8 × List UInt8} {received : Nat}
    (cut : CutsPayload frames reads.flatten.length sent frame left received) (some_ : 0 < received)
    (least : ∀ earlier later, reads = earlier ++ later → later ≠ [] →
      ∀ sent frame left received,
        CutsPayload frames earlier.flatten.length sent frame left received →
        received = 0) :
    CalmInside buffer header frames reads := by
  rcases reads.eq_nil_or_concat' with rfl | ⟨before, read, rfl⟩
  · have place := cut.place
    rw [List.flatten_nil, List.length_nil] at place
    omega
  · have few : ∀ frame ∈ frames, frame.2.count 0 ≤ 1 := by
      intro frame member
      rw [plain frame member, List.count_eq_zero.mpr (plainPayload_no_zero _)]
      exact Nat.zero_le _
    have begunBefore : before.flatten <+: wireBytes header frames := by
      rw [flatten_concat] at begun
      exact (List.prefix_append _ _).trans begun
    have leastBefore := least before [read] rfl (List.cons_ne_nil _ _)
    have inStep : InStep buffer before := inStep_of_harmless sendable
      (fun other member => nonempty other (List.mem_append_left _ member)) begunBefore
      (fun earlier later split more sent frame left received other =>
        ⟨least earlier (later ++ [read]) (by rw [split, List.append_assoc])
          (List.append_ne_nil_of_left_ne_nil more _) sent frame left received other,
          few frame (by rw [other.split]; exact List.mem_append_right _ List.mem_cons_self)⟩)
      leastBefore
    by_cases reading : ((firmwareStream buffer).process before.flatten).1.state = .readPayload
    · obtain ⟨sent, frame, left, received, rfl, inside, place⟩ := readPayload_place header
        (s := firmwareStream buffer) rfl sendable (fun frame member => (sendable frame member).fits)
        begunBefore reading
      have member : frame ∈ sent ++ frame :: left := List.mem_append_right _ List.mem_cons_self
      have here : Sendable frame := sendable frame member
      have cutBefore := cutsPayload_of_place header sendable inside place
      obtain rfl := leastBefore _ _ _ _ cutBefore
      have whole := begun
      rw [flatten_concat] at whole
      have ahead := read_payload here place whole
      rcases Nat.lt_or_ge read.length frame.2.length with part | all
      · obtain ⟨after, run, calm, position⟩ := inStep.concat_part
          (fun other other_ => sendable other (List.mem_append_left _ other_)) here
          (plain frame member) place ahead part
        have placeLength := cutBefore.place
        have placeNow := place_of_cutsPayload sendable whole
          (⟨rfl, part, by rw [List.length_append]; omega⟩ : CutsPayload (sent ++ frame :: left)
            (before.flatten ++ read).length sent frame left read.length)
        refine ⟨sent, frame, left, read.length, after, rfl, List.length_pos_iff.mpr
          (nonempty read (List.mem_append_right _ List.mem_cons_self)), part, ?_, run, calm, position⟩
        rw [flatten_concat]
        exact placeNow
      · obtain ⟨rest, rfl⟩ : encodedPayload frame.2 <+: read :=
          List.prefix_of_prefix_length_le (List.prefix_append _ _) ahead
            (by rw [encodedPayload_length]; exact all)
        obtain ⟨similar, later, shared, separate⟩ := inStep.concat_inPlace sendable place rest
        rw [(overwrite_encodedPayload_iff here.short).mpr (few frame member)] at shared
        exact InStep.calmInside ⟨similar, shared.trans separate.symm⟩ sendable plain begun cut some_
    · exact (inStep.concat_outside reading read).calmInside sendable plain begun cut some_

theorem filter_deliveries (frames : List (UInt8 × List UInt8)) :
    (deliveries frames).filter Event.isFrame = deliveries frames := by
  apply List.filter_eq_self.mpr
  intro event member
  obtain ⟨frame, -, rfl⟩ := List.mem_map.mp member
  rfl

theorem separateFrames_eq (sendable : ∀ frame ∈ frames, Sendable frame)
    (whole : reads.flatten = wireBytes header frames) :
    separateFrames buffer reads = deliveries frames := by
  have fed : EventMachine.run Stream.process (firmwareStream buffer) reads =
      (firmwareStream buffer).process reads.flatten := EventMachine.run_chunks _ _ _
  rw [separateFrames, fed, whole, (process_wireBytes header rfl sendable
    fun frame member => (sendable frame member).fits).2, filter_deliveries]

/-- A wrong frame where another one should have been delivered. -/
theorem sharedFrames_ne (sendable : ∀ frame ∈ frames, Sendable frame)
    (whole : reads.flatten = wireBytes header frames) {sent left : List (UInt8 × List UInt8)}
    {frame : UInt8 × List UInt8} (split : frames = sent ++ frame :: left) (payload : List UInt8)
    (later : List Event) (wrong : payload ≠ frame.2)
    (events : (EventMachine.run mainLoopPass (firmwareStream buffer) reads).2 =
      deliveries sent ++ .onFrame frame.1 payload :: later) :
    sharedFrames buffer reads ≠ separateFrames buffer reads := by
  intro same
  rw [separateFrames_eq sendable whole, sharedFrames, events, List.filter_append,
    filter_deliveries, split, deliveries, deliveries, List.map_append, List.append_cancel_left_eq,
    List.map_cons, List.filter_cons_of_pos rfl] at same
  exact wrong (Event.onFrame.inj (List.cons.inj same).1).2

/-- **Behind the first cut inside a payload**, the frame is delivered with another first byte. -/
theorem sharedFrames_cut (sendable : ∀ frame ∈ frames, Sendable frame)
    (plain : ∀ frame ∈ frames, Plain frame) {later : List (List UInt8)}
    (nonempty : ∀ read ∈ reads ++ later, read ≠ [])
    (whole : (reads ++ later).flatten = wireBytes header frames)
    {sent left : List (UInt8 × List UInt8)} {frame : UInt8 × List UInt8} {received : Nat}
    (cut : CutsPayload frames reads.flatten.length sent frame left received) (some_ : 0 < received)
    (least : ∀ earlier later, reads = earlier ++ later → later ≠ [] →
      ∀ sent frame left received,
        CutsPayload frames earlier.flatten.length sent frame left received →
        received = 0) :
    sharedFrames buffer (reads ++ later) ≠ separateFrames buffer (reads ++ later) := by
  have begun : reads.flatten <+: wireBytes header frames := by
    rw [← whole, List.flatten_append]
    exact List.prefix_append _ _
  obtain ⟨sent, frame, left, received, after, rfl, some_, inside, place, run, calm, position⟩ :=
    calm_of_firstCut buffer sendable plain
      (fun read member => nonempty read (List.mem_append_left _ member)) begun cut some_ least
  have member : frame ∈ sent ++ frame :: left := List.mem_append_right _ List.mem_cons_self
  have here := sendable frame member
  have ahead : later.flatten =
      List.replicate (frame.2.length - after.rxPos) 2 ++ wireBytes header left := by
    rw [List.flatten_append] at whole
    rw [ahead_of_place here place whole, plain frame member, encodedPayload_plain,
      plainPayload_drop some_, position, plainPayload_length here.nonempty]
  obtain ⟨payload, more, delivered, head⟩ := calm.run_reads (by omega) (by decide)
    (fun read member => nonempty read (List.mem_append_right _ member)) ahead
  refine sharedFrames_ne sendable whole rfl payload more ?_ ?_
  · intro same
    rw [same, plain frame member] at head
    exact absurd (Option.some.inj head) (by decide)
  · rw [EventMachine.run_append, run, delivered]

end Cut

/-! ### The main loop -/

section MainLoop

variable {header : Nat → UInt8} {frames others : List (UInt8 × List UInt8)}

theorem SameShape.sendable (shape : SameShape others frames) :
    ∀ other ∈ others, Sendable other := by
  induction shape with
  | nil => exact fun _ member => by cases member
  | cons related _ ih =>
    intro other member
    rcases List.mem_cons.mp member with rfl | member
    · exact related.1
    · exact ih other member

/-- The places of one stream of frames are those of another of the same shape. -/
theorem SameShape.cutsPayload (shape : SameShape others frames) {position : Nat}
    {sent left : List (UInt8 × List UInt8)} {other : UInt8 × List UInt8} {received : Nat}
    (cut : CutsPayload others position sent other left received) :
    ∃ sent frame left, CutsPayload frames position sent frame left received ∧
      other.2.count 0 ≤ frame.2.count 0 := by
  induction shape generalizing position sent with
  | nil => exact absurd cut.split.symm (List.append_ne_nil_of_right_ne_nil _ (List.cons_ne_nil _ _))
  | @cons first frame rest frames related _ ih =>
    obtain ⟨-, length, zeros⟩ := related
    obtain ⟨split, inside, place⟩ := cut
    cases sent with
    | nil =>
      obtain ⟨rfl, rfl⟩ := List.cons.inj split
      exact ⟨[], frame, frames, ⟨rfl, by omega, place⟩, zeros⟩
    | cons head sent =>
      obtain ⟨rfl, rfl⟩ := List.cons.inj split
      have behind : CutsPayload (sent.append (other :: left))
          (position - (headerSize + first.2.length)) sent other left received := by
        refine ⟨rfl, inside, ?_⟩
        rw [place, wireLength, List.map_cons, List.sum_cons, wireLength]
        omega
      obtain ⟨earlier, here, later, cut, fewer⟩ := ih behind
      refine ⟨frame :: earlier, here, later, ⟨by rw [cut.split]; rfl, cut.inside, ?_⟩, fewer⟩
      have shifted := cut.place
      rw [wireLength, List.map_cons, List.sum_cons] at place ⊢
      rw [wireLength] at shifted
      omega

theorem SameShape.harmlessAt (shape : SameShape others frames) {position : Nat}
    (harmless : HarmlessAt frames position) : HarmlessAt others position := by
  intro sent other left received cut
  obtain ⟨_, frame, _, cutFrame, fewer⟩ := shape.cutsPayload cut
  obtain ⟨start, few⟩ := harmless _ _ _ _ cutFrame
  exact ⟨start, fewer.trans few⟩

/-- The same frames with plain payloads. -/
def plainFrames (frames : List (UInt8 × List UInt8)) : List (UInt8 × List UInt8) :=
  frames.map fun frame => (frame.1, plainPayload frame.2.length)

theorem plainFrames_plain (sendable : ∀ frame ∈ frames, Sendable frame) :
    ∀ frame ∈ plainFrames frames, Plain frame := by
  intro other member
  obtain ⟨frame, inFrames, rfl⟩ := List.mem_map.mp member
  show plainPayload frame.2.length = plainPayload (plainPayload frame.2.length).length
  rw [plainPayload_length (sendable frame inFrames).nonempty]

theorem plainFrames_sameShape (sendable : ∀ frame ∈ frames, Sendable frame) :
    SameShape (plainFrames frames) frames := by
  induction frames with
  | nil => exact .nil
  | cons frame rest ih =>
    have here := sendable frame List.mem_cons_self
    have length := plainPayload_length here.nonempty
    refine .cons ⟨⟨here.service, ?_, ?_⟩, length, ?_⟩
      (ih fun other member => sendable other (List.mem_cons_of_mem _ member))
    · exact Nat.lt_of_lt_of_eq here.nonempty length.symm
    · exact lt_of_eq_of_lt length here.short
    · rw [List.count_eq_zero.mpr (plainPayload_no_zero _)]
      exact Nat.zero_le _

theorem wireLength_plainFrames (sendable : ∀ frame ∈ frames, Sendable frame) :
    wireLength (plainFrames frames) = wireLength frames := by
  rw [wireLength, plainFrames, List.map_map, wireLength]
  refine congrArg List.sum (List.map_congr_left fun frame member => ?_)
  exact congrArg (headerSize + ·) (plainPayload_length (sendable frame member).nonempty)

theorem CutsPayload.plain (sendable : ∀ frame ∈ frames, Sendable frame) {position : Nat}
    {sent left : List (UInt8 × List UInt8)} {frame : UInt8 × List UInt8} {received : Nat}
    (cut : CutsPayload frames position sent frame left received) :
    CutsPayload (plainFrames frames) position (plainFrames sent)
      (frame.1, plainPayload frame.2.length) (plainFrames left) received := by
  obtain ⟨rfl, inside, place⟩ := cut
  refine ⟨by simp only [plainFrames, List.map_append, List.map_cons], ?_, ?_⟩
  · show received < (plainPayload frame.2.length).length
    rw [plainPayload_length (Nat.zero_lt_of_lt inside)]
    exact inside
  · rw [wireLength_plainFrames fun other member => sendable other (List.mem_append_left _ member)]
    exact place

/-- Reads of the given sizes, and their beginning at a given cut. -/
theorem exists_reads (header : Nat → UInt8) {sizes : List Nat}
    (sendable : ∀ frame ∈ frames, Sendable frame)
    (positive : ∀ size ∈ sizes, 0 < size ∧ size ≤ 255) (whole : sizes.sum = wireLength frames) :
    ∃ reads : List (List UInt8), reads.map List.length = sizes ∧
      reads.flatten = wireBytes header frames ∧ ∀ read ∈ reads, read ≠ [] := by
  have length := wireBytes_length header sendable
  refine ⟨sizes.splitLengths (wireBytes header frames), List.map_splitLengths_length _ _ (by omega),
    List.flatten_splitLengths _ _ (by omega), fun read member empty => ?_⟩
  have sizeMember : read.length ∈ sizes := by
    rw [← List.map_splitLengths_length (wireBytes header frames) sizes (by omega)]
    exact List.mem_map_of_mem member
  rw [empty] at sizeMember
  exact absurd (positive _ sizeMember).1 (Nat.lt_irrefl _)

variable {buffer : Nat → UInt8} {reads : List (List UInt8)}

/-- Cut at harmless places, the frames are delivered as with two arrays. -/
theorem sharedFrames_of_harmless (sendable : ∀ frame ∈ frames, Sendable frame)
    (nonempty : ∀ read ∈ reads, read ≠ []) (whole : reads.flatten = wireBytes header frames)
    (harmless : Harmless frames (reads.map List.length)) :
    sharedFrames buffer reads = separateFrames buffer reads := by
  have harmlessAt : ∀ earlier later, reads = earlier ++ later →
      HarmlessAt frames earlier.flatten.length := by
    intro earlier later split
    rw [List.length_flatten]
    exact harmless (earlier.map List.length) (later.map List.length)
      (by rw [split, List.map_append])
  have inStep : InStep buffer reads := inStep_of_harmless sendable nonempty
    (by rw [whole]) (fun earlier later split _ => harmlessAt earlier later split)
    fun sent frame left received cut =>
      (harmlessAt reads [] (List.append_nil _).symm sent frame left received cut).1
  have fed : EventMachine.run Stream.process (firmwareStream buffer) reads =
      (firmwareStream buffer).process reads.flatten := EventMachine.run_chunks _ _ _
  rw [sharedFrames, separateFrames, fed, inStep.events]

/-- A position strictly inside a payload. -/
def InsideAt (frames : List (UInt8 × List UInt8)) (position : Nat) : Prop :=
  ∃ sent frame left received, CutsPayload frames position sent frame left received ∧ 0 < received

/-- With a cut strictly inside a payload, frames with plain payloads are delivered wrongly. -/
theorem exists_wrong_of_insideAt (buffer header : Nat → UInt8) {sizes : List Nat}
    (sendable : ∀ frame ∈ frames, Sendable frame)
    (positive : ∀ size ∈ sizes, 0 < size ∧ size ≤ 255) (whole : sizes.sum = wireLength frames)
    {earlier later : List Nat} (split : sizes = earlier ++ later)
    (cut : InsideAt frames earlier.sum) :
    ∃ others reads, SameShape others frames ∧ reads.map List.length = sizes ∧
      reads.flatten = wireBytes header others ∧
      sharedFrames buffer reads ≠ separateFrames buffer reads := by
  have shape := plainFrames_sameShape sendable
  obtain ⟨sent, frame, left, received, cut, some_⟩ := cut
  have cutPlain : InsideAt (plainFrames frames) earlier.sum :=
    ⟨_, _, _, received, cut.plain sendable, some_⟩
  obtain ⟨first, rest, splitFirst, ⟨sent, frame, left, received, cut, some_⟩, least⟩ :=
    exists_first_prefix (P := fun earlier => InsideAt (plainFrames frames) earlier.sum) cutPlain
  obtain ⟨reads, lengths, bytes, nonempty⟩ := exists_reads header shape.sendable positive
    (whole.trans (wireLength_plainFrames sendable).symm)
  obtain ⟨readsFirst, readsRest, rfl, lengthsFirst, -⟩ := List.map_eq_append_iff.mp
    (lengths.trans (split.trans (by rw [splitFirst, List.append_assoc])) :
      reads.map List.length = first ++ (rest ++ later))
  rw [← lengthsFirst, ← List.length_flatten] at cut
  refine ⟨plainFrames frames, readsFirst ++ readsRest, shape, lengths, bytes,
    sharedFrames_cut shape.sendable (plainFrames_plain sendable) nonempty bytes cut some_ ?_⟩
  intro before after splitReads more sent frame left received cut
  rw [List.length_flatten] at cut
  have outside := least (before.map List.length) (after.map List.length)
    (by rw [← lengthsFirst, splitReads, List.map_append]) (by
      intro empty
      exact more (List.map_eq_nil_iff.mp empty))
  by_contra positive
  exact outside ⟨sent, frame, left, received, cut, Nat.pos_of_ne_zero positive⟩

/-- With a cut right at a payload with two zeros or more, and none inside a payload, the frames are
delivered wrongly. -/
theorem sharedFrames_ne_of_zeros (sendable : ∀ frame ∈ frames, Sendable frame)
    (nonempty : ∀ read ∈ reads, read ≠ []) (whole : reads.flatten = wireBytes header frames)
    (outside : ∀ earlier later, reads = earlier ++ later →
      ¬ InsideAt frames earlier.flatten.length)
    (harmful : ∃ earlier later, reads = earlier ++ later ∧
      ¬ HarmlessAt frames earlier.flatten.length) :
    sharedFrames buffer reads ≠ separateFrames buffer reads := by
  obtain ⟨some_, others, splitSome, harmful⟩ := harmful
  obtain ⟨first, rest, splitFirst, harmful, least⟩ := exists_first_prefix
    (P := fun earlier : List (List UInt8) => ¬ HarmlessAt frames earlier.flatten.length) harmful
  have atStart : ∀ earlier later, reads = earlier ++ later → ∀ sent frame left received,
      CutsPayload frames earlier.flatten.length sent frame left received → received = 0 := by
    intro earlier later split sent frame left received cut
    by_contra inside
    exact outside earlier later split ⟨sent, frame, left, received, cut, Nat.pos_of_ne_zero inside⟩
  rw [splitSome, splitFirst, List.append_assoc] at whole nonempty atStart ⊢
  have begun : first.flatten <+: wireBytes header frames := by
    rw [← whole, List.flatten_append]
    exact List.prefix_append _ _
  have inStep : InStep buffer first := inStep_of_harmless sendable
    (fun read member => nonempty read (List.mem_append_left _ member)) begun
    (fun earlier later split more => not_not.mp (least earlier later split more))
    (atStart first _ rfl)
  obtain ⟨sent, frame, left, received, cut, many⟩ : ∃ sent frame left received,
      CutsPayload frames first.flatten.length sent frame left received ∧
        ¬ (received = 0 ∧ frame.2.count 0 ≤ 1) := by
    simp only [HarmlessAt, not_forall, exists_prop] at harmful
    exact harmful
  obtain rfl := atStart first _ rfl _ _ _ _ cut
  have place := place_of_cutsPayload sendable begun cut
  have cutPlace := cut.place
  obtain ⟨rfl, inside, -⟩ := cut
  have here : Sendable frame := sendable frame (List.mem_append_right _ List.mem_cons_self)
  have bytes := whole
  rw [List.flatten_append] at bytes
  have ahead := ahead_of_place here place bytes
  rw [List.drop_zero] at ahead
  cases following : rest ++ others with
  | nil =>
    have length := congrArg List.length ahead
    rw [following, List.flatten_nil, List.length_nil, List.length_append, encodedPayload_length]
      at length
    omega
  | cons read later =>
    rw [following] at ahead nonempty whole atStart
    rw [List.flatten_cons] at ahead
    have readAhead : read <+: encodedPayload frame.2 ++ wireBytes header left :=
      ⟨later.flatten, ahead⟩
    have long : frame.2.length ≤ read.length := by
      by_contra short
      have some_ : 0 < read.length := List.length_pos_iff.mpr
        (nonempty read (List.mem_append_right _ List.mem_cons_self))
      have stays := atStart (first ++ [read]) later (by rw [List.append_assoc]; rfl) sent frame left
        read.length ⟨rfl, Nat.lt_of_not_le short, by
          rw [flatten_concat, List.length_append, cutPlace, Nat.add_zero]⟩
      omega
    obtain ⟨restRead, rfl⟩ : encodedPayload frame.2 <+: read :=
      List.prefix_of_prefix_length_le (List.prefix_append _ _) readAhead
        (by rw [encodedPayload_length]; exact long)
    obtain ⟨-, more, shared, -⟩ := inStep.concat_inPlace sendable place restRead
    obtain ⟨after, events⟩ : ∃ after, (EventMachine.run mainLoopPass (firmwareStream buffer)
        (first ++ (encodedPayload frame.2 ++ restRead) :: later)).2 = deliveries sent ++
          .onFrame frame.1 (overwrite byteCode (codeByte frame.2) (encodedPayload frame.2)) ::
            after := by
      rw [← List.singleton_append, ← List.append_assoc, EventMachine.run_append, shared,
        List.append_assoc, List.cons_append]
      exact ⟨_, rfl⟩
    exact sharedFrames_ne sendable whole rfl _ _
      (fun same => many ⟨rfl, (overwrite_encodedPayload_iff here.short).mp same⟩) events

/-- **When the main loop can do with one array.** For every cut of a stream of frames into reads of
`1 … 255` bytes, the loop delivers all streams of this shape — payloads of these lengths, with at
most so many zeros — as with an array of its own for the payload, if and only if no read begins
inside a payload, but for reads that begin right at a payload with at most one zero. -/
theorem mainLoop_iff (buffer header : Nat → UInt8) (frames : List (UInt8 × List UInt8))
    (sendable : ∀ frame ∈ frames, Sendable frame) (sizes : List Nat)
    (positive : ∀ size ∈ sizes, 0 < size ∧ size ≤ 255) (whole : sizes.sum = wireLength frames) :
    (∀ others reads, SameShape others frames → reads.map List.length = sizes →
      reads.flatten = wireBytes header others →
        sharedFrames buffer reads = separateFrames buffer reads) ↔ Harmless frames sizes := by
  constructor
  · intro same
    have outside : ∀ earlier later, sizes = earlier ++ later → ¬ InsideAt frames earlier.sum := by
      intro earlier later split cut
      obtain ⟨others, reads, shape, lengths, bytes, wrong⟩ := exists_wrong_of_insideAt
        buffer header sendable positive whole split cut
      exact wrong (same others reads shape lengths bytes)
    intro earlier later split
    by_contra harmful
    obtain ⟨reads, lengths, bytes, nonempty⟩ :=
      exists_reads header sendable positive whole
    have shape : SameShape frames frames := List.forall₂_same.mpr fun frame member =>
      ⟨sendable frame member, rfl, le_rfl⟩
    obtain ⟨readsEarlier, readsLater, rfl, lengthsEarlier, -⟩ :=
      List.map_eq_append_iff.mp (lengths.trans split)
    refine sharedFrames_ne_of_zeros sendable nonempty bytes (fun first rest splitReads => ?_)
      ⟨readsEarlier, readsLater, rfl, by rw [List.length_flatten, lengthsEarlier]; exact harmful⟩
      (same frames _ shape lengths bytes)
    rw [List.length_flatten]
    exact outside _ (rest.map List.length) (by rw [← lengths, splitReads, List.map_append])
  · intro harmless others reads shape lengths bytes
    refine sharedFrames_of_harmless shape.sendable (fun read member empty => ?_) bytes ?_
    · have size := positive read.length (lengths ▸ List.mem_map_of_mem member)
      rw [empty] at size
      exact absurd size.1 (Nat.lt_irrefl _)
    · rw [lengths]
      exact fun earlier later split => shape.harmlessAt (harmless earlier later split)

/-- A two byte payload, cut between its bytes. -/
theorem mainLoop_iff_cut : ¬ Harmless [(0x21, [1, 2])] [6, 1] := by
  intro harmless
  have same := (mainLoop_iff (fun _ => 0) (fun _ => 0) [(0x21, [1, 2])]
    (by
      intro frame member
      rw [List.mem_singleton.mp member]
      exact ⟨by decide, by decide, by decide⟩)
    [6, 1] (by decide) (by decide)).mpr harmless [(0x21, [1, 2])] [[0, 0x21, 2, 3, 0xFB, 1], [2]]
    (.cons ⟨⟨by decide, by decide, by decide⟩, rfl, le_rfl⟩ .nil) (by decide) (by decide +kernel)
  exact absurd same (by decide +kernel)

theorem sharedFrames_cut_fails :
    ¬ ∀ (buffer header : Nat → UInt8) (frames : List (UInt8 × List UInt8))
      (reads : List (List UInt8)), (∀ frame ∈ frames, Sendable frame) →
      (∀ read ∈ reads, 1 ≤ read.length ∧ read.length ≤ 255) →
      reads.flatten = wireBytes header frames →
        sharedFrames buffer reads = separateFrames buffer reads := by
  intro always
  have same := always (fun _ => 0) (fun _ => 0) [(0x21, [1, 2])] [[0, 0x21, 2, 3, 0xFB, 1], [2]]
    (by
      intro frame member
      rw [List.mem_singleton.mp member]
      exact ⟨by decide, by decide, by decide⟩)
    (by decide) (by decide +kernel)
  exact absurd same (by decide +kernel)

end MainLoop

end ForgeDrive.Abf
