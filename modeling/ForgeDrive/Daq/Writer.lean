/-
**The DAQ stream writer** (`Writer` of `DAQCodec.h`).

The writer keeps two rings: the stream of bytes, and a mark for each control block in it. Arrays are
functions from indices, as in the reader; `sample_counter` is the caller's variable, of which the
writer holds a reference.
-/

import ForgeDrive.Daq.Reader
import ForgeDrive.El.RingFast

namespace ForgeDrive.Daq

open Circular (segment store)
open El (RingFast)

/-! ### Types -/

/-- `CONTROL_RESERVE`. -/
def controlReserve : UInt8 := 16

/-- `Flags::BACKPRESSURE`. -/
def backpressure : UInt8 := 1

/-- `ControlMark`. -/
structure ControlMark where
  idx : UInt16
  size : UInt8
  deriving DecidableEq, Repr

/-- `Writer`; `channels` is `ccs.size()`. -/
structure Writer where
  ccs : Nat → ChannelState
  channels : Nat
  sampleCounter : UInt32
  stream : RingFast UInt8
  marks : RingFast ControlMark
  samplesTillSync : UInt8
  syncPeriod : UInt8
  reserve : UInt8
  flags : UInt8

/-- `Writer::reset`. -/
def Writer.reset (w : Writer) : Writer :=
  { w with stream := w.stream.clear, samplesTillSync := 0, sampleCounter := 0, flags := 0 }

/-- `Writer::Writer`, for rings of these sizes; `flags` is not initialised before `reset`. -/
def Writer.new (streamBuf : Nat → UInt8) (streamSize : UInt16) (markBuf : Nat → ControlMark)
    (markSize : UInt16) (ccs : Nat → ChannelState) (channels : Nat) (sampleCounter : UInt32)
    (syncPeriod flags : UInt8) : Writer :=
  Writer.reset
    { ccs := ccs
      channels := channels
      sampleCounter := sampleCounter
      stream := .new streamBuf streamSize
      marks := .new markBuf markSize
      samplesTillSync := 0
      syncPeriod := syncPeriod
      reserve := UInt8.ofNat (controlReserve.toNat * channels)
      flags := flags }

/-! ### Writing -/

/-- The bytes of the sample counter, the highest first. -/
def counterBytes (counter : UInt32) : List UInt8 :=
  [(counter >>> 24).toUInt8, (counter >>> 16).toUInt8, (counter >>> 8).toUInt8, counter.toUInt8]

/-- The bytes of a channel state: the sample and the delta, the high byte first. -/
def stateBytes (state : ChannelState) : List UInt8 :=
  [(state.sample.toUInt16 >>> 8).toUInt8, state.sample.toUInt16.toUInt8,
    (state.delta.toUInt16 >>> 8).toUInt8, state.delta.toUInt16.toUInt8]

/-- `uint8_t channels = ccs.size()` of `internal_resync`. -/
def Writer.channelCount (w : Writer) : UInt8 := UInt8.ofNat w.channels

/-- What `internal_resync` pushes behind the control code. -/
def Writer.resyncBytes (w : Writer) : List UInt8 :=
  counterBytes w.sampleCounter ++
    (List.range w.channelCount.toNat).flatMap fun i => stateBytes (w.ccs i)

/-- `internal_resync`. -/
def Writer.internalResync (w : Writer) : Writer :=
  let info : ControlMark := ⟨w.stream.head, 4 + 2 * 2 * w.channelCount + 1⟩
  { w with
    stream := (w.stream.pushFast resyncDod).pushAll w.resyncBytes
    marks := (w.marks.push info).1
    samplesTillSync := w.syncPeriod }

/-- One turn of the loop of `pushSample`; the channel of `dod_encode` is a `uint8_t`. -/
def Writer.encodeChannel (write : Bool) (samples : Nat → Int16) (w : Writer) (i : Nat) : Writer :=
  let encoded := dodEncode (w.ccs (i % 256)) (samples i)
  { w with
    ccs := Function.update w.ccs (i % 256) encoded.1
    stream := if write then w.stream.pushAll (residualBytes encoded.2) else w.stream }

/-- The tests at the beginning of `pushSample`, and whether the row is accepted. -/
def Writer.admission (w : Writer) : Writer × Bool :=
  if w.flags &&& backpressure ≠ 0 then (w, false)
  else if w.stream.free ≤ w.reserve.toUInt16 then
    ({ w with flags := w.flags ||| backpressure, samplesTillSync := 0 }, false)
  else (w, true)

/-- `sync` of `pushSample`: the row begins a new block. -/
def Writer.startsBlock (w : Writer) : Bool := w.admission.2 && w.samplesTillSync = 0

/-- `write` of `pushSample`: the residuals of the row are written. -/
def Writer.writesRow (w : Writer) : Bool := w.admission.2 && !(w.samplesTillSync = 0 : Bool)

/-- The loop of `pushSample`. -/
def Writer.encodeRow (w : Writer) (write : Bool) (samples : Nat → Int16) : Writer :=
  (List.range w.channels).foldl (Writer.encodeChannel write samples) w

/-- `pushSample`. -/
def Writer.pushSample (w : Writer) (samples : Nat → Int16) : Writer × Bool :=
  let encoded := w.admission.1.encodeRow w.writesRow samples
  let synced := if w.startsBlock then encoded.internalResync else encoded
  (if w.writesRow then { synced with samplesTillSync := synced.samplesTillSync - 1 } else synced,
    w.admission.2)

/-- `flush`. -/
def Writer.flush (w : Writer) : Writer × Bool :=
  if w.stream.free ≤ controlReserve.toUInt16 then (w, false)
  else
    ({ w with
        stream := w.stream.pushFast flushCode
        marks := (w.marks.push ⟨w.stream.head, 1⟩).1
        samplesTillSync := 0 }, true)

/-! ### Reading -/

/-- `bytes_to_read` and `type`, before the buffer is taken into account. Where `distanceFromTail`
fails, `dist_to_mark` keeps its indeterminate value. -/
def Writer.planned (w : Writer) (stale : UInt16) : UInt16 × StreamType :=
  match w.marks.peek with
  | some mark =>
    let distance := (w.stream.distanceFromTail mark.idx.toInt16).getD stale
    if distance > 0 then (distance, .sample) else (mark.size.toUInt16, .control)
  | none => (w.stream.size, .sample)

/-- The buffer after the two `memcpy` of `readNext`, and `copied`. -/
def copyRegions (stream : RingFast UInt8) (out : Fd.Regions) (count : UInt16)
    (buf : Nat → UInt8) : (Nat → UInt8) × UInt16 :=
  let n := if out.cont1 < count then out.cont1 else count
  let buf := store buf 0 (segment stream.buffer_ out.first.toNat n.toNat)
  match out.second with
  | some second =>
    if n < count then
      let n2 := if out.cont2 < count - n then out.cont2 else count - n
      (store buf n.toNat (segment stream.buffer_ second.toNat n2.toNat), n + n2)
    else (buf, n)
  | none => (buf, n)

/-- What `readNext` leaves: the writer, the type, the caller's buffer and the value returned. -/
structure ReadResult where
  writer : Writer
  type : StreamType
  buf : Nat → UInt8
  returned : UInt16

/-- The end of `readNext`, for `count` bytes in the reserved regions. -/
def Writer.commitRead (w : Writer) (type : StreamType) (count : UInt16) (out : Fd.Regions)
    (buf : Nat → UInt8) : ReadResult :=
  let copied := copyRegions w.stream out count buf
  let stream := w.stream.readCommit copied.2
  { writer := { w with
      stream := stream
      marks := if type = .control then w.marks.pop else w.marks
      flags := if stream.size = 0 then w.flags &&& ~~~backpressure else w.flags }
    type := type
    buf := copied.1
    returned := count }

/-- `readNext`, into a buffer of `size` bytes. -/
def Writer.readNext (w : Writer) (buf : Nat → UInt8) (size : Nat) (stale : UInt16) : ReadResult :=
  let planned := w.planned stale
  if planned.2 = .control ∧ (planned.1.toNat > size ∨ planned.1 = 0) then ⟨w, planned.2, buf, 0⟩
  else
    let count := if planned.1.toNat > size then UInt16.ofNat size else planned.1
    match w.stream.readReserve with
    | none => ⟨w, planned.2, buf, 0⟩
    | some out => w.commitRead planned.2 count out buf

end ForgeDrive.Daq
