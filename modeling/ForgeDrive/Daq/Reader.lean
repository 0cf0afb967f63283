/-
**The DAQ stream reader** (`Reader` and `SampleBlock` of `DAQCodec.h`).

A pointer is a function from indices, as far as anything is read behind it: `dod_buf`, the channel
states, and the scratch array, of which the reader owns 64 cells. A call of `decode` brings its
chunk, and the bytes that the reads behind the chunk and behind the scratch array happen to return
(`decodeResyncDod` reads one byte behind its chunk; with 64 channels or more `syncUpdate` reads
behind the scratch array). What others see of the reader or rely on is recorded as events: the
writes to `dod_buf`, the restarts of the block, and the spans handed out.
-/

import ForgeDrive.Daq.Residual
import ForgeDrive.Library.Circular
import ForgeDrive.Library.EventMachine

namespace ForgeDrive.Daq

open Circular (segment store)

/-! ### Types -/

/-- `Err`. -/
inductive Err
  | ok
  | resyncDodBad
  | needSync
  | fault
  | badBlock
  | blockFull
  deriving DecidableEq, Repr

/-- `StreamType`. -/
inductive StreamType
  | control
  | sample
  deriving DecidableEq, Repr

/-- `ReaderState`. -/
inductive ReaderState
  | sample
  | dod
  | large16
  | virtualBits
  deriving DecidableEq, Repr

/-- `ControlCode::RESYNCDOD`. -/
def resyncDod : UInt8 := 0xFF

/-- `ControlCode::FLUSH`. -/
def flushCode : UInt8 := 0xFE

/-- `SampleBlock`. -/
structure SampleBlock where
  ready : Bool
  counter : UInt32
  samples : List Int16
  capacity : Nat

/-- `scratch_buf.size()`. -/
def scratchSize : Nat := 64

/-- `Reader`. The chunk being decoded is an argument of the functions that read it. -/
structure Reader where
  scratchBuf : Nat → UInt8
  dodBuf : Nat → Int16
  ccs : Nat → ChannelState
  channels : UInt8
  currentChannel : UInt8
  state : ReaderState
  stateRem : UInt8
  inSync : Bool
  block : SampleBlock

/-- A call of `decode`: the chunk and its type, the byte behind the chunk, and the bytes behind the
scratch array. -/
structure Call where
  bytes : List UInt8
  type : StreamType
  past : UInt8
  beyond : Nat → UInt8

/-- A chunk, where nothing behind it or behind the scratch array matters. -/
def chunk (type : StreamType) (bytes : List UInt8) : Call := ⟨bytes, type, 0, fun _ => 0⟩

/-- What the reader does that others see or rely on: a write to `dod_buf`, a restart of the block,
the return of a call or the exception that leaves it, and a span handed out. -/
inductive Event
  | dodWrite (index : Nat)
  | restarted
  | returned (error : Err)
  | vectorFull
  | handedOut (span : List Int16)
  deriving DecidableEq, Repr

/-- `Reader::Reader`, with `SampleBlock::SampleBlock`, for arrays of these sizes. -/
def Reader.new (scratchBuf : Nat → UInt8) (dodBuf : Nat → Int16) (ccs : Nat → ChannelState)
    (ccsSize dodSize capacity : Nat) : Reader where
  scratchBuf := scratchBuf
  dodBuf := dodBuf
  ccs := ccs
  channels := if ccsSize = dodSize then UInt8.ofNat ccsSize else 0
  currentChannel := 0
  state := .dod
  stateRem := 0
  inSync := false
  block := { ready := false, counter := 0, samples := [], capacity := capacity }

/-! ### Samples -/

/-- `dod_buf[current_channel++] = value`. -/
def Reader.writeDod (r : Reader) (value : Int16) : Reader × List Event :=
  ({ r with
      dodBuf := Function.update r.dodBuf r.currentChannel.toNat value
      currentChannel := r.currentChannel + 1 },
    [.dodWrite r.currentChannel.toNat])

/-- `unzigzag(scratch_buf[0] << 8 | scratch_buf[1])`. -/
def Reader.scratchValue (r : Reader) : Int16 := unzigzag (word (r.scratchBuf 0) (r.scratchBuf 1))

/-- `decodeDod`. -/
def Reader.decodeDod (r : Reader) (byte : UInt8) : Reader × List Event :=
  if byte > virtualBitsEnd then
    if byte = large16 then ({ r with state := .large16, stateRem := 2 }, []) else (r, [])
  else if byte > virtualBitsStart then
    ({ r with
        state := .virtualBits
        stateRem := 1
        scratchBuf := Function.update r.scratchBuf 0 (byte - virtualBitsStart) }, [])
  else r.writeDod (unzigzag byte.toUInt16)

/-- The end of `decodeLarge16` and `decodeVirtualBits`. -/
def Reader.finishToken (r : Reader) : Reader × List Event :=
  let r := { r with stateRem := r.stateRem - 1 }
  if r.stateRem = 0 then
    let written := r.writeDod r.scratchValue
    ({ written.1 with state := .dod }, written.2)
  else (r, [])

/-- `decodeLarge16`. -/
def Reader.decodeLarge16 (r : Reader) (byte : UInt8) : Reader × List Event :=
  { r with scratchBuf := Function.update r.scratchBuf (2 - r.stateRem).toNat byte }.finishToken

/-- `decodeVirtualBits`. -/
def Reader.decodeVirtualBits (r : Reader) (byte : UInt8) : Reader × List Event :=
  { r with scratchBuf := Function.update r.scratchBuf 1 byte }.finishToken

/-- One turn of the loop of `emitSample`; there is room for the sample. -/
def Reader.emitChannel (r : Reader) (i : Nat) : Reader :=
  let decoded := dodDecode (r.ccs i) (r.dodBuf i)
  { r with
    ccs := Function.update r.ccs i decoded.1
    block := { r.block with samples := r.block.samples ++ [decoded.2] } }

/-- `block.samples.available()`. -/
def SampleBlock.available (block : SampleBlock) : Nat := block.capacity - block.samples.length

/-- `emitSample`. -/
def Reader.emitSample (r : Reader) : Reader :=
  if r.block.available < r.channels.toNat then r
  else { (List.range r.channels.toNat).foldl Reader.emitChannel r with currentChannel := 0 }

/-- One byte of a sample chunk, by the parser state. -/
def Reader.decodeToken (r : Reader) (byte : UInt8) : Reader × List Event :=
  match r.state with
  | .dod => r.decodeDod byte
  | .large16 => r.decodeLarge16 byte
  | .virtualBits => r.decodeVirtualBits byte
  | .sample => (r, [])

/-- One turn of the loop of `decodeSample`. -/
def Reader.decodeByte (r : Reader) (byte : UInt8) : Reader × List Event :=
  let decoded := r.decodeToken byte
  (if decoded.1.currentChannel = decoded.1.channels then decoded.1.emitSample else decoded.1,
    decoded.2)

/-- `decodeSample`. -/
def Reader.decodeSample (r : Reader) (bytes : List UInt8) : Reader × List Event :=
  let decoded := EventMachine.run Reader.decodeByte r bytes
  (decoded.1, decoded.2 ++ [.returned .ok])

/-! ### Control blocks -/

/-- `decodeFlush`. -/
def Reader.decodeFlush (r : Reader) : Reader × List Event :=
  (if r.inSync then { r with block := { r.block with ready := true } } else r, [.returned .ok])

/-- `expected_size` of `decodeResyncDod`, a `uint8_t`. -/
def expectedSize (channels : UInt8) : UInt8 := 4 + 4 * channels + 1

/-- The test of `decodeResyncDod`: a block of this size is accepted. -/
def wellFormed (channels : UInt8) (size : Nat) : Bool :=
  size = (expectedSize channels).toNat && size ≤ scratchSize

/-- `decodeResyncDod`, on a chunk whose first byte was read. -/
def Reader.decodeResyncDod (r : Reader) (call : Call) : Reader × List Event :=
  if wellFormed r.channels call.bytes.length then
    ({ r with
        scratchBuf := store r.scratchBuf 0 (call.bytes.tail ++ [call.past])
        block := { r.block with ready := if r.inSync then true else r.block.ready }
        inSync := true
        state := .sample }, [.returned .ok])
  else (r, [.returned .resyncDodBad])

/-- `decodeControl`. -/
def Reader.decodeControl (r : Reader) (call : Call) : Reader × List Event :=
  if call.bytes.head? = some resyncDod then r.decodeResyncDod call
  else if call.bytes.head? = some flushCode then r.decodeFlush
  else (r, [.returned .fault])

/-! ### Restarting the block -/

/-- The scratch array as `syncUpdate` reads it, its index a `uint8_t`. -/
def Reader.scratchAt (r : Reader) (beyond : Nat → UInt8) (index : Nat) : UInt8 :=
  if index % 256 < scratchSize then r.scratchBuf (index % 256) else beyond (index % 256)

/-- The channel state in the scratch array. -/
def Reader.scratchState (r : Reader) (beyond : Nat → UInt8) (i : Nat) : ChannelState :=
  let at_ := r.scratchAt beyond
  ⟨(word (at_ (4 + 4 * i)) (at_ (5 + 4 * i))).toInt16,
    (word (at_ (6 + 4 * i)) (at_ (7 + 4 * i))).toInt16⟩

/-- The sample counter in the scratch array. -/
def Reader.scratchCounter (r : Reader) : UInt32 :=
  (r.scratchBuf 0).toUInt32 <<< 24 ||| (r.scratchBuf 1).toUInt32 <<< 16 |||
    (r.scratchBuf 2).toUInt32 <<< 8 ||| (r.scratchBuf 3).toUInt32

/-- One turn of the loop of `syncUpdate`: the reader, and whether `push_back` has thrown
`vector_full`. -/
def Reader.syncChannel (beyond : Nat → UInt8) (r : Reader × Bool) (i : Nat) : Reader × Bool :=
  if r.2 || r.1.block.samples.length = r.1.block.capacity then (r.1, true)
  else
    let state := r.1.scratchState beyond i
    ({ r.1 with
        block := { r.1.block with samples := r.1.block.samples ++ [state.sample] }
        ccs := Function.update r.1.ccs i state }, false)

/-- `syncUpdate`, and whether an exception leaves it. -/
def Reader.syncUpdate (r : Reader) (beyond : Nat → UInt8) : Reader × Bool × List Event :=
  let r := { r with block := { r.block with counter := r.scratchCounter, samples := [] } }
  if r.block.capacity = 0 then (r, false, [])
  else
    let synced := (List.range r.channels.toNat).foldl (Reader.syncChannel beyond) (r, false)
    if synced.2 then (synced.1, true, [])
    else ({ synced.1 with
      block := { synced.1.block with ready := false }, state := .dod }, false, [.restarted])

/-! ### Decoding -/

/-- The end of `decode`. -/
def Reader.decodeBody (r : Reader) (call : Call) : Reader × List Event :=
  match call.type with
  | .control => r.decodeControl call
  | .sample => if r.inSync then r.decodeSample call.bytes else (r, [.returned .needSync])

/-- The beginning of `decode`: after a resync block, the reader is restarted by the next call. -/
def Reader.begin_ (r : Reader) (call : Call) : Reader × Bool × List Event :=
  if r.inSync ∧ r.state = .sample then r.syncUpdate call.beyond else (r, false, [])

/-- `decode`. -/
def Reader.decode (r : Reader) (call : Call) : Reader × List Event :=
  if call.bytes = [] then (r, [.returned .ok])
  else
    let begun := r.begin_ call
    if begun.2.1 then (begun.1, begun.2.2 ++ [.vectorFull])
    else
      let decoded := begun.1.decodeBody call
      (decoded.1, begun.2.2 ++ decoded.2)

/-- `SampleBlock::getSamples`, for a block that is ready. -/
def Reader.getSamples (r : Reader) : Reader × List Event :=
  ({ r with block := { r.block with ready := false } }, [.handedOut r.block.samples])

/-- A call of `decode`, with `getSamples` called after it if the block is ready. -/
def Reader.decodeAndGet (r : Reader) (call : Call) : Reader × List Event :=
  let decoded := r.decode call
  if decoded.1.block.ready then
    let got := decoded.1.getSamples
    (got.1, decoded.2 ++ got.2)
  else decoded

end ForgeDrive.Daq
