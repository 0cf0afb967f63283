/-
**The frame protocol handler `abf::Stream`** (`ABFStream.h`, `ABFStream.cpp`).

A frame is a five byte header — sync byte, service id, payload size, code, checksum — followed by
the payload with its zeros overwritten by distances. `encode` rewrites a payload in place and fills
a header; `processByte` is one turn of the loop of `process`, and `process` feeds a chunk.

A pointer is a function from indices: `m_rxPayload` is the memory it points to. The loop body
mentions `data[i]` several times, after writes to `m_rxPayload`, and in the firmware both are the
same array; so `processByte` takes `data[i]` as something to evaluate in the state of the moment.
The callbacks are the events of a step, in the order in which they are called.
-/

import ForgeDrive.Abf.Crc8
import ForgeDrive.Library.Circular
import ForgeDrive.Library.EventMachine

namespace ForgeDrive.Abf

open Circular (segment)

/-! ### Constants and enumerations -/

/-- `SYNC_BYTE`. -/
def syncByte : UInt8 := 0x00

/-- `HEADER_SIZE`. -/
def headerSize : Nat := 5

inductive Err
  | ok
  | frameComplete
  | payloadIncomplete
  | payloadLargerThanExpected
  | headerCrcMismatch
  | rxBufferSmall
  | unknown
  deriving DecidableEq, Repr

inductive State
  | huntSync
  | readHeader
  | readPayload
  | validate
  deriving DecidableEq, Repr

/-- A call of one of the two callbacks. `onFrame` is called with a pointer to the payload buffer
and the payload length: the event records the bytes behind them at that moment. -/
inductive Event
  | onFrame (serviceId : UInt8) (payload : List UInt8)
  | onError (error : Err)
  deriving DecidableEq, Repr

/-- The receiver. `m_rxCapacity` comes from a `uint8_t`. -/
structure Stream where
  rxPayload : Nat → UInt8
  rxCapacity : Nat
  rxPos : Nat
  rxNextZero : UInt8
  header : Nat → UInt8
  headerPos : Nat
  state : State

/-- `Stream::Stream`. -/
def Stream.new (buffer : Nat → UInt8) (bufferSize : UInt8) : Stream where
  rxPayload := buffer
  rxCapacity := bufferSize.toNat
  rxPos := 0
  rxNextZero := 0
  header := fun _ => 0
  headerPos := 0
  state := .huntSync

/-- `Stream::reset`. The header bytes, the countdown and the payload buffer stay. -/
def Stream.reset (s : Stream) : Stream :=
  { s with state := .huntSync, rxPos := 0, headerPos := 0 }

/-- `m_rxPayload[m_rxPos++] = byte`. -/
def Stream.storePayload (s : Stream) (byte : UInt8) : Stream :=
  { s with rxPayload := Function.update s.rxPayload s.rxPos byte, rxPos := s.rxPos + 1 }

/-! ### Receiving -/

/-- `case State::HUNT_SYNC`. -/
def Stream.huntSync (s : Stream) (data : Stream → UInt8) : Stream × List Event :=
  if data s = syncByte then
    ({ s with state := .readHeader, header := Function.update s.header 0 syncByte, headerPos := 1 },
      [])
  else (s, [])

/-- The checksum test of a header whose last byte was just stored. -/
def Stream.checkHeader (s : Stream) : Stream × List Event :=
  if headerCrc (s.header 1) (s.header 2) (s.header 3) ≠ s.header 4 then
    (s.reset, [.onError .headerCrcMismatch])
  else (s, [])

/-- `case State::READ_HEADER`. After a wrong checksum, with `reset()` called and the error reported,
the same assignments are made as after a good one. -/
def Stream.readHeader (s : Stream) (data : Stream → UInt8) : Stream × List Event :=
  let s := { s with header := Function.update s.header s.headerPos (data s) }
  if s.headerPos = 4 then
    let checked := s.checkHeader
    let s := checked.1
    ({ s with
        rxNextZero := s.header 3, state := .readPayload, rxPos := 0, headerPos := s.headerPos + 1 },
      checked.2)
  else ({ s with headerPos := s.headerPos + 1 }, [])

/-- The test for a `0x00` inside a payload. -/
def Stream.checkByte (s : Stream) (data : Stream → UInt8) : Stream × List Event :=
  if data s = 0x00 then (s.reset, [.onError .payloadIncomplete]) else (s, [])

/-- Storing a payload byte, or a restored zero, where there is room. -/
def Stream.storeByte (s : Stream) (data : Stream → UInt8) : Stream × List Event :=
  if s.rxPos < s.rxCapacity then
    if s.rxNextZero = 1 then
      let s := s.storePayload 0x00
      ({ s with rxNextZero := data s }, [])
    else
      let s := s.storePayload (data s)
      ({ s with rxNextZero := s.rxNextZero - 1 }, [])
  else (s.reset, [.onError .rxBufferSmall])

/-- The first `if` of `case State::READ_PAYLOAD`: take one payload byte. After a `0x00`, with the
parser reset, the byte is stored all the same. -/
def Stream.takePayload (s : Stream) (data : Stream → UInt8) : Stream × List Event :=
  let checked := s.checkByte data
  let stored := checked.1.storeByte data
  (stored.1, checked.2 ++ stored.2)

/-- The second `if` of `case State::READ_PAYLOAD`: deliver a complete frame. -/
def Stream.deliver (s : Stream) : Stream × List Event :=
  if s.rxPos = (s.header 2).toNat then
    (s.reset, [Event.onFrame (s.header 1) (segment s.rxPayload 0 (s.header 2).toNat)])
  else (s, [])

/-- `case State::READ_PAYLOAD`. -/
def Stream.readPayload (s : Stream) (data : Stream → UInt8) : Stream × List Event :=
  let taken := if s.rxPos < (s.header 2).toNat then s.takePayload data else (s, [])
  (taken.1.deliver.1, taken.2 ++ taken.1.deliver.2)

/-- One turn of the loop of `process`, `data` being what `data[i]` reads. -/
def Stream.processByte (s : Stream) (data : Stream → UInt8) : Stream × List Event :=
  match s.state with
  | .huntSync => s.huntSync data
  | .readHeader => s.readHeader data
  | .readPayload => s.readPayload data
  | .validate => (s, [])

/-- One turn of the loop on a byte of an input array that is not the payload buffer. -/
def Stream.processOne (s : Stream) (byte : UInt8) : Stream × List Event :=
  s.processByte fun _ => byte

/-- `Stream::process` on the `length` bytes of `data`, an array apart from the payload buffer. -/
def Stream.process (s : Stream) (data : List UInt8) : Stream × List Event :=
  EventMachine.run Stream.processOne s data

/-! ### Sending -/

/-- Where `nextZeroPos` points: `header + 3`, or a byte of the payload. -/
inductive NextZeroPos
  | code
  | payload (index : Nat)

/-- The local state of the loop of `encode`. -/
structure Encoder where
  header : Nat → UInt8
  payload : List UInt8
  nextZeroPos : NextZeroPos
  zeroDistance : UInt8

/-- `*nextZeroPos = distance`. -/
def Encoder.writeDistance (e : Encoder) (distance : UInt8) : Encoder :=
  match e.nextZeroPos with
  | .code => { e with header := Function.update e.header 3 distance }
  | .payload index => { e with payload := e.payload.set index distance }

/-- The loop body of `encode` at index `i`. -/
def Encoder.step (e : Encoder) (i : Nat) : Encoder :=
  let e := { e with zeroDistance := e.zeroDistance + 1 }
  if e.payload[i]? = some 0 then
    { e.writeDistance e.zeroDistance with nextZeroPos := .payload i, zeroDistance := 0 }
  else e

/-- `Stream::encode`: the status, the header and the rewritten payload. -/
def encode (header : Nat → UInt8) (payload : List UInt8) (serviceId payloadLen : UInt8) :
    Err × (Nat → UInt8) × List UInt8 :=
  if payloadLen = 0 then (.unknown, header, payload)
  else if serviceId = 0 then (.unknown, header, payload)
  else
    let header := Function.update header 0 syncByte
    let header := Function.update header 1 serviceId
    let header := Function.update header 2 payloadLen
    let e : Encoder :=
      (List.range payloadLen.toNat).foldl Encoder.step ⟨header, payload, .code, 0⟩
    let e := e.writeDistance (e.zeroDistance + 1)
    let crc := headerCrc (e.header 1) (e.header 2) (e.header 3)
    (.ok, Function.update e.header 4 crc, e.payload)

end ForgeDrive.Abf
