/-
**The discovery session `daq::Session`** (`DAQStream.h`, `DAQStream.cpp`) and the session of the
firmware (`DAQSessionAPP.h`).

A session describes itself in messages of id–length–value fields, and `process` is to interpret the
messages that arrive. The virtual functions are a record of functions (`Derived`) on the members of
the session and on those that the derived class adds; a call of `on_mark` or `on_field` is recorded
with what it is given. A `float` is its bits, a `META` text its bytes up to the terminating zero.

* `Session.interprets_iff` — `process` interprets a message when there is nothing in it to
  interpret: it never looks at the bytes, and its reader has no span;
* `not_interprets` — so the firmware does not answer a discovery request.
-/

import ForgeDrive.Abf.Stream
import ForgeDrive.Idv.Message
import ForgeDrive.Usb.Exchange

namespace ForgeDrive.Daq.Discovery

open Circular (segment store)

/-! ### Ids and markers -/

/-- `ID`. -/
inductive ID
  | id
  | parentId
  | metaText
  | streamCount
  | channelCount
  | sampleTime
  | ticks
  | scale
  | offset
  | compression
  | marker
  deriving DecidableEq, Repr

/-- The value of an `ID`. -/
def ID.code : ID → UInt8
  | .id => 0
  | .parentId => 1
  | .metaText => 2
  | .streamCount => 3
  | .channelCount => 4
  | .sampleTime => 5
  | .ticks => 6
  | .scale => 7
  | .offset => 8
  | .compression => 9
  | .marker => 0xFF

/-- `MARKER`. -/
inductive Marker
  | autoDiscoverReq
  | autoDiscoverRep
  | session
  | stream
  | channel
  deriving DecidableEq, Repr

/-- The value of a `MARKER`. -/
def Marker.code : Marker → UInt8
  | .autoDiscoverReq => 0
  | .autoDiscoverRep => 1
  | .session => 2
  | .stream => 3
  | .channel => 4

/-- `ENTRY`. -/
def Marker.entry (m : Marker) : UInt8 := m.code

/-- `EXIT`. -/
def Marker.exit (m : Marker) : UInt8 := m.code ||| 0x80

/-! ### The tree and its messages -/

/-- A C string: the bytes before the zero that ends it. -/
structure CString where
  bytes : List UInt8
  noZero : 0 ∉ bytes

/-- The memory a C string points to. -/
def CString.memory (text : CString) (index : Nat) : UInt8 := text.bytes.getD index 0

/-- `add_BINARY(id, Meta, strlen(Meta))`: the length goes through a `uint8_t`. -/
def CString.addTo (text : CString) (w : Idv.Writer) (field : ID) : Idv.Writer × Idv.Err :=
  w.addBinary field.code text.memory (UInt8.ofNat text.bytes.length)

/-- `Channel`. -/
structure Channel where
  id : UInt8
  metaText : CString
  scale : UInt32
  offset : UInt32

/-- `Stream`. -/
structure Stream where
  ticks : Int32
  sampleTimeNs : Int32
  id : UInt8
  channels : List Channel
  metaText : CString

/-- `Session`, whose reader is one that the public members of its class bring about. -/
structure Session where
  writer : Idv.Writer
  reader : Idv.Reader
  made : reader.Made
  id : UInt8
  metaText : CString
  streams : List Stream

/-- `Channel::serialize`. The error is that of the last field. -/
def Channel.serialize (c : Channel) (w : Idv.Writer) (parentId : UInt8) : Idv.Writer × Idv.Err :=
  let w := (w.addUInt8 ID.marker.code Marker.channel.entry).1
  let w := (w.addUInt8 ID.id.code c.id).1
  let w := (w.addUInt8 ID.parentId.code parentId).1
  let w := (c.metaText.addTo w .metaText).1
  let w := (w.addFloat ID.scale.code c.scale).1
  let w := (w.addFloat ID.offset.code c.offset).1
  w.addUInt8 ID.marker.code Marker.channel.exit

/-- `Stream::serialize`. -/
def Stream.serialize (s : Stream) (w : Idv.Writer) (parentId : UInt8) : Idv.Writer × Idv.Err :=
  let w := (w.addUInt8 ID.marker.code Marker.stream.entry).1
  let w := (w.addUInt8 ID.id.code s.id).1
  let w := (w.addUInt8 ID.parentId.code parentId).1
  let w := (s.metaText.addTo w .metaText).1
  let w := (w.addUInt8 ID.channelCount.code (UInt8.ofNat s.channels.length)).1
  let w := (w.addUInt32 ID.sampleTime.code s.sampleTimeNs.toUInt32).1
  let w := (w.addUInt32 ID.ticks.code s.ticks.toUInt32).1
  w.addUInt8 ID.marker.code Marker.stream.exit

/-- `Session::serialize`. -/
def Session.serialize (s : Session) (w : Idv.Writer) (parentId : UInt8) : Idv.Writer × Idv.Err :=
  let w := (w.addUInt8 ID.marker.code Marker.session.entry).1
  let w := (w.addUInt8 ID.id.code s.id).1
  let w := (w.addUInt8 ID.parentId.code parentId).1
  let w := (s.metaText.addTo w .metaText).1
  let w := (w.addUInt8 ID.streamCount.code (UInt8.ofNat s.streams.length)).1
  w.addUInt8 ID.marker.code Marker.session.exit

/-- `Session::Session`. The members without an initialiser start with any values. -/
def Session.new (metaText : CString) (writerBuffer : Nat → UInt8) (size : Nat)
    (id idvId idvLen : UInt8) (idvValue : Nat) : Session where
  writer := Idv.Writer.new writerBuffer size
  reader := ⟨[], 0, idvId, idvLen, idvValue⟩
  made := .default idvId idvLen idvValue
  id := id
  metaText := metaText
  streams := []

/-- `Session::registerStreams`. -/
def Session.registerStreams (s : Session) (streams : List Stream) : Session :=
  { s with streams := streams }

/-- The inner loop of `annonate`. -/
def annonateChannels (cid : UInt8) : List Channel → List Channel × UInt8
  | [] => ([], cid)
  | channel :: rest =>
    let done := annonateChannels (cid + 1) rest
    ({ channel with id := cid } :: done.1, done.2)

/-- The outer loop of `annonate`. -/
def annonateStreams (cid : UInt8) : List Stream → List Stream
  | [] => []
  | stream :: rest =>
    let done := annonateChannels (cid + 1) stream.channels
    { stream with id := cid, channels := done.1 } :: annonateStreams done.2 rest

/-- `Session::annonate`. -/
def Session.annonate (s : Session) : Session :=
  { s with id := 0, streams := annonateStreams 1 s.streams }

/-! ### Sending -/

variable {Own : Type*}

/-- What a class derived from `Session` puts in the place of the virtual functions: `Own` are the
members it adds. `on_field` is given the reader of the session. -/
structure Derived (Own : Type*) where
  send : Idv.Writer → Own → Idv.Writer × Own
  onMark : UInt8 → Bool → Session → Own → Session × Own
  onField : UInt8 → Session → Own → Session × Own

/-- Write a message, `send()` it and reset the writer. -/
def sendMessage (send : Idv.Writer → Own → Idv.Writer × Own)
    (write : Idv.Writer → Idv.Writer × Idv.Err) (out : Idv.Writer × Own) :
    (Idv.Writer × Own) × Idv.Err :=
  let written := write out.1
  let sent := send written.1 out.2
  ((sent.1.reset, sent.2), written.2)

/-- The two fields of a request. -/
def writeRequest (w : Idv.Writer) : Idv.Writer × Idv.Err :=
  (w.addUInt8 ID.marker.code Marker.autoDiscoverReq.entry).1.addUInt8 ID.marker.code
    Marker.autoDiscoverReq.exit

/-- `Session::discovery_req`. -/
def Session.discoveryReq (s : Session) (send : Idv.Writer → Own → Idv.Writer × Own) (own : Own) :
    Session × Own × Idv.Err :=
  let done := sendMessage send writeRequest (s.writer.reset, own)
  ({ s with writer := done.1.1 }, done.1.2, done.2)

/-- The messages of a stream and of its channels. -/
def Stream.describe (send : Idv.Writer → Own → Idv.Writer × Own) (parentId : UInt8)
    (out : Idv.Writer × Own) (stream : Stream) : Idv.Writer × Own :=
  stream.channels.foldl
    (fun out channel => (sendMessage send (channel.serialize · stream.id) out).1)
    (sendMessage send (stream.serialize · parentId) out).1

/-- `Session::discovery_respond`. -/
def Session.discoveryRespond (s : Session) (send : Idv.Writer → Own → Idv.Writer × Own)
    (own : Own) : Session × Own × Idv.Err :=
  let s := s.annonate
  let out := (s.writer.reset, own)
  let out := (sendMessage send
    (fun w => w.addUInt8 ID.marker.code Marker.autoDiscoverRep.entry) out).1
  let out := (sendMessage send (fun w => s.serialize w s.id) out).1
  let out := s.streams.foldl (Stream.describe send s.id) out
  let done := sendMessage send
    (fun w => w.addUInt8 ID.marker.code Marker.autoDiscoverRep.exit) out
  ({ s with writer := done.1.1 }, done.1.2, done.2)

/-! ### Processing a message -/

/-- A call of a virtual function by `process`; the reader stands on this field. -/
inductive Session.Call
  | onMark (mark : UInt8) (entry : Bool)
  | onField (id : UInt8) (field : Idv.Field)
  deriving DecidableEq, Repr

/-- `reader.next()` on the member. -/
def Session.next (s : Session) : Session × Bool :=
  ({ s with reader := s.reader.next.1, made := s.made.next }, s.reader.next.2)

/-- `reader.reset()` on the member. -/
def Session.rewind (s : Session) : Session :=
  { s with reader := s.reader.reset, made := s.made.reset }

/-- The loop body of `process`. -/
def Session.dispatch (v : Derived Own) (s : Session) (own : Own) :
    Session × Own × Session.Call :=
  let id := s.reader.idvId
  if id = ID.marker.code then
    let marker := (s.reader.asUInt8 0xFF).1
    let entry := marker &&& 0x80 = 0
    let marker := marker &&& ~~~0x80
    let after := v.onMark marker entry s own
    (after.1, after.2, .onMark marker entry)
  else
    let after := v.onField id s own
    (after.1, after.2, .onField id ⟨id, s.reader.value⟩)

/-- The loop of `process`, with the calls made so far; it may run out of `turns`. -/
def Session.processLoop (v : Derived Own) :
    Nat → Session → Own → List Session.Call → Option (Session × Own × List Session.Call)
  | 0, _, _, _ => none
  | turns + 1, s, own, calls =>
    let (s, more) := s.next
    if more then
      let (s, own, call) := s.dispatch v own
      s.processLoop v turns own (calls ++ [call])
    else some (s, own, calls)

/-- `Session::process`. Neither the bytes nor their number are used. -/
def Session.process (v : Derived Own) (s : Session) (own : Own) (_data : Nat → UInt8)
    (_dataLen : UInt16) (turns : Nat) : Option (Session × Own × List Session.Call) :=
  s.rewind.processLoop v turns own []

/-! ### The session of the firmware -/

/-- The members `DAQSessionAPP` adds: the USB exchange, with the transfers started on it. `stack` is
what the local array of `send` holds before it is filled. -/
structure DeviceMembers where
  usb : Usb.Exchange
  transfers : List (List UInt8)
  stack : Nat → UInt8

/-- `fd_usbxch_flush`. -/
def DeviceMembers.flush (d : DeviceMembers) : DeviceMembers :=
  { d with usb := d.usb.startTx.1, transfers := d.transfers ++ d.usb.startTx.2.toList }

/-- `DAQSessionAPP::send`. -/
def deviceSend (w : Idv.Writer) (d : DeviceMembers) : Idv.Writer × DeviceMembers :=
  let payloadLen := w.bufIdx.toUInt8
  let (_, header, payload) :=
    Abf.encode d.stack (segment w.buf 0 payloadLen.toNat) 16 payloadLen
  let w := { w with buf := store w.buf 0 payload }
  let usb := (d.usb.write (segment header 0 Abf.headerSize)).1
  let usb := (usb.write w.written).1
  (w, { d with usb := usb }.flush)

/-- `DAQSessionAPP::on_mark`. -/
def deviceOnMark (mark : UInt8) (entry : Bool) (s : Session) (d : DeviceMembers) :
    Session × DeviceMembers :=
  if mark = Marker.autoDiscoverReq.code then
    if !entry then
      let (s, d, _) := s.discoveryRespond deviceSend d
      (s, d)
    else (s, d)
  else (s, d)

/-- `DAQSessionAPP`. `on_field` is that of the base class. -/
def device : Derived DeviceMembers := ⟨deviceSend, deviceOnMark, fun _ s d => (s, d)⟩

/-! ### What `process` is to do, and what it does -/

/-- The call a field asks for: a marker of one byte is a mark, any other field is a field. -/
def fieldCall (field : Idv.Field) : Session.Call :=
  if field.id = ID.marker.code ∧ field.value.length = 1 then
    .onMark (field.value.headD 0 &&& 0x7F) (field.value.headD 0 &&& 0x80 = 0)
  else .onField field.id field

/-- **`process` interprets the message**: it returns, with one call for each field of the message,
in order, and no other call. -/
def Session.Interprets (v : Derived Own) (s : Session) (own : Own) (data : Nat → UInt8)
    (dataLen : UInt16) : Prop :=
  ∃ turns s' own', s.process v own data dataLen turns =
    some (s', own', (Idv.fields (segment data 0 dataLen.toNat)).map fieldCall)

/-- **`process` makes no call.** The first `next` fails, whatever the message is. -/
theorem Session.process_succ (v : Derived Own) (s : Session) (own : Own) (data : Nat → UInt8)
    (dataLen : UInt16) (turns : Nat) :
    s.process v own data dataLen (turns + 1) = some (s.rewind, own, []) := by
  have nothing := Idv.Reader.next_empty s.rewind.made.buf_eq
  have stays : s.rewind.next = (s.rewind, false) := by
    simp only [Session.next, nothing]
  rw [Session.process, Session.processLoop, stays]
  rfl

/-- **`process` interprets exactly the messages that do not begin with a complete field.** -/
theorem Session.interprets_iff (v : Derived Own) (s : Session) (own : Own) (data : Nat → UInt8)
    (dataLen : UInt16) :
    s.Interprets v own data dataLen ↔
      ¬ Idv.StartsWithField (segment data 0 dataLen.toNat) := by
  rw [← Idv.fields_eq_nil_iff]
  constructor
  · rintro ⟨turns, s', own', returned⟩
    cases turns with
    | zero => cases returned
    | succ turns =>
      rw [Session.process_succ] at returned
      simp only [Option.some.injEq, Prod.mk.injEq] at returned
      exact List.map_eq_nil_iff.mp returned.2.2.symm
  · intro none_
    refine ⟨1, s.rewind, own, ?_⟩
    rw [Session.process_succ, none_]
    rfl

/-! ### A request that is not answered -/

/-- A session of the firmware, without streams. -/
def quiet : Session := Session.new ⟨[83, 65, 68], by decide⟩ (fun _ => 0) 255 0 0 0 0

/-- The members `DAQSessionAPP` adds to it. -/
def quietMembers : DeviceMembers :=
  ⟨Usb.Exchange.init (fun _ => 0) (fun _ => 0) 4096 256, [], fun _ => 0⟩

/-- The message `discovery_req` leaves in the writer for `send`. -/
def request : List UInt8 := (quiet.discoveryReq (fun w _ => (w, w.written)) []).2.1

theorem request_eq : request = [0xFF, 1, 0, 0xFF, 1, 0x80] := by decide

/-- The fields of a request are the two marks of it. -/
theorem fields_request : Idv.fields request = [⟨0xFF, [0]⟩, ⟨0xFF, [0x80]⟩] := by
  rw [request_eq]
  simp [Idv.fields]

/-- **The firmware does not answer a request**: the request asks for `on_mark` at its entry and at
its exit, where the second call is to respond, and `process` makes neither. -/
theorem not_interprets :
    (Idv.fields request).map fieldCall = [.onMark 0 true, .onMark 0 false] ∧
      (deviceOnMark 0 false quiet quietMembers).2.transfers ≠ [] ∧
      ¬ quiet.Interprets device quietMembers (fun i => request.getD i 0) 6 := by
  refine ⟨?_, ?_, ?_⟩
  · rw [fields_request]
    decide
  · decide +kernel
  · rintro ⟨turns, s', own', returned⟩
    cases turns with
    | zero => cases returned
    | succ turns =>
      have message : segment (fun i => request.getD i 0) 0 6 = request := by
        rw [request_eq]
        decide
      rw [Session.process_succ] at returned
      simp only [Option.some.injEq, Prod.mk.injEq] at returned
      have none_ := List.map_eq_nil_iff.mp returned.2.2.symm
      rw [show (6 : UInt16).toNat = 6 from rfl, message, fields_request] at none_
      cases none_

end ForgeDrive.Daq.Discovery
