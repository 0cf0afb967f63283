/-
**What serializing reports** (`DAQStream.cpp`).

`serialize` writes a row of fields and returns the result of the last one; `discovery_respond` sends
such messages and returns the result of the last mark. The `META` text of a message is as long as its
`strlen` says modulo 256 (`CString.cut`).

* `okMeansWhole` — when `OK` from a write means that the whole value was stored: for typed arrays,
  for typed values, and for the texts of the three messages;
* `reportsAll` — when `OK` from `serialize` and from `discovery_respond` means that all fields were
  written, by the room in the buffer and the lengths of the texts.
-/

import ForgeDrive.Daq.Reconstruction
import ForgeDrive.Idv.Reported

namespace ForgeDrive.Daq.Discovery

open Circular (segment)
open Idv (Countable Reports KeepsErrors left sizes messageBytes)

/-! ### The texts that are written -/

/-- The bytes of a text that `add_BINARY(id, Meta, strlen(Meta))` writes. -/
def CString.cut (text : CString) : CString where
  bytes := text.bytes.take (text.bytes.length % 256)
  noZero := fun zero => text.noZero (List.mem_of_mem_take zero)

/-- The length of a text modulo 256. -/
def CString.cutLength (text : CString) : Nat := text.bytes.length % 256

@[simp] theorem CString.cut_length (text : CString) : text.cut.bytes.length = text.cutLength := by
  show (text.bytes.take _).length = _
  rw [List.length_take]
  exact Nat.min_eq_left (Nat.mod_le _ _)

theorem CString.cutLength_lt (text : CString) : text.cutLength < 256 :=
  Nat.mod_lt _ (by decide)

/-- **A text is written cut.** -/
theorem CString.addTo_cut (text : CString) (w : Idv.Writer) (field : ID) :
    text.addTo w field = w.add ⟨field.code, text.cut.bytes⟩ := by
  have length : (UInt8.ofNat text.bytes.length).toNat = text.bytes.length % 256 :=
    UInt8.toNat_ofNat'
  rw [CString.addTo, Idv.addBinary_eq, length, text.segment_memory (Nat.mod_le _ _)]
  rfl

/-- A channel, a stream and a session with their texts cut. -/
def Channel.cut (c : Channel) : Channel := { c with metaText := c.metaText.cut }

def Stream.cut (s : Stream) : Stream :=
  { s with metaText := s.metaText.cut, channels := s.channels.map Channel.cut }

def Session.cut (s : Session) : Session :=
  { s with metaText := s.metaText.cut, streams := s.streams.map Stream.cut }

/-! ### Texts that are stored whole -/

/-- The writer of `serialize` when it comes to the text. -/
def headWriter (marker : Marker) (id parentId : UInt8) (w : Idv.Writer) : Idv.Writer :=
  let w := (w.addUInt8 ID.marker.code marker.entry).1
  let w := (w.addUInt8 ID.id.code id).1
  (w.addUInt8 ID.parentId.code parentId).1

def Channel.atText (c : Channel) (w : Idv.Writer) (parentId : UInt8) : Idv.Writer :=
  headWriter .channel c.id parentId w

def Stream.atText (s : Stream) (w : Idv.Writer) (parentId : UInt8) : Idv.Writer :=
  headWriter .stream s.id parentId w

def Session.atText (s : Session) (w : Idv.Writer) (parentId : UInt8) : Idv.Writer :=
  headWriter .session s.id parentId w

/-- What `serialize` writes behind the text. -/
def Channel.behindText (c : Channel) (w : Idv.Writer) : Idv.Writer × Idv.Err :=
  let w := (w.addFloat ID.scale.code c.scale).1
  let w := (w.addFloat ID.offset.code c.offset).1
  w.addUInt8 ID.marker.code Marker.channel.exit

def Stream.behindText (s : Stream) (w : Idv.Writer) : Idv.Writer × Idv.Err :=
  let w := (w.addUInt8 ID.channelCount.code (UInt8.ofNat s.channels.length)).1
  let w := (w.addUInt32 ID.sampleTime.code s.sampleTimeNs.toUInt32).1
  let w := (w.addUInt32 ID.ticks.code s.ticks.toUInt32).1
  w.addUInt8 ID.marker.code Marker.stream.exit

def Session.behindText (s : Session) (w : Idv.Writer) : Idv.Writer × Idv.Err :=
  let w := (w.addUInt8 ID.streamCount.code (UInt8.ofNat s.streams.length)).1
  w.addUInt8 ID.marker.code Marker.session.exit

section Texts

variable (w : Idv.Writer) (parentId : UInt8)

/-- **`serialize` writes its text** with the writer `atText`. -/
theorem Channel.serialize_atText (c : Channel) : c.serialize w parentId =
    c.behindText (c.metaText.addTo (c.atText w parentId) .metaText).1 := rfl

theorem Stream.serialize_atText (s : Stream) : s.serialize w parentId =
    s.behindText (s.metaText.addTo (s.atText w parentId) .metaText).1 := rfl

theorem Session.serialize_atText (s : Session) : s.serialize w parentId =
    s.behindText (s.metaText.addTo (s.atText w parentId) .metaText).1 := rfl

/-- `OK` from the `META` write of a text means that all of it was stored. -/
def CString.OkMeansWhole (text : CString) : Prop :=
  Idv.OkMeansWhole w (text.addTo w .metaText) ID.metaText.code text.memory text.bytes.length

theorem CString.okMeansWhole_iff (text : CString) :
    text.OkMeansWhole w ↔ Idv.Refuses w text.bytes.length ∨ Countable w text.bytes.length :=
  Idv.okMeansWhole_iff w ID.metaText.code text.memory text.bytes.length

end Texts

/-- **`OK` means that the whole value was stored**, for typed arrays, for typed values and for the
texts of the three messages, exactly for values of at most 255 bytes that end where the cursor can
count, or where there is no room for what a `uint8_t` keeps of the length. -/
theorem okMeansWhole (w : Idv.Writer) (id parentId count : UInt8) (size : Nat)
    (data : Nat → UInt8) (channel : Channel) (stream : Stream) (session : Session) :
    (Idv.OkMeansWhole w (w.addElements id size data count) id data (size * count.toNat) ↔
      Idv.Refuses w (size * count.toNat) ∨ Countable w (size * count.toNat)) ∧
    (Idv.OkMeansWhole w (w.addValue id size data) id data size ↔
      Idv.Refuses w size ∨ Countable w size) ∧
    (channel.metaText.OkMeansWhole (channel.atText w parentId) ↔
      Idv.Refuses (channel.atText w parentId) channel.metaText.bytes.length ∨
        Countable (channel.atText w parentId) channel.metaText.bytes.length) ∧
    (stream.metaText.OkMeansWhole (stream.atText w parentId) ↔
      Idv.Refuses (stream.atText w parentId) stream.metaText.bytes.length ∨
        Countable (stream.atText w parentId) stream.metaText.bytes.length) ∧
    (session.metaText.OkMeansWhole (session.atText w parentId) ↔
      Idv.Refuses (session.atText w parentId) session.metaText.bytes.length ∨
        Countable (session.atText w parentId) session.metaText.bytes.length) :=
  ⟨Idv.okMeansWhole_iff w id data _, Idv.okMeansWhole_iff w id data size,
    channel.metaText.okMeansWhole_iff _, stream.metaText.okMeansWhole_iff _,
    session.metaText.okMeansWhole_iff _⟩

/-- **128 elements of two bytes are stored as none.** -/
theorem not_okMeansWhole :
    ((Idv.Writer.new (fun _ => 0) 300).addElements 2 2 (fun _ => 7) 128).2 = .ok ∧
      ((Idv.Writer.new (fun _ => 0) 300).addElements 2 2 (fun _ => 7) 128).1.written = [2, 0] ∧
      ¬ Idv.OkMeansWhole (Idv.Writer.new (fun _ => 0) 300)
        ((Idv.Writer.new (fun _ => 0) 300).addElements 2 2 (fun _ => 7) 128) 2 (fun _ => 7)
        256 := by
  have ok : ((Idv.Writer.new (fun _ => 0) 300).addElements 2 2 (fun _ => 7) 128).2 = .ok := by
    decide
  refine ⟨ok, by decide, fun whole => ?_⟩
  obtain ⟨length, long, -⟩ := whole ok
  have byte := length.toNat_lt
  omega

/-! ### The rows of fields -/

/-- The fields of a message before its last mark. -/
def Report.body (r : Report) : List Idv.Field := ⟨ID.marker.code, [r.marker.entry]⟩ :: r.own

/-- The last mark of a message. -/
def Report.last (r : Report) : Idv.Field := ⟨ID.marker.code, [r.marker.exit]⟩

section Rows

variable {w : Idv.Writer}

theorem Channel.serialize_row (c : Channel) (parentId : UInt8) :
    c.serialize w parentId =
      w.addRow (c.cut.report parentId).body (c.cut.report parentId).last := by
  simp only [Channel.serialize, CString.addTo_cut]
  rfl

theorem Stream.serialize_row (s : Stream) (parentId : UInt8) :
    s.serialize w parentId =
      w.addRow (s.cut.report parentId).body (s.cut.report parentId).last := by
  have count : s.cut.channels.length = s.channels.length := List.length_map _
  simp only [Stream.serialize, CString.addTo_cut, ← count]
  rfl

theorem Session.serialize_row (s : Session) (parentId : UInt8) :
    s.serialize w parentId =
      w.addRow (s.cut.report parentId).body (s.cut.report parentId).last := by
  have count : s.cut.streams.length = s.streams.length := List.length_map _
  simp only [Session.serialize, CString.addTo_cut, ← count]
  rfl

end Rows

/-! ### Errors of one message -/

/-- The sizes of the fields before the last mark. -/
def Channel.row (c : Channel) : List Nat := [3, 3, 3, c.metaText.cutLength + 2, 6, 6]

def Stream.row (s : Stream) : List Nat := [3, 3, 3, s.metaText.cutLength + 2, 3, 6, 6]

def Session.row (s : Session) : List Nat := [3, 3, 3, s.metaText.cutLength + 2, 3]

/-- **With so many free bytes an error of `Channel::serialize` is lost**: the text or a number is
refused, and the last mark is not. -/
def Channel.LosesError (c : Channel) (free : Nat) : Prop :=
  free < c.metaText.cutLength + 11 ∧
      (12 ≤ free ∧ free < 15 ∨ 18 ≤ free ∧ free < 21 ∨ 24 ≤ free) ∨
    c.metaText.cutLength + 14 ≤ free ∧ free < c.metaText.cutLength + 17 ∨
    c.metaText.cutLength + 20 ≤ free ∧ free < c.metaText.cutLength + 23

/-- **With so many free bytes an error of `Stream::serialize` is lost.** -/
def Stream.LosesError (s : Stream) (free : Nat) : Prop :=
  free < s.metaText.cutLength + 11 ∧
      (15 ≤ free ∧ free < 18 ∨ 21 ≤ free ∧ free < 24 ∨ 27 ≤ free) ∨
    s.metaText.cutLength + 17 ≤ free ∧ free < s.metaText.cutLength + 20 ∨
    s.metaText.cutLength + 23 ≤ free ∧ free < s.metaText.cutLength + 26

/-- **With so many free bytes an error of `Session::serialize` is lost.** -/
def Session.LosesError (s : Session) (free : Nat) : Prop :=
  free < s.metaText.cutLength + 11 ∧ 15 ≤ free

theorem Channel.row_sum (c : Channel) : c.row.sum = c.metaText.cutLength + 23 := by
  simp only [Channel.row, List.sum_cons, List.sum_nil]
  omega

theorem Stream.row_sum (s : Stream) : s.row.sum = s.metaText.cutLength + 26 := by
  simp only [Stream.row, List.sum_cons, List.sum_nil]
  omega

theorem Session.row_sum (s : Session) : s.row.sum = s.metaText.cutLength + 14 := by
  simp only [Session.row, List.sum_cons, List.sum_nil]
  omega

section Losing

variable (free : Nat)

/-- The three fields before the text. -/
theorem left_head (rest : List Nat) :
    left free (3 :: 3 :: 3 :: rest) = left (if 9 ≤ free then free - 9 else free % 3) rest := by
  simp only [Idv.left_cons]
  congr 1
  split_ifs <;> omega

theorem Channel.losesError_iff (c : Channel) :
    c.row.sum + 3 ≤ free ∨ left free c.row < 3 ↔ ¬ c.LosesError free := by
  rw [c.row_sum, Channel.row, Channel.LosesError, left_head]
  repeat' (first | rw [Idv.left_cons] | split_ifs)
  all_goals
    rw [Idv.left_nil]
    omega

theorem Stream.losesError_iff (s : Stream) :
    s.row.sum + 3 ≤ free ∨ left free s.row < 3 ↔ ¬ s.LosesError free := by
  rw [s.row_sum, Stream.row, Stream.LosesError, left_head]
  repeat' (first | rw [Idv.left_cons] | split_ifs)
  all_goals
    rw [Idv.left_nil]
    omega

theorem Session.losesError_iff (s : Session) :
    s.row.sum + 3 ≤ free ∨ left free s.row < 3 ↔ ¬ s.LosesError free := by
  rw [s.row_sum, Session.row, Session.LosesError, left_head]
  repeat' (first | rw [Idv.left_cons] | split_ifs)
  all_goals
    rw [Idv.left_nil]
    omega

end Losing

section Rows

variable (w : Idv.Writer) (parentId : UInt8)

theorem Channel.sizes_body (c : Channel) : sizes (c.cut.report parentId).body = c.row := by
  simp [sizes, Report.body, Report.own, Channel.report, Channel.cut, Channel.row, Nat.add_comm,
    Idv.wordBytes]

theorem Stream.sizes_body (s : Stream) : sizes (s.cut.report parentId).body = s.row := by
  simp [sizes, Report.body, Report.own, Stream.report, Stream.cut, Stream.row, Nat.add_comm,
    Idv.wordBytes]

theorem Session.sizes_body (s : Session) : sizes (s.cut.report parentId).body = s.row := by
  simp [sizes, Report.body, Report.own, Session.report, Session.cut, Session.row, Nat.add_comm]

theorem Report.fields_length (r : Report) :
    (messageBytes r.fields).length = (sizes r.body).sum + 3 := by
  rw [Idv.sum_sizes]
  exact Idv.messageBytes_concat_length r.body r.last

/-- **The messages have these lengths.** -/
theorem Channel.fields_length (c : Channel) :
    (messageBytes (c.cut.report parentId).fields).length = c.metaText.cutLength + 26 := by
  rw [Report.fields_length, c.sizes_body, c.row_sum]

theorem Stream.fields_length (s : Stream) :
    (messageBytes (s.cut.report parentId).fields).length = s.metaText.cutLength + 29 := by
  rw [Report.fields_length, s.sizes_body, s.row_sum]

theorem Session.fields_length (s : Session) :
    (messageBytes (s.cut.report parentId).fields).length = s.metaText.cutLength + 17 := by
  rw [Report.fields_length, s.sizes_body, s.row_sum]

/-- **When `Channel::serialize` reports its errors.** -/
theorem Channel.serialize_reports_iff (c : Channel) :
    Reports w (c.serialize w parentId) (c.cut.report parentId).fields ↔
      KeepsErrors w c.row c.LosesError := by
  have short := c.metaText.cutLength_lt
  have sum := c.row_sum
  rw [Channel.serialize_row]
  exact Idv.keepsErrors_iff (c.sizes_body parentId) rfl (by omega) (c.losesError_iff ·)

/-- **When `Stream::serialize` reports its errors.** -/
theorem Stream.serialize_reports_iff (s : Stream) :
    Reports w (s.serialize w parentId) (s.cut.report parentId).fields ↔
      KeepsErrors w s.row s.LosesError := by
  have short := s.metaText.cutLength_lt
  have sum := s.row_sum
  rw [Stream.serialize_row]
  exact Idv.keepsErrors_iff (s.sizes_body parentId) rfl (by omega) (s.losesError_iff ·)

/-- **When `Session::serialize` reports its errors.** -/
theorem Session.serialize_reports_iff (s : Session) :
    Reports w (s.serialize w parentId) (s.cut.report parentId).fields ↔
      KeepsErrors w s.row s.LosesError := by
  have short := s.metaText.cutLength_lt
  have sum := s.row_sum
  rw [Session.serialize_row]
  exact Idv.keepsErrors_iff (s.sizes_body parentId) rfl (by omega) (s.losesError_iff ·)

/-- **A message is the row of its fields.** -/
theorem Channel.serialize_fields (c : Channel) :
    (c.serialize w parentId).1 = w.addAll (c.cut.report parentId).fields := by
  rw [Channel.serialize_row]
  exact (Idv.addAll_concat w _ _).symm

theorem Stream.serialize_fields (s : Stream) :
    (s.serialize w parentId).1 = w.addAll (s.cut.report parentId).fields := by
  rw [Stream.serialize_row]
  exact (Idv.addAll_concat w _ _).symm

theorem Session.serialize_fields (s : Session) :
    (s.serialize w parentId).1 = w.addAll (s.cut.report parentId).fields := by
  rw [Session.serialize_row]
  exact (Idv.addAll_concat w _ _).symm

end Rows

/-! ### Errors of a reply -/

variable {Own : Type*}

/-- A `send` that also logs what it is given. -/
def logged (send : Idv.Writer → Own → Idv.Writer × Own) (w : Idv.Writer)
    (own : Own × List (List UInt8)) : Idv.Writer × Own × List (List UInt8) :=
  ((send w own.1).1, (send w own.1).2, own.2 ++ [w.written])

/-- **The reply says that all of it was written**: `OK` means that what was sent are all fields of
the messages. -/
def Session.ReplyReports (s : Session) (send : Idv.Writer → Own → Idv.Writer × Own) (own : Own) :
    Prop :=
  (s.discoveryRespond send own).2.2 = .ok →
    (s.discoveryRespond (logged send) (own, [])).2.1.2 = s.annonate.cut.outline.map messageBytes

/-- A buffer of this size has room for every message of the reply. -/
def Session.HasRoom (s : Session) (size : Nat) : Prop :=
  s.metaText.cutLength + 17 ≤ size ∧ ∀ stream ∈ s.streams,
    stream.metaText.cutLength + 29 ≤ size ∧ ∀ channel ∈ stream.channels,
      channel.metaText.cutLength + 26 ≤ size

/-- The state of `discovery_respond` between two messages: the writer is empty, and of these
messages those were sent whole for which there was room. -/
structure Replying (size : Nat) (messages : List (List Idv.Field))
    (out : Idv.Writer × Own × List (List UInt8)) : Prop where
  empty : out.1.bufIdx = 0
  sized : out.1.bufSize = size
  sent : List.Forall₂ (fun bytes message =>
    bytes = messageBytes message ↔ (messageBytes message).length ≤ size) out.2.2 messages

/-- The messages of a tree with its texts cut. -/
theorem Session.outline_cut (s : Session) : s.cut.outline =
    [] ++ [[⟨ID.marker.code, [Marker.autoDiscoverRep.entry]⟩]] ++ [(s.cut.report s.id).fields] ++
      (s.streams.flatMap fun stream => (stream.cut.report s.id).fields ::
        stream.channels.map fun channel => (channel.cut.report stream.id).fields) ++
      [[⟨ID.marker.code, [Marker.autoDiscoverRep.exit]⟩]] := by
  have streams : s.cut.streams = s.streams.map Stream.cut := rfl
  have channels : ∀ stream : Stream, stream.cut.channels = stream.channels.map Channel.cut :=
    fun _ => rfl
  rw [Session.outline, Session.reports, streams, List.map_cons, List.map_flatMap,
    List.flatMap_map]
  simp only [channels, List.map_cons, List.map_map, List.nil_append, List.cons_append]
  rfl

section Replies

variable {send : Idv.Writer → Own → Idv.Writer × Own} {size : Nat}
  {messages : List (List Idv.Field)} {out : Idv.Writer × Own × List (List UInt8)}

/-- **A message** is sent whole if there is room for it. -/
theorem Replying.message (keeps : ∀ w own, (send w own).1.bufSize = w.bufSize)
    (replying : Replying size messages out) {message : List Idv.Field}
    {write : Idv.Writer → Idv.Writer × Idv.Err} (writes : ∀ w, (write w).1 = w.addAll message)
    (small : (messageBytes message).length ≤ 65535) :
    Replying size (messages ++ [message]) (sendMessage (logged send) write out).1 := by
  have whole := Idv.addAll_written_iff replying.empty small
  rw [replying.sized, ← writes] at whole
  refine ⟨rfl, ?_, ?_⟩
  · show (send (write out.1).1 out.2.1).1.bufSize = size
    rw [keeps, writes, Idv.addAll_bufSize, replying.sized]
  · exact List.rel_append replying.sent (List.Forall₂.cons whole List.Forall₂.nil)

/-- A mark. -/
theorem Replying.mark (keeps : ∀ w own, (send w own).1.bufSize = w.bufSize)
    (replying : Replying size messages out) (mark : UInt8) :
    Replying size (messages ++ [[⟨ID.marker.code, [mark]⟩]])
      (sendMessage (logged send) (fun w => w.addUInt8 ID.marker.code mark) out).1 :=
  replying.message keeps (fun _ => rfl) (show 3 ≤ 65535 by decide)

/-- **The messages of a stream and of its channels.** -/
theorem Replying.describe (keeps : ∀ w own, (send w own).1.bufSize = w.bufSize)
    (replying : Replying size messages out) (stream : Stream) (parentId : UInt8) :
    Replying size (messages ++ ((stream.cut.report parentId).fields ::
      stream.channels.map fun channel => (channel.cut.report stream.id).fields))
      (stream.describe (logged send) parentId out) := by
  have short := stream.metaText.cutLength_lt
  have first := replying.message keeps (fun w => stream.serialize_fields w parentId)
    (by rw [stream.fields_length]; omega)
  rw [List.append_cons, List.map_eq_flatMap]
  refine loop_sends first fun channel _ {messages out} replying => ?_
  have channelShort := channel.metaText.cutLength_lt
  exact replying.message keeps (fun w => channel.serialize_fields w stream.id)
    (by rw [channel.fields_length]; omega)

/-- A mark is accepted if there is room for its three bytes. -/
theorem Replying.accepts_mark (replying : Replying size messages out) (mark : UInt8) :
    (out.1.addUInt8 ID.marker.code mark).2 = .ok ↔ 3 ≤ size := by
  have accepted : (out.1.add ⟨ID.marker.code, [mark]⟩).2 = .ok ↔ _ := Idv.add_ok_iff
  rw [replying.empty, replying.sized] at accepted
  exact accepted

/-- **The whole reply**, and when its last mark is accepted. -/
theorem replying_respond (keeps : ∀ w own, (send w own).1.bufSize = w.bufSize) (s : Session)
    (own : Own) :
    List.Forall₂ (fun bytes message => bytes = messageBytes message ↔
        (messageBytes message).length ≤ s.writer.bufSize)
      (s.discoveryRespond (logged send) (own, [])).2.1.2 s.annonate.cut.outline ∧
    ((s.discoveryRespond (logged send) (own, [])).2.2 = .ok ↔ 3 ≤ s.writer.bufSize) := by
  have start : Replying s.writer.bufSize [] (s.writer.reset, own, ([] : List (List UInt8))) :=
    ⟨rfl, rfl, List.Forall₂.nil⟩
  have entry := start.mark keeps Marker.autoDiscoverRep.entry
  have short := s.annonate.metaText.cutLength_lt
  have described := entry.message keeps (fun w => s.annonate.serialize_fields w s.annonate.id)
    (by rw [s.annonate.fields_length]; omega)
  have streams := loop_sends described fun stream (_ : stream ∈ s.annonate.streams)
    {messages out} replying => replying.describe keeps stream s.annonate.id
  have exit := streams.mark keeps Marker.autoDiscoverRep.exit
  constructor
  · rw [Session.outline_cut]
    exact exit.sent
  · exact streams.accepts_mark Marker.autoDiscoverRep.exit

end Replies

/-- **Logging changes nothing else.** -/
theorem discoveryRespond_logged (s : Session) (send : Idv.Writer → Own → Idv.Writer × Own)
    (own : Own) :
    let done := s.discoveryRespond (logged send) (own, [])
    (done.1, done.2.1.1, done.2.2) = s.discoveryRespond send own := by
  let forget (out : Idv.Writer × Own × List (List UInt8)) : Idv.Writer × Own := (out.1, out.2.1)
  have describe : ∀ out stream, forget (Stream.describe (logged send) s.annonate.id out stream) =
      Stream.describe send s.annonate.id (forget out) stream := fun out stream =>
    (List.foldl_hom forget fun _ _ => rfl).symm
  have streams : ∀ out, forget (s.annonate.streams.foldl
      (Stream.describe (logged send) s.annonate.id) out) =
      s.annonate.streams.foldl (Stream.describe send s.annonate.id) (forget out) := fun out =>
    (List.foldl_hom forget fun out stream => (describe out stream).symm).symm
  have exit : ∀ out out', forget out = out' →
      let done := sendMessage (logged send)
        (fun w => w.addUInt8 ID.marker.code Marker.autoDiscoverRep.exit) out
      (done.1.1, done.1.2.1, done.2) =
        let done := sendMessage send
          (fun w => w.addUInt8 ID.marker.code Marker.autoDiscoverRep.exit) out'
        (done.1.1, done.1.2, done.2) := by
    rintro out - rfl
    rfl
  exact congrArg (fun done => ({ s.annonate with writer := done.1 }, done.2))
    (exit _ _ (streams (sendMessage (logged send) (fun w => s.annonate.serialize w s.annonate.id)
      (sendMessage (logged send) (fun w =>
        w.addUInt8 ID.marker.code Marker.autoDiscoverRep.entry) (s.writer.reset, own, [])).1).1))

/-- The texts of a stream and of its channels. -/
def Stream.ownTexts (s : Stream) : CString × List CString :=
  (s.metaText, s.channels.map Channel.metaText)

/-- `annonate` keeps the texts where they are. -/
theorem annonateStreams_ownTexts (start : Nat) (streams : List Stream) :
    (annonateStreams (UInt8.ofNat start) streams).map Stream.ownTexts =
      streams.map Stream.ownTexts := by
  induction streams generalizing start with
  | nil => rfl
  | cons stream rest ih =>
    have next : UInt8.ofNat start + 1 = UInt8.ofNat (start + 1) := UInt8.ofNat_add start 1 |>.symm
    obtain ⟨-, behind, texts⟩ := annonateChannels_spec (start + 1) stream.channels
    rw [annonateStreams, next, behind, List.map_cons, List.map_cons, ih, Stream.ownTexts, texts]
    rfl

/-- There is room for the messages of these texts. -/
theorem Session.hasRoom_iff_ownTexts (s : Session) (size : Nat) :
    s.HasRoom size ↔ s.metaText.cutLength + 17 ≤ size ∧
      ∀ texts ∈ s.streams.map Stream.ownTexts, texts.1.cutLength + 29 ≤ size ∧
        ∀ text ∈ texts.2, text.cutLength + 26 ≤ size := by
  simp only [Session.HasRoom, Stream.ownTexts, List.forall_mem_map]

theorem Session.annonate_hasRoom (s : Session) (size : Nat) :
    s.annonate.HasRoom size ↔ s.HasRoom size := by
  have texts : s.annonate.streams.map Stream.ownTexts = s.streams.map Stream.ownTexts :=
    annonateStreams_ownTexts 1 s.streams
  rw [Session.hasRoom_iff_ownTexts, Session.hasRoom_iff_ownTexts, texts]
  rfl

/-- **There is room for every message of the reply.** -/
theorem Session.outline_fits_iff (s : Session) (size : Nat) :
    (∀ message ∈ s.cut.outline, (messageBytes message).length ≤ size) ↔
      3 ≤ size ∧ s.HasRoom size := by
  have mark : ∀ code : UInt8, (messageBytes [⟨ID.marker.code, [code]⟩]).length = 3 :=
    fun _ => rfl
  rw [Session.outline_cut, Session.HasRoom]
  simp only [List.forall_mem_append, List.forall_mem_cons, List.forall_mem_flatMap,
    List.forall_mem_map, mark, Channel.fields_length, Stream.fields_length,
    Session.fields_length, List.nil_append, List.not_mem_nil, false_imp_iff, implies_true,
    and_true]
  constructor
  · rintro ⟨⟨⟨room, own⟩, streams⟩, -⟩
    exact ⟨room, own, streams⟩
  · rintro ⟨room, own, streams⟩
    exact ⟨⟨⟨room, own⟩, streams⟩, room⟩

/-- What was sent is all of the messages if each of them was sent whole. -/
theorem eq_map_iff_of_forall₂ {Entry Item : Type*} {bytes : Item → Entry} {Fits : Item → Prop}
    {sent : List Entry} {items : List Item}
    (each : List.Forall₂ (fun entry item => entry = bytes item ↔ Fits item) sent items) :
    sent = items.map bytes ↔ ∀ item ∈ items, Fits item := by
  induction each with
  | nil => exact iff_of_true rfl fun _ member => absurd member List.not_mem_nil
  | cons head _ ih => rw [List.map_cons, List.cons.injEq, head, ih, List.forall_mem_cons]

/-- **When `discovery_respond` reports its errors.** -/
theorem Session.replyReports_iff (s : Session) {send : Idv.Writer → Own → Idv.Writer × Own}
    (keeps : ∀ w own, (send w own).1.bufSize = w.bufSize) (own : Own) :
    s.ReplyReports send own ↔ s.writer.bufSize < 3 ∨ s.HasRoom s.writer.bufSize := by
  obtain ⟨sent, accepted⟩ := replying_respond keeps s own
  have same : (s.discoveryRespond (logged send) (own, [])).2.2 = (s.discoveryRespond send own).2.2 :=
    congrArg (fun done => done.2.2) (discoveryRespond_logged s send own)
  rw [same] at accepted
  have size : s.annonate.writer.bufSize = s.writer.bufSize := rfl
  rw [Session.ReplyReports, accepted, eq_map_iff_of_forall₂ sent, Session.outline_fits_iff,
    Session.annonate_hasRoom]
  constructor
  · intro reports
    rcases Nat.lt_or_ge s.writer.bufSize 3 with none_ | some_
    · exact Or.inl none_
    · exact Or.inr (reports some_).2
  · rintro (none_ | room) some_
    · omega
    · exact ⟨some_, room⟩

/-! ### All errors -/

/-- **Errors are reported** by the three `serialize` exactly if the free bytes are none of those with
which one is lost, and by `discovery_respond` if there is room for every message. -/
theorem reportsAll (w : Idv.Writer) (parentId : UInt8) (channel : Channel) (stream : Stream)
    (session : Session) (send : Idv.Writer → Own → Idv.Writer × Own) (own : Own)
    (keeps : ∀ w own, (send w own).1.bufSize = w.bufSize) :
    (Reports w (channel.serialize w parentId) (channel.cut.report parentId).fields ↔
      KeepsErrors w channel.row channel.LosesError) ∧
    (Reports w (stream.serialize w parentId) (stream.cut.report parentId).fields ↔
      KeepsErrors w stream.row stream.LosesError) ∧
    (Reports w (session.serialize w parentId) (session.cut.report parentId).fields ↔
      KeepsErrors w session.row session.LosesError) ∧
    (session.ReplyReports send own ↔
      session.writer.bufSize < 3 ∨ session.HasRoom session.writer.bufSize) :=
  ⟨channel.serialize_reports_iff w parentId, stream.serialize_reports_iff w parentId,
    session.serialize_reports_iff w parentId, session.replyReports_iff keeps own⟩

/-- The firmware sends from the buffer of its session. -/
theorem deviceSend_keeps (w : Idv.Writer) (d : DeviceMembers) :
    (deviceSend w d).1.bufSize = w.bufSize := rfl

/-- The reply of a session with one stream of one channel fits in 255 bytes. -/
theorem reportsAll_measuring : measuring.ReplyReports deviceSend quietMembers :=
  (reportsAll measuring.writer 0 ⟨0, ⟨[], by decide⟩, 0, 0⟩ ⟨0, 0, 0, [], ⟨[], by decide⟩⟩ measuring
    deviceSend quietMembers deviceSend_keeps).2.2.2.mpr
    (Or.inr (by unfold Session.HasRoom; decide))

/-- A stream with a text of three bytes. -/
def ticking : Stream := ⟨1000, 50000, 1, [], ⟨[84, 73, 67], by decide⟩⟩

/-- **Errors are lost**: in 20 bytes the sample time and the ticks of a stream are refused and its
last mark is not, and a reply in 16 bytes is `OK` without the number of streams. -/
theorem not_reportsAll :
    ¬ Reports (Idv.Writer.new (fun _ => 0) 20)
        (ticking.serialize (Idv.Writer.new (fun _ => 0) 20) 0) (ticking.cut.report 0).fields ∧
      ¬ { quiet with writer := Idv.Writer.new (fun _ => 0) 16 }.ReplyReports
        (fun w own => (w, own)) () := by
  constructor
  · unfold Reports
    decide
  · unfold Session.ReplyReports
    decide

end ForgeDrive.Daq.Discovery
