/-
**The device tree on the host** (`DAQSessionAPP.h` of the tool).

The session of the tool files every field it is given under the object whose id it was given last. A
map is a function to `Option`; `operator[]` makes an object or a field whose members are zero. The
messages are those of `discovery_respond`, and the loop is that of `process`, on a reader that
stands at the beginning of a message (`Listener.hear`).

* `respond_sends` — what a `send` does with any message, `discovery_respond` does with all of them;
* `discoveryRespond_messages` — so the messages are the fields of the objects of the tree (`Report`);
* `takeReport` — the fields of one report make one object, whatever was the current one before;
* `reconstructs` — all of them make the tree.
-/

import Mathlib.Data.List.Nodup
import ForgeDrive.Daq.Discovery
import ForgeDrive.Idv.RoundTrip

namespace ForgeDrive.Daq.Discovery

open Circular (segment)

/-! ### The session of the tool -/

/-- `Field`. -/
structure HostField where
  name : String
  value : List UInt8
  deriving DecidableEq, Repr

/-- `Object`. -/
structure HostObject where
  pid : UInt8
  marker : UInt8
  fields : UInt8 → Option HostField

/-- `ID_NAMES`. -/
def idNames : List String :=
  ["ID", "PARENT_ID", "META", "STREAM_COUNT", "CHANNEL_COUNT", "SAMPLETIME", "TICKS", "SCALE",
    "OFFSET", "COMPRESSION"]

/-- The members that `DAQSessionAPP` adds. -/
structure HostMembers where
  cMark : UInt8
  cId : UInt8
  cPid : UInt8
  hasId : Bool
  hasPid : Bool
  objects : UInt8 → Option HostObject

/-- `objects[id]`. -/
def HostMembers.object (h : HostMembers) (id : UInt8) : HostObject :=
  (h.objects id).getD ⟨0, 0, fun _ => none⟩

/-- An assignment to members of `objects[c_id]`. -/
def HostMembers.assign (h : HostMembers) (assignment : HostObject → HostObject) : HostMembers :=
  { h with objects := Function.update h.objects h.cId (some (assignment (h.object h.cId))) }

/-- `fields[id]`. -/
def HostObject.field (o : HostObject) (id : UInt8) : HostField := (o.fields id).getD ⟨"", []⟩

/-- `fields[id].set(value)`. -/
def HostObject.set (o : HostObject) (id : UInt8) (value : List UInt8) : HostObject :=
  { o with fields := Function.update o.fields id (some { o.field id with value := value }) }

/-- `fields[id].name = ID_NAMES[id]`. The array has no name for larger ids. -/
def HostObject.setName (o : HostObject) (id : UInt8) : HostObject :=
  { o with
    fields := Function.update o.fields id
      (some { o.field id with name := idNames.getD id.toNat "" }) }

/-- `on_mark`. -/
def HostMembers.onMark (h : HostMembers) (marker : UInt8) (entry : Bool) : HostMembers :=
  if marker = Marker.autoDiscoverRep.code then h
  else if entry then { h with cMark := marker, hasId := false, hasPid := false }
  else { h with hasId := false, hasPid := false }

/-- The `switch` of `on_field`. -/
def HostMembers.fileField (h : HostMembers) (id : UInt8) (r : Idv.Reader) : HostMembers :=
  if id = ID.id.code then
    let h := { h with hasId := true, cId := (r.asUInt8 h.cId).1 }
    (h.assign (·.set id [h.cId])).assign ({ · with marker := h.cMark })
  else if id = ID.parentId.code then
    let h := { h with hasPid := true, cPid := (r.asUInt8 h.cPid).1 }
    if h.hasId then
      ((h.assign (·.set id [h.cPid])).assign ({ · with marker := h.cMark })).assign
        ({ · with pid := h.cPid })
    else h
  else if h.hasId then h.assign (·.set id r.value) else h

/-- `on_field`. -/
def HostMembers.onField (h : HostMembers) (id : UInt8) (r : Idv.Reader) : HostMembers :=
  let h := h.fileField id r
  if h.hasId then h.assign (·.setName id) else h

/-! ### Dispatching messages -/

/-- The tool with the reader of its session. -/
structure Listener where
  reader : Idv.Reader
  host : HostMembers

/-- The loop body of `process`. -/
def Listener.dispatch (l : Listener) : Listener :=
  if l.reader.idvId = ID.marker.code then
    let marker := (l.reader.asUInt8 0xFF).1
    let entry := marker &&& 0x80 = 0
    { l with host := l.host.onMark (marker &&& ~~~0x80) entry }
  else { l with host := l.host.onField l.reader.idvId l.reader }

/-- The loop of `process`; it may run out of `turns`. -/
def Listener.loop : Nat → Listener → Option Listener
  | 0, _ => none
  | turns + 1, l =>
    let (reader, more) := l.reader.next
    let l := { l with reader := reader }
    if more then l.dispatch.loop turns else some l

/-- The fields of a message, dispatched in order. -/
def Listener.hear (turns : Nat) (l : Listener) (message : List UInt8) : Option Listener :=
  Listener.loop turns { l with reader := { l.reader with buf := message, bufIdx := 0 } }

/-- The fields of all messages, one message after the other. -/
def Listener.hearAll (turns : Nat) (l : Listener) (messages : List (List UInt8)) :
    Option Listener := messages.foldlM (Listener.hear turns) l

/-! ### The messages -/

/-- What the writer holds at each `send()`. -/
def recordSend (w : Idv.Writer) (sent : List (List UInt8)) : Idv.Writer × List (List UInt8) :=
  (w, sent ++ [w.written])

/-- The messages of `discovery_respond`. -/
def Session.messages (s : Session) : List (List UInt8) := (s.discoveryRespond recordSend []).2.1

/-- An object as the device serializes it: the fields between its marks. -/
structure Report where
  marker : Marker
  id : UInt8
  parentId : UInt8
  rest : List Idv.Field

/-- The fields of an object. -/
def Report.own (r : Report) : List Idv.Field :=
  ⟨ID.id.code, [r.id]⟩ :: ⟨ID.parentId.code, [r.parentId]⟩ :: r.rest

/-- The fields of its message. -/
def Report.fields (r : Report) : List Idv.Field :=
  ⟨ID.marker.code, [r.marker.entry]⟩ :: (r.own ++ [⟨ID.marker.code, [r.marker.exit]⟩])

/-- `Channel::serialize`, field by field. -/
def Channel.report (c : Channel) (parentId : UInt8) : Report where
  marker := .channel
  id := c.id
  parentId := parentId
  rest := [⟨ID.metaText.code, c.metaText.bytes⟩, ⟨ID.scale.code, Idv.wordBytes c.scale⟩,
    ⟨ID.offset.code, Idv.wordBytes c.offset⟩]

/-- `Stream::serialize`, field by field. -/
def Stream.report (s : Stream) (parentId : UInt8) : Report where
  marker := .stream
  id := s.id
  parentId := parentId
  rest := [⟨ID.metaText.code, s.metaText.bytes⟩,
    ⟨ID.channelCount.code, [UInt8.ofNat s.channels.length]⟩,
    ⟨ID.sampleTime.code, Idv.wordBytes s.sampleTimeNs.toUInt32⟩,
    ⟨ID.ticks.code, Idv.wordBytes s.ticks.toUInt32⟩]

/-- `Session::serialize`, field by field. -/
def Session.report (s : Session) (parentId : UInt8) : Report where
  marker := .session
  id := s.id
  parentId := parentId
  rest := [⟨ID.metaText.code, s.metaText.bytes⟩,
    ⟨ID.streamCount.code, [UInt8.ofNat s.streams.length]⟩]

/-- The objects of the tree, in the order of `discovery_respond`. -/
def Session.reports (s : Session) : List Report :=
  s.report s.id :: s.streams.flatMap fun stream =>
    stream.report s.id :: stream.channels.map (Channel.report · stream.id)

/-- The object that a report is to make on the host. -/
def Report.object (r : Report) : HostObject where
  pid := r.parentId
  marker := r.marker.code
  fields := fun id => (r.own.find? fun field => field.id = id).map fun field =>
    ⟨idNames.getD field.id.toNat "", field.value⟩

/-- The messages, as fields. -/
def Session.outline (s : Session) : List (List Idv.Field) :=
  [⟨ID.marker.code, [Marker.autoDiscoverRep.entry]⟩] ::
    (s.reports.map Report.fields ++ [[⟨ID.marker.code, [Marker.autoDiscoverRep.exit]⟩]])

/-- The texts of the tree. -/
def Session.texts (s : Session) : List CString :=
  s.metaText :: s.streams.flatMap fun stream =>
    stream.metaText :: stream.channels.map Channel.metaText

section Serializing

variable {w : Idv.Writer}

/-- A beginning of a text in memory. -/
theorem CString.segment_memory (text : CString) {count : Nat} (within : count ≤ text.bytes.length) :
    segment text.memory 0 count = text.bytes.take count := by
  refine List.ext_getElem ?_ fun index _ inside => ?_
  · rw [Circular.segment_length, List.length_take, Nat.min_eq_left within]
  · simp only [Circular.segment, CString.memory, List.getElem_map, List.getElem_range,
      Nat.zero_add, List.getElem_take]
    exact (List.getElem_eq_getD 0).symm

/-- A text that fits its length byte is a field with its bytes. -/
theorem addTo_eq {text : CString} (short : text.bytes.length < 256) (field : ID) :
    text.addTo w field = w.add ⟨field.code, text.bytes⟩ := by
  have length : (UInt8.ofNat text.bytes.length).toNat = text.bytes.length :=
    UInt8.toNat_ofNat_of_lt' short
  rw [CString.addTo, Idv.addBinary_eq, length, text.segment_memory le_rfl, List.take_length]

theorem Channel.serialize_eq {c : Channel} (short : c.metaText.bytes.length < 256)
    (parentId : UInt8) : (c.serialize w parentId).1 = w.addAll (c.report parentId).fields := by
  simp only [Channel.serialize, addTo_eq short]
  rfl

theorem Stream.serialize_eq {s : Stream} (short : s.metaText.bytes.length < 256)
    (parentId : UInt8) : (s.serialize w parentId).1 = w.addAll (s.report parentId).fields := by
  simp only [Stream.serialize, addTo_eq short]
  rfl

theorem Session.serialize_eq {s : Session} (short : s.metaText.bytes.length < 256)
    (parentId : UInt8) : (s.serialize w parentId).1 = w.addAll (s.report parentId).fields := by
  simp only [Session.serialize, addTo_eq short]
  rfl

end Serializing

/-! ### Recording the messages -/

/-- A loop whose body adds to what has been sent, for each item. -/
theorem loop_sends {Item Entry State : Type*} {Sent : List Entry → State → Prop}
    {added : Item → List Entry} {body : State → Item → State} {items : List Item}
    {before : List Entry} {state : State} (start : Sent before state)
    (adds : ∀ item ∈ items, ∀ {before state}, Sent before state →
      Sent (before ++ added item) (body state item)) :
    Sent (before ++ items.flatMap added) (items.foldl body state) := by
  induction items generalizing before state with
  | nil =>
    rw [List.flatMap_nil, List.append_nil]
    exact start
  | cons item rest ih =>
    rw [List.flatMap_cons, ← List.append_assoc]
    exact ih (adds item List.mem_cons_self start)
      fun other member => adds other (List.mem_cons_of_mem _ member)

section Sends

variable {Own : Type*} {send : Idv.Writer → Own → Idv.Writer × Own}
  {Sent : List (List UInt8) → Idv.Writer × Own → Prop} {sent : List (List UInt8)}
  {out : Idv.Writer × Own}

variable (send Sent) in
/-- `send` adds the message to what has been sent, whatever has written it. -/
def Adds (message : List Idv.Field) : Prop :=
  ∀ {sent : List (List UInt8)} {out : Idv.Writer × Own} (write : Idv.Writer → Idv.Writer × Idv.Err),
    (∀ v, (write v).1 = v.addAll message) → Sent sent out →
      Sent (sent ++ [Idv.messageBytes message]) (sendMessage send write out).1

/-- The messages of a stream and of its channels. -/
theorem describe_sends {stream : Stream} {parentId : UInt8}
    (short : ∀ text ∈ stream.metaText :: stream.channels.map Channel.metaText,
      text.bytes.length < 256)
    (adds : ∀ report ∈ stream.report parentId :: stream.channels.map (Channel.report · stream.id),
      Adds send Sent report.fields) (sofar : Sent sent out) :
    Sent (sent ++ (stream.report parentId :: stream.channels.map
        (Channel.report · stream.id)).map fun report => Idv.messageBytes report.fields)
      (stream.describe send parentId out) := by
  have first := adds _ List.mem_cons_self _
    (fun v => Stream.serialize_eq (w := v) (short _ List.mem_cons_self) parentId) sofar
  have messages : (stream.report parentId :: stream.channels.map
      (Channel.report · stream.id)).map (fun report => Idv.messageBytes report.fields) =
        Idv.messageBytes (stream.report parentId).fields :: stream.channels.flatMap
          fun channel => [Idv.messageBytes (channel.report stream.id).fields] := by
    rw [List.map_cons, List.map_map, ← List.map_eq_flatMap]
    rfl
  rw [messages, List.append_cons, Stream.describe]
  refine loop_sends first fun channel inside {sent out} sofar => ?_
  exact adds _ (List.mem_cons_of_mem _ (List.mem_map.mpr ⟨channel, inside, rfl⟩)) _
    (fun v => Channel.serialize_eq (w := v)
      (short _ (List.mem_cons_of_mem _ (List.mem_map_of_mem inside))) stream.id) sofar

/-- **Whatever `send` does** with one message after the other, it does with those of the session:
the messages of the outline, in its order. -/
theorem respond_sends {s : Session} {own : Own}
    (short : ∀ text ∈ s.annonate.texts, text.bytes.length < 256)
    (start : Sent [] (s.annonate.writer.reset, own))
    (adds : ∀ message ∈ s.annonate.outline, Adds send Sent message) :
    Sent (s.annonate.outline.map Idv.messageBytes)
      ((s.discoveryRespond send own).1.writer, (s.discoveryRespond send own).2.1) := by
  have addsReport : ∀ report ∈ s.annonate.reports, Adds send Sent report.fields :=
    fun report member => adds _ (List.mem_cons_of_mem _
      (List.mem_append_left _ (List.mem_map_of_mem member)))
  have entry := adds _ List.mem_cons_self
    (fun w => w.addUInt8 ID.marker.code Marker.autoDiscoverRep.entry) (fun _ => rfl) start
  have own_ := addsReport _ List.mem_cons_self _
    (fun v => Session.serialize_eq (w := v) (short _ List.mem_cons_self) s.annonate.id) entry
  have streams : Sent _ (s.annonate.streams.foldl (Stream.describe send s.annonate.id) _) :=
    loop_sends own_ fun stream member {sent out} sofar => describe_sends
      (fun text inside => short text
        (List.mem_cons_of_mem _ (List.mem_flatMap.mpr ⟨stream, member, inside⟩)))
      (fun report inside => addsReport report
        (List.mem_cons_of_mem _ (List.mem_flatMap.mpr ⟨stream, member, inside⟩))) sofar
  have exit := adds _ (List.mem_cons_of_mem _ (List.mem_append_right _ List.mem_cons_self))
    (fun w => w.addUInt8 ID.marker.code Marker.autoDiscoverRep.exit) (fun _ => rfl) streams
  have descriptions : (s.annonate.streams.flatMap fun stream =>
      (stream.report s.annonate.id :: stream.channels.map (Channel.report · stream.id)).map
        fun report => Idv.messageBytes report.fields) =
      (s.annonate.streams.flatMap fun stream =>
        stream.report s.annonate.id :: stream.channels.map (Channel.report · stream.id)).map
          fun report => Idv.messageBytes report.fields := List.map_flatMap.symm
  rw [descriptions] at exit
  rw [Session.outline, Session.reports, List.map_cons, List.map_append, List.map_map,
    List.map_cons]
  exact exit

end Sends

/-- Which calls are `OK` does not depend on what the buffer holds. -/
theorem takes_of_same {message : List Idv.Field} {v w : Idv.Writer} (index : v.bufIdx = w.bufIdx)
    (size : v.bufSize = w.bufSize) (takes : v.Takes message) : w.Takes message := by
  induction message generalizing v w with
  | nil => trivial
  | cons field rest ih =>
    obtain ⟨ok, later⟩ := takes
    simp only [Idv.Writer.add, Idv.Writer.addPrimitive] at ok later
    simp only [Idv.Writer.Takes, Idv.Writer.add, Idv.Writer.addPrimitive, ← index, ← size]
    split at ok
    case isTrue => cases ok
    case isFalse fits =>
      rw [if_neg fits] at later ⊢
      refine ⟨rfl, ih ?_ ?_ later⟩
      · show v.bufIdx + 1 + 1 + _ = w.bufIdx + 1 + 1 + _
        rw [index]
      · exact size

/-- The state of `discovery_respond` between two messages: the writer is empty, and these are the
messages so far. -/
structure Recorded (w : Idv.Writer) (sent : List (List UInt8))
    (out : Idv.Writer × List (List UInt8)) : Prop where
  empty : out.1.bufIdx = 0
  size : out.1.bufSize = w.bufSize
  messages : out.2 = sent

/-- A message that the writer takes, of a size that its index holds. -/
structure Fitting (w : Idv.Writer) (message : List Idv.Field) : Prop where
  takes : w.reset.Takes message
  small : (Idv.messageBytes message).length < 65535

section Recording

variable {w : Idv.Writer} {sent : List (List UInt8)} {out : Idv.Writer × List (List UInt8)}

/-- **A message is recorded** as its bytes. -/
theorem Recorded.send (recorded : Recorded w sent out) {message : List Idv.Field}
    {write : Idv.Writer → Idv.Writer × Idv.Err} (writes : ∀ v, (write v).1 = v.addAll message)
    (fitting : Fitting w message) :
    Recorded w (sent ++ [Idv.messageBytes message]) (sendMessage recordSend write out).1 := by
  have empty : out.1.bufIdx.toNat = 0 := congrArg UInt16.toNat recorded.empty
  have takes : out.1.Takes message :=
    takes_of_same (v := w.reset) recorded.empty.symm recorded.size.symm fitting.takes
  have small := fitting.small
  have written := Idv.written_addAll takes (by omega)
  have nothing : out.1.written = [] := by
    rw [Idv.Writer.written, empty, Circular.segment_zero]
  rw [nothing, List.nil_append, ← writes] at written
  refine ⟨rfl, ?_, ?_⟩
  · show (write out.1).1.bufSize = _
    rw [writes, Idv.addAll_bufSize, recorded.size]
  · show out.2 ++ [(write out.1).1.written] = _
    rw [written, recorded.messages]

end Recording

/-- **The messages of `discovery_respond`** are the fields of the objects of the tree, between the
two marks of the reply. -/
theorem discoveryRespond_messages {s : Session}
    (short : ∀ text ∈ s.annonate.texts, text.bytes.length < 256)
    (fitting : ∀ message ∈ s.annonate.outline, Fitting s.writer message) :
    s.messages = s.annonate.outline.map Idv.messageBytes := by
  have start : Recorded s.writer [] (s.writer.reset, []) := ⟨rfl, rfl, rfl⟩
  have recorded : Recorded s.writer (s.annonate.outline.map Idv.messageBytes)
      ((s.discoveryRespond recordSend []).1.writer, (s.discoveryRespond recordSend []).2.1) :=
    respond_sends short start fun message member {sent out} write writes recorded =>
      recorded.send writes (fitting message member)
  exact recorded.messages

/-! ### Hearing fields -/

/-- The reader stands on this field. -/
structure On (r : Idv.Reader) (field : Idv.Field) : Prop where
  id : r.idvId = field.id
  value : r.value = field.value
  byte : ∀ byte, field.value = [byte] → ∀ val, r.asUInt8 val = (byte, true)

/-- **The fields bring the tool from the one state to the other**, whatever follows them. -/
def Hears (host : HostMembers) (heard : List Idv.Field) (host' : HostMembers) : Prop :=
  ∀ reader ahead, Idv.Standing reader (heard ++ ahead) → ∃ reader', Idv.Standing reader' ahead ∧
    ∀ turns, Listener.loop (turns + heard.length) ⟨reader, host⟩ =
      Listener.loop turns ⟨reader', host'⟩

section Hearing

variable {h h' h'' : HostMembers} {first second : List Idv.Field}

theorem Hears.refl (h : HostMembers) : Hears h [] h :=
  fun reader _ standing => ⟨reader, standing, fun _ => rfl⟩

theorem Hears.append (left : Hears h first h') (right : Hears h' second h'') :
    Hears h (first ++ second) h'' := by
  intro reader ahead standing
  rw [List.append_assoc] at standing
  obtain ⟨between, standingBetween, runLeft⟩ := left reader _ standing
  obtain ⟨behind, standingBehind, runRight⟩ := right between ahead standingBetween
  refine ⟨behind, standingBehind, fun turns => ?_⟩
  rw [List.length_append, Nat.add_comm first.length, ← Nat.add_assoc, runLeft, runRight]

/-- A field is dispatched. -/
theorem Hears.field {field : Idv.Field}
    (dispatched : ∀ reader, On reader field → Listener.dispatch ⟨reader, h⟩ = ⟨reader, h'⟩) :
    Hears h [field] h' := by
  intro reader ahead standing
  obtain ⟨more, id, value, length, byte, behind⟩ := Idv.Standing.next standing
  refine ⟨reader.next.1, behind, fun turns => ?_⟩
  have on : On reader.next.1 field := by
    refine ⟨id, value, fun single one val => Idv.asUInt8_eq ?_ (byte single one) val⟩
    rw [length, one]
    rfl
  show Listener.loop (turns + 1) ⟨reader, h⟩ = _
  rw [Listener.loop]
  simp only
  rw [if_pos more, dispatched _ on]

/-- **The messages bring the tool from the one state to the other**, with enough turns for each. -/
def HearsAll (host : HostMembers) (messages : List (List UInt8)) (host' : HostMembers) : Prop :=
  ∀ reader, ∃ reader' needed, ∀ turns, needed ≤ turns →
    Listener.hearAll turns ⟨reader, host⟩ messages = some ⟨reader', host'⟩

theorem HearsAll.refl (h : HostMembers) : HearsAll h [] h :=
  fun reader => ⟨reader, 0, fun _ _ => rfl⟩

theorem HearsAll.append {before after : List (List UInt8)} (left : HearsAll h before h')
    (right : HearsAll h' after h'') : HearsAll h (before ++ after) h'' := by
  intro reader
  obtain ⟨between, neededLeft, runLeft⟩ := left reader
  obtain ⟨behind, neededRight, runRight⟩ := right between
  refine ⟨behind, max neededLeft neededRight, fun turns enough => ?_⟩
  rw [Listener.hearAll, List.foldlM_append]
  refine (congrArg (· >>= _) (runLeft turns (le_trans (le_max_left _ _) enough))).trans ?_
  exact runRight turns (le_trans (le_max_right _ _) enough)

/-- **A whole message** with these fields. -/
theorem Hears.message (hears : Hears h first h') (short : ∀ field ∈ first, field.Short)
    (small : (Idv.messageBytes first).length < 65535) :
    HearsAll h [Idv.messageBytes first] h' := by
  intro reader
  have start := Idv.standing_start short small reader.idvId reader.idvLen reader.idvValue
  rw [← List.append_nil first] at start
  obtain ⟨behind, standing, run⟩ := hears _ [] start
  refine ⟨behind, first.length + 1, fun turns enough => ?_⟩
  obtain ⟨turns, rfl⟩ : ∃ more, turns = (more + 1) + first.length :=
    ⟨turns - 1 - first.length, by omega⟩
  rw [List.append_nil] at run
  have heard : Listener.hear ((turns + 1) + first.length) ⟨reader, h⟩ (Idv.messageBytes first) =
      some ⟨behind, h'⟩ := by
    refine (run (turns + 1)).trans ?_
    rw [Listener.loop, standing.next_nil]
    rfl
  rw [Listener.hearAll, List.foldlM_cons, heard]
  rfl

end Hearing

/-! ### Filing an object -/

/-- A field filed under its id, with its name. -/
def HostObject.file (o : HostObject) (field : Idv.Field) : HostObject :=
  { o with
    fields := Function.update o.fields field.id
      (some ⟨idNames.getD field.id.toNat "", field.value⟩) }

/-- The tool is between the marks of an object, which it has filed so far as `o`. -/
structure Filing (h : HostMembers) (before : UInt8 → Option HostObject) (id : UInt8)
    (o : HostObject) : Prop where
  current : h.cId = id
  hasId : h.hasId = true
  cMark : h.cMark = o.marker
  objects : h.objects = Function.update before id (some o)

section Filing

variable {h : HostMembers} {before : UInt8 → Option HostObject} {id : UInt8} {o : HostObject}

/-- The current object after an assignment. -/
theorem Filing.assign (filing : Filing h before id o) {assignment : HostObject → HostObject}
    (marker : (assignment o).marker = o.marker) :
    Filing (h.assign assignment) before id (assignment o) := by
  refine ⟨filing.current, filing.hasId, filing.cMark.trans marker.symm, ?_⟩
  rw [HostMembers.assign, HostMembers.object, filing.current, filing.objects,
    Function.update_self, Function.update_idem]
  rfl

/-- Setting a field and its name files the field. -/
theorem file_eq (o : HostObject) (field : Idv.Field) :
    (o.set field.id field.value).setName field.id = o.file field := by
  simp only [HostObject.set, HostObject.setName, HostObject.file, HostObject.field,
    Function.update_self, Function.update_idem, Option.getD_some]

/-- **A mark** is heard by `on_mark`. -/
theorem Hears.mark (h : HostMembers) (mark : UInt8) :
    Hears h [⟨ID.marker.code, [mark]⟩] (h.onMark (mark &&& ~~~0x80) (mark &&& 0x80 = 0)) := by
  refine Hears.field fun reader on => ?_
  rw [Listener.dispatch, if_pos on.id, on.byte _ rfl]

/-- The mark of an entry. -/
theorem Hears.entry {marker : Marker} (object : marker ≠ .autoDiscoverRep) :
    Hears h [⟨ID.marker.code, [marker.entry]⟩]
      { h with cMark := marker.code, hasId := false, hasPid := false } := by
  have heard := Hears.mark h marker.entry
  cases marker with
  | autoDiscoverRep => exact absurd rfl object
  | autoDiscoverReq => exact heard
  | session => exact heard
  | stream => exact heard
  | channel => exact heard

/-- The mark of an exit. -/
theorem Hears.exit {marker : Marker} (object : marker ≠ .autoDiscoverRep) :
    Hears h [⟨ID.marker.code, [marker.exit]⟩] { h with hasId := false, hasPid := false } := by
  have heard := Hears.mark h marker.exit
  cases marker with
  | autoDiscoverRep => exact absurd rfl object
  | autoDiscoverReq => exact heard
  | session => exact heard
  | stream => exact heard
  | channel => exact heard

/-- The marks of the reply change nothing. -/
theorem Hears.reply {mark : UInt8}
    (reply : mark = Marker.autoDiscoverRep.entry ∨ mark = Marker.autoDiscoverRep.exit) :
    Hears h [⟨ID.marker.code, [mark]⟩] h := by
  have heard := Hears.mark h mark
  obtain rfl | rfl := reply
  · exact heard
  · exact heard

/-- **An id** makes an object, if there is none with it. -/
theorem Hears.fileId (fresh : h.objects id = none) :
    ∃ h', Hears h [⟨ID.id.code, [id]⟩] h' ∧
      Filing h' h.objects id (HostObject.file ⟨0, h.cMark, fun _ => none⟩ ⟨ID.id.code, [id]⟩) := by
  let filed : HostMembers :=
    { h with
      hasId := true, cId := id,
      objects := Function.update h.objects id
        (some (HostObject.file ⟨0, h.cMark, fun _ => none⟩ ⟨ID.id.code, [id]⟩)) }
  refine ⟨filed, Hears.field fun reader on => ?_, rfl, rfl, rfl, rfl⟩
  have field : reader.idvId = ID.id.code := on.id
  have notMarker : ¬ ID.id.code = ID.marker.code := by decide
  rw [Listener.dispatch]
  simp only [field]
  rw [if_neg notMarker, HostMembers.onField, HostMembers.fileField, if_pos rfl, on.byte _ rfl]
  simp only [HostMembers.assign, HostMembers.object, Function.update_self, Function.update_idem,
    fresh, HostObject.set, HostObject.setName, HostObject.field, Option.getD_some,
    Option.getD_none, if_true]
  rfl

/-- **The id of the parent** is filed in the object that is current. -/
theorem Hears.fileParentId (filing : Filing h before id o) (parentId : UInt8) :
    ∃ h', Hears h [⟨ID.parentId.code, [parentId]⟩] h' ∧
      Filing h' before id { o.file ⟨ID.parentId.code, [parentId]⟩ with pid := parentId } := by
  let filed : HostMembers :=
    { h with
      cMark := o.marker, cId := id, hasId := true, hasPid := true, cPid := parentId,
      objects := Function.update before id
        (some { o.file ⟨ID.parentId.code, [parentId]⟩ with pid := parentId }) }
  refine ⟨filed, Hears.field fun reader on => ?_, rfl, rfl, rfl, rfl⟩
  have field : reader.idvId = ID.parentId.code := on.id
  have notMarker : ¬ ID.parentId.code = ID.marker.code := by decide
  have notId : ¬ ID.parentId.code = ID.id.code := by decide
  rw [Listener.dispatch]
  simp only [field]
  rw [if_neg notMarker, HostMembers.onField, HostMembers.fileField, if_neg notId, if_pos rfl,
    on.byte _ rfl]
  simp only [HostMembers.assign, HostMembers.object, Function.update_self, Function.update_idem,
    filing.current, filing.hasId, filing.cMark, filing.objects, HostObject.set,
    HostObject.setName, HostObject.field, Option.getD_some, if_true]
  rfl

/-- **Any other field** is filed in the object that is current. -/
theorem Hears.fileOther (filing : Filing h before id o) {field : Idv.Field}
    (notMarker : field.id ≠ ID.marker.code) (notId : field.id ≠ ID.id.code)
    (notParent : field.id ≠ ID.parentId.code) :
    ∃ h', Hears h [field] h' ∧ Filing h' before id (o.file field) := by
  have set : Filing (h.assign (·.set field.id field.value)) before id
      (o.set field.id field.value) := filing.assign rfl
  have named : Filing ((h.assign (·.set field.id field.value)).assign (·.setName field.id)) before
      id ((o.set field.id field.value).setName field.id) := set.assign rfl
  rw [file_eq] at named
  refine ⟨_, Hears.field fun reader on => ?_, named⟩
  rw [Listener.dispatch]
  simp only [on.id]
  rw [if_neg notMarker, HostMembers.onField, HostMembers.fileField, if_neg notId, if_neg notParent,
    if_pos filing.hasId, on.value, if_pos set.hasId]

/-- All of them. -/
theorem Hears.fileOthers (filing : Filing h before id o) {others : List Idv.Field}
    (other : ∀ field ∈ others, field.id ≠ ID.marker.code ∧ field.id ≠ ID.id.code ∧
      field.id ≠ ID.parentId.code) :
    ∃ h', Hears h others h' ∧ Filing h' before id (others.foldl HostObject.file o) := by
  induction others generalizing h o with
  | nil => exact ⟨h, Hears.refl h, filing⟩
  | cons field rest ih =>
    obtain ⟨notMarker, notId, notParent⟩ := other field List.mem_cons_self
    obtain ⟨h', hears, filed⟩ := Hears.fileOther filing notMarker notId notParent
    obtain ⟨h'', later, all⟩ := ih filed fun field member =>
      other field (List.mem_cons_of_mem _ member)
    exact ⟨h'', Hears.append hears later, all⟩

end Filing

/-- Fields with different ids, filed in an object, are found there under their ids. -/
theorem foldl_file {filed : List Idv.Field} (distinct : (filed.map Idv.Field.id).Nodup)
    (o : HostObject) :
    filed.foldl HostObject.file o =
      { o with
        fields := fun id => ((filed.find? fun field => field.id = id).map fun field =>
          ⟨idNames.getD field.id.toNat "", field.value⟩).or (o.fields id) } := by
  induction filed generalizing o with
  | nil => rfl
  | cons field rest ih =>
    rw [List.map_cons, List.nodup_cons] at distinct
    rw [List.foldl_cons, ih distinct.2]
    show HostObject.mk o.pid o.marker _ = HostObject.mk o.pid o.marker _
    congr 1
    funext id
    by_cases same : field.id = id
    · have absent : rest.find? (fun other => other.id = id) = none := by
        refine List.find?_eq_none.mpr fun other member same' => distinct.1 ?_
        rw [same, ← of_decide_eq_true same']
        exact List.mem_map_of_mem member
      have found : (field :: rest).find? (fun other => other.id = id) = some field :=
        List.find?_cons_of_pos (decide_eq_true same)
      rw [absent, found, HostObject.file, ← same]
      exact Function.update_self ..
    · have later : (field :: rest).find? (fun other => other.id = id) =
          rest.find? (fun other => other.id = id) :=
        List.find?_cons_of_neg (by rwa [decide_eq_true_eq])
      rw [later]
      refine congrArg _ ?_
      exact Function.update_of_ne (Ne.symm same) _ _

/-- A report whose fields are those of one object. -/
structure Report.Proper (r : Report) : Prop where
  object : r.marker ≠ .autoDiscoverRep
  others : ∀ field ∈ r.rest, field.id ≠ ID.marker.code ∧ field.id ≠ ID.id.code ∧
    field.id ≠ ID.parentId.code
  distinct : (r.rest.map Idv.Field.id).Nodup
  short : ∀ field ∈ r.rest, field.Short

section Reports

variable {h : HostMembers} {r : Report}

/-- What is filed between the marks of a report is its object. -/
theorem Report.Proper.filed_eq (proper : r.Proper) :
    r.rest.foldl HostObject.file
      { (HostObject.file ⟨0, r.marker.code, fun _ => none⟩ ⟨ID.id.code, [r.id]⟩).file
          ⟨ID.parentId.code, [r.parentId]⟩ with pid := r.parentId } = r.object := by
  have distinct : (r.own.map Idv.Field.id).Nodup := by
    rw [Report.own, List.map_cons, List.map_cons]
    refine List.nodup_cons.mpr ⟨?_, List.nodup_cons.mpr ⟨?_, proper.distinct⟩⟩
    · rw [List.mem_cons, not_or]
      refine ⟨show ¬ ID.id.code = ID.parentId.code by decide, fun member => ?_⟩
      obtain ⟨field, inside, same⟩ := List.mem_map.mp member
      exact (proper.others field inside).2.1 same
    · intro member
      obtain ⟨field, inside, same⟩ := List.mem_map.mp member
      exact (proper.others field inside).2.2 same
  have own := foldl_file distinct ⟨0, r.marker.code, fun _ => none⟩
  have fields := congrArg HostObject.fields own
  rw [Report.own, List.foldl_cons, List.foldl_cons, foldl_file proper.distinct] at fields
  rw [foldl_file proper.distinct, Report.object]
  congr 1
  refine fields.trans (funext fun id => ?_)
  exact Option.or_none

/-- **The fields of a report** make its object, if there was none with its id, and change no
other. -/
theorem takeReport (proper : r.Proper) (fresh : h.objects r.id = none) :
    ∃ h', Hears h r.fields h' ∧ h'.objects = Function.update h.objects r.id (some r.object) := by
  have entry := Hears.entry (h := h) proper.object
  have unfiled : ({ h with cMark := r.marker.code, hasId := false, hasPid := false } :
      HostMembers).objects r.id = none := fresh
  obtain ⟨_, hearsId, filingId⟩ := Hears.fileId unfiled
  obtain ⟨_, hearsParent, filingParent⟩ := Hears.fileParentId filingId r.parentId
  obtain ⟨filed, hearsOthers, filing⟩ := Hears.fileOthers filingParent proper.others
  have exit := Hears.exit (h := filed) proper.object
  rw [proper.filed_eq] at filing
  refine ⟨{ filed with hasId := false, hasPid := false }, ?_, filing.objects⟩
  exact Hears.append entry (Hears.append (Hears.append hearsId
    (Hears.append hearsParent hearsOthers)) exit)

theorem Report.Proper.fieldsShort (proper : r.Proper) : ∀ field ∈ r.fields, field.Short := by
  have one : ∀ id byte, Idv.Field.Short ⟨id, [byte]⟩ := fun _ _ => show 1 < 256 by decide
  intro field member
  rw [Report.fields, Report.own] at member
  simp only [List.mem_cons, List.mem_append, List.not_mem_nil, or_false] at member
  obtain rfl | (rfl | rfl | inside) | rfl := member
  · exact one _ _
  · exact one _ _
  · exact one _ _
  · exact proper.short field inside
  · exact one _ _

/-- **The messages of reports with different ids** make their objects, and change no other. -/
theorem takeReports {reports : List Report} (proper : ∀ report ∈ reports, report.Proper)
    (small : ∀ report ∈ reports, (Idv.messageBytes report.fields).length < 65535)
    (distinct : (reports.map Report.id).Nodup)
    (fresh : ∀ report ∈ reports, h.objects report.id = none) :
    ∃ h', HearsAll h (reports.map fun report => Idv.messageBytes report.fields) h' ∧
      (∀ report ∈ reports, h'.objects report.id = some report.object) ∧
      ∀ id, id ∉ reports.map Report.id → h'.objects id = h.objects id := by
  induction reports generalizing h with
  | nil =>
    exact ⟨h, HearsAll.refl h, fun _ member => absurd member List.not_mem_nil, fun _ _ => rfl⟩
  | cons first rest ih =>
    rw [List.map_cons, List.nodup_cons] at distinct
    have properFirst := proper first List.mem_cons_self
    obtain ⟨after, hears, filed⟩ := takeReport properFirst (fresh first List.mem_cons_self)
    have other : ∀ id, id ≠ first.id → after.objects id = h.objects id := by
      intro id different
      rw [filed, Function.update_of_ne different]
    have restId : ∀ report ∈ rest, report.id ≠ first.id := fun report member same =>
      distinct.1 (same ▸ List.mem_map_of_mem member)
    obtain ⟨h', heard, made, unchanged⟩ := ih
      (fun report member => proper report (List.mem_cons_of_mem _ member))
      (fun report member => small report (List.mem_cons_of_mem _ member)) distinct.2
      (fun report member => (other _ (restId report member)).trans
        (fresh report (List.mem_cons_of_mem _ member)))
    refine ⟨h', ?_, ?_, ?_⟩
    · exact HearsAll.append
        (hears.message properFirst.fieldsShort (small first List.mem_cons_self)) heard
    · intro report member
      obtain rfl | later := List.mem_cons.mp member
      · rw [unchanged _ distinct.1, filed, Function.update_self]
      · exact made report later
    · intro id outside
      rw [List.map_cons, List.mem_cons, not_or] at outside
      rw [unchanged id outside.2, other id outside.1]

/-- A report of any object of the tree: a text and a few small fields. -/
theorem proper_of_rest {text : CString} {others : List Idv.Field}
    (object : r.marker ≠ .autoDiscoverRep) (short : text.bytes.length < 256)
    (rest : r.rest = ⟨ID.metaText.code, text.bytes⟩ :: others)
    (plain : (others.map Idv.Field.id).Nodup ∧ ∀ field ∈ others, field.id ≠ ID.marker.code ∧
      field.id ≠ ID.id.code ∧ field.id ≠ ID.parentId.code ∧ field.id ≠ ID.metaText.code)
    (small : ∀ field ∈ others, field.value.length ≤ 4) (few : others.length ≤ 3) :
    r.Proper ∧ (Idv.messageBytes r.fields).length < 65535 := by
  have bytes : (Idv.messageBytes others).length ≤ 6 * others.length := by
    clear rest plain few
    induction others with
    | nil => exact le_refl 0
    | cons field tail ih =>
      have value := small field List.mem_cons_self
      have later := ih fun other member => small other (List.mem_cons_of_mem _ member)
      have both : (Idv.messageBytes (field :: tail)).length =
          (2 + field.value.length) + (Idv.messageBytes tail).length := by
        rw [Idv.messageBytes, List.flatMap_cons, List.length_append, Idv.Field.bytes_length]
        rfl
      rw [both, List.length_cons]
      omega
  refine ⟨⟨object, ?_, ?_, ?_⟩, ?_⟩
  · intro field member
    rw [rest] at member
    obtain rfl | inside := List.mem_cons.mp member
    · exact ⟨show ¬ ID.metaText.code = ID.marker.code by decide,
        show ¬ ID.metaText.code = ID.id.code by decide,
        show ¬ ID.metaText.code = ID.parentId.code by decide⟩
    · obtain ⟨notMarker, notId, notParent, -⟩ := plain.2 field inside
      exact ⟨notMarker, notId, notParent⟩
  · rw [rest, List.map_cons, List.nodup_cons]
    refine ⟨fun member => ?_, plain.1⟩
    obtain ⟨field, inside, same⟩ := List.mem_map.mp member
    exact (plain.2 field inside).2.2.2 same
  · intro field member
    rw [rest] at member
    obtain rfl | inside := List.mem_cons.mp member
    · exact short
    · have value := small field inside
      show field.value.length < 256
      omega
  · have length : (Idv.messageBytes r.fields).length =
        14 + text.bytes.length + (Idv.messageBytes others).length := by
      simp only [Idv.messageBytes, Report.fields, Report.own, rest, List.cons_append,
        List.flatMap_cons, List.flatMap_append, List.length_append, Idv.Field.bytes_length,
        List.length_cons, List.length_nil, List.flatMap_nil]
      omega
    omega

theorem Channel.report_proper {c : Channel} (short : c.metaText.bytes.length < 256)
    (parentId : UInt8) : (c.report parentId).Proper ∧
      (Idv.messageBytes (c.report parentId).fields).length < 65535 :=
  proper_of_rest (show Marker.channel ≠ _ by decide) short rfl (by simp [ID.code])
    (by simp [Idv.wordBytes]) (by simp)

theorem Stream.report_proper {s : Stream} (short : s.metaText.bytes.length < 256)
    (parentId : UInt8) : (s.report parentId).Proper ∧
      (Idv.messageBytes (s.report parentId).fields).length < 65535 :=
  proper_of_rest (show Marker.stream ≠ _ by decide) short rfl (by simp [ID.code])
    (by simp [Idv.wordBytes]) (by simp)

theorem Session.report_proper {s : Session} (short : s.metaText.bytes.length < 256)
    (parentId : UInt8) : (s.report parentId).Proper ∧
      (Idv.messageBytes (s.report parentId).fields).length < 65535 :=
  proper_of_rest (show Marker.session ≠ _ by decide) short rfl (by simp [ID.code]) (by simp)
    (by simp)

end Reports

/-- Every report of a tree with short texts. -/
theorem Session.reports_proper {s : Session} (short : ∀ text ∈ s.texts, text.bytes.length < 256) :
    ∀ report ∈ s.reports, report.Proper ∧
      (Idv.messageBytes report.fields).length < 65535 := by
  intro report member
  obtain rfl | below := List.mem_cons.mp member
  · exact Session.report_proper (short _ List.mem_cons_self) s.id
  · obtain ⟨stream, inside, described⟩ := List.mem_flatMap.mp below
    have inTexts : ∀ text ∈ stream.metaText :: stream.channels.map Channel.metaText,
        text ∈ s.texts := fun text here =>
      List.mem_cons_of_mem _ (List.mem_flatMap.mpr ⟨stream, inside, here⟩)
    obtain rfl | channelReport := List.mem_cons.mp described
    · exact Stream.report_proper (short _ (inTexts _ List.mem_cons_self)) s.id
    · obtain ⟨channel, inStream, rfl⟩ := List.mem_map.mp channelReport
      exact Channel.report_proper (short _ (inTexts _ (List.mem_cons_of_mem _
        (List.mem_map_of_mem inStream)))) stream.id

/-! ### The ids -/

/-- The ids of the tree. -/
def Session.ids (s : Session) : List UInt8 :=
  s.id :: s.streams.flatMap fun stream => stream.id :: stream.channels.map Channel.id

theorem Session.reports_ids (s : Session) : s.reports.map Report.id = s.ids := by
  rw [Session.reports, Session.ids, List.map_cons, List.map_flatMap]
  refine congrArg (s.id :: ·) (List.flatMap_congr fun stream _ => ?_)
  rw [List.map_cons, List.map_map]
  rfl

/-- The inner loop of `annonate` counts the channels. -/
theorem annonateChannels_spec (start : Nat) (channels : List Channel) :
    (annonateChannels (UInt8.ofNat start) channels).1.map Channel.id =
        (List.range' start channels.length).map UInt8.ofNat ∧
      (annonateChannels (UInt8.ofNat start) channels).2 = UInt8.ofNat (start + channels.length) ∧
      (annonateChannels (UInt8.ofNat start) channels).1.map Channel.metaText =
        channels.map Channel.metaText := by
  induction channels generalizing start with
  | nil => exact ⟨rfl, rfl, rfl⟩
  | cons channel rest ih =>
    have next : UInt8.ofNat start + 1 = UInt8.ofNat (start + 1) := UInt8.ofNat_add start 1 |>.symm
    obtain ⟨ids, behind, texts⟩ := ih (start + 1)
    rw [annonateChannels, next]
    refine ⟨?_, ?_, ?_⟩
    · rw [List.map_cons, ids, List.length_cons, List.range'_succ, List.map_cons]
    · rw [List.length_cons, ← Nat.add_assoc, Nat.add_right_comm]
      exact behind
    · rw [List.map_cons, texts, List.map_cons]

/-- The outer loop counts the streams and their channels. -/
theorem annonateStreams_spec (start : Nat) (streams : List Stream) :
    ((annonateStreams (UInt8.ofNat start) streams).flatMap fun stream =>
        stream.id :: stream.channels.map Channel.id) =
      (List.range' start (streams.flatMap fun stream =>
        stream.id :: stream.channels.map Channel.id).length).map UInt8.ofNat ∧
      ((annonateStreams (UInt8.ofNat start) streams).flatMap fun stream =>
          stream.metaText :: stream.channels.map Channel.metaText) =
        streams.flatMap fun stream =>
          stream.metaText :: stream.channels.map Channel.metaText := by
  induction streams generalizing start with
  | nil => exact ⟨rfl, rfl⟩
  | cons stream rest ih =>
    have next : UInt8.ofNat start + 1 = UInt8.ofNat (start + 1) := UInt8.ofNat_add start 1 |>.symm
    obtain ⟨channelIds, behind, channelTexts⟩ := annonateChannels_spec (start + 1) stream.channels
    obtain ⟨ids, texts⟩ := ih (start + 1 + stream.channels.length)
    rw [annonateStreams, next, behind, List.flatMap_cons, List.flatMap_cons, List.flatMap_cons,
      List.flatMap_cons, ids, texts, channelIds, channelTexts]
    refine ⟨?_, rfl⟩
    rw [List.length_append, List.length_cons, List.length_map]
    generalize (rest.flatMap fun stream =>
      stream.id :: stream.channels.map Channel.id).length = more
    have count : stream.channels.length + 1 + more = stream.channels.length + more + 1 := by omega
    rw [count, List.range'_succ, List.map_cons, ← List.range'_append_1, List.map_append]
    rfl

/-- **`annonate`** numbers the objects in the order of the messages, and keeps the texts. -/
theorem Session.annonate_spec (s : Session) :
    s.annonate.ids = (List.range s.ids.length).map UInt8.ofNat ∧ s.annonate.texts = s.texts := by
  obtain ⟨ids, texts⟩ := annonateStreams_spec 1 s.streams
  refine ⟨?_, congrArg (s.metaText :: ·) texts⟩
  rw [Session.ids, Session.ids, List.length_cons, List.range_eq_range', List.range'_succ,
    List.map_cons]
  exact congrArg ((0 : UInt8) :: ·) ids

/-- The ids of at most 256 objects are different. -/
theorem Session.annonate_ids_nodup {s : Session} (few : s.ids.length ≤ 256) :
    s.annonate.ids.Nodup := by
  rw [s.annonate_spec.1]
  refine List.Nodup.map_on (fun first firstIn second secondIn same => ?_) List.nodup_range
  have firstLt := List.mem_range.mp firstIn
  have secondLt := List.mem_range.mp secondIn
  have value := congrArg UInt8.toNat same
  rw [UInt8.toNat_ofNat', UInt8.toNat_ofNat'] at value
  omega

/-! ### The tree on the host -/

/-- **The host holds the tree**: the objects of these reports, and no other. -/
structure HoldsTree (h : HostMembers) (reports : List Report) : Prop where
  distinct : (reports.map Report.id).Nodup
  held : ∀ report ∈ reports, h.objects report.id = some report.object
  noOther : ∀ id, id ∉ reports.map Report.id → h.objects id = none

/-- **Different ids make the tree**: what the tool makes of the messages of `discovery_respond`. -/
theorem holdsTree_of_distinct {s : Session} (distinct : s.annonate.ids.Nodup)
    (short : ∀ text ∈ s.texts, text.bytes.length ≤ 255)
    (accepted : ∀ message ∈ s.annonate.outline, s.writer.reset.Takes message)
    (l : Listener) (empty : ∀ id, l.host.objects id = none) :
    ∃ l' needed, (∀ turns, needed ≤ turns → l.hearAll turns s.messages = some l') ∧
      HoldsTree l'.host s.annonate.reports := by
  obtain ⟨-, texts⟩ := s.annonate_spec
  have shortTexts : ∀ text ∈ s.annonate.texts, text.bytes.length < 256 := fun text member =>
    Nat.lt_succ_of_le (short text (texts ▸ member))
  have proper := Session.reports_proper shortTexts
  rw [← Session.reports_ids] at distinct
  have marks : ∀ mark : UInt8, (Idv.messageBytes [⟨ID.marker.code, [mark]⟩]).length < 65535 ∧
      ∀ field ∈ [(⟨ID.marker.code, [mark]⟩ : Idv.Field)], field.Short := fun mark =>
    ⟨show 3 < 65535 by decide, fun field member =>
      List.mem_singleton.mp member ▸ show 1 < 256 by decide⟩
  have fitting : ∀ message ∈ s.annonate.outline, Fitting s.writer message := by
    intro message member
    refine ⟨accepted message member, ?_⟩
    obtain rfl | later := List.mem_cons.mp member
    · exact (marks _).1
    · obtain ofReport | last := List.mem_append.mp later
      · obtain ⟨report, inside, rfl⟩ := List.mem_map.mp ofReport
        exact (proper report inside).2
      · rw [List.mem_singleton.mp last]
        exact (marks _).1
  have hearMark : ∀ h mark, mark = Marker.autoDiscoverRep.entry ∨
      mark = Marker.autoDiscoverRep.exit →
        HearsAll h [Idv.messageBytes [⟨ID.marker.code, [mark]⟩]] h := fun h mark reply =>
    (Hears.reply reply).message (marks mark).2 (marks mark).1
  obtain ⟨h', heard, made, unchanged⟩ := takeReports (h := l.host)
    (fun report member => (proper report member).1)
    (fun report member => (proper report member).2) distinct
    (fun report _ => empty report.id)
  have all := HearsAll.append (hearMark l.host _ (.inl rfl))
    (HearsAll.append heard (hearMark h' _ (.inr rfl)))
  obtain ⟨reader', needed, run⟩ := all l.reader
  refine ⟨⟨reader', h'⟩, needed, fun turns enough => ?_, distinct, made, fun id outside => ?_⟩
  · rw [discoveryRespond_messages shortTexts fitting, Session.outline, List.map_cons,
      List.map_append, List.map_map]
    exact run turns enough
  · rw [unchanged id outside, empty id]

/-- **Discovery reconstructs the device tree**: from the messages of `discovery_respond` the tool
makes one object for each session, stream and channel id, with the marker, the parent and the fields
that the device serialized for it, and nothing else. -/
theorem reconstructs (s : Session) (few : s.ids.length ≤ 256)
    (short : ∀ text ∈ s.texts, text.bytes.length ≤ 255)
    (accepted : ∀ message ∈ s.annonate.outline, s.writer.reset.Takes message)
    (l : Listener) (empty : ∀ id, l.host.objects id = none) :
    ∃ l' needed, (∀ turns, needed ≤ turns → l.hearAll turns s.messages = some l') ∧
      HoldsTree l'.host s.annonate.reports :=
  holdsTree_of_distinct (Session.annonate_ids_nodup few) short accepted l empty

/-- A session with one stream of one channel. -/
def measuring : Session :=
  quiet.registerStreams [⟨1000, 50000, 0, [⟨0, ⟨[73, 117], by decide⟩, 0x3F800000, 0⟩],
    ⟨[68, 84, 67], by decide⟩⟩]

/-- It tells the tool about three objects. -/
theorem reconstructs_measuring :
    ∃ l' needed, (∀ turns, needed ≤ turns →
      Listener.hearAll turns ⟨⟨[], 0, 0, 0, 0⟩, 0, 0, 0, false, false, fun _ => none⟩
        measuring.messages = some l') ∧
      HoldsTree l'.host measuring.annonate.reports :=
  reconstructs measuring (by decide) (by decide) (by decide) _ fun _ => rfl

end ForgeDrive.Daq.Discovery
