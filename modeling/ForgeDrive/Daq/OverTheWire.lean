/-
**Discovery over the wire**: from `discovery_respond` of the firmware to the objects of the tool.

The session writes its messages one after the other, each as a frame in two writes to the USB ring;
the main thread and the completion interrupt hand the bytes of the ring to the core; the tool reads
them in chunks of any size, decodes the frames, and dispatches the fields of each payload.

* `respond_contents` — with room for all frames, `discovery_respond` adds to the ring the frames of
  its messages, in order, and nothing else;
* `Delivering.step` — the same of a run of the sender, step by step, with completions anywhere;
* `discovered` — so once the ring is empty the tool is given each message once and in order, and its
  objects are the tree of the session.
-/

import ForgeDrive.Abf.RoundTrip
import ForgeDrive.Daq.Reconstruction
import ForgeDrive.Daq.Sending

namespace ForgeDrive.Daq.Discovery

open LabelledSystem (exec Meets)
open Usb (TxStep)

/-! ### The messages of a session -/

/-- A writer takes only messages that fit its buffer. -/
theorem takes_length {w : Idv.Writer} {message : List Idv.Field} (takes : w.Takes message)
    (inside : w.bufIdx.toNat ≤ w.bufSize) (small : w.bufSize < 65536) :
    w.bufIdx.toNat + (Idv.messageBytes message).length ≤ w.bufSize := by
  induction message generalizing w with
  | nil => exact inside
  | cons field rest ih =>
    obtain ⟨ok, later⟩ := takes
    have fits : w.bufIdx.toNat + field.bytes.length ≤ w.bufSize := by
      rw [Idv.Field.bytes_length]
      have accepted := ok
      rw [Idv.Writer.add, Idv.Writer.addPrimitive] at accepted
      split at accepted
      case isTrue => cases accepted
      case isFalse fits => omega
    have size := Idv.add_bufSize w field
    obtain ⟨-, index⟩ := Idv.add_written ok (by omega)
    have behind := ih later (by omega) (by omega)
    have split : Idv.messageBytes (field :: rest) = field.bytes ++ Idv.messageBytes rest :=
      List.flatMap_cons
    rw [split, List.length_append]
    omega

/-! ### What `discovery_respond` adds to the ring -/

section Device

variable {w : Idv.Writer} {d : DeviceMembers}

/-- The frames of these messages fit behind what is in the ring. -/
def Room (d : DeviceMembers) (contents : List (List UInt8)) : Prop :=
  (wireFrames contents).length ≤ d.usb.tx.free.toNat

/-- **A message with room** is added whole. -/
theorem deviceSend_fits (sized : Sized w) (valid : d.usb.tx.Valid) (room : Room d [w.written]) :
    (deviceSend w d).2.usb.tx.Valid ∧ (deviceSend w d).2.usb.tx.capacity = d.usb.tx.capacity ∧
      (deviceSend w d).2.usb.tx.contents = d.usb.tx.contents ++ wireFrame w.written := by
  obtain ⟨header, payload⟩ := encodeMessage_eq sized d.stack
  have headerLength : (Abf.headerBytes sessionService w.written).length = 5 := rfl
  have payloadLength : (Abf.encodedPayload w.written).length = w.bufIdx.toNat := by
    rw [Abf.encodedPayload_length, written_length]
  have five : Abf.headerSize = 5 := rfl
  have frameLength : 5 + w.bufIdx.toNat ≤ d.usb.tx.free.toNat := by
    rw [Room, wireFrames, List.flatMap_singleton, wireFrame_length, written_length, five] at room
    exact room
  have free := d.usb.tx.free_toNat valid
  have size := d.usb.tx.size_lt valid
  obtain ⟨-, tx, after, validAfter, capacity, contents⟩ :=
    Usb.write_fits valid (show (Abf.headerBytes sessionService w.written).length ≤ _ by omega)
  have sizeAfter := congrArg List.length contents
  rw [List.length_append, Fd.Ring.contents_length, Fd.Ring.contents_length, headerLength]
    at sizeAfter
  have freeAfter := tx.free_toNat validAfter
  rw [capacity, sizeAfter] at freeAfter
  obtain ⟨-, tx', after', valid', capacity', contents'⟩ :=
    Usb.write_fits (h := { d.usb with tx := tx }) validAfter
      (show (Abf.encodedPayload w.written).length ≤ tx.free.toNat by omega)
  have ring : (deviceSend w d).2.usb.tx = tx' := by
    rw [deviceSend_tx, header, payload, after, after']
  rw [ring]
  refine ⟨valid', capacity'.trans capacity, ?_⟩
  rw [contents', contents, List.append_assoc]
  rfl

/-- The state of `discovery_respond` between two messages: the writer is empty, and if there was room
for the frames so far, they are in the ring, behind what was there. -/
structure Framed (w : Idv.Writer) (d : DeviceMembers) (sent : List (List UInt8))
    (out : Idv.Writer × DeviceMembers) : Prop where
  empty : out.1.bufIdx = 0
  size : out.1.bufSize = w.bufSize
  ring : Room d sent → out.2.usb.tx.Valid ∧ out.2.usb.tx.capacity = d.usb.tx.capacity ∧
    out.2.usb.tx.contents = d.usb.tx.contents ++ wireFrames sent

theorem wireFrames_concat (sent : List (List UInt8)) (content : List UInt8) :
    wireFrames (sent ++ [content]) = wireFrames sent ++ wireFrame content := by
  rw [wireFrames, wireFrames, List.flatMap_append, List.flatMap_singleton]

theorem messageBytes_pos {message : List Idv.Field} (some_ : message ≠ []) :
    1 ≤ (Idv.messageBytes message).length := by
  obtain ⟨field, rest, rfl⟩ := List.exists_cons_of_ne_nil some_
  rw [Idv.messageBytes, List.flatMap_cons, List.length_append, Idv.Field.bytes_length]
  omega

/-- **A message is added** as its frame. -/
theorem Framed.send (valid : d.usb.tx.Valid) {sent : List (List UInt8)}
    {out : Idv.Writer × DeviceMembers} (framed : Framed w d sent out) {message : List Idv.Field}
    {write : Idv.Writer → Idv.Writer × Idv.Err} (writes : ∀ v, (write v).1 = v.addAll message)
    (takes : w.reset.Takes message) (some_ : message ≠ []) (small : w.bufSize ≤ 255) :
    Framed w d (sent ++ [Idv.messageBytes message]) (sendMessage deviceSend write out).1 := by
  have empty : out.1.bufIdx.toNat = 0 := congrArg UInt16.toNat framed.empty
  have takesOut : out.1.Takes message :=
    takes_of_same (v := w.reset) framed.empty.symm framed.size.symm takes
  have sizeOut := framed.size
  have length := takes_length takesOut (by omega) (by omega)
  have written := Idv.written_addAll takesOut (by omega)
  have nothing : out.1.written = [] := by
    rw [Idv.Writer.written, empty, Circular.segment_zero]
  rw [nothing, List.nil_append, ← writes] at written
  have index : (write out.1).1.bufIdx.toNat = (Idv.messageBytes message).length := by
    rw [← written, written_length]
  have positive := messageBytes_pos some_
  refine ⟨rfl, ?_, fun room => ?_⟩
  · show (write out.1).1.bufSize = _
    rw [writes, Idv.addAll_bufSize, framed.size]
  · rw [Room, wireFrames_concat, List.length_append] at room
    obtain ⟨validOut, capacity, contents⟩ := framed.ring (by rw [Room]; omega)
    have freeBefore := d.usb.tx.free_toNat valid
    have sizeBefore := d.usb.tx.size_lt valid
    have freeOut := out.2.usb.tx.free_toNat validOut
    have held := congrArg List.length contents
    rw [List.length_append, Fd.Ring.contents_length, Fd.Ring.contents_length] at held
    have sized : Sized (write out.1).1 := by
      rw [Sized, index]
      omega
    have here : Room out.2 [(write out.1).1.written] := by
      rw [Room, wireFrames, List.flatMap_singleton, written, freeOut, capacity, held]
      omega
    obtain ⟨validAfter, capacityAfter, contentsAfter⟩ := deviceSend_fits sized validOut here
    refine ⟨validAfter, capacityAfter.trans capacity, ?_⟩
    show (deviceSend (write out.1).1 out.2).2.usb.tx.contents = _
    rw [contentsAfter, contents, written, wireFrames_concat, List.append_assoc]

/-- The messages that a session can send: texts that their length bytes hold, a writer that takes
the messages, in a buffer whose size a payload length holds. -/
structure Describable (s : Session) : Prop where
  few : s.ids.length ≤ 256
  short : ∀ text ∈ s.texts, text.bytes.length ≤ 255
  accepted : ∀ message ∈ s.annonate.outline, s.writer.reset.Takes message
  small : s.writer.bufSize ≤ 255

variable {s : Session}

theorem Describable.shortTexts (able : Describable s) :
    ∀ text ∈ s.annonate.texts, text.bytes.length < 256 := fun text member =>
  Nat.lt_succ_of_le (able.short text (s.annonate_spec.2 ▸ member))

theorem outline_ne_nil : ∀ message ∈ s.annonate.outline, message ≠ [] := by
  intro message member
  obtain rfl | later := List.mem_cons.mp member
  · exact List.cons_ne_nil _ _
  · obtain ofReport | last := List.mem_append.mp later
    · obtain ⟨report, -, rfl⟩ := List.mem_map.mp ofReport
      exact List.cons_ne_nil _ _
    · rw [List.mem_singleton.mp last]
      exact List.cons_ne_nil _ _

theorem Describable.message_length (able : Describable s) {message : List Idv.Field}
    (member : message ∈ s.annonate.outline) : (Idv.messageBytes message).length ≤ 255 := by
  have length := takes_length (able.accepted message member) (Nat.zero_le _)
    (lt_of_le_of_lt able.small (by decide))
  have small : s.writer.reset.bufSize ≤ 255 := able.small
  omega

/-- The messages are those of the outline. -/
theorem Describable.messages_eq (able : Describable s) :
    s.messages = s.annonate.outline.map Idv.messageBytes :=
  discoveryRespond_messages able.shortTexts fun message member =>
    ⟨able.accepted message member, lt_of_le_of_lt (able.message_length member) (by decide)⟩

/-- The messages are of sizes that `encode` accepts. -/
theorem Describable.allSized (able : Describable s) : AllSized s.messages := by
  rw [able.messages_eq]
  intro content member
  obtain ⟨message, inside, rfl⟩ := List.mem_map.mp member
  exact ⟨messageBytes_pos (outline_ne_nil message inside), able.message_length inside⟩

/-- **`discovery_respond` adds the frames of its messages to the ring**, in order, for every state of
the ring with room for them. -/
theorem respond_contents (able : Describable s) (valid : d.usb.tx.Valid)
    (room : Room d s.messages) :
    (s.discoveryRespond deviceSend d).2.1.usb.tx.contents =
      d.usb.tx.contents ++ wireFrames s.messages := by
  have start : Framed s.writer d [] (s.annonate.writer.reset, d) :=
    ⟨rfl, rfl, fun _ => ⟨valid, rfl, (List.append_nil _).symm⟩⟩
  have framed := respond_sends able.shortTexts start fun message member {sent out} write writes
      framed => framed.send valid writes (able.accepted message member)
        (outline_ne_nil message member) able.small
  rw [able.messages_eq] at room ⊢
  exact (framed.ring room).2.2

/-- The session of the firmware, on an empty ring. -/
theorem respond_contents_quiet :
    (quiet.discoveryRespond deviceSend quietMembers).2.1.usb.tx.contents =
      quietMembers.usb.tx.contents ++ wireFrames quiet.messages :=
  respond_contents ⟨by decide, by decide, by decide, by decide⟩ ⟨by decide, by decide⟩
    (by unfold Room; decide +kernel)

end Device

/-! ### Messages sent while transfers complete -/

/-- What a step begins to send. -/
def SendStep.content : SendStep → List (List UInt8)
  | .header _ w => [w.written]
  | .payload => []
  | .hand _ => []

/-- The messages sent along a run. -/
def sentBy (steps : List SendStep) : List (List UInt8) := steps.flatMap SendStep.content

/-- The payload that is still to be written, if there is one, has room. -/
def PayloadFits (free : Nat) : Option (Bool × Idv.Writer) → Prop
  | some (_, w) => w.bufIdx.toNat ≤ free
  | none => True

/-- Both writes of a message have room, and the hand-over is undisturbed. -/
def Roomy (s : Sender) : SendStep → Prop
  | .header _ w => Sized w ∧ Abf.headerSize ≤ s.link.link.tx.free.toNat
  | .payload => PayloadFits s.link.link.tx.free.toNat s.between
  | .hand step => Usb.Undisturbed s.link step

/-- Whether the main thread is between the start of a transfer and the writing of its release count. -/
instance : (pc : Usb.Pc) → Decidable (∀ c1, pc ≠ .setRelease c1)
  | .setRelease c1 => isFalse fun all => all c1 rfl
  | .outside => isTrue fun _ same => Usb.Pc.noConfusion same
  | .testBusy => isTrue fun _ same => Usb.Pc.noConfusion same
  | .reserve => isTrue fun _ same => Usb.Pc.noConfusion same
  | .transmit _ => isTrue fun _ same => Usb.Pc.noConfusion same
  | .setBusy => isTrue fun _ same => Usb.Pc.noConfusion same

instance (s : Usb.TxSystem) : (step : TxStep) → Decidable (Usb.Undisturbed s step)
  | .write _ => inferInstanceAs (Decidable (_ → _))
  | .update => isTrue trivial
  | .flush => isTrue trivial
  | .startTx => isTrue trivial
  | .complete => inferInstanceAs (Decidable (_ ∧ _))

instance (w : Idv.Writer) : Decidable (Sized w) := inferInstanceAs (Decidable (_ ∧ _))

instance (free : Nat) : (between : Option (Bool × Idv.Writer)) → Decidable (PayloadFits free between)
  | some (_, w) => inferInstanceAs (Decidable (w.bufIdx.toNat ≤ free))
  | none => isTrue trivial

instance (s : Sender) : (label : SendStep) → Decidable (Roomy s label)
  | .header _ w => inferInstanceAs (Decidable (Sized w ∧ _ ≤ _))
  | .payload => inferInstanceAs (Decidable (PayloadFits _ _))
  | .hand step => inferInstanceAs (Decidable (Usb.Undisturbed s.link step))

/-- What was accepted are the frames of the messages sent, but for a payload still to be written. -/
structure Delivering (sent : List (List UInt8)) (s : Sender) : Prop where
  whole : Whole s
  outside : s.between = none → s.link.accepted = wireFrames sent
  inside : ∀ header w, s.between = some (header, w) →
    header = true ∧ s.link.accepted ++ w.written = wireFrames sent

section Runs

variable {s next : Sender} {sent : List (List UInt8)}

/-- The first write. -/
theorem Delivering.header (delivering : Delivering sent s) {stack : Nat → UInt8} {w : Idv.Writer}
    (sized : Sized w) (room : Abf.headerSize ≤ s.link.link.tx.free.toNat)
    (taken : s.step (.header stack w) = some next) : Delivering (sent ++ [w.written]) next := by
  have whole := delivering.whole.header sized taken
  obtain ⟨header, payload⟩ := encodeMessage_eq sized stack
  have fits := (Usb.write_fits delivering.whole.hand.valid
    (show (Abf.headerBytes sessionService w.written).length ≤ _ from room)).1
  rw [Sender.step] at taken
  cases place : s.between with
  | some _ =>
    rw [place] at taken
    cases taken
  | none =>
    rw [place] at taken
    obtain ⟨link, stepped, rfl⟩ := Option.map_eq_some_iff.mp taken
    refine ⟨whole, (fun outside => by cases outside), ?_⟩
    rintro accepted w' same
    obtain ⟨rfl, rfl⟩ := Prod.mk.inj (Option.some.inj same)
    rw [Usb.TxSystem.step] at stepped
    split at stepped
    case isFalse => cases stepped
    case isTrue =>
      obtain rfl := Option.some.inj stepped
      refine ⟨decide_eq_true (by rw [header]; exact fits), ?_⟩
      show (if _ then s.link.accepted ++ (encodeMessage stack w).1 else s.link.accepted) ++ _ = _
      rw [header, if_pos fits, payload, delivering.outside place, wireFrames_concat,
        List.append_assoc]
      rfl

/-- The second write. -/
theorem Delivering.payload (delivering : Delivering sent s) (roomy : Roomy s .payload)
    (taken : s.step .payload = some next) : Delivering sent next := by
  rw [Roomy] at roomy
  have untorn : Untorn s .payload := by
    rw [Untorn]
    split
    · rename_i w place
      rwa [place] at roomy
    · rename_i w place
      exact absurd (delivering.inside false w place).1 Bool.false_ne_true
    · trivial
  have whole := delivering.whole.payload untorn taken
  rw [Sender.step] at taken
  cases place : s.between with
  | none =>
    rw [place] at taken
    cases taken
  | some held =>
    obtain ⟨header, w⟩ := held
    rw [place] at taken roomy
    obtain ⟨link, stepped, rfl⟩ := Option.map_eq_some_iff.mp taken
    obtain ⟨-, accepted⟩ := delivering.inside header w place
    have fits := (Usb.write_fits delivering.whole.hand.valid
      (show w.written.length ≤ _ from (written_length w).le.trans roomy)).1
    rw [Usb.TxSystem.step] at stepped
    split at stepped
    case isFalse => cases stepped
    case isTrue =>
      obtain rfl := Option.some.inj stepped
      refine ⟨whole, fun _ => ?_, fun _ _ inside => by cases inside⟩
      exact accepted

/-- **Every step with room** delivers what it sends. -/
theorem Delivering.step (delivering : Delivering sent s) {label : SendStep}
    (roomy : Roomy s label) (taken : s.step label = some next) :
    Delivering (sent ++ label.content) next := by
  cases label with
  | header stack w => exact delivering.header roomy.1 roomy.2 taken
  | payload =>
    rw [SendStep.content, List.append_nil]
    exact delivering.payload roomy taken
  | hand step =>
    obtain ⟨reading, between, stepped⟩ := hand_step taken
    have accepted := accepted_hand reading stepped
    rw [SendStep.content, List.append_nil]
    refine ⟨delivering.whole.hand_ roomy taken, fun outside => ?_, fun header w inside => ?_⟩
    · rw [accepted]
      exact delivering.outside (between.symm.trans outside)
    · rw [accepted]
      exact delivering.inside header w (between.symm.trans inside)

/-- **The runs.** -/
theorem Delivering.exec (delivering : Delivering sent s) {steps : List SendStep}
    (roomy : Meets Sender.step Roomy s steps) {reached : Sender}
    (run : exec Sender.step s steps = some reached) : Delivering (sent ++ sentBy steps) reached := by
  induction steps generalizing s sent with
  | nil =>
    obtain rfl := Option.some.inj run
    rw [sentBy, List.flatMap_nil, List.append_nil]
    exact delivering
  | cons label rest ih =>
    rw [LabelledSystem.exec_cons, Option.bind_eq_some_iff] at run
    obtain ⟨next, taken, later⟩ := run
    rw [sentBy, List.flatMap_cons, ← List.append_assoc]
    exact ih (delivering.step roomy.1 taken) (roomy.2 next taken) later

end Runs

theorem delivering_start (txStorage rxStorage : Nat → UInt8) {txSize : UInt16} (rxSize : UInt16)
    (positive : 0 < txSize) :
    Delivering [] (Sender.init txStorage rxStorage txSize rxSize) :=
  ⟨whole_start txStorage rxStorage rxSize positive, fun _ => rfl,
    fun _ _ inside => by cases inside⟩

/-! ### What the tool makes of it -/

/-- The payloads that `onFrame` of the tool passes on: those of all frames. -/
def payloads (events : List Abf.Event) : List (List UInt8) :=
  events.filterMap fun event =>
    match event with
    | .onFrame _ payload => some payload
    | .onError _ => none

/-- **Chunks of frames**, of whatever size, are decoded to their messages. -/
theorem payloads_chunks {contents : List (List UInt8)} (sized : AllSized contents)
    {host : Abf.Stream} (hunt : host.state = .huntSync) (capacity : 255 ≤ host.rxCapacity)
    {chunks : List (List UInt8)} (split : chunks.flatten = wireFrames contents) :
    (EventMachine.run Abf.Stream.process host chunks).2 =
      contents.map (.onFrame sessionService ·) := by
  have sendable : ∀ frame ∈ contents.map (sessionService, ·), Abf.Sendable frame := by
    intro frame member
    obtain ⟨content, inside, rfl⟩ := List.mem_map.mp member
    exact ⟨show (16 : UInt8) ≠ 0 by decide, (sized content inside).1,
      Nat.lt_succ_of_le (sized content inside).2⟩
  have fits : ∀ frame ∈ contents.map (sessionService, ·), frame.2.length ≤ host.rxCapacity :=
    fun frame member => (Nat.le_of_lt_succ (sendable frame member).short).trans capacity
  have bytes : wireFrames contents =
      Abf.wireBytes (fun _ => 0) (contents.map (sessionService, ·)) := by
    rw [wireFrames, Abf.wireBytes, List.map_map, List.flatMap_def]
    refine congrArg List.flatten (List.map_congr_left fun content inside => ?_)
    exact ((sendable _ (List.mem_map_of_mem inside)).frameBytes_eq _).symm
  have fed : EventMachine.run Abf.Stream.process host chunks = host.process chunks.flatten :=
    EventMachine.run_chunks _ _ _
  rw [fed, split, bytes, (Abf.process_wireBytes _ hunt sendable fits).2, Abf.deliveries,
    List.map_map]
  rfl

theorem payloads_onFrame (contents : List (List UInt8)) :
    payloads (contents.map (.onFrame sessionService ·)) = contents := by
  rw [payloads, List.filterMap_map]
  exact List.filterMap_some

/-- **Discovery over the wire.** The main thread sends the messages of `discovery_respond`, each with
room in the ring, and transfers complete at any time in between. Once the ring is empty, the bytes
handed to the core, read by the tool in chunks of any size and decoded, are each message once and in
order; and their fields, dispatched as `process` is to, make the tree of the session. -/
theorem discovered (s : Session) (able : Describable s) (txStorage rxStorage : Nat → UInt8)
    (txSize rxSize : UInt16) (positive : 0 < txSize) (steps : List SendStep)
    (sends : sentBy steps = s.messages)
    (roomy : Meets Sender.step Roomy (Sender.init txStorage rxStorage txSize rxSize) steps)
    (reached : Sender)
    (run : exec Sender.step (Sender.init txStorage rxStorage txSize rxSize) steps = some reached)
    (outside : reached.between = none) (drained : reached.link.link.tx.size = 0)
    (host : Abf.Stream) (hunt : host.state = .huntSync) (capacity : 255 ≤ host.rxCapacity)
    (chunks : List (List UInt8)) (split : chunks.flatten = reached.link.handed)
    (l : Listener) (empty : ∀ id, l.host.objects id = none) :
    (EventMachine.run Abf.Stream.process host chunks).2 =
        s.messages.map (.onFrame sessionService ·) ∧
      ∃ l' needed, (∀ turns, needed ≤ turns →
        l.hearAll turns (payloads (EventMachine.run Abf.Stream.process host chunks).2) = some l') ∧
          HoldsTree l'.host s.annonate.reports := by
  have delivering := (delivering_start txStorage rxStorage rxSize positive).exec roomy run
  rw [List.nil_append, sends] at delivering
  have handed : chunks.flatten = wireFrames s.messages := by
    rw [split, delivering.whole.wholeFrames.drained drained, delivering.outside outside]
  have decoded := payloads_chunks able.allSized hunt capacity handed
  obtain ⟨l', needed, heard, tree⟩ := holdsTree_of_distinct
    (Session.annonate_ids_nodup able.few) able.short able.accepted l empty
  refine ⟨decoded, l', needed, fun turns enough => ?_, tree⟩
  rw [decoded, payloads_onFrame]
  exact heard turns enough

/-- A run that sends the messages of the session of the firmware: the first frame is transmitted while
the second is written, between its header and its payload. -/
def quietSteps : List SendStep :=
  let writer (message : List Idv.Field) : Idv.Writer := quiet.writer.reset.addAll message
  [.header (fun _ => 0) (writer [⟨ID.marker.code, [Marker.autoDiscoverRep.entry]⟩]), .payload,
      .hand .flush] ++
    List.replicate 5 (.hand .startTx) ++
    [.header (fun _ => 0) (writer (quiet.annonate.report 0).fields), .hand .complete, .payload,
      .hand .flush, .header (fun _ => 0) (writer [⟨ID.marker.code, [Marker.autoDiscoverRep.exit]⟩]),
      .payload, .hand .flush, .hand .complete, .hand .complete]

/-- Its bytes, in the chunks in which the tool reads them. -/
def quietChunks : List (List UInt8) :=
  [[0, 16, 3, 4, 222, 255, 1, 1, 0, 16], [20, 4, 58, 255, 1, 2, 2, 1, 3, 1, 1, 8],
    [2, 3, 83, 65, 68, 3, 1, 4, 255, 1, 130, 0, 16, 3, 4, 222, 255, 1, 129]]

/-- The tool has one object. -/
theorem discovered_quiet :
    (EventMachine.run Abf.Stream.process (Abf.Stream.new (fun _ => 0) 255) quietChunks).2 =
        quiet.messages.map (.onFrame sessionService ·) ∧
      ∃ l' needed, (∀ turns, needed ≤ turns →
        Listener.hearAll turns ⟨⟨[], 0, 0, 0, 0⟩, 0, 0, 0, false, false, fun _ => none⟩
          (payloads (EventMachine.run Abf.Stream.process (Abf.Stream.new (fun _ => 0) 255)
            quietChunks).2) = some l') ∧ HoldsTree l'.host quiet.annonate.reports := by
  have able : Describable quiet := ⟨by decide, by decide, by decide, by decide⟩
  have ends : (exec Sender.step (Sender.init (fun _ => 0) (fun _ => 0) 4096 256) quietSteps).map
      (fun reached => (reached.between.isNone, reached.link.link.tx.size, reached.link.handed)) =
        some (true, 0, quietChunks.flatten) := by
    decide +kernel
  obtain ⟨reached, run, is⟩ := Option.map_eq_some_iff.mp ends
  obtain ⟨outside, rest⟩ := Prod.mk.inj is
  obtain ⟨drained, handed⟩ := Prod.mk.inj rest
  exact discovered quiet able (fun _ => 0) (fun _ => 0) 4096 256 (by decide) quietSteps
    (by decide +kernel) (by decide +kernel) reached run (Option.isNone_iff_eq_none.mp outside)
    drained _ rfl (by decide) quietChunks handed.symm _ fun _ => rfl

end ForgeDrive.Daq.Discovery
