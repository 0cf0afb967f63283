/-
**Sending a session message** (`DAQSessionAPP::send` of the firmware).

A message goes to the USB ring in two writes, the header and the encoded payload, and neither result
is looked at. A write is accepted or refused as a whole, so a message is torn exactly if one of the
two is accepted and the other is not:

* `allOrNothing_iff` — one `send`, for every state of the ring;
* `Sender.step` — the two writes among all steps of the hand-over, completions in between;
* `discoveryRespond_steps` — what `discovery_respond` does is a run of these steps;
* `WholeFrames` — what holds in every run in which no message is torn.
-/

import ForgeDrive.Daq.Discovery
import ForgeDrive.Usb.TxHandOver
import ForgeDrive.Abf.Frame

namespace ForgeDrive.Daq.Discovery

open Circular (segment store)
open LabelledSystem (exec Meets)
open Usb (TxSystem TxStep)

/-! ### One message -/

/-- The service of the session on the wire. -/
def sessionService : UInt8 := 16

/-- The bytes of a whole message on the wire. -/
def wireFrame (content : List UInt8) : List UInt8 :=
  Abf.headerBytes sessionService content ++ Abf.encodedPayload content

/-- `abf.encode` of `send`: the header, and the writer with the payload rewritten. -/
def encodeMessage (stack : Nat → UInt8) (w : Idv.Writer) : List UInt8 × Idv.Writer :=
  let payloadLen := w.bufIdx.toUInt8
  let encoded := Abf.encode stack (segment w.buf 0 payloadLen.toNat) 16 payloadLen
  (segment encoded.2.1 0 Abf.headerSize, { w with buf := store w.buf 0 encoded.2.2 })

/-- **All or nothing**: behind what was in the ring there is nothing new, or the whole message. -/
def AllOrNothing (w : Idv.Writer) (d : DeviceMembers) : Prop :=
  let after := (deviceSend w d).2.usb.tx.contents
  after = d.usb.tx.contents ∨ after = d.usb.tx.contents ++ wireFrame w.written

/-- A message of a size that `encode` accepts. -/
def Sized (w : Idv.Writer) : Prop := 1 ≤ w.bufIdx.toNat ∧ w.bufIdx.toNat ≤ 255

/-- There is room for the header and the payload, or for neither. -/
def Fits (w : Idv.Writer) (d : DeviceMembers) : Prop :=
  Abf.headerSize + w.bufIdx.toNat ≤ d.usb.tx.free.toNat ∨
    (d.usb.tx.free.toNat < Abf.headerSize ∧ d.usb.tx.free.toNat < w.bufIdx.toNat)

section Message

variable {w : Idv.Writer} {d : DeviceMembers}

@[simp] theorem wireFrame_length (content : List UInt8) :
    (wireFrame content).length = Abf.headerSize + content.length := by
  rw [wireFrame, List.length_append, Abf.encodedPayload_length]
  rfl

@[simp] theorem written_length (w : Idv.Writer) : w.written.length = w.bufIdx.toNat :=
  Circular.segment_length _ _ _

/-- **What `encode` leaves** of a message of 1 to 255 bytes. -/
theorem encodeMessage_eq (sized : Sized w) (stack : Nat → UInt8) :
    (encodeMessage stack w).1 = Abf.headerBytes sessionService w.written ∧
      (encodeMessage stack w).2.written = Abf.encodedPayload w.written := by
  obtain ⟨some_, short⟩ := sized
  have length : w.written.length = w.bufIdx.toNat := written_length w
  have payloadLen : w.bufIdx.toUInt8 = UInt8.ofNat w.written.length := by
    rw [length, ← UInt8.toNat_inj, UInt8.toNat_ofNat', UInt16.toNat_toUInt8]
  have whole : w.bufIdx.toUInt8.toNat = w.bufIdx.toNat := by
    rw [UInt16.toNat_toUInt8]
    omega
  obtain ⟨after, encoded, header⟩ := Abf.encode_eq stack
    (show sessionService ≠ 0 by decide) (show 0 < w.written.length by omega) (by omega)
  rw [← payloadLen] at encoded
  have message : Abf.encode stack (segment w.buf 0 w.bufIdx.toUInt8.toNat) 16 w.bufIdx.toUInt8 =
      (.ok, after, Abf.encodedPayload w.written) := by
    rw [whole]
    exact encoded
  constructor
  · simp only [encodeMessage, message]
    exact header
  · simp only [encodeMessage, message, Idv.Writer.written]
    have stored := Circular.segment_store w.buf 0 (Abf.encodedPayload w.written)
    rwa [Abf.encodedPayload_length, length] at stored

/-- `send`, as the two writes and the flush. -/
theorem deviceSend_eq (w : Idv.Writer) (d : DeviceMembers) : deviceSend w d =
    ((encodeMessage d.stack w).2,
      { d with usb := ((d.usb.write (encodeMessage d.stack w).1).1.write
        (encodeMessage d.stack w).2.written).1 }.flush) := rfl

theorem deviceSend_tx (w : Idv.Writer) (d : DeviceMembers) :
    (deviceSend w d).2.usb.tx = ((d.usb.write (encodeMessage d.stack w).1).1.write
      (encodeMessage d.stack w).2.written).1.tx := by
  rw [deviceSend_eq]
  exact Usb.startTx_tx _

/-- A part of a frame is neither nothing nor the whole frame. -/
theorem not_nothing_or_whole {held part frame : List UInt8} (some_ : 0 < part.length)
    (less : part.length < frame.length) :
    ¬ (held ++ part = held ∨ held ++ part = held ++ frame) := by
  rintro (nothing | whole)
  · rw [List.append_right_eq_self.mp nothing] at some_
    exact absurd some_ (Nat.lt_irrefl 0)
  · rw [List.append_cancel_left whole] at less
    exact absurd less (Nat.lt_irrefl _)

/-- **When a message is sent whole or not at all**: for every state of the ring and every message of
1 to 255 bytes, exactly if there is room for the header and the payload, or for neither. -/
theorem allOrNothing_iff (sized : Sized w) (valid : d.usb.tx.Valid) :
    AllOrNothing w d ↔ Fits w d := by
  obtain ⟨header, payload⟩ := encodeMessage_eq sized d.stack
  obtain ⟨some_, short⟩ := sized
  have headerLength : (Abf.headerBytes sessionService w.written).length = Abf.headerSize := rfl
  have five : Abf.headerSize = 5 := rfl
  have payloadLength : (Abf.encodedPayload w.written).length = w.bufIdx.toNat := by
    rw [Abf.encodedPayload_length, written_length]
  have frameLength := wireFrame_length w.written
  rw [written_length] at frameLength
  have free := d.usb.tx.free_toNat valid
  have size := d.usb.tx.size_lt valid
  rw [AllOrNothing, Fits, deviceSend_tx, header, payload]
  rcases Nat.lt_or_ge d.usb.tx.free.toNat Abf.headerSize with noHeader | fitsHeader
  · obtain ⟨-, same⟩ := Usb.write_refused (h := d.usb) (by omega) (headerLength ▸ noHeader)
    rw [same]
    rcases Nat.lt_or_ge d.usb.tx.free.toNat w.bufIdx.toNat with noPayload | fitsPayload
    · obtain ⟨-, same⟩ := Usb.write_refused (h := d.usb) (by omega) (payloadLength ▸ noPayload)
      rw [same]
      exact iff_of_true (.inl rfl) (.inr ⟨noHeader, noPayload⟩)
    · -- a payload without its header
      obtain ⟨-, tx, after, -, -, contents⟩ :=
        Usb.write_fits valid (payloadLength.le.trans fitsPayload)
      have link : (d.usb.write (Abf.encodedPayload w.written)).1.tx = tx :=
        congrArg Usb.Exchange.tx after
      rw [link, contents]
      exact iff_of_false (not_nothing_or_whole (by omega) (by omega)) (by omega)
  · obtain ⟨-, tx, after, validAfter, capacity, contents⟩ :=
      Usb.write_fits valid (headerLength.le.trans fitsHeader)
    have sizeAfter := congrArg List.length contents
    rw [List.length_append, Fd.Ring.contents_length, Fd.Ring.contents_length, headerLength]
      at sizeAfter
    have freeAfter := tx.free_toNat validAfter
    rw [capacity, sizeAfter] at freeAfter
    rw [after]
    rcases Nat.lt_or_ge tx.free.toNat w.bufIdx.toNat with noPayload | fitsPayload
    · -- a header without its payload
      obtain ⟨-, same⟩ := Usb.write_refused (h := { d.usb with tx := tx }) (by omega)
        (payloadLength ▸ noPayload)
      rw [same, contents]
      exact iff_of_false (not_nothing_or_whole (by omega) (by omega)) (by omega)
    · obtain ⟨-, tx', after', -, -, contents'⟩ :=
        Usb.write_fits (h := { d.usb with tx := tx }) validAfter
          (payloadLength.le.trans fitsPayload)
      rw [after']
      refine iff_of_true (.inr ?_) (by omega)
      rw [contents', contents, List.append_assoc]
      rfl

end Message

/-! ### Messages among transmissions -/

/-- The hand-over with the main thread in `send`: between the two writes, whether the header was
accepted, and the writer. -/
structure Sender where
  link : TxSystem
  between : Option (Bool × Idv.Writer)

/-- The steps: `encode` and the first write, the second write, and the steps of the hand-over. -/
inductive SendStep
  | header (stack : Nat → UInt8) (w : Idv.Writer)
  | payload
  | hand (step : TxStep)

/-- One step. Between its two writes the main thread does nothing else; a completion comes at any
time. -/
def Sender.step (s : Sender) : SendStep → Option Sender
  | .header stack w =>
    match s.between with
    | some _ => none
    | none =>
      let encoded := encodeMessage stack w
      (s.link.step (.write encoded.1)).map fun link =>
        ⟨link, some ((s.link.link.write encoded.1).2 = 0, encoded.2)⟩
  | .payload =>
    match s.between with
    | some (_, w) => (s.link.step (.write w.written)).map fun link => ⟨link, none⟩
    | none => none
  | .hand (.write _) => none
  | .hand .complete => (s.link.step .complete).map fun link => ⟨link, s.between⟩
  | .hand step =>
    match s.between with
    | some _ => none
    | none => (s.link.step step).map fun link => ⟨link, none⟩

/-- No message is torn: the payload is accepted as its header was; and the hand-over is
undisturbed. -/
def Untorn (s : Sender) : SendStep → Prop
  | .header _ w => Sized w
  | .payload =>
    match s.between with
    | some (true, w) => w.bufIdx.toNat ≤ s.link.link.tx.free.toNat
    | some (false, w) => s.link.link.tx.free.toNat < w.bufIdx.toNat
    | none => True
  | .hand step => Usb.Undisturbed s.link step

/-- The messages on the wire. -/
def wireFrames (contents : List (List UInt8)) : List UInt8 := contents.flatMap wireFrame

/-- Messages of 1 to 255 bytes. -/
def AllSized (contents : List (List UInt8)) : Prop :=
  ∀ content ∈ contents, 1 ≤ content.length ∧ content.length ≤ 255

/-- **The bytes transmitted are whole frames**: outside `send` what was accepted is a row of whole
frames, what was handed over is a beginning of it, and all of it when the ring is empty. -/
structure WholeFrames (s : Sender) : Prop where
  frames : s.between = none → ∃ contents, AllSized contents ∧ s.link.accepted = wireFrames contents
  handed : s.link.handed <+: s.link.accepted
  drained : s.link.link.tx.size = 0 → s.link.handed = s.link.accepted

/-- What was accepted: whole frames, and between the two writes perhaps a header. -/
def Accepted (s : Sender) : Prop :=
  match s.between with
  | none => ∃ contents, AllSized contents ∧ s.link.accepted = wireFrames contents
  | some (header, w) => ∃ contents content, AllSized contents ∧
      (1 ≤ content.length ∧ content.length ≤ 255) ∧ content.length = w.bufIdx.toNat ∧
      w.written = Abf.encodedPayload content ∧
      s.link.accepted = wireFrames contents ++
        if header then Abf.headerBytes sessionService content else []

/-- The invariant. -/
structure Whole (s : Sender) : Prop where
  hand : Usb.TxInvariant s.link
  accepted : Accepted s

section Sender

variable {s next : Sender}

theorem Whole.wholeFrames (whole : Whole s) : WholeFrames s := by
  have handOver := whole.hand.phase.handOver
  refine ⟨fun outside => ?_, handOver.order, fun empty => ?_⟩
  · have accepted := whole.accepted
    rwa [Accepted, outside] at accepted
  · have nothing : s.link.link.tx.contents = [] := by
      apply List.length_eq_zero_iff.mp
      rw [Fd.Ring.contents_length, empty]
      rfl
    cases whole.hand.phase with
    | quiet quiet _ _ => rw [quiet.accepted, nothing, List.append_nil]
    | onWire onWire _ _ => rw [onWire.accepted, nothing, List.drop_nil, List.append_nil]
    | started _ onWire _ => rw [onWire.accepted, nothing, List.drop_nil, List.append_nil]
    | released onWire _ => rw [onWire.accepted, nothing, List.drop_nil, List.append_nil]

theorem AllSized.concat {contents : List (List UInt8)} (all : AllSized contents)
    {content : List UInt8} (sized : 1 ≤ content.length ∧ content.length ≤ 255) :
    AllSized (contents ++ [content]) := by
  intro other member
  rcases List.mem_append.mp member with old | new
  · exact all other old
  · rw [List.mem_singleton.mp new]
    exact sized

/-- The first write. -/
theorem Whole.header (whole : Whole s) {stack : Nat → UInt8} {w : Idv.Writer} (sized : Sized w)
    (taken : s.step (.header stack w) = some next) : Whole next := by
  obtain ⟨header, payload⟩ := encodeMessage_eq sized stack
  have headerLength : (Abf.headerBytes sessionService w.written).length = 5 := rfl
  have accepted := whole.accepted
  rw [Sender.step] at taken
  cases place : s.between with
  | some _ =>
    rw [place] at taken
    cases taken
  | none =>
    rw [place] at taken
    rw [Accepted, place] at accepted
    obtain ⟨contents, all, bytes⟩ := accepted
    obtain ⟨link, stepped, rfl⟩ := Option.map_eq_some_iff.mp taken
    have undisturbed : Usb.Undisturbed s.link (.write (encodeMessage stack w).1) :=
      fun _ => by rw [header, headerLength]; decide
    have hand := whole.hand.step undisturbed stepped
    refine ⟨hand, contents, w.written, all, ?_, written_length w, payload, ?_⟩
    · rw [written_length]
      exact sized
    · rw [TxSystem.step] at stepped
      split at stepped
      case isFalse => cases stepped
      case isTrue =>
        obtain rfl := Option.some.inj stepped
        show (if _ then s.link.accepted ++ (encodeMessage stack w).1 else s.link.accepted) = _
        rw [header, bytes]
        by_cases fits : (s.link.link.write (Abf.headerBytes sessionService w.written)).2 = 0
        · rw [if_pos fits, if_pos (decide_eq_true fits)]
        · rw [if_neg fits, if_neg (fun yes => fits (of_decide_eq_true yes)), List.append_nil]

/-- The second write. -/
theorem Whole.payload (whole : Whole s) (untorn : Untorn s .payload)
    (taken : s.step .payload = some next) : Whole next := by
  have accepted := whole.accepted
  have valid := whole.hand.valid
  rw [Sender.step] at taken
  cases place : s.between with
  | none =>
    rw [place] at taken
    cases taken
  | some held =>
    obtain ⟨header, w⟩ := held
    rw [place] at taken
    rw [Accepted, place] at accepted
    rw [Untorn, place] at untorn
    obtain ⟨contents, content, all, sized, length, payload, bytes⟩ := accepted
    obtain ⟨link, stepped, rfl⟩ := Option.map_eq_some_iff.mp taken
    have payloadLength : w.written.length = w.bufIdx.toNat := written_length w
    have undisturbed : Usb.Undisturbed s.link (.write w.written) := fun _ => by omega
    have hand := whole.hand.step undisturbed stepped
    rw [TxSystem.step] at stepped
    split at stepped
    case isFalse => cases stepped
    case isTrue =>
      obtain rfl := Option.some.inj stepped
      refine ⟨hand, ?_⟩
      show ∃ contents, AllSized contents ∧
        (if (s.link.link.write w.written).2 = 0 then s.link.accepted ++ w.written
          else s.link.accepted) = wireFrames contents
      cases header with
      | true =>
        have fits : w.written.length ≤ s.link.link.tx.free.toNat := payloadLength.le.trans untorn
        refine ⟨contents ++ [content], all.concat sized, ?_⟩
        rw [if_pos (Usb.write_fits valid fits).1, bytes, payload, if_pos rfl, wireFrames,
          wireFrames, List.flatMap_append, List.flatMap_singleton, wireFrame, List.append_assoc]
      | false =>
        have more : s.link.link.tx.free.toNat < w.written.length := untorn.trans_eq
          payloadLength.symm
        refine ⟨contents, all, ?_⟩
        rw [if_neg (Usb.write_refused (by omega) more).1, bytes, if_neg Bool.false_ne_true,
          List.append_nil]

/-- The steps of the hand-over accept nothing. -/
theorem accepted_hand {link after : TxSystem} {step : TxStep} (reading : ∀ data, step ≠ .write data)
    (taken : link.step step = some after) : after.accepted = link.accepted := by
  cases step with
  | write data => exact absurd rfl (reading data)
  | update =>
    rw [TxSystem.step] at taken
    split at taken
    · obtain rfl := Option.some.inj taken
      rfl
    · cases taken
  | flush =>
    rw [TxSystem.step] at taken
    split at taken
    · obtain rfl := Option.some.inj taken
      rfl
    · cases taken
  | startTx =>
    have started : link.startTxStep = some after := taken
    rw [TxSystem.startTxStep] at started
    split at started
    · cases started
    · obtain rfl := Option.some.inj started
      rfl
    · split at started
      · obtain rfl := Option.some.inj started
        rfl
      · obtain rfl := Option.some.inj started
        rfl
    · obtain rfl := Option.some.inj started
      rfl
    · obtain rfl := Option.some.inj started
      rfl
    · obtain rfl := Option.some.inj started
      rfl
  | complete =>
    have completed : link.complete = some after := taken
    rw [TxSystem.complete] at completed
    split at completed
    · cases completed
    · simp only at completed
      split at completed
      · obtain rfl := Option.some.inj completed
        rfl
      · obtain rfl := Option.some.inj completed
        rfl

/-- A step of the hand-over keeps where the main thread is between its writes. -/
theorem hand_step {step : TxStep} (taken : s.step (.hand step) = some next) :
    (∀ data, step ≠ .write data) ∧ next.between = s.between ∧
      s.link.step step = some next.link := by
  have outside : ∀ {step : TxStep}, (match s.between with
      | some _ => none
      | none => (s.link.step step).map fun link => (⟨link, none⟩ : Sender)) = some next →
        next.between = s.between ∧ s.link.step step = some next.link := by
    intro step main
    cases place : s.between with
    | some _ =>
      rw [place] at main
      cases main
    | none =>
      rw [place] at main
      obtain ⟨link, stepped, rfl⟩ := Option.map_eq_some_iff.mp main
      exact ⟨rfl, stepped⟩
  cases step with
  | write data => cases taken
  | complete =>
    obtain ⟨link, stepped, rfl⟩ := Option.map_eq_some_iff.mp taken
    exact ⟨fun _ => TxStep.noConfusion, rfl, stepped⟩
  | update => exact ⟨fun _ => TxStep.noConfusion, outside taken⟩
  | flush => exact ⟨fun _ => TxStep.noConfusion, outside taken⟩
  | startTx => exact ⟨fun _ => TxStep.noConfusion, outside taken⟩

theorem Whole.hand_ (whole : Whole s) {step : TxStep} (undisturbed : Usb.Undisturbed s.link step)
    (taken : s.step (.hand step) = some next) : Whole next := by
  obtain ⟨reading, between, stepped⟩ := hand_step taken
  have accepted := whole.accepted
  refine ⟨whole.hand.step undisturbed stepped, ?_⟩
  rw [Accepted, between, accepted_hand reading stepped]
  exact accepted

/-- **Every step that tears no message** keeps the invariant. -/
theorem Whole.step (whole : Whole s) {label : SendStep} (untorn : Untorn s label)
    (taken : s.step label = some next) : Whole next := by
  cases label with
  | header stack w => exact whole.header untorn taken
  | payload => exact whole.payload untorn taken
  | hand step => exact whole.hand_ untorn taken

end Sender

/-- The sender with both rings empty. -/
def Sender.init (txStorage rxStorage : Nat → UInt8) (txSize rxSize : UInt16) : Sender :=
  ⟨TxSystem.init txStorage rxStorage txSize rxSize, none⟩

theorem whole_start (txStorage rxStorage : Nat → UInt8) {txSize : UInt16} (rxSize : UInt16)
    (positive : 0 < txSize) : Whole (Sender.init txStorage rxStorage txSize rxSize) := by
  refine ⟨Usb.TxInvariant.init txStorage rxStorage rxSize positive, ?_⟩
  show ∃ contents, AllSized contents ∧ _
  exact ⟨[], fun _ member => absurd member List.not_mem_nil, rfl⟩

/-- **In every run that tears no message, the bytes transmitted are whole frames.** -/
theorem run_wholeFrames (txStorage rxStorage : Nat → UInt8) (txSize rxSize : UInt16)
    (positive : 0 < txSize) (steps : List SendStep)
    (untorn : Meets Sender.step Untorn (Sender.init txStorage rxStorage txSize rxSize) steps)
    (reached : Sender)
    (run : exec Sender.step (Sender.init txStorage rxStorage txSize rxSize) steps =
      some reached) : WholeFrames reached :=
  (LabelledSystem.exec_invariant Whole
    (fun _ _ _ whole allowed taken => whole.step allowed taken)
    (whole_start txStorage rxStorage rxSize positive) untorn run).wholeFrames

/-! ### What `discovery_respond` does is a run -/

/-- The driver goes from the one state to the other by steps of the sender that end outside `send`,
and starts these transfers on the way. -/
structure ByItself (d d' : DeviceMembers) : Prop where
  runs : ∀ s : Sender, s.between = none → s.link.pc = .outside → s.link.link = d.usb →
    ∃ (steps : List SendStep) (after : Sender) (started : List (List UInt8)),
      exec Sender.step s steps = some after ∧ after.between = none ∧ after.link.pc = .outside ∧
        after.link.link = d'.usb ∧ d'.transfers = d.transfers ++ started ∧
          after.link.inFlight = s.link.inFlight ++ started

section ByItself

variable {d d' d'' : DeviceMembers}

theorem ByItself.refl (d : DeviceMembers) : ByItself d d := ⟨fun s outside pc same =>
  ⟨[], s, [], rfl, outside, pc, same, (List.append_nil _).symm, (List.append_nil _).symm⟩⟩

theorem ByItself.trans (first : ByItself d d') (second : ByItself d' d'') : ByItself d d'' := by
  refine ⟨fun s outside pc same => ?_⟩
  obtain ⟨before, middle, started, run, outside, pc, same, transfers, inFlight⟩ :=
    first.runs s outside pc same
  obtain ⟨after, final, more, runAfter, outside, pc, same, transfersAfter, inFlightAfter⟩ :=
    second.runs middle outside pc same
  refine ⟨before ++ after, final, started ++ more, ?_, outside, pc, same, ?_, ?_⟩
  · rw [LabelledSystem.exec_append after run, runAfter]
  · rw [transfersAfter, transfers, List.append_assoc]
  · rw [inFlightAfter, inFlight, List.append_assoc]

/-- Steps of `usbxch_start_tx`, as steps of the sender outside `send`. -/
theorem exec_startTx {link after : TxSystem} {count : Nat}
    (run : exec TxSystem.step link (List.replicate count .startTx) = some after) :
    exec Sender.step ⟨link, none⟩ (List.replicate count (.hand .startTx)) =
      some ⟨after, none⟩ := by
  induction count generalizing link with
  | zero =>
    rw [← Option.some.inj run]
    rfl
  | succ count ih =>
    rw [List.replicate_succ, LabelledSystem.exec_cons, Option.bind_eq_some_iff] at run
    obtain ⟨next, taken, later⟩ := run
    have stepped : Sender.step ⟨link, none⟩ (.hand .startTx) = some ⟨next, none⟩ :=
      congrArg (Option.map fun link => (⟨link, none⟩ : Sender)) taken
    rw [List.replicate_succ, LabelledSystem.exec_cons, stepped]
    exact ih later

/-- **`send`** is the two writes, and the start of a transfer. -/
theorem deviceSend_byItself (w : Idv.Writer) (d : DeviceMembers) :
    ByItself d (deviceSend w d).2 := by
  refine ⟨fun s outside pc same => ?_⟩
  obtain ⟨link, between⟩ := s
  obtain rfl : between = none := outside
  rcases encodedDef : encodeMessage d.stack w with ⟨header, written⟩
  -- the main thread behind the two writes
  let first : TxSystem := { link with
    link := (link.link.write header).1
    accepted := if (link.link.write header).2 = 0 then link.accepted ++ header
      else link.accepted }
  let second : TxSystem := { first with
    link := (first.link.write written.written).1
    accepted := if (first.link.write written.written).2 = 0
      then first.accepted ++ written.written else first.accepted }
  have writes : exec Sender.step ⟨link, none⟩ [.header d.stack w, .payload] =
      some ⟨second, none⟩ := by
    have pcLink : link.pc = .outside := pc
    have one : link.step (.write header) = some first := if_pos pcLink
    have two : first.step (.write written.written) = some second := if_pos pcLink
    have headerStep : Sender.step ⟨link, none⟩ (.header d.stack w) =
        some ⟨first, some ((link.link.write header).2 = 0, written)⟩ := by
      simp only [Sender.step, encodedDef, one, Option.map_some]
    have payloadStep : Sender.step ⟨first, some ((link.link.write header).2 = 0, written)⟩
        .payload = some ⟨second, none⟩ := by
      simp only [Sender.step, two, Option.map_some]
    rw [LabelledSystem.exec_cons, headerStep, Option.bind_some, LabelledSystem.exec_cons,
      payloadStep]
    rfl
  have sent : (deviceSend w d).2 = ({ d with usb := second.link } : DeviceMembers).flush := by
    rw [deviceSend_eq, encodedDef, ← same]
  rw [sent]
  let flushed : TxSystem := { second with pc := if second.link.busy then .outside else .testBusy }
  have flushStep : Sender.step ⟨second, none⟩ (.hand .flush) = some ⟨flushed, none⟩ := by
    have taken : second.step .flush = some flushed := if_pos pc
    exact congrArg (Option.map fun link => (⟨link, none⟩ : Sender)) taken
  have throughFlush : exec Sender.step ⟨link, none⟩
      ([.header d.stack w, .payload] ++ [.hand .flush]) = some ⟨flushed, none⟩ := by
    rw [LabelledSystem.exec_append _ writes, LabelledSystem.exec_cons, flushStep]
    rfl
  by_cases busy : second.link.busy
  · have unchanged : second.link.startTx = (second.link, none) := by
      rw [Usb.Exchange.startTx, if_pos busy]
    refine ⟨_, _, [], throughFlush, rfl, if_pos busy, ?_, ?_, (List.append_nil _).symm⟩
    · show second.link = second.link.startTx.1
      rw [unchanged]
    · show d.transfers ++ second.link.startTx.2.toList = _
      rw [unchanged]
      rfl
  · obtain ⟨count, after, run, pcAfter, linkAfter, inFlight, -⟩ :=
      Usb.startTxSteps flushed (if_neg busy)
    refine ⟨[.header d.stack w, .payload] ++ [.hand .flush] ++
      List.replicate count (.hand .startTx), ⟨after, none⟩, second.link.startTx.2.toList, ?_, rfl,
      pcAfter, linkAfter, rfl, inFlight⟩
    rw [LabelledSystem.exec_append (List.replicate count (.hand .startTx)) throughFlush]
    exact exec_startTx run

variable {send : Idv.Writer → DeviceMembers → Idv.Writer × DeviceMembers}

theorem foldl_byItself {Item : Type*}
    {next : Idv.Writer × DeviceMembers → Item → Idv.Writer × DeviceMembers}
    (each : ∀ out item, ByItself out.2 (next out item).2) (items : List Item)
    (out : Idv.Writer × DeviceMembers) : ByItself out.2 (items.foldl next out).2 := by
  induction items generalizing out with
  | nil => exact .refl out.2
  | cons item rest ih =>
    rw [List.foldl_cons]
    exact (each out item).trans (ih (next out item))

theorem sendMessage_byItself (sends : ∀ w d, ByItself d (send w d).2)
    (write : Idv.Writer → Idv.Writer × Idv.Err) (out : Idv.Writer × DeviceMembers) :
    ByItself out.2 (sendMessage send write out).1.2 :=
  sends (write out.1).1 out.2

theorem describeChannels_byItself (sends : ∀ w d, ByItself d (send w d).2) (stream : Stream)
    (out : Idv.Writer × DeviceMembers) :
    ByItself out.2 (stream.channels.foldl
      (fun out channel => (sendMessage send (channel.serialize · stream.id) out).1) out).2 := by
  have each : ∀ (out : Idv.Writer × DeviceMembers) (channel : Channel), ByItself out.2
      ((fun out channel => (sendMessage send (channel.serialize · stream.id) out).1)
        out channel).2 :=
    fun out channel => sendMessage_byItself sends (channel.serialize · stream.id) out
  exact foldl_byItself each stream.channels out

theorem describe_byItself (sends : ∀ w d, ByItself d (send w d).2) (parentId : UInt8)
    (out : Idv.Writer × DeviceMembers) (stream : Stream) :
    ByItself out.2 (Stream.describe send parentId out stream).2 := by
  rw [Stream.describe]
  refine ByItself.trans ?_ (describeChannels_byItself sends stream _)
  exact sendMessage_byItself sends (stream.serialize · parentId) out

theorem respond_byItself (sends : ∀ w d, ByItself d (send w d).2) (s : Session)
    (d : DeviceMembers) : ByItself d (s.discoveryRespond send d).2.1 := by
  rw [Session.discoveryRespond]
  simp only
  refine ByItself.trans ?_ (sendMessage_byItself sends _ _)
  refine ByItself.trans ?_ (foldl_byItself (describe_byItself sends s.annonate.id) _ _)
  refine ByItself.trans ?_ (sendMessage_byItself sends _ _)
  exact sendMessage_byItself sends (fun w => w.addUInt8 ID.marker.code Marker.autoDiscoverRep.entry)
    (s.annonate.writer.reset, d)

/-- **`discovery_respond`** is a run of the sender, of whatever size its messages are. -/
theorem discoveryRespond_steps (s : Session) (d : DeviceMembers) :
    ByItself d (s.discoveryRespond deviceSend d).2.1 :=
  respond_byItself deviceSend_byItself s d

end ByItself

/-! ### The condition -/

/-- **When messages are sent whole or not at all.** One `send`, in every state of the ring: exactly
if there is room for the header and the payload, or for neither. All runs of sends and
transmissions, `discovery_respond` among them, in any interleaving: if no message is torn, what is
transmitted is a row of whole frames. -/
theorem send_whole (txStorage rxStorage : Nat → UInt8) (txSize rxSize : UInt16)
    (positive : 0 < txSize) :
    (∀ (w : Idv.Writer) (d : DeviceMembers), Sized w → d.usb.tx.Valid →
      (AllOrNothing w d ↔ Fits w d)) ∧
    (∀ (steps : List SendStep) (reached : Sender),
      Meets Sender.step Untorn (Sender.init txStorage rxStorage txSize rxSize) steps →
      exec Sender.step (Sender.init txStorage rxStorage txSize rxSize) steps = some reached →
        WholeFrames reached) ∧
    ∀ (s : Session) (d : DeviceMembers), ByItself d (s.discoveryRespond deviceSend d).2.1 :=
  ⟨fun _ _ sized valid => allOrNothing_iff sized valid,
    fun steps reached untorn run =>
      run_wholeFrames txStorage rxStorage txSize rxSize positive steps untorn reached run,
    discoveryRespond_steps⟩

/-- A request as a message. -/
def requestWriter : Idv.Writer := (writeRequest (Idv.Writer.new (fun _ => 0) 255)).1

/-- A request on an empty ring. -/
theorem send_whole_request :
    (AllOrNothing requestWriter quietMembers ↔ Fits requestWriter quietMembers) ∧
      ∃ reached, exec Sender.step (Sender.init (fun _ => 0) (fun _ => 0) 4096 256)
        [.header (fun _ => 0) requestWriter, .payload] = some reached ∧ WholeFrames reached := by
  have whole := send_whole (fun _ => 0) (fun _ => 0) 4096 256 (by decide)
  refine ⟨whole.1 requestWriter quietMembers ⟨by decide, by decide⟩ ⟨by decide, by decide⟩,
    _, rfl, whole.2.1 [.header (fun _ => 0) requestWriter, .payload] _
      ⟨⟨by decide, by decide⟩, ?_⟩ rfl⟩
  intro next taken
  have sent : (next.between.map fun held => (held.1, held.2.bufIdx.toNat)) = some (true, 6) ∧
      next.link.link.tx.free.toNat = 4090 := by
    rw [← Option.some.inj taken]
    decide +kernel
  obtain ⟨between, free⟩ := sent
  obtain ⟨held, place, same⟩ := Option.map_eq_some_iff.mp between
  obtain ⟨header, w⟩ := held
  obtain ⟨rfl, length⟩ := Prod.mk.inj same
  refine ⟨?_, fun _ _ => trivial⟩
  rw [Untorn, place]
  show w.bufIdx.toNat ≤ _
  have size : w.bufIdx.toNat = 6 := length
  omega

/-- The ring of the firmware with ten bytes free. -/
def nearlyFull : DeviceMembers :=
  { quietMembers with
    usb := { quietMembers.usb with tx := { quietMembers.usb.tx with head := 4085 } } }

/-- **A header without its payload**: ten bytes are free, and the request of `discovery_req` has
six. -/
theorem not_allOrNothing : ¬ ∀ (w : Idv.Writer) (d : DeviceMembers), Sized w →
    d.usb.tx.Valid → AllOrNothing w d := by
  intro all
  have torn := all requestWriter nearlyFull ⟨by decide, by decide⟩ ⟨by decide, by decide⟩
  have size : (deviceSend requestWriter nearlyFull).2.usb.tx.size = 4090 := by decide +kernel
  have before : nearlyFull.usb.tx.size = 4085 := by decide
  rcases torn with nothing | whole
  · have lengths := congrArg List.length nothing
    rw [Fd.Ring.contents_length, Fd.Ring.contents_length, size, before] at lengths
    exact absurd lengths (by decide)
  · have lengths := congrArg List.length whole
    rw [List.length_append, Fd.Ring.contents_length, Fd.Ring.contents_length, size, before,
      wireFrame_length, written_length] at lengths
    exact absurd lengths (by decide)

end ForgeDrive.Daq.Discovery
