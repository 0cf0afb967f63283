/-
**The firmware main loop: one array to read into, to parse from and to decode into.**

In `Sys::init` the array `abfStream_rx_buffer` is at once the destination of `fd_usbxch_read`, the
data argument of `process` and the payload buffer of the stream. `mainLoopPass` is one pass of the
loop over that one array. Two things can go wrong: a read overwrites the payload bytes decoded so
far, and a payload byte is stored over an input byte that is still to be read.

* A read that does not begin inside a payload keeps the write index behind the read index, and the
  pass does what it does with two arrays (`mainLoopPass_trailing`).
* When a read begins right at a payload, the two indices are equal: the input byte that stores a
  distance is overwritten with the zero it marks before it is read as the next distance, so the
  payload is delivered as the overwriting decoder leaves it (`mainLoopPass_inPlace`).
-/

import ForgeDrive.Abf.RoundTrip

namespace ForgeDrive.Abf

open ZeroStuffing
open Circular (segment store)

/-! ### The array -/

/-- `fd_usbxch_read` into the payload buffer. -/
def Stream.load (s : Stream) (bytes : List UInt8) : Stream :=
  { s with rxPayload := store s.rxPayload 0 bytes }

/-- One turn of the loop of `process`, `data[i]` being a byte of the payload buffer. -/
def Stream.processAt (s : Stream) (i : Nat) : Stream × List Event :=
  s.processByte fun t => t.rxPayload i

/-- `Stream::process` on the first `length` bytes of the payload buffer itself. -/
def Stream.processShared (s : Stream) (length : Nat) : Stream × List Event :=
  EventMachine.run Stream.processAt s (List.range length)

/-- One pass of the main loop, with `bytes` read from the USB exchange. -/
def mainLoopPass (s : Stream) (bytes : List UInt8) : Stream × List Event :=
  (s.load bytes).processShared bytes.length

/-! ### The write index behind the read index -/

/-- Unless a zero is restored at the very index that is being read, the byte read is not overwritten
before it is used. -/
theorem processAt_eq_processOne {s : Stream} {i : Nat}
    (apart : s.state = .readPayload → s.rxPos < i) :
    s.processAt i = s.processOne (s.rxPayload i) := by
  cases state : s.state with
  | huntSync => simp only [Stream.processAt, Stream.processOne, Stream.processByte, state,
      Stream.huntSync]
  | readHeader => simp only [Stream.processAt, Stream.processOne, Stream.processByte, state,
      Stream.readHeader]
  | validate => simp only [Stream.processAt, Stream.processOne, Stream.processByte, state]
  | readPayload =>
    have behind := apart state
    have stored : ∀ t : Stream, t.rxPayload = s.rxPayload → t.rxPos < i →
        (t.storeByte fun u => u.rxPayload i) = t.storeByte fun _ => s.rxPayload i := by
      intro t same position
      simp only [Stream.storeByte, Stream.storePayload, same,
        Function.update_of_ne (Nat.ne_of_gt position)]
    have taken : (s.takePayload fun t => t.rxPayload i) =
        s.takePayload fun _ => s.rxPayload i := by
      simp only [Stream.takePayload, Stream.checkByte]
      split
      · rw [stored s.reset rfl (Nat.zero_lt_of_lt behind)]
      · rw [stored s rfl behind]
    simp only [Stream.processAt, Stream.processOne, Stream.processByte, state, Stream.readPayload,
      taken]

/-- Two receivers in a payload that differ only beyond the bytes decoded so far. -/
structure Agree (s t : Stream) : Prop where
  state : s.state = t.state
  header : s.header = t.header
  headerPos : s.headerPos = t.headerPos
  rxCapacity : s.rxCapacity = t.rxCapacity
  rxPos : s.rxPos = t.rxPos
  rxNextZero : s.rxNextZero = t.rxNextZero
  decoded : ∀ index < s.rxPos, s.rxPayload index = t.rxPayload index

/-- Two receivers of which the rest of a stream is received alike: outside a payload neither the
countdown nor the payload buffer matters. -/
structure Similar (s t : Stream) : Prop where
  state : s.state = t.state
  header : s.header = t.header
  headerPos : s.headerPos = t.headerPos
  rxCapacity : s.rxCapacity = t.rxCapacity
  inPayload : s.state = .readPayload → Agree s t

section Agreement

variable {s t : Stream}

theorem Agree.similar (agree : Agree s t) : Similar s t :=
  ⟨agree.state, agree.header, agree.headerPos, agree.rxCapacity, fun _ => agree⟩

theorem Agree.refl (s : Stream) : Agree s s := ⟨rfl, rfl, rfl, rfl, rfl, rfl, fun _ _ => rfl⟩

theorem Agree.reset (agree : Agree s t) : Agree s.reset t.reset :=
  ⟨rfl, agree.header, rfl, agree.rxCapacity, rfl, agree.rxNextZero,
    fun _ impossible => absurd impossible (Nat.not_lt_zero _)⟩

theorem Agree.countdown (agree : Agree s t) {first second : UInt8} (same : first = second) :
    Agree { s with rxNextZero := first } { t with rxNextZero := second } :=
  ⟨agree.state, agree.header, agree.headerPos, agree.rxCapacity, agree.rxPos, same, agree.decoded⟩

theorem Agree.storePayload (agree : Agree s t) (byte : UInt8) :
    Agree (s.storePayload byte) (t.storePayload byte) := by
  refine ⟨agree.state, agree.header, agree.headerPos, agree.rxCapacity,
    congrArg (· + 1) agree.rxPos, agree.rxNextZero, fun index inside => ?_⟩
  show Function.update s.rxPayload s.rxPos byte index =
    Function.update t.rxPayload t.rxPos byte index
  rw [← agree.rxPos]
  by_cases last : index = s.rxPos
  · rw [last, Function.update_self, Function.update_self]
  · rw [Function.update_of_ne last, Function.update_of_ne last]
    exact agree.decoded index (Nat.lt_of_le_of_ne (Nat.le_of_lt_succ inside) last)

theorem Agree.checkByte (agree : Agree s t) (byte : UInt8) :
    Agree (s.checkByte fun _ => byte).1 (t.checkByte fun _ => byte).1 ∧
      (s.checkByte fun _ => byte).2 = (t.checkByte fun _ => byte).2 := by
  unfold Stream.checkByte
  split
  · exact ⟨agree.reset, rfl⟩
  · exact ⟨agree, rfl⟩

theorem Agree.storeByte (agree : Agree s t) (byte : UInt8) :
    Agree (s.storeByte fun _ => byte).1 (t.storeByte fun _ => byte).1 ∧
      (s.storeByte fun _ => byte).2 = (t.storeByte fun _ => byte).2 := by
  unfold Stream.storeByte
  rw [← agree.rxPos, ← agree.rxCapacity, ← agree.rxNextZero]
  split
  · split
    · exact ⟨(agree.storePayload 0).countdown rfl, rfl⟩
    · exact ⟨(agree.storePayload byte).countdown (congrArg (· - 1) agree.rxNextZero), rfl⟩
  · exact ⟨agree.reset, rfl⟩

theorem Agree.deliver (agree : Agree s t) :
    Agree s.deliver.1 t.deliver.1 ∧ s.deliver.2 = t.deliver.2 := by
  unfold Stream.deliver
  rw [← agree.rxPos, ← agree.header]
  split
  case isTrue complete =>
    refine ⟨agree.reset, ?_⟩
    rw [Circular.segment_congr t.rxPayload fun offset inside =>
      agree.decoded _ (by omega)]
  case isFalse => exact ⟨agree, rfl⟩

theorem Agree.readPayload (agree : Agree s t) (byte : UInt8) :
    Agree (s.readPayload fun _ => byte).1 (t.readPayload fun _ => byte).1 ∧
      (s.readPayload fun _ => byte).2 = (t.readPayload fun _ => byte).2 := by
  simp only [Stream.readPayload, ← agree.rxPos, ← agree.header]
  split
  · obtain ⟨checked, checkedEvents⟩ := agree.checkByte byte
    obtain ⟨stored, storedEvents⟩ := checked.storeByte byte
    obtain ⟨delivered, deliveredEvents⟩ := stored.deliver
    exact ⟨delivered, congrArg₂ _ (congrArg₂ _ checkedEvents storedEvents) deliveredEvents⟩
  · exact ⟨agree.deliver.1, congrArg _ agree.deliver.2⟩

theorem Similar.readHeader (similar : Similar s t) (reading : s.state = .readHeader)
    (byte : UInt8) :
    Similar (s.readHeader fun _ => byte).1 (t.readHeader fun _ => byte).1 ∧
      (s.readHeader fun _ => byte).2 = (t.readHeader fun _ => byte).2 := by
  simp only [Stream.readHeader, ← similar.headerPos, ← similar.header]
  split
  · simp only [Stream.checkHeader]
    split
    · exact ⟨Agree.similar ⟨rfl, rfl, rfl, similar.rxCapacity, rfl, rfl,
        fun _ impossible => absurd impossible (Nat.not_lt_zero _)⟩, rfl⟩
    · exact ⟨Agree.similar ⟨rfl, rfl, rfl, similar.rxCapacity, rfl, rfl,
        fun _ impossible => absurd impossible (Nat.not_lt_zero _)⟩, rfl⟩
  · exact ⟨⟨similar.state, rfl, rfl, similar.rxCapacity,
      fun other => State.noConfusion (reading.symm.trans other)⟩, rfl⟩

/-- **One byte**: similar receivers make the same callbacks and stay similar. -/
theorem Similar.processOne (similar : Similar s t) (byte : UInt8) :
    Similar (s.processOne byte).1 (t.processOne byte).1 ∧
      (s.processOne byte).2 = (t.processOne byte).2 := by
  unfold Stream.processOne Stream.processByte
  rw [← similar.state]
  split
  case h_1 hunt =>
    unfold Stream.huntSync
    rw [← similar.header]
    split
    · exact ⟨⟨rfl, rfl, rfl, similar.rxCapacity, fun other => State.noConfusion other⟩, rfl⟩
    · exact ⟨similar, rfl⟩
  case h_2 reading => exact similar.readHeader reading byte
  case h_3 reading =>
    obtain ⟨after, events⟩ := (similar.inPayload reading).readPayload byte
    exact ⟨after.similar, events⟩
  case h_4 => exact ⟨similar, rfl⟩

end Agreement

/-- Nothing is stored beyond the write index. -/
theorem processOne_rxPayload {s : Stream} {i : Nat} (apart : s.state = .readPayload → s.rxPos < i)
    (byte : UInt8) {index : Nat} (beyond : i ≤ index) :
    (s.processOne byte).1.rxPayload index = s.rxPayload index := by
  have delivered : ∀ t : Stream, t.deliver.1.rxPayload = t.rxPayload := by
    intro t
    unfold Stream.deliver
    split <;> rfl
  have stored : ∀ t : Stream, t.rxPos < i →
      (t.storeByte fun _ => byte).1.rxPayload index = t.rxPayload index := by
    intro t position
    have other : index ≠ t.rxPos := by omega
    unfold Stream.storeByte
    split
    · split
      · exact Function.update_of_ne other _ _
      · exact Function.update_of_ne other _ _
    · rfl
  unfold Stream.processOne Stream.processByte
  split
  · unfold Stream.huntSync
    split <;> rfl
  · simp only [Stream.readHeader, Stream.checkHeader]
    split
    · split <;> rfl
    · rfl
  case h_3 reading =>
    simp only [Stream.readPayload]
    rw [delivered]
    split
    · simp only [Stream.takePayload, Stream.checkByte]
      split
      · exact stored s.reset (Nat.zero_lt_of_lt (apart reading))
      · exact stored s (apart reading)
    · rfl
  · rfl

/-- The write index stays behind the read index. -/
theorem processOne_apart {s : Stream} {i : Nat} (apart : s.state = .readPayload → s.rxPos < i)
    (byte : UInt8) (after : (s.processOne byte).1.state = .readPayload) :
    (s.processOne byte).1.rxPos < i + 1 := by
  have stored : ∀ t : Stream, (t.storeByte fun _ => byte).1.rxPos ≤ t.rxPos + 1 := by
    intro t
    unfold Stream.storeByte
    split
    · split <;> exact le_rfl
    · exact Nat.zero_le _
  have delivered : ∀ t : Stream, t.deliver.1.rxPos ≤ t.rxPos := by
    intro t
    unfold Stream.deliver
    split
    · exact Nat.zero_le _
    · exact le_rfl
  revert after
  unfold Stream.processOne Stream.processByte
  split
  case h_1 hunt =>
    unfold Stream.huntSync
    split
    · exact fun other => State.noConfusion other
    · exact fun other => State.noConfusion (hunt.symm.trans other)
  case h_2 reading =>
    simp only [Stream.readHeader]
    split
    · exact fun _ => Nat.succ_pos _
    · exact fun other => State.noConfusion (reading.symm.trans other)
  case h_3 reading =>
    intro _
    simp only [Stream.readPayload]
    apply lt_of_le_of_lt (delivered _)
    split
    · simp only [Stream.takePayload, Stream.checkByte]
      split
      · exact (stored s.reset).trans_lt (Nat.succ_lt_succ (Nat.zero_lt_of_lt (apart reading)))
      · exact (stored s).trans_lt (Nat.succ_lt_succ (apart reading))
    · exact Nat.lt_succ_of_lt (apart reading)
  case h_4 validating => exact fun other => State.noConfusion (validating.symm.trans other)

/-- **Over a read in which the write index trails**, the shared array does what two arrays do. -/
theorem run_processAt_trailing {s t : Stream} (similar : Similar s t) {i : Nat}
    (apart : s.state = .readPayload → s.rxPos < i) {rest : List UInt8}
    (loaded : segment s.rxPayload i rest.length = rest) :
    Similar (EventMachine.run Stream.processAt s (List.range' i rest.length)).1
        (t.process rest).1 ∧
      (EventMachine.run Stream.processAt s (List.range' i rest.length)).2 = (t.process rest).2 := by
  induction rest generalizing s t i with
  | nil => exact ⟨similar, rfl⟩
  | cons byte rest ih =>
    have cells : s.rxPayload i = byte ∧ segment s.rxPayload (i + 1) rest.length = rest := by
      rw [List.length_cons, Nat.add_comm, Circular.segment_add] at loaded
      exact List.cons.inj loaded
    have step : s.processAt i = s.processOne byte := by
      rw [processAt_eq_processOne apart, cells.1]
    obtain ⟨next, events⟩ := similar.processOne byte
    have loadedNext : segment (s.processOne byte).1.rxPayload (i + 1) rest.length = rest := by
      rw [Circular.segment_congr s.rxPayload fun offset _ =>
        processOne_rxPayload apart byte (by omega)]
      exact cells.2
    obtain ⟨final, later⟩ := ih next (fun reading => processOne_apart apart byte reading) loadedNext
    rw [List.length_cons, List.range'_succ, EventMachine.run_cons, process_cons, step]
    exact ⟨final, congrArg₂ _ events later⟩

/-! ### The write index at the read index -/

/-- A payload byte decoded where it stands: a restored zero is read again as the next distance. -/
def Stream.acceptInPlace (s : Stream) : Stream :=
  if s.rxNextZero = 1 then { s.storePayload 0 with rxNextZero := 0 }
  else s.accept (s.rxPayload s.rxPos)

theorem processAt_inPlace {s : Stream} (reading : s.state = .readPayload)
    (inside : s.rxPos < (s.header 2).toNat) (room : s.rxPos < s.rxCapacity)
    (nonzero : s.rxPayload s.rxPos ≠ 0) : s.processAt s.rxPos = s.acceptInPlace.deliver := by
  have checked : (s.checkByte fun t => t.rxPayload s.rxPos) = (s, []) := if_neg nonzero
  have stored : (s.storeByte fun t => t.rxPayload s.rxPos) = (s.acceptInPlace, []) := by
    unfold Stream.storeByte Stream.acceptInPlace Stream.accept
    rw [if_pos room]
    split
    · have restored : (s.storePayload 0).rxPayload s.rxPos = 0 := Function.update_self _ _ _
      simp only [restored]
    · rfl
  simp only [Stream.processAt, Stream.processByte, reading, Stream.readPayload, inside, if_true,
    Stream.takePayload, checked, stored, List.nil_append]

section AcceptInPlace

variable (s : Stream)

@[simp] theorem acceptInPlace_state : s.acceptInPlace.state = s.state := by
  unfold Stream.acceptInPlace; split <;> simp [Stream.storePayload]

@[simp] theorem acceptInPlace_header : s.acceptInPlace.header = s.header := by
  unfold Stream.acceptInPlace; split <;> simp [Stream.storePayload]

@[simp] theorem acceptInPlace_rxCapacity : s.acceptInPlace.rxCapacity = s.rxCapacity := by
  unfold Stream.acceptInPlace; split <;> simp [Stream.storePayload]

@[simp] theorem acceptInPlace_rxPos : s.acceptInPlace.rxPos = s.rxPos + 1 := by
  unfold Stream.acceptInPlace; split <;> simp [Stream.storePayload]

theorem acceptInPlace_rxPayload_of_ne {index : Nat} (other : index ≠ s.rxPos) :
    s.acceptInPlace.rxPayload index = s.rxPayload index := by
  unfold Stream.acceptInPlace Stream.accept
  split
  · exact Function.update_of_ne other _ _
  · exact Function.update_of_ne other _ _

/-- The decoded bytes, one by one, are those of the overwriting decoder. -/
theorem acceptInPlace_overwrite (rest : List UInt8) :
    s.acceptInPlace.rxPayload s.rxPos :: overwrite byteCode s.acceptInPlace.rxNextZero rest =
      overwrite byteCode s.rxNextZero (s.rxPayload s.rxPos :: rest) := by
  have atOne : byteCode.code 1 = 1 := rfl
  unfold Stream.acceptInPlace Stream.accept
  by_cases restore : s.rxNextZero = 1
  · simp only [restore, if_true, overwrite, atOne, Stream.storePayload, Function.update_self,
      byteCode_zero]
  · simp only [restore, if_false, overwrite, atOne, Stream.storePayload, Function.update_self,
      byteCode_next]

end AcceptInPlace

/-- **A payload decoded where it stands** is delivered as the overwriting decoder leaves it. -/
theorem run_processAt_inPlace {s : Stream} (reading : s.state = .readPayload) {rest : List UInt8}
    (some_ : rest ≠ []) (complete : s.rxPos + rest.length = (s.header 2).toNat)
    (room : (s.header 2).toNat ≤ s.rxCapacity)
    (loaded : segment s.rxPayload s.rxPos rest.length = rest)
    (nonzero : ∀ byte ∈ rest, byte ≠ 0) :
    ∃ after : Stream, EventMachine.run Stream.processAt s (List.range' s.rxPos rest.length) =
        (after, [.onFrame (s.header 1)
          (segment s.rxPayload 0 s.rxPos ++ overwrite byteCode s.rxNextZero rest)]) ∧
      after.state = .huntSync ∧ after.header = s.header ∧ after.headerPos = 0 ∧
      after.rxCapacity = s.rxCapacity ∧
      ∀ index, s.rxPos + rest.length ≤ index → after.rxPayload index = s.rxPayload index := by
  induction rest generalizing s with
  | nil => exact absurd rfl some_
  | cons byte rest ih =>
    rw [List.length_cons] at complete
    have cells : s.rxPayload s.rxPos = byte ∧
        segment s.rxPayload (s.rxPos + 1) rest.length = rest := by
      rw [List.length_cons, Nat.add_comm, Circular.segment_add] at loaded
      exact List.cons.inj loaded
    have step := processAt_inPlace reading (by omega) (by omega)
      (by rw [cells.1]; exact nonzero byte List.mem_cons_self)
    have decoded : segment s.acceptInPlace.rxPayload 0 (s.rxPos + 1) =
        segment s.rxPayload 0 s.rxPos ++ [s.acceptInPlace.rxPayload s.rxPos] := by
      rw [Circular.segment_add, Circular.segment_congr s.rxPayload fun offset inside =>
        acceptInPlace_rxPayload_of_ne s (by omega), Nat.zero_add]
      rfl
    have overwritten := acceptInPlace_overwrite s rest
    rw [cells.1] at overwritten
    rw [List.length_cons, List.range'_succ, EventMachine.run_cons, step]
    by_cases last : rest = []
    · subst last
      have delivered := deliver_complete (s := s.acceptInPlace)
        (by rw [acceptInPlace_rxPos, acceptInPlace_header]; exact complete)
      refine ⟨s.acceptInPlace.reset, ?_, rfl, acceptInPlace_header s, rfl,
        acceptInPlace_rxCapacity s, fun index beyond => acceptInPlace_rxPayload_of_ne s ?_⟩
      · rw [delivered, List.length_nil, List.range'_zero, EventMachine.run_nil, List.append_nil,
          Stream.frame, acceptInPlace_header, ← complete, List.length_nil, Nat.zero_add, decoded,
          ← overwritten]
        rfl
      · rw [List.length_nil] at beyond
        omega
    · have more : 0 < rest.length := List.length_pos_iff.mpr last
      rw [deliver_open (by rw [acceptInPlace_rxPos, acceptInPlace_header]; omega)]
      obtain ⟨after, run, hunt, header, position, capacity, kept⟩ := ih (s := s.acceptInPlace)
        (by rw [acceptInPlace_state, reading]) last
        (by rw [acceptInPlace_rxPos, acceptInPlace_header]; omega)
        (by rw [acceptInPlace_header, acceptInPlace_rxCapacity]; exact room)
        (by
          rw [acceptInPlace_rxPos, Circular.segment_congr s.rxPayload fun offset _ =>
            acceptInPlace_rxPayload_of_ne s (by omega)]
          exact cells.2)
        fun other member => nonzero other (List.mem_cons_of_mem _ member)
      rw [acceptInPlace_rxPos] at run kept
      refine ⟨after, ?_, hunt, header.trans (acceptInPlace_header s), position,
        capacity.trans (acceptInPlace_rxCapacity s), fun index beyond => ?_⟩
      · rw [run, decoded, acceptInPlace_header, List.append_assoc, List.singleton_append,
          overwritten, List.nil_append]
      · rw [kept index (by omega), acceptInPlace_rxPayload_of_ne s (by omega)]

/-! ### One pass of the loop -/

theorem segment_load (s : Stream) (bytes : List UInt8) :
    segment (s.load bytes).rxPayload 0 bytes.length = bytes :=
  Circular.segment_store s.rxPayload 0 bytes

theorem Similar.load {s t : Stream} (similar : Similar s t) (outside : s.state ≠ .readPayload)
    (bytes : List UInt8) : Similar (s.load bytes) t :=
  ⟨similar.state, similar.header, similar.headerPos, similar.rxCapacity,
    fun reading => absurd reading outside⟩

/-- **A pass that does not begin inside a payload** does what it does with two arrays. -/
theorem mainLoopPass_trailing {s t : Stream} (similar : Similar s t)
    (outside : s.state ≠ .readPayload) (read : List UInt8) :
    Similar (mainLoopPass s read).1 (t.process read).1 ∧
      (mainLoopPass s read).2 = (t.process read).2 := by
  have run := run_processAt_trailing (similar.load outside read) (i := 0)
    (fun reading => absurd reading outside) (segment_load s read)
  rw [← List.range_eq_range'] at run
  exact run

/-- **A pass that begins right at a payload** and reads all of it delivers what the overwriting
decoder makes of it, and from there on does what it does with two arrays. -/
theorem mainLoopPass_inPlace {s t : Stream} (agree : Agree s t) (reading : t.state = .readPayload)
    (fromStart : t.rxPos = 0) {payload : List UInt8} (rest : List UInt8) (some_ : payload ≠ [])
    (complete : payload.length = (t.header 2).toNat) (room : payload.length ≤ t.rxCapacity)
    (nonzero : ∀ byte ∈ payload, byte ≠ 0) :
    Similar (mainLoopPass s (payload ++ rest)).1 (t.process (payload ++ rest)).1 ∧
      ∃ later, (mainLoopPass s (payload ++ rest)).2 =
          .onFrame (t.header 1) (overwrite byteCode t.rxNextZero payload) :: later ∧
        (t.process (payload ++ rest)).2 = (t.acceptAll payload).frame :: later := by
  have loaded := segment_load s (payload ++ rest)
  rw [List.length_append, Circular.segment_add] at loaded
  obtain ⟨loadedPayload, loadedRest⟩ := List.append_inj loaded (Circular.segment_length _ _ _)
  have position : (s.load (payload ++ rest)).rxPos = 0 := agree.rxPos.trans fromStart
  have header : (s.load (payload ++ rest)).header = t.header := agree.header
  have countdown : (s.load (payload ++ rest)).rxNextZero = t.rxNextZero := agree.rxNextZero
  obtain ⟨after, run, hunt, headerAfter, headerPos, capacity, kept⟩ :=
    run_processAt_inPlace (s := s.load (payload ++ rest)) (agree.state.trans reading) some_
      (by rw [position, header, Nat.zero_add, complete])
      (by rw [header, ← complete]; exact room.trans agree.rxCapacity.ge)
      (by rw [position]; exact loadedPayload) nonzero
  rw [position, header, countdown, Circular.segment_zero, List.nil_append] at run
  rw [position, Nat.zero_add] at kept
  have whole := process_payload_whole reading some_ (by rw [fromStart, Nat.zero_add, complete])
    (by rw [← complete]; exact room) nonzero
  have similar : Similar after (t.acceptAll payload).reset :=
    ⟨hunt, headerAfter.trans agree.header, headerPos, capacity.trans agree.rxCapacity,
      fun other => State.noConfusion (hunt.symm.trans other)⟩
  have restCells : segment after.rxPayload payload.length rest.length = rest := by
    rw [Circular.segment_congr (s.load (payload ++ rest)).rxPayload fun offset _ =>
      kept _ (Nat.le_add_right _ _)]
    rw [Nat.zero_add] at loadedRest
    exact loadedRest
  have tail := run_processAt_trailing similar (i := payload.length)
    (fun other => State.noConfusion (hunt.symm.trans other)) restCells
  have pass : mainLoopPass s (payload ++ rest) =
      EventMachine.run Stream.processAt (s.load (payload ++ rest))
        (List.range' 0 payload.length ++ List.range' payload.length rest.length) := by
    rw [mainLoopPass, Stream.processShared, List.length_append, List.range_eq_range',
      ← List.range'_append_1, Nat.zero_add]
  rw [pass, EventMachine.run_append, run, process_append, whole]
  exact ⟨tail.1, _, congrArg _ tail.2, rfl⟩

end ForgeDrive.Abf
