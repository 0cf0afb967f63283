/-
**How often a block is handed out.**

A block is ready after a FLUSH and after a resync block, and begins again only with the call that
follows a resync block. In between, a FLUSH leaves it as it is, and the next control block makes it
ready once more.

`handedOutOnce_iff`: no block is handed out twice exactly when the first FLUSH that the reader
accepts is the last control block it accepts (or no block ever holds a sample).
-/

import ForgeDrive.Daq.ReaderSteps

namespace ForgeDrive.Daq

open EventMachine (run run_cons)

/-! ### The property -/

/-- **Every block is handed out once**: between two hand-outs of samples the block was restarted. -/
def HandedOutOnce (events : List Event) : Prop :=
  ∀ before first between second after,
    events = before ++ .handedOut first :: (between ++ .handedOut second :: after) →
      first ≠ [] → second ≠ [] → .restarted ∈ between

/-- The block is restarted before samples are handed out. -/
def RestartFirst (events : List Event) : Prop :=
  ∀ before span after, events = before ++ .handedOut span :: after → span ≠ [] →
    .restarted ∈ before

/-- An event that is neither a hand-out nor a restart. -/
def Event.Quiet : Event → Prop
  | .handedOut _ => False
  | .restarted => False
  | _ => True

theorem handedOutOnce_cons (event : Event) (rest : List Event) :
    HandedOutOnce (event :: rest) ↔
      HandedOutOnce rest ∧ ∀ span, event = .handedOut span → span ≠ [] → RestartFirst rest := by
  constructor
  · intro once
    refine ⟨fun before first between second after split => ?_, fun span same some_ => ?_⟩
    · exact once (event :: before) first between second after (by rw [split]; rfl)
    · intro before second after split
      exact once [] span before second after (by rw [same, split]; rfl) some_
  · rintro ⟨once, fresh⟩ before first between second after split firstSome secondSome
    cases before with
    | nil =>
      obtain ⟨same, split⟩ := List.cons.inj split
      exact fresh first same firstSome between second after split secondSome
    | cons head before =>
      obtain ⟨-, split⟩ := List.cons.inj split
      exact once before first between second after split firstSome secondSome

theorem restartFirst_cons (event : Event) (rest : List Event) :
    RestartFirst (event :: rest) ↔ event = .restarted ∨
      (∀ span, event = .handedOut span → span = []) ∧ RestartFirst rest := by
  constructor
  · intro fresh
    by_cases restarted : event = .restarted
    · exact .inl restarted
    · refine .inr ⟨fun span same => ?_, fun before span after split some_ => ?_⟩
      · by_contra some_
        exact absurd (fresh [] span rest (by rw [same]; rfl) some_) List.not_mem_nil
      · have member := fresh (event :: before) span after (by rw [split]; rfl) some_
        exact (List.mem_cons.mp member).resolve_left (Ne.symm restarted)
  · rintro (rfl | ⟨empty, fresh⟩) before span after split some_
    · cases before with
      | nil => exact Event.noConfusion (List.cons.inj split).1
      | cons head before =>
        rw [← (List.cons.inj split).1]
        exact List.mem_cons_self
    · cases before with
      | nil => exact absurd (empty span (List.cons.inj split).1) some_
      | cons head before =>
        exact List.mem_cons_of_mem _ (fresh before span after (List.cons.inj split).2 some_)

theorem handedOutOnce_nil : HandedOutOnce [] := by
  intro before first between second after split
  simp at split

theorem restartFirst_nil : RestartFirst [] := by
  intro before span after split
  simp at split

section Quiet

variable {quiet : List Event} (allQuiet : ∀ event ∈ quiet, event.Quiet) (rest : List Event)
include allQuiet

/-- Quiet events change nothing of either property. -/
theorem handedOutOnce_quiet : HandedOutOnce (quiet ++ rest) ↔ HandedOutOnce rest := by
  induction quiet with
  | nil => exact Iff.rfl
  | cons event more ih =>
    rw [List.forall_mem_cons] at allQuiet
    have plain : ∀ span, event = .handedOut span → span ≠ [] → RestartFirst (more ++ rest) := by
      rintro span rfl
      exact allQuiet.1.elim
    rw [List.cons_append, handedOutOnce_cons, ih allQuiet.2, and_iff_left plain]

theorem restartFirst_quiet : RestartFirst (quiet ++ rest) ↔ RestartFirst rest := by
  induction quiet with
  | nil => exact Iff.rfl
  | cons event more ih =>
    rw [List.forall_mem_cons] at allQuiet
    have plain : event ≠ .restarted := by
      rintro rfl
      exact allQuiet.1
    have empty : ∀ span, event = .handedOut span → span = [] := by
      rintro span rfl
      exact allQuiet.1.elim
    rw [List.cons_append, restartFirst_cons, ih allQuiet.2, or_iff_right plain,
      and_iff_right empty]

end Quiet

theorem handedOutOnce_of_empty {events : List Event}
    (empty : ∀ span, .handedOut span ∈ events → span = []) : HandedOutOnce events := by
  intro before first between second after split firstSome
  exact absurd (empty first (by rw [split]; simp)) firstSome

/-! ### The condition -/

/-- **The first FLUSH behind a resync block is the last control block**: behind it come neither a
FLUSH nor a resync block that is accepted. -/
def FlushIsLast (channels : UInt8) (calls : List Call) : Prop :=
  ∀ call ∈ (calls.after (resyncs channels)).after flushes,
    flushes call = false ∧ resyncs channels call = false

section After

variable {p : Call → Bool} {call : Call}

theorem after_hit (hit : p call = true) (rest : List Call) : (call :: rest).after p = rest := by
  rw [List.after, hit, cond_true]

theorem after_miss (miss : p call = false) (rest : List Call) :
    (call :: rest).after p = rest.after p := by
  rw [List.after, miss, cond_false]

theorem after_subset (calls : List Call) : calls.after p ⊆ calls := by
  induction calls with
  | nil => exact List.Subset.refl _
  | cons call rest ih =>
    cases hit : p call with
    | true => rw [after_hit hit]; exact List.subset_cons_self _ _
    | false => rw [after_miss hit]; exact List.Subset.trans ih (List.subset_cons_self _ _)

end After

/-! ### One call -/

/-- The reader between two calls, with room for a row in its block. -/
structure Between (channels : UInt8) (r : Reader) : Prop where
  positive : 0 < channels.toNat
  room : channels.toNat ≤ r.block.capacity
  channels : r.channels = channels
  ready : r.block.ready = false

/-- Before the first resync block. -/
structure Unsynced (channels : UInt8) (r : Reader) : Prop extends Between channels r where
  inSync : r.inSync = false

/-- Behind a resync block: the next call restarts the block. -/
structure Waiting (channels : UInt8) (r : Reader) : Prop extends Between channels r where
  inSync : r.inSync = true
  state : r.state = .sample

/-- Behind a restart: the block holds samples. -/
structure Live (channels : UInt8) (r : Reader) : Prop extends Between channels r where
  inSync : r.inSync = true
  parsing : r.state ≠ .sample
  some_ : r.block.samples ≠ []

theorem quiet_answer {events : List Event} (answered : ∃ error, events = [.returned error]) :
    ∀ event ∈ events, event.Quiet := by
  obtain ⟨error, rfl⟩ := answered
  intro event member
  rw [List.mem_singleton.mp member]
  trivial

theorem decodeSample_quiet (r : Reader) (bytes : List UInt8) :
    ∀ event ∈ (r.decodeSample bytes).2, event.Quiet := by
  intro event member
  rcases List.mem_append.mp member with emitted | answered
  · obtain ⟨_, byte, _, _, emitted⟩ := (EventMachine.mem_run_iff _ _ _ _).mp emitted
    rw [Reader.decodeByte] at emitted
    rcases tokenStep _ byte with ⟨_, events, _, _⟩ | ⟨_, events, _⟩
    · rw [events] at emitted
      exact absurd emitted List.not_mem_nil
    · rw [events] at emitted
      rw [List.mem_singleton.mp emitted]
      trivial
  · exact quiet_answer ⟨.ok, rfl⟩ event answered

/-- Nothing is handed out after a call that leaves the block not ready. -/
theorem decodeAndGet_of_not_ready {r : Reader} {call : Call}
    (notReady : (r.decode call).1.block.ready = false) : r.decodeAndGet call = r.decode call :=
  if_neg (by rw [notReady]; exact Bool.false_ne_true)

theorem decodeAndGet_of_ready {r : Reader} {call : Call}
    (ready : (r.decode call).1.block.ready = true) :
    r.decodeAndGet call = ((r.decode call).1.getSamples.1,
      (r.decode call).2 ++ [.handedOut (r.decode call).1.block.samples]) := if_pos ready

/-- What a call does before the first resync block. -/
inductive UnsyncedStep (channels : UInt8) (call : Call) (result : Reader × List Event) : Prop
  | stays (rejected : resyncs channels call = false) (unsynced : Unsynced channels result.1)
      (quiet : ∀ event ∈ result.2, event.Quiet)
  | syncs (accepted : resyncs channels call = true) (waiting : Waiting channels result.1)
      (quiet : ∀ event ∈ result.2, event.Quiet)

theorem unsyncedStep {channels : UInt8} {r : Reader} (unsynced : Unsynced channels r)
    (call : Call) : UnsyncedStep channels call (r.decodeAndGet call) := by
  have notReady := unsynced.ready
  by_cases empty : call.bytes = []
  · have same := decode_empty r empty
    rw [decodeAndGet_of_not_ready (by rw [same]; exact notReady), same]
    exact .stays (rejected_of_empty _ empty).2 unsynced (quiet_answer ⟨.ok, rfl⟩)
  · have begun := begin_of_unsynced unsynced.inSync call
    have same := decode_of_begun (r := r) empty (by rw [begun])
    simp only [begun, List.nil_append, Prod.mk.eta] at same
    cases kind : call.type with
    | sample =>
      have answer : r.decodeBody call = (r, [.returned .needSync]) := by
        rw [Reader.decodeBody, kind]
        exact if_neg (by rw [unsynced.inSync]; exact Bool.false_ne_true)
      rw [answer] at same
      rw [decodeAndGet_of_not_ready (by rw [same]; exact notReady), same]
      exact .stays (rejected_of_sample _ kind).2 unsynced (quiet_answer ⟨_, rfl⟩)
    | control =>
      have body : r.decodeBody call = r.decodeControl call := by rw [Reader.decodeBody, kind]
      have quiet := quiet_answer (decodeControl_events r call)
      rw [body] at same
      rcases controlStep r kind with ⟨_, notResync, taken⟩ | ⟨_, isResync, taken⟩ |
        ⟨_, notResync, taken⟩
      case flush =>
        have unchanged : (r.decodeControl call).1 = r := by
          rw [taken, Reader.decodeFlush, if_neg (by rw [unsynced.inSync]; exact Bool.false_ne_true)]
        rw [decodeAndGet_of_not_ready (by rw [same, unchanged]; exact notReady), same]
        exact .stays (by rw [← unsynced.channels]; exact notResync)
          (by rw [unchanged]; exact unsynced) quiet
      case resync =>
        have wf := (resyncs_iff.mp isResync).2.2
        have result : (r.decodeControl call).1 =
            { r with
              scratchBuf := Circular.store r.scratchBuf 0 (call.bytes.tail ++ [call.past])
              block := { r.block with ready := false }
              inSync := true
              state := .sample } := by
          rw [taken, Reader.decodeResyncDod, if_pos wf, unsynced.inSync, notReady]
          rfl
        rw [decodeAndGet_of_not_ready (by rw [same, result]), same]
        exact .syncs (by rw [← unsynced.channels]; exact isResync)
          (by rw [result]
              exact ⟨⟨unsynced.positive, unsynced.room, unsynced.channels, rfl⟩, rfl, rfl⟩) quiet
      case rejected =>
        rw [decodeAndGet_of_not_ready (by rw [same, taken]; exact notReady), same]
        exact .stays (by rw [← unsynced.channels]; exact notResync)
          (by rw [taken]; exact unsynced) quiet

/-- What a call does behind a restart. -/
inductive LiveStep (channels : UInt8) (call : Call) (result : Reader × List Event) : Prop
  | stays (notFlush : flushes call = false) (notResync : resyncs channels call = false)
      (live : Live channels result.1) (quiet : ∀ event ∈ result.2, event.Quiet)
  | flushed (isFlush : flushes call = true) (live : Live channels result.1) (quiet : List Event)
      (span : List Int16) (some_ : span ≠ []) (allQuiet : ∀ event ∈ quiet, event.Quiet)
      (events : result.2 = quiet ++ [.handedOut span])
  | resynced (notFlush : flushes call = false) (isResync : resyncs channels call = true)
      (waiting : Waiting channels result.1) (quiet : List Event) (span : List Int16)
      (some_ : span ≠ []) (allQuiet : ∀ event ∈ quiet, event.Quiet)
      (events : result.2 = quiet ++ [.handedOut span])

/-- Sample bytes keep the reader within its block. -/
theorem Live.decodeSample {channels : UInt8} {r : Reader} (live : Live channels r)
    (bytes : List UInt8) : Live channels (r.decodeSample bytes).1 := by
  have frame := decodeSample_frame r bytes
  refine ⟨⟨live.positive, ?_, ?_, ?_⟩, ?_, ?_, ?_⟩
  · rw [frame.capacity]
    exact live.room
  · rw [frame.channels, live.channels]
  · rw [frame.ready, live.ready]
  · rw [frame.inSync, live.inSync]
  · rw [Ne, frame.parsing]
    exact live.parsing
  · intro none_
    have shorter := frame.samples
    rw [none_, List.prefix_nil] at shorter
    exact live.some_ shorter

/-- A control chunk: a FLUSH, a resync block, or neither. -/
theorem liveStep_control {channels : UInt8} {r : Reader} (live : Live channels r) {call : Call}
    (kind : call.type = .control) (same : r.decode call = r.decodeControl call) :
    LiveStep channels call (r.decodeAndGet call) := by
  have quiet := quiet_answer (decodeControl_events r call)
  have channelsEq := live.channels
  rcases controlStep r kind with ⟨isFlush, _, taken⟩ | ⟨notFlush, isResync, taken⟩ |
    ⟨notFlush, notResync, taken⟩
  case flush =>
    have result : (r.decodeControl call).1 =
        { r with block := { r.block with ready := true } } := by
      rw [taken, Reader.decodeFlush, if_pos live.inSync]
    rw [decodeAndGet_of_ready (by rw [same, result]), same]
    refine .flushed isFlush ?_ _ _ ?_ quiet rfl
    · rw [result]
      exact ⟨⟨live.positive, live.room, channelsEq, rfl⟩, live.inSync, live.parsing, live.some_⟩
    · rw [result]
      exact live.some_
  case resync =>
    have wf := (resyncs_iff.mp isResync).2.2
    have result : (r.decodeControl call).1 =
        { r with
          scratchBuf := Circular.store r.scratchBuf 0 (call.bytes.tail ++ [call.past])
          block := { r.block with ready := true }
          inSync := true
          state := .sample } := by
      rw [taken, Reader.decodeResyncDod, if_pos wf, live.inSync]
      rfl
    rw [decodeAndGet_of_ready (by rw [same, result]), same]
    refine .resynced notFlush (by rw [← channelsEq]; exact isResync) ?_ _ _ ?_ quiet rfl
    · rw [result]
      exact ⟨⟨live.positive, live.room, channelsEq, rfl⟩, rfl, rfl⟩
    · rw [result]
      exact live.some_
  case rejected =>
    rw [decodeAndGet_of_not_ready (by rw [same, taken]; exact live.ready), same]
    exact .stays notFlush (by rw [← channelsEq]; exact notResync) (by rw [taken]; exact live) quiet

theorem liveStep {channels : UInt8} {r : Reader} (live : Live channels r) (call : Call) :
    LiveStep channels call (r.decodeAndGet call) := by
  by_cases empty : call.bytes = []
  · have same := decode_empty r empty
    have rejected := rejected_of_empty channels empty
    rw [decodeAndGet_of_not_ready (by rw [same]; exact live.ready), same]
    exact .stays rejected.1 rejected.2 live (quiet_answer ⟨.ok, rfl⟩)
  · have begun := begin_of_parsing live.parsing call
    have same := decode_of_begun (r := r) empty (by rw [begun])
    simp only [begun, List.nil_append, Prod.mk.eta] at same
    cases kind : call.type with
    | sample =>
      have body : r.decodeBody call = r.decodeSample call.bytes := by
        rw [Reader.decodeBody, kind]
        exact if_pos live.inSync
      have next := live.decodeSample call.bytes
      have rejected := rejected_of_sample channels kind
      rw [body] at same
      rw [decodeAndGet_of_not_ready (by rw [same]; exact next.ready), same]
      exact .stays rejected.1 rejected.2 next (decodeSample_quiet r call.bytes)
    | control =>
      have body : r.decodeBody call = r.decodeControl call := by rw [Reader.decodeBody, kind]
      exact liveStep_control live kind (same.trans body)

/-- **Behind a resync block**, a call restarts the block and goes on as behind the restart. -/
theorem waitingStep {channels : UInt8} {r : Reader} (waiting : Waiting channels r) {call : Call}
    (some_ : call.bytes ≠ []) : ∃ restarted, Live channels restarted ∧
      r.decodeAndGet call = ((restarted.decodeAndGet call).1,
        .restarted :: (restarted.decodeAndGet call).2) := by
  have positive := lt_of_lt_of_le waiting.positive waiting.room
  have begun : r.begin_ call = r.syncUpdate call.beyond := if_pos ⟨waiting.inSync, waiting.state⟩
  rw [syncUpdate_room call.beyond positive (by rw [waiting.channels]; exact waiting.room)] at begun
  have live : Live channels (r.begin_ call).1 := by
    rw [begun]
    refine ⟨⟨waiting.positive, waiting.room, waiting.channels, rfl⟩, waiting.inSync,
      ReaderState.noConfusion, ?_⟩
    have length := syncSamples_length r call.beyond r.channels.toNat
    rw [waiting.channels] at length
    show r.syncSamples call.beyond r.channels.toNat ≠ []
    rw [waiting.channels, ← List.length_pos_iff, length]
    exact waiting.positive
  have again := begin_of_parsing live.parsing call
  have first := decode_of_begun (r := r) some_ (by rw [begun])
  have second := decode_of_begun (r := (r.begin_ call).1) some_ (by rw [again])
  rw [again, List.nil_append] at second
  rw [show (r.begin_ call).2.2 = [.restarted] by rw [begun]] at first
  have same : r.decode call = (((r.begin_ call).1.decode call).1,
      .restarted :: ((r.begin_ call).1.decode call).2) := by
    rw [first, second]
    rfl
  refine ⟨(r.begin_ call).1, live, ?_⟩
  simp only [Reader.decodeAndGet, same]
  split
  · rfl
  · rfl

/-! ### Every run -/

/-- The events of a session of calls. -/
def Reader.session (r : Reader) (calls : List Call) : List Event :=
  (run Reader.decodeAndGet r calls).2

theorem session_cons (r : Reader) (call : Call) (rest : List Call) :
    r.session (call :: rest) =
      (r.decodeAndGet call).2 ++ (r.decodeAndGet call).1.session rest := rfl

/-- Samples handed out at the end of a call. -/
theorem once_handed {quiet : List Event} (allQuiet : ∀ event ∈ quiet, event.Quiet)
    {span : List Int16} (some_ : span ≠ []) (rest : List Event) :
    HandedOutOnce (quiet ++ [.handedOut span] ++ rest) ↔
      HandedOutOnce rest ∧ RestartFirst rest := by
  rw [List.append_assoc, handedOutOnce_quiet allQuiet, List.singleton_append, handedOutOnce_cons]
  refine and_congr_right fun _ =>
    ⟨fun fresh => fresh span rfl some_, fun fresh other same _ => fresh⟩

theorem not_fresh_handed {quiet : List Event} (allQuiet : ∀ event ∈ quiet, event.Quiet)
    {span : List Int16} (some_ : span ≠ []) (rest : List Event) :
    ¬ RestartFirst (quiet ++ [.handedOut span] ++ rest) := by
  rw [List.append_assoc, restartFirst_quiet allQuiet, List.singleton_append, restartFirst_cons]
  rintro (other | ⟨empty, -⟩)
  · exact Event.noConfusion other
  · exact some_ (empty span rfl)

/-- **Behind a hand-out without a restart**: nothing more is handed out exactly when no control
block is accepted. -/
theorem live_fresh_iff {channels : UInt8} {r : Reader} (live : Live channels r)
    (calls : List Call) : RestartFirst (r.session calls) ↔
      ∀ call ∈ calls, flushes call = false ∧ resyncs channels call = false := by
  induction calls generalizing r with
  | nil => exact ⟨fun _ _ member => absurd member List.not_mem_nil, fun _ => restartFirst_nil⟩
  | cons call rest ih =>
    rw [session_cons, List.forall_mem_cons]
    rcases liveStep live call with ⟨notFlush, notResync, live, quiet⟩ |
      ⟨isFlush, _, quiet, span, some_, allQuiet, events⟩ |
      ⟨_, isResync, _, quiet, span, some_, allQuiet, events⟩
    case stays =>
      rw [restartFirst_quiet quiet, ih live]
      exact (and_iff_right ⟨notFlush, notResync⟩).symm
    case flushed =>
      rw [events]
      apply iff_of_false (not_fresh_handed allQuiet some_ _)
      intro both
      exact Bool.false_ne_true (both.1.1.symm.trans isFlush)
    case resynced =>
      rw [events]
      apply iff_of_false (not_fresh_handed allQuiet some_ _)
      intro both
      exact Bool.false_ne_true (both.1.2.symm.trans isResync)

/-- Behind a resync block, the restart comes first. -/
theorem waiting_fresh {channels : UInt8} {r : Reader} (waiting : Waiting channels r)
    (calls : List Call) : RestartFirst (r.session calls) := by
  induction calls with
  | nil => exact restartFirst_nil
  | cons call rest ih =>
    rw [session_cons]
    by_cases empty : call.bytes = []
    · have same := decode_empty r empty
      rw [decodeAndGet_of_not_ready (by rw [same]; exact waiting.ready), same,
        restartFirst_quiet (quiet_answer ⟨_, rfl⟩)]
      exact ih
    · obtain ⟨restarted, _, same⟩ := waitingStep waiting empty
      rw [same, List.cons_append, restartFirst_cons]
      exact .inl rfl

/-- A call that takes a step behind a restart, by what follows it. -/
theorem live_once_cons {channels : UInt8} {r : Reader} (live : Live channels r) {call : Call}
    {rest : List Call}
    (ih : ∀ {r : Reader}, Live channels r ∨ Waiting channels r →
      (HandedOutOnce (r.session rest) ↔ ∀ other ∈ rest.after flushes,
        flushes other = false ∧ resyncs channels other = false)) :
    HandedOutOnce (r.session (call :: rest)) ↔
      ∀ other ∈ (call :: rest).after flushes,
        flushes other = false ∧ resyncs channels other = false := by
  rw [session_cons]
  rcases liveStep live call with ⟨notFlush, _, live, quiet⟩ |
    ⟨isFlush, live, quiet, span, some_, allQuiet, events⟩ |
    ⟨notFlush, _, waiting, quiet, span, some_, allQuiet, events⟩
  case stays =>
    rw [handedOutOnce_quiet quiet, ih (.inl live), after_miss notFlush]
  case flushed =>
    rw [events, once_handed allQuiet some_, ih (.inl live), live_fresh_iff live,
      after_hit isFlush]
    refine and_iff_right_of_imp fun none_ other member => none_ other ?_
    exact after_subset rest member
  case resynced =>
    rw [events, once_handed allQuiet some_, ih (.inr waiting),
      and_iff_left (waiting_fresh waiting rest),
      after_miss notFlush]

/-- **Behind the first resync block**, the first FLUSH has to be the last control block. -/
theorem synced_once_iff {channels : UInt8} {r : Reader}
    (synced : Live channels r ∨ Waiting channels r) (calls : List Call) :
    HandedOutOnce (r.session calls) ↔ ∀ other ∈ calls.after flushes,
      flushes other = false ∧ resyncs channels other = false := by
  induction calls generalizing r with
  | nil => exact ⟨fun _ _ member => absurd member List.not_mem_nil, fun _ => handedOutOnce_nil⟩
  | cons call rest ih =>
    rcases synced with live | waiting
    · exact live_once_cons live ih
    · by_cases empty : call.bytes = []
      · have same := decode_empty r empty
        rw [session_cons, decodeAndGet_of_not_ready (by rw [same]; exact waiting.ready), same,
          handedOutOnce_quiet (quiet_answer ⟨_, rfl⟩), ih (.inr waiting),
          after_miss (rejected_of_empty channels empty).1]
      · obtain ⟨restarted, live, same⟩ := waitingStep waiting empty
        have split : r.session (call :: rest) = .restarted :: restarted.session (call :: rest) := by
          rw [session_cons, session_cons, same, List.cons_append]
        rw [split, handedOutOnce_cons, live_once_cons live ih]
        exact and_iff_left fun span other => Event.noConfusion other

theorem unsynced_once_iff {channels : UInt8} {r : Reader} (unsynced : Unsynced channels r)
    (calls : List Call) : HandedOutOnce (r.session calls) ↔ FlushIsLast channels calls := by
  unfold FlushIsLast
  induction calls generalizing r with
  | nil => exact ⟨fun _ _ member => absurd member List.not_mem_nil, fun _ => handedOutOnce_nil⟩
  | cons call rest ih =>
    rw [session_cons]
    rcases unsyncedStep unsynced call with ⟨rejected, unsynced, quiet⟩ | ⟨accepted, waiting, quiet⟩
    · rw [handedOutOnce_quiet quiet, ih unsynced,
        after_miss rejected]
    · rw [handedOutOnce_quiet quiet, synced_once_iff (.inr waiting),
        after_hit accepted]

/-! ### Blocks that never hold a row -/

/-- What is handed out at the end of a call is what the block holds, if it is ready. -/
theorem handedOut_mem {r : Reader} {call : Call} {span : List Int16}
    (member : .handedOut span ∈ (r.decodeAndGet call).2) :
    (r.decode call).1.block.ready = true ∧ span = (r.decode call).1.block.samples := by
  have quietBody : ∀ s : Reader, .handedOut span ∉ (s.decodeBody call).2 := by
    intro s inside
    unfold Reader.decodeBody at inside
    split at inside
    · exact quiet_answer (decodeControl_events s call) _ inside
    · split at inside
      · exact decodeSample_quiet s _ _ inside
      · exact quiet_answer ⟨_, rfl⟩ _ inside
  have quietBegin : .handedOut span ∉ (r.begin_ call).2.2 := by
    rcases begin_events r call with none_ | restarted
    · rw [none_]
      exact List.not_mem_nil
    · rw [restarted]
      simp
  have quiet : .handedOut span ∉ (r.decode call).2 := by
    by_cases empty : call.bytes = []
    · rw [decode_empty r empty]
      simp
    · by_cases thrown : (r.begin_ call).2.1 = true
      · rw [decode_of_thrown empty thrown]
        simp [quietBegin]
      · rw [decode_of_begun empty (eq_false_of_ne_true thrown)]
        simp [quietBegin, quietBody]
  by_cases ready : (r.decode call).1.block.ready = true
  · rw [decodeAndGet_of_ready ready] at member
    have last := (List.mem_append.mp member).resolve_left quiet
    exact ⟨ready, (Event.handedOut.inj (List.mem_singleton.mp last))⟩
  · rw [decodeAndGet_of_not_ready (eq_false_of_ne_true ready)] at member
    exact absurd member quiet

/-- `getSamples` changes the ready flag only. -/
theorem decodeAndGet_state (r : Reader) (call : Call) :
    (r.decodeAndGet call).1 =
      { (r.decode call).1 with block := { (r.decode call).1.block with ready := false } } := by
  by_cases ready : (r.decode call).1.block.ready = true
  · rw [decodeAndGet_of_ready ready]
    rfl
  · have notReady := eq_false_of_ne_true ready
    rw [decodeAndGet_of_not_ready notReady, ← notReady]

/-- **A session in which no call hands out samples.** -/
theorem once_of_invariant (Invariant : Reader → Prop)
    (preserved : ∀ r call, Invariant r → Invariant (r.decodeAndGet call).1)
    (empty : ∀ r call, Invariant r → (r.decode call).1.block.ready = true →
      (r.decode call).1.block.samples = [])
    {r : Reader} (holds : Invariant r) (calls : List Call) : HandedOutOnce (r.session calls) := by
  apply handedOutOnce_of_empty
  intro span member
  obtain ⟨before, call, _, _, emitted⟩ := (EventMachine.mem_run_iff _ _ _ _).mp member
  have inside := EventMachine.run_invariant _ Invariant preserved holds before
  obtain ⟨ready, same⟩ := handedOut_mem emitted
  rw [same, empty _ call inside ready]

/-- Rows without samples, or a block without places. -/
structure Hollow (r : Reader) : Prop where
  samples : r.block.samples = []
  size : r.channels.toNat = 0 ∨ r.block.capacity = 0

theorem decodeByte_hollow {r : Reader} (hollow : Hollow r) (byte : UInt8) :
    Hollow (r.decodeByte byte).1 := by
  have frame := decodeToken_frame r byte
  have token : Hollow (r.decodeToken byte).1 :=
    ⟨by rw [frame.block]; exact hollow.samples,
      by rw [frame.channels, frame.block]; exact hollow.size⟩
  by_cases last : (r.decodeToken byte).1.currentChannel = r.channels
  · rcases Nat.lt_or_ge r.block.available r.channels.toNat with full | room
    · rw [decodeByte_full last full]
      exact token
    · have zero : (r.decodeToken byte).1.channels.toNat = 0 := by
        rcases hollow.size with zero | zero
        · rw [frame.channels, zero]
        · rw [SampleBlock.available, zero] at room
          rw [frame.channels]
          omega
      rw [decodeByte_room last room]
      refine ⟨?_, token.size⟩
      show (r.decodeToken byte).1.block.samples ++
        (r.decodeToken byte).1.row (r.decodeToken byte).1.channels.toNat = []
      rw [token.samples, zero]
      rfl
  · rw [decodeByte_more last]
    exact token

theorem begin_hollow {r : Reader} (hollow : Hollow r) (call : Call) :
    Hollow (r.begin_ call).1 := by
  unfold Reader.begin_
  split
  · rcases Nat.eq_zero_or_pos r.block.capacity with zero | positive
    · rw [syncUpdate_zero _ zero]
      exact ⟨rfl, .inr zero⟩
    · have zero := hollow.size.resolve_right (Nat.ne_of_gt positive)
      rw [syncUpdate_room _ positive (by omega), zero]
      exact ⟨rfl, .inl zero⟩
  · exact hollow

theorem decode_hollow {r : Reader} (hollow : Hollow r) (call : Call) :
    Hollow (r.decode call).1 := by
  have begun := begin_hollow hollow call
  by_cases empty : call.bytes = []
  · rw [decode_empty r empty]
    exact hollow
  · by_cases thrown : (r.begin_ call).2.1 = true
    · rw [decode_of_thrown empty thrown]
      exact begun
    · rw [decode_of_begun empty (eq_false_of_ne_true thrown)]
      unfold Reader.decodeBody
      split
      · have frame := decodeControl_frame (r.begin_ call).1 call
        exact ⟨by rw [frame.samples]; exact begun.samples,
          by rw [frame.channels, frame.capacity]; exact begun.size⟩
      · split
        · exact EventMachine.run_invariant _ Hollow
            (fun _ byte inside => decodeByte_hollow inside byte) begun call.bytes
        · exact begun

/-! ### The result -/

/-- **A block is handed out once exactly when the first FLUSH is the last control block.** For every
reader and every sequence of calls: between two hand-outs of samples the block was restarted, if and
only if behind the first accepted FLUSH no control block is accepted, or the reader has no channels
or its block no room for one row. -/
theorem handedOutOnce_iff (scratchBuf : Nat → UInt8) (dodBuf : Nat → Int16)
    (ccs : Nat → ChannelState) (ccsSize dodSize capacity : Nat) (calls : List Call) :
    HandedOutOnce ((Reader.new scratchBuf dodBuf ccs ccsSize dodSize capacity).session calls) ↔
      FlushIsLast (Reader.new scratchBuf dodBuf ccs ccsSize dodSize capacity).channels calls ∨
        (Reader.new scratchBuf dodBuf ccs ccsSize dodSize capacity).channels.toNat = 0 ∨
        capacity < (Reader.new scratchBuf dodBuf ccs ccsSize dodSize capacity).channels.toNat := by
  generalize fresh : Reader.new scratchBuf dodBuf ccs ccsSize dodSize capacity = r
  have ready : r.block.ready = false := by rw [← fresh]; rfl
  have inSync : r.inSync = false := by rw [← fresh]; rfl
  have samples : r.block.samples = [] := by rw [← fresh]; rfl
  have size : r.block.capacity = capacity := by rw [← fresh]; rfl
  by_cases hollow : r.channels.toNat = 0 ∨ capacity = 0
  · refine iff_of_true ?_ (.inr (by omega))
    refine once_of_invariant Hollow (fun r call inside => ?_)
      (fun r call inside _ => (decode_hollow inside call).samples)
      ⟨samples, by rw [size]; exact hollow⟩
      calls
    rw [decodeAndGet_state]
    exact ⟨(decode_hollow inside call).samples, (decode_hollow inside call).size⟩
  · by_cases full : capacity < r.channels.toNat
    · refine iff_of_true ?_ (.inr (.inr full))
      refine once_of_invariant Blocked (fun r call inside => ?_)
        (fun r call inside ready => ?_) ⟨ready, by omega, by omega, .inl inSync⟩ calls
      · have after := decode_blocked inside call
        rw [decodeAndGet_state]
        exact ⟨rfl, after.positive, after.full, after.state⟩
      · exact absurd ((decode_blocked inside call).ready.symm.trans ready) Bool.false_ne_true
    · have unsynced : Unsynced r.channels r := ⟨⟨by omega, by omega, rfl, ready⟩, inSync⟩
      rw [unsynced_once_iff unsynced, or_iff_left (by omega)]

/-- **Two FLUSHes**: one channel, four samples. A resync block, one row, and two FLUSHes hand out
the two samples twice. -/
theorem handedOutOnce_fails :
    ¬ ∀ (scratchBuf : Nat → UInt8) (dodBuf : Nat → Int16) (ccs : Nat → ChannelState)
      (calls : List Call),
      HandedOutOnce ((Reader.new scratchBuf dodBuf ccs 1 1 4).session calls) := by
  intro once
  have run := once (fun _ => 0) (fun _ => 0) (fun _ => ⟨0, 0⟩)
    [chunk .control [0xFF, 0, 0, 0, 1, 0, 5, 0, 1], chunk .sample [2], chunk .control [0xFE],
      chunk .control [0xFE]]
    [.returned .ok, .restarted, .dodWrite 0, .returned .ok, .returned .ok] [5, 7]
    [.returned .ok] [5, 7] [] (by decide +kernel) (by decide) (by decide)
  exact absurd run (by decide)

end ForgeDrive.Daq
