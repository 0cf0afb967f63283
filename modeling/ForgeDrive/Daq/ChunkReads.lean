/-
**Where the reader reads its chunk.**

`decode` sets a running index `buf_idx` to zero, and `decodeControl`, `decodeResyncDod` and
`decodeSample` read `buf[buf_idx++]`, each loop with a counter of its own (`Reader.reads`). The
values the reader takes are those at these indices (`reads_sample`, `reads_resync`).

`chunkReads_iff`: a call reads inside its chunk unless it accepts a resync block. That block is read
once for its code and then as many times as it has bytes, so the last read is one byte behind it.
-/

import ForgeDrive.Daq.ReaderSteps

namespace ForgeDrive.Daq

open EventMachine (run Along)

/-! ### The running index -/

/-- `buf_idx`, and the indices at which `buf` was read. -/
structure Cursor where
  bufIdx : Nat
  reads : List Nat

/-- `buf[buf_idx++]`. -/
def Cursor.read (c : Cursor) : Cursor := ⟨c.bufIdx + 1, c.reads ++ [c.bufIdx]⟩

/-- A loop over `buf.size()` that reads once in every turn. -/
def Cursor.loop (c : Cursor) (size : Nat) : Cursor :=
  (List.range size).foldl (fun c _ => c.read) c

/-- The reads of `decodeResyncDod`. -/
def Cursor.decodeResyncDod (c : Cursor) (channels : UInt8) (size : Nat) : Cursor :=
  if wellFormed channels size then c.loop size else c

/-- The reads of `decodeControl`. -/
def Cursor.decodeControl (c : Cursor) (channels : UInt8) (bytes : List UInt8) : Cursor :=
  let c := c.read
  if bytes.head? = some resyncDod then c.decodeResyncDod channels bytes.length else c

/-- The indices at which a call of `decode` reads its chunk. -/
def Reader.reads (r : Reader) (call : Call) : List Nat :=
  if call.bytes = [] then []
  else
    let begun := r.begin_ call
    if begun.2.1 then []
    else
      let c : Cursor := ⟨0, []⟩
      match call.type with
      | .control => (c.decodeControl begun.1.channels call.bytes).reads
      | .sample => if begun.1.inSync then (c.loop call.bytes.length).reads else []

/-- The memory that `buf` points to: the chunk, and the byte behind it. -/
def Call.memory (call : Call) (index : Nat) : UInt8 := call.bytes.getD index call.past

/-- A loop reads one contiguous region. -/
theorem loop_eq (c : Cursor) (size : Nat) :
    c.loop size = ⟨c.bufIdx + size, c.reads ++ List.range' c.bufIdx size⟩ := by
  induction size with
  | zero =>
    rw [List.range'_zero, List.append_nil]
    rfl
  | succ size ih =>
    have step : c.loop (size + 1) = (c.loop size).read := by
      rw [Cursor.loop, List.range_succ, List.foldl_append]
      rfl
    have more :
        List.range' c.bufIdx (size + 1) = List.range' c.bufIdx size ++ [c.bufIdx + size] := by
      rw [List.range'_concat, Nat.one_mul]
    rw [step, ih, Cursor.read, more, List.append_assoc, Nat.add_assoc]

/-! ### What a call reads -/

/-- The restart throws: the reader has taken a resync block, and its own block has room for some
channels but not for all. -/
def RestartThrows (r : Reader) : Prop :=
  r.inSync = true ∧ r.state = .sample ∧ 0 < r.block.capacity ∧
    r.block.capacity < r.channels.toNat

theorem begin_thrown_iff (r : Reader) (call : Call) :
    (r.begin_ call).2.1 = true ↔ RestartThrows r := by
  unfold Reader.begin_ RestartThrows
  by_cases restarts : r.inSync = true ∧ r.state = .sample
  · rw [if_pos restarts, and_iff_right restarts.1, and_iff_right restarts.2]
    rcases Nat.eq_zero_or_pos r.block.capacity with zero | positive
    · rw [syncUpdate_zero _ zero]
      exact iff_of_false Bool.false_ne_true (by omega)
    · rcases Nat.lt_or_ge r.block.capacity r.channels.toNat with full | room
      · rw [syncUpdate_throws _ positive full]
        exact iff_of_true rfl ⟨positive, full⟩
      · rw [syncUpdate_room _ positive room]
        exact iff_of_false Bool.false_ne_true (by omega)
  · rw [if_neg restarts]
    exact iff_of_false Bool.false_ne_true fun all => restarts ⟨all.1, all.2.1⟩

section Calls

variable {r : Reader} {call : Call}

theorem reads_empty (empty : call.bytes = []) : r.reads call = [] := if_pos empty

theorem reads_thrown (thrown : RestartThrows r) : r.reads call = [] := by
  unfold Reader.reads
  split
  · rfl
  · exact if_pos ((begin_thrown_iff r call).mpr thrown)

/-- A sample chunk is read from its first byte to its last, or not at all. -/
theorem reads_sample (sample : call.type = .sample) :
    r.reads call = List.range call.bytes.length ∨ r.reads call = [] := by
  unfold Reader.reads
  split
  · exact .inr rfl
  · simp only [sample]
    split
    · exact .inr rfl
    · split
      · rw [loop_eq, List.range_eq_range']
        exact .inl rfl
      · exact .inr rfl

/-- A control chunk is read by `decodeControl` alone, unless the restart throws. -/
theorem reads_decodeControl (control : call.type = .control) (some_ : call.bytes ≠ [])
    (completes : ¬ RestartThrows r) :
    r.reads call = ((⟨0, []⟩ : Cursor).decodeControl r.channels call.bytes).reads := by
  have channels := (begin_frame r call).channels
  unfold Reader.reads
  rw [if_neg some_]
  simp only [control, if_neg fun thrown => completes ((begin_thrown_iff r call).mp thrown),
    channels]

/-- A control chunk that is not accepted as a resync block: its first byte alone is read. -/
theorem reads_control (control : call.type = .control) (some_ : call.bytes ≠ [])
    (completes : ¬ RestartThrows r) (other : resyncs r.channels call = false) :
    r.reads call = [0] := by
  rw [reads_decodeControl control some_ completes]
  simp only [Cursor.decodeControl, Cursor.decodeResyncDod]
  split
  · rename_i code
    rw [if_neg fun wf => by simp [resyncs, control, code, wf] at other]
    rfl
  · rfl

/-- **A resync block that is accepted** is read at every index of it, and once behind it. -/
theorem reads_resync (completes : ¬ RestartThrows r) (accepted : resyncs r.channels call = true) :
    r.reads call = List.range (call.bytes.length + 1) := by
  obtain ⟨control, code, wf⟩ := resyncs_iff.mp accepted
  have some_ : call.bytes ≠ [] := fun none => by simp [none] at code
  rw [reads_decodeControl control some_ completes]
  simp only [Cursor.decodeControl, Cursor.decodeResyncDod, if_pos code, if_pos wf, loop_eq]
  rw [List.range_eq_range', List.range'_succ]
  rfl

end Calls

/-- The samples are the bytes at the indices read. -/
theorem memory_sample (call : Call) :
    (List.range call.bytes.length).map call.memory = call.bytes := by
  apply List.ext_getElem (by simp)
  intro i inside _
  have within : i < call.bytes.length := by simpa using inside
  simp [Call.memory, within]

/-- What `decodeResyncDod` stores are the bytes at the indices read behind the code byte. -/
theorem memory_resync {call : Call} (some_ : call.bytes ≠ []) :
    ((List.range (call.bytes.length + 1)).map call.memory).tail =
      call.bytes.tail ++ [call.past] := by
  obtain ⟨code, rest, split⟩ := List.exists_cons_of_ne_nil some_
  have past : call.memory call.bytes.length = call.past := by
    simp [Call.memory]
  rw [List.range_succ, List.map_append, memory_sample, List.map_singleton, past, split]
  rfl

/-! ### Reads behind the chunk -/

/-- All indices at which the call reads its chunk are inside. -/
def ReadsInside (r : Reader) (call : Call) : Prop :=
  ∀ index ∈ r.reads call, index < call.bytes.length

/-- The call accepts a resync block: it is a control chunk with the code and the size of one, and
the restart before it does not throw. -/
def AcceptsResync (r : Reader) (call : Call) : Prop :=
  resyncs r.channels call = true ∧ ¬ RestartThrows r

/-- **One call** reads inside its chunk exactly if it accepts no resync block. -/
theorem readsInside_iff (r : Reader) (call : Call) :
    ReadsInside r call ↔ ¬ AcceptsResync r call := by
  unfold ReadsInside AcceptsResync
  by_cases empty : call.bytes = []
  · rw [reads_empty empty, (rejected_of_empty r.channels empty).2]
    exact iff_of_true (List.forall_mem_nil _) fun accepts => Bool.false_ne_true accepts.1
  by_cases thrown : RestartThrows r
  · rw [reads_thrown thrown]
    exact iff_of_true (List.forall_mem_nil _) fun accepts => accepts.2 thrown
  have length : 0 < call.bytes.length := List.length_pos_iff.mpr empty
  by_cases accepted : resyncs r.channels call = true
  · rw [reads_resync thrown accepted]
    refine iff_of_false (fun inside => ?_) (not_not_intro ⟨accepted, thrown⟩)
    exact Nat.lt_irrefl _ (inside _ (List.mem_range.mpr (Nat.lt_succ_self _)))
  · refine iff_of_true ?_ fun accepts => accepted accepts.1
    cases kind : call.type with
    | control =>
      rw [reads_control kind empty thrown (eq_false_of_ne_true accepted)]
      intro index member
      rw [List.mem_singleton.mp member]
      exact length
    | sample =>
      rcases reads_sample (r := r) kind with all | none
      · rw [all]
        exact fun index member => List.mem_range.mp member
      · rw [none]
        exact List.forall_mem_nil _

/-- **When the reader stays inside its chunks**: for every reader and every sequence of calls, all
calls read inside their chunks exactly if none of them accepts a resync block. -/
theorem chunkReads_iff (r : Reader) (calls : List Call) :
    Along Reader.decode ReadsInside r calls ↔
      Along Reader.decode (fun r call => ¬ AcceptsResync r call) r calls :=
  EventMachine.along_congr Reader.decode (fun _ => True)
    (fun r call _ => readsInside_iff r call) (fun _ _ _ _ => trivial) trivial calls

/-- The first resync block of a reader with one channel, nine bytes: `buf[9]` is read. -/
theorem chunkReads_fails :
    ¬ ∀ (scratchBuf : Nat → UInt8) (dodBuf : Nat → Int16) (ccs : Nat → ChannelState)
      (ccsSize dodSize capacity : Nat) (calls : List Call),
      Along Reader.decode ReadsInside (.new scratchBuf dodBuf ccs ccsSize dodSize capacity)
        calls := by
  intro always
  have inside := always (fun _ => 0) (fun _ => 0) (fun _ => ⟨0, 0⟩) 1 1 3
    [chunk .control [0xFF, 0, 0, 0, 1, 0, 5, 0, 1]]
  exact absurd (inside.1 9 (by decide +kernel)) (by decide)

end ForgeDrive.Daq
