/-
**The writer's rings as a queue of sample bytes and control blocks.**

The stream ring holds the bytes of a queue of items, the mark ring the places of the control blocks
in it (`Holds`). Against the queue:

* `Holds.samples`, `Holds.control` — the writer appends sample bytes, or a control block;
* `readNext_spec` — `readNext` takes a control block from the front of the queue, or sample bytes
  up to the next one, and nothing only from an empty queue.
-/

import ForgeDrive.Daq.Writer

namespace ForgeDrive.Daq

open Circular (segment store)
open El (RingFast)

/-! ### Items -/

/-- What is in the stream: a byte of a row, or a control block. -/
inductive Item
  | sample (byte : UInt8)
  | control (bytes : List UInt8)

/-- The bytes of an item. -/
def Item.bytes : Item → List UInt8
  | .sample byte => [byte]
  | .control bytes => bytes

/-- The marks of the control blocks, in a stream that begins at `start`. -/
def marksOf (capacity : Nat) : Nat → List Item → List ControlMark
  | _, [] => []
  | start, .sample _ :: rest => marksOf capacity (start + 1) rest
  | start, .control bytes :: rest =>
    ⟨UInt16.ofNat (start % capacity), UInt8.ofNat bytes.length⟩ ::
      marksOf capacity (start + bytes.length) rest

/-- The control blocks among the items, each with the offset of its first byte. -/
def blocksFrom : Nat → List Item → List (Nat × List UInt8)
  | _, [] => []
  | start, .sample _ :: rest => blocksFrom (start + 1) rest
  | start, .control bytes :: rest => (start, bytes) :: blocksFrom (start + bytes.length) rest

/-- The mark of a control block: the index of its first byte, and its size. -/
def blockMark (capacity : Nat) (block : Nat × List UInt8) : ControlMark :=
  ⟨UInt16.ofNat (block.1 % capacity), UInt8.ofNat block.2.length⟩

theorem bytes_samples (bytes : List UInt8) :
    (bytes.map Item.sample).flatMap Item.bytes = bytes := by
  induction bytes with
  | nil => rfl
  | cons byte rest ih => rw [List.map_cons, List.flatMap_cons, ih]; rfl

/-- Items that have bytes and together have none are none. -/
theorem items_eq_nil {items : List Item} (some_ : ∀ item ∈ items, item.bytes ≠ [])
    (none_ : (items.flatMap Item.bytes).length = 0) : items = [] :=
  List.eq_nil_iff_forall_not_mem.mpr fun item member => some_ item member
    (List.flatMap_eq_nil_iff.mp (List.eq_nil_of_length_eq_zero none_) item member)

section MarksOf

variable (capacity start : Nat)

theorem marksOf_blocks (items : List Item) :
    marksOf capacity start items = (blocksFrom start items).map (blockMark capacity) := by
  induction items generalizing start with
  | nil => rfl
  | cons item rest ih =>
    cases item with
    | sample byte => exact ih (start + 1)
    | control bytes =>
      rw [marksOf, blocksFrom, List.map_cons, ih]
      rfl

theorem blocksFrom_append (first second : List Item) :
    blocksFrom start (first ++ second) =
      blocksFrom start first ++ blocksFrom (start + (first.flatMap Item.bytes).length) second := by
  induction first generalizing start with
  | nil => rfl
  | cons item rest ih =>
    rw [List.flatMap_cons, List.length_append, ← Nat.add_assoc]
    cases item with
    | sample byte => exact ih (start + 1)
    | control bytes =>
      rw [List.cons_append, blocksFrom, blocksFrom, ih (start + bytes.length)]
      rfl

theorem marksOf_append (first second : List Item) :
    marksOf capacity start (first ++ second) =
      marksOf capacity start first ++
        marksOf capacity (start + (first.flatMap Item.bytes).length) second := by
  rw [marksOf_blocks, marksOf_blocks, marksOf_blocks, blocksFrom_append, List.map_append]

theorem marksOf_samples (bytes : List UInt8) : marksOf capacity start (bytes.map .sample) = [] := by
  induction bytes generalizing start with
  | nil => rfl
  | cons byte rest ih => exact ih (start + 1)

/-- Only the place in the ring counts. -/
theorem marksOf_mod (queue : List Item) :
    marksOf capacity (start % capacity) queue = marksOf capacity start queue := by
  have shift : ∀ (queue : List Item) {first second : Nat}, first % capacity = second % capacity →
      marksOf capacity first queue = marksOf capacity second queue := by
    intro queue
    induction queue with
    | nil => exact fun _ => rfl
    | cons item rest ih =>
      intro first second same
      cases item with
      | sample byte => exact ih (Nat.ModEq.add_right 1 same)
      | control bytes => rw [marksOf, marksOf, same, ih (Nat.ModEq.add_right bytes.length same)]
  exact shift queue (Nat.mod_mod _ _)

theorem marksOf_length_le {queue : List Item}
    (some_ : ∀ bytes, .control bytes ∈ queue → bytes ≠ []) :
    (marksOf capacity start queue).length ≤ (queue.flatMap Item.bytes).length := by
  induction queue generalizing start with
  | nil => exact le_rfl
  | cons item rest ih =>
    have later := fun bytes member => some_ bytes (List.mem_cons_of_mem _ member)
    rw [List.flatMap_cons, List.length_append]
    cases item with
    | sample byte => exact (ih (start + 1) later).trans (Nat.le_add_left _ _)
    | control bytes =>
      have positive := List.length_pos_iff.mpr (some_ bytes List.mem_cons_self)
      have rest := ih (start + bytes.length) later
      rw [marksOf, List.length_cons]
      show _ ≤ bytes.length + _
      omega

end MarksOf

/-! ### The rings hold a queue -/

/-- The rings of the writer hold the queue. -/
structure Holds (stream : RingFast UInt8) (marks : RingFast ControlMark) (queue : List Item) :
    Prop where
  valid : stream.Valid
  validMarks : marks.Valid
  slots : stream.capacity_.toNat ≤ marks.capacity_.toNat
  contents : stream.contents = queue.flatMap Item.bytes
  markContents : marks.contents = marksOf stream.capacity_.toNat stream.tail_.toNat queue
  some_ : ∀ bytes, .control bytes ∈ queue → bytes ≠ []
  short : ∀ bytes, .control bytes ∈ queue → bytes.length < 256

namespace Holds

variable {stream : RingFast UInt8} {marks : RingFast ControlMark} {queue : List Item}

theorem size (holds : Holds stream marks queue) :
    stream.size.toNat = (queue.flatMap Item.bytes).length := by
  rw [← holds.contents, RingFast.contents_length]

/-- Every item of the queue has bytes. -/
theorem item_some (holds : Holds stream marks queue) : ∀ item ∈ queue, item.bytes ≠ [] := by
  intro item member
  cases item with
  | sample byte => exact List.cons_ne_nil _ _
  | control block => exact holds.some_ block member

/-- The head is where the queue ends. -/
theorem head_place (holds : Holds stream marks queue) : stream.head = UInt16.ofNat
    ((stream.tail_.toNat + (queue.flatMap Item.bytes).length) % stream.capacity_.toNat) := by
  rw [← holds.size, ← RingFast.head_eq holds.valid, UInt16.ofNat_toNat]
  rfl

/-- **Sample bytes** are appended. -/
theorem samples (holds : Holds stream marks queue) {bytes : List UInt8}
    (room : stream.size.toNat + bytes.length < stream.capacity_.toNat) :
    Holds (stream.pushAll bytes) marks (queue ++ bytes.map .sample) := by
  obtain ⟨valid, contents, tail, capacity⟩ := RingFast.pushAll_spec holds.valid room
  have none_ : ∀ block, .control block ∉ bytes.map Item.sample := by
    intro block member
    obtain ⟨byte, -, other⟩ := List.mem_map.mp member
    exact Item.noConfusion other
  refine ⟨valid, holds.validMarks, by rw [capacity]; exact holds.slots, ?_, ?_, ?_, ?_⟩
  · rw [contents, List.flatMap_append, bytes_samples, holds.contents]
  · rw [capacity, tail, marksOf_append, marksOf_samples, List.append_nil, holds.markContents]
  · intro block member
    exact holds.some_ block ((List.mem_append.mp member).resolve_right (none_ block))
  · intro block member
    exact holds.short block ((List.mem_append.mp member).resolve_right (none_ block))

/-- **A control block** is appended, with its mark. -/
theorem control (holds : Holds stream marks queue) {bytes : List UInt8} (some_ : bytes ≠ [])
    (short : bytes.length < 256)
    (room : stream.size.toNat + bytes.length < stream.capacity_.toNat) :
    Holds (stream.pushAll bytes) (marks.push ⟨stream.head, UInt8.ofNat bytes.length⟩).1
      (queue ++ [.control bytes]) := by
  obtain ⟨valid, contents, tail, capacity⟩ := RingFast.pushAll_spec holds.valid room
  have slots := holds.slots
  have size := holds.size
  have positive := List.length_pos_iff.mpr some_
  have count := marksOf_length_le stream.capacity_.toNat stream.tail_.toNat holds.some_
  rw [← holds.markContents, RingFast.contents_length] at count
  have free : marks.size.toNat + 1 < marks.capacity_.toNat := by omega
  rw [RingFast.push_eq holds.validMarks free]
  refine ⟨valid, RingFast.pushFast_valid holds.validMarks _, by rw [capacity]; exact slots, ?_, ?_,
    ?_, ?_⟩
  · rw [contents, List.flatMap_append, holds.contents, List.flatMap_cons, List.flatMap_nil,
      List.append_nil]
    rfl
  · rw [RingFast.pushFast_contents holds.validMarks free, capacity, tail, marksOf_append,
      holds.markContents, holds.head_place, marksOf, marksOf]
  · intro block member
    rcases List.mem_append.mp member with old | new
    · exact holds.some_ block old
    · rw [Item.control.inj (List.mem_singleton.mp new)]
      exact some_
  · intro block member
    rcases List.mem_append.mp member with old | new
    · exact holds.short block old
    · rw [Item.control.inj (List.mem_singleton.mp new)]
      exact short

end Holds

/-! ### Reading from the queue -/

/-- The buffer behind two copies, the second right behind the first. -/
theorem segment_store_two (buf : Nat → UInt8) (first second : List UInt8) :
    segment (store (store buf 0 first) first.length second) 0 (first.length + second.length) =
      first ++ second := by
  rw [Circular.segment_add, Nat.zero_add, Circular.segment_store]
  have before : segment (store (store buf 0 first) first.length second) 0 first.length =
      segment (store buf 0 first) 0 first.length :=
    Circular.segment_congr _ fun offset inside =>
      Circular.store_apply_of_outside (.inl (by omega))
  rw [before, Circular.segment_store]

section Copy

variable {stream : RingFast UInt8} {out : Fd.Regions} {count : UInt16}

/-- What fits in the first region is copied from it. -/
theorem copyRegions_first (one : count.toNat ≤ out.cont1.toNat) (buf : Nat → UInt8) :
    copyRegions stream out count buf =
      (store buf 0 (segment stream.buffer_ out.first.toNat count.toNat), count) := by
  have n : (if out.cont1 < count then out.cont1 else count) = count :=
    if_neg fun lt => by
      have ltNat := UInt16.lt_iff_toNat_lt.mp lt
      omega
  simp only [copyRegions, n]
  split
  · rw [if_neg (UInt16.lt_irrefl count)]
  · rfl

/-- More is copied from both regions, the second at the beginning of the memory. -/
theorem copyRegions_both (two : out.second = some 0) (more : out.cont1.toNat < count.toNat)
    (within : count.toNat ≤ out.cont1.toNat + out.cont2.toNat) (buf : Nat → UInt8) :
    copyRegions stream out count buf =
      (store (store buf 0 (segment stream.buffer_ out.first.toNat out.cont1.toNat))
        out.cont1.toNat (segment stream.buffer_ 0 (count.toNat - out.cont1.toNat)), count) := by
  have short : out.cont1 < count := UInt16.lt_iff_toNat_lt.mpr more
  have n : (if out.cont1 < count then out.cont1 else count) = out.cont1 := if_pos short
  have rest : (count - out.cont1).toNat = count.toNat - out.cont1.toNat :=
    Fd.toNat_sub_of_le (Nat.le_of_lt more)
  have n2 : (if out.cont2 < count - out.cont1 then out.cont2 else count - out.cont1) =
      count - out.cont1 :=
    if_neg fun lt => by
      have ltNat := UInt16.lt_iff_toNat_lt.mp lt
      omega
  have all : out.cont1 + (count - out.cont1) = count := by
    have bound := count.toNat_lt
    rw [← UInt16.toNat_inj, Fd.toNat_add_of_lt (by omega)]
    omega
  simp only [copyRegions, n, n2, two, if_pos short, all, rest]
  rfl

/-- **Copying** reads the first bytes of the contents, and as many as were asked for. -/
theorem copyRegions_spec (valid : stream.Valid)
    (splits : Fd.Splits stream.capacity_.toNat stream.tail_.toNat stream.size.toNat out)
    (within : count.toNat ≤ stream.size.toNat) (buf : Nat → UInt8) :
    (copyRegions stream out count buf).2 = count ∧
      segment (copyRegions stream out count buf).1 0 count.toNat =
        stream.contents.take count.toNat := by
  have first : segment stream.buffer_ out.first.toNat out.cont1.toNat =
      stream.contents.take out.cont1.toNat := splits.window_first stream.buffer_
  have second : segment stream.buffer_ 0 out.cont2.toNat =
      stream.contents.drop out.cont1.toNat :=
    splits.window_second stream.buffer_ valid.tail (Nat.le_of_lt (RingFast.size_lt valid))
  have cont1 := splits.cont1
  have cont2 := splits.cont2
  by_cases one : count.toNat ≤ out.cont1.toNat
  · have read : segment stream.buffer_ out.first.toNat count.toNat =
        stream.contents.take count.toNat := by
      rw [← Circular.segment_take _ one, first, List.take_take, Nat.min_eq_left one]
    have length : (stream.contents.take count.toNat).length = count.toNat := by
      rw [List.length_take, RingFast.contents_length]
      omega
    have stored := Circular.segment_store buf 0 (stream.contents.take count.toNat)
    rw [length] at stored
    rw [copyRegions_first one, read]
    exact ⟨rfl, stored⟩
  · have two : out.second = some 0 := by
      rcases splits.second_cases with ⟨-, none_⟩ | ⟨two, -⟩
      · omega
      · exact two
    have read : segment stream.buffer_ 0 (count.toNat - out.cont1.toNat) =
        (stream.contents.drop out.cont1.toNat).take (count.toNat - out.cont1.toNat) := by
      have shorter : count.toNat - out.cont1.toNat ≤ out.cont2.toNat := by omega
      rw [← Circular.segment_take stream.buffer_ shorter, second]
    have lengthFirst : (stream.contents.take out.cont1.toNat).length = out.cont1.toNat := by
      rw [List.length_take, RingFast.contents_length]
      omega
    have lengthSecond : ((stream.contents.drop out.cont1.toNat).take
        (count.toNat - out.cont1.toNat)).length = count.toNat - out.cont1.toNat := by
      rw [List.length_take, List.length_drop, RingFast.contents_length]
      omega
    have stored := segment_store_two buf (stream.contents.take out.cont1.toNat)
      ((stream.contents.drop out.cont1.toNat).take (count.toNat - out.cont1.toNat))
    rw [lengthFirst, lengthSecond, Nat.add_sub_cancel' (by omega)] at stored
    rw [copyRegions_both two (by omega) (by omega), read, first]
    refine ⟨rfl, ?_⟩
    rw [stored, ← List.take_add, Nat.add_sub_cancel' (by omega)]

end Copy

/-- The writer behind a read: its rings hold the rest, and the backpressure may be over. -/
structure Committed (w : Writer) (rest : List Item) (result : Writer) : Prop where
  holds : Holds result.stream result.marks rest
  flags : result.flags = w.flags ∨ result.flags = w.flags &&& ~~~backpressure
  same : result =
    { w with stream := result.stream, marks := result.marks, flags := result.flags }

section Commit

variable {w : Writer} {taken rest : List Item} {out : Fd.Regions} {count : UInt16}

/-- **Committing** what was taken from the front of the queue. -/
theorem commitRead_spec (holds : Holds w.stream w.marks (taken ++ rest)) (type : StreamType)
    (kind : (type = .sample ∧ ∃ bytes : List UInt8, taken = bytes.map .sample) ∨
      (type = .control ∧ ∃ bytes, taken = [.control bytes]))
    (splits : Fd.Splits w.stream.capacity_.toNat w.stream.tail_.toNat w.stream.size.toNat out)
    (length : count.toNat = (taken.flatMap Item.bytes).length) (buf : Nat → UInt8) :
    segment (w.commitRead type count out buf).buf 0 count.toNat = taken.flatMap Item.bytes ∧
      Committed w rest (w.commitRead type count out buf).writer := by
  have size := holds.size
  rw [List.flatMap_append, List.length_append] at size
  have within : count.toNat ≤ w.stream.size.toNat := by omega
  obtain ⟨copied, chunk⟩ := copyRegions_spec holds.valid splits within buf
  have tail := RingFast.readCommit_tail holds.valid count
  have contents := RingFast.readCommit_contents holds.valid within
  rw [holds.contents, List.flatMap_append] at chunk contents
  rw [length, List.take_left] at chunk
  rw [length, List.drop_left] at contents
  have marksAll := holds.markContents
  rw [marksOf_append, ← length] at marksAll
  have restMarks : marksOf w.stream.capacity_.toNat (w.stream.readCommit count).tail_.toNat rest =
      marksOf w.stream.capacity_.toNat (w.stream.tail_.toNat + count.toNat) rest := by
    rw [tail, marksOf_mod]
  refine ⟨by rw [length]; exact chunk, ⟨?_, ?_, rfl⟩⟩
  · have some_ := fun bytes member => holds.some_ bytes (List.mem_append_right _ member)
    have short := fun bytes member => holds.short bytes (List.mem_append_right _ member)
    simp only [Writer.commitRead, copied]
    have valid := RingFast.readCommit_valid holds.valid count
    rcases kind with ⟨sample, bytes, rfl⟩ | ⟨control, bytes, rfl⟩
    · rw [if_neg (by rw [sample]; exact StreamType.noConfusion)]
      refine ⟨valid, holds.validMarks, holds.slots, contents, ?_, some_, short⟩
      rw [marksAll, marksOf_samples, List.nil_append]
      exact restMarks.symm
    · have one : w.marks.contents.length ≠ 0 := by
        rw [marksAll, marksOf]
        exact Nat.succ_ne_zero _
      rw [RingFast.contents_length] at one
      have popped := RingFast.readCommit_contents (r := w.marks) holds.validMarks
        (show (1 : UInt16).toNat ≤ w.marks.size.toNat from Nat.pos_of_ne_zero one)
      rw [if_pos control, RingFast.pop_eq holds.validMarks one]
      refine ⟨valid, RingFast.readCommit_valid holds.validMarks 1, holds.slots, contents, ?_, some_,
        short⟩
      rw [popped, marksAll]
      exact restMarks.symm
  · simp only [Writer.commitRead]
    split
    · exact .inr rfl
    · exact .inl rfl

end Commit

/-- A queue begins with sample bytes, up to its first control block. -/
theorem queue_cases (queue : List Item) :
    (∃ bytes : List UInt8, queue = bytes.map .sample) ∨
      ∃ (bytes : List UInt8) (block : List UInt8) (rest : List Item),
        queue = bytes.map .sample ++ .control block :: rest := by
  induction queue with
  | nil => exact .inl ⟨[], rfl⟩
  | cons item rest ih =>
    cases item with
    | control block => exact .inr ⟨[], block, rest, rfl⟩
    | sample byte =>
      rcases ih with ⟨bytes, rfl⟩ | ⟨bytes, block, behind, rfl⟩
      · exact .inl ⟨byte :: bytes, rfl⟩
      · exact .inr ⟨byte :: bytes, block, behind, rfl⟩

/-- What `readNext` takes from a queue. -/
inductive ReadStep (w : Writer) (queue : List Item) (result : ReadResult) : Prop
  | nothing (empty : queue = []) (returned : result.returned = 0) (same : result.writer = w)
  | samples (bytes : List UInt8) (rest : List Item) (split : queue = bytes.map .sample ++ rest)
      (returned : result.returned ≠ 0) (type : result.type = .sample)
      (chunk : segment result.buf 0 result.returned.toNat = bytes)
      (next : Committed w rest result.writer)
  | control (bytes : List UInt8) (rest : List Item) (split : queue = .control bytes :: rest)
      (returned : result.returned ≠ 0) (type : result.type = .control)
      (chunk : segment result.buf 0 result.returned.toNat = bytes)
      (next : Committed w rest result.writer)

section Read

variable {w : Writer} {queue : List Item} {size : Nat}

/-- Sample bytes, as many as the buffer takes. -/
theorem readNext_samples {bytes : List UInt8} {behind : List Item}
    (holds : Holds w.stream w.marks (bytes.map .sample ++ behind)) (some_ : bytes ≠ [])
    (positive : 0 < size) {planned : UInt16} (length : planned.toNat = bytes.length)
    (stale : UInt16) (plan : w.planned stale = (planned, .sample)) (buf : Nat → UInt8) :
    ReadStep w (bytes.map .sample ++ behind) (w.readNext buf size stale) := by
  have total := holds.size
  have bound := planned.toNat_lt
  rw [List.flatMap_append, bytes_samples, List.length_append] at total
  have bytesPositive := List.length_pos_iff.mpr some_
  obtain ⟨out, reserved, splits⟩ := RingFast.readReserve_eq holds.valid (by omega)
  set count := if planned.toNat > size then UInt16.ofNat size else planned with countDef
  have countNat : count.toNat = min bytes.length size := by
    rw [countDef]
    split
    · rw [UInt16.toNat_ofNat']
      omega
    · omega
  have read : w.readNext buf size stale = w.commitRead .sample count out buf := by
    simp only [Writer.readNext, plan, reserved]
    exact if_neg fun both => StreamType.noConfusion both.1
  have split : bytes.map Item.sample ++ behind =
      (bytes.take count.toNat).map .sample ++ ((bytes.drop count.toNat).map .sample ++ behind) := by
    rw [← List.append_assoc, ← List.map_append, List.take_append_drop]
  have lengthTaken : (bytes.take count.toNat).length = count.toNat := by
    rw [List.length_take]
    omega
  rw [split] at holds
  obtain ⟨chunk, next⟩ := commitRead_spec holds .sample (.inl ⟨rfl, _, rfl⟩) splits
    (by rw [bytes_samples, lengthTaken]) buf
  rw [bytes_samples] at chunk
  rw [read]
  refine .samples _ _ split (fun zero => ?_) rfl chunk next
  have zeroNat : count.toNat = 0 := congrArg UInt16.toNat zero
  omega

/-- The mark of the first control block behind some sample bytes, and its distance. -/
theorem peek_mark {bytes block : List UInt8} {behind : List Item}
    (holds : Holds w.stream w.marks (bytes.map .sample ++ .control block :: behind)) :
    ∃ mark distance, w.marks.peek = some mark ∧ mark.size.toUInt16.toNat = block.length ∧
      w.stream.distanceFromTail mark.idx.toInt16 = some distance ∧
      distance.toNat = bytes.length := by
  have total := holds.size
  have marks := holds.markContents
  have blockShort := holds.short block (by simp)
  have blockPositive := List.length_pos_iff.mpr (holds.some_ block (by simp))
  have blockBytes : (Item.control block).bytes.length = block.length := rfl
  rw [marksOf_append, marksOf_samples, List.nil_append, bytes_samples, marksOf] at marks
  rw [List.flatMap_append, bytes_samples, List.flatMap_cons, List.length_append,
    List.length_append] at total
  set mark : ControlMark := ⟨UInt16.ofNat ((w.stream.tail_.toNat + bytes.length) %
    w.stream.capacity_.toNat), UInt8.ofNat block.length⟩ with markDef
  have place : mark.idx.toInt16.toUInt16.toNat =
      (w.stream.tail_.toNat + bytes.length) % w.stream.capacity_.toNat := by
    have below := Nat.mod_lt (w.stream.tail_.toNat + bytes.length)
      (Nat.zero_lt_of_lt holds.valid.head)
    have small := holds.valid.capacity_le
    rw [UInt16.toUInt16_toInt16, markDef, UInt16.toNat_ofNat']
    omega
  obtain ⟨distance, measured, distanceNat⟩ :=
    RingFast.distanceFromTail_eq holds.valid place (by omega)
  refine ⟨mark, distance, ?_, ?_, measured, distanceNat⟩
  · rw [RingFast.peek_eq holds.validMarks, marks]
    rfl
  · rw [UInt8.toNat_toUInt16, markDef, UInt8.toNat_ofNat']
    omega

/-- A control block at the front, as a whole. -/
theorem readNext_control {block : List UInt8} {behind : List Item}
    (holds : Holds w.stream w.marks (.control block :: behind)) (fits : block.length ≤ size)
    {planned : UInt16} (length : planned.toNat = block.length) (stale : UInt16)
    (plan : w.planned stale = (planned, .control)) (buf : Nat → UInt8) :
    ReadStep w (.control block :: behind) (w.readNext buf size stale) := by
  have total := holds.size
  have blockPositive := List.length_pos_iff.mpr (holds.some_ block (by simp))
  have blockBytes : (Item.control block).bytes.length = block.length := rfl
  rw [List.flatMap_cons, List.length_append] at total
  have some_ : planned ≠ 0 := by
    intro zero
    rw [zero] at length
    exact absurd length (Nat.ne_of_lt blockPositive)
  obtain ⟨out, reserved, splits⟩ := RingFast.readReserve_eq holds.valid (by omega)
  have read : w.readNext buf size stale = w.commitRead .control planned out buf := by
    simp only [Writer.readNext, plan, reserved]
    rw [if_neg fun both => both.2.elim (by omega) some_, if_neg (by omega)]
  have front : Holds w.stream w.marks ([.control block] ++ behind) := holds
  have bytes : [Item.control block].flatMap Item.bytes = block := List.append_nil block
  obtain ⟨chunk, next⟩ := commitRead_spec front .control (.inr ⟨rfl, block, rfl⟩) splits
    (by rw [length, bytes]) buf
  rw [bytes] at chunk
  rw [read]
  exact .control block behind rfl some_ rfl chunk next

/-- What `readNext` plans to read: sample bytes up to the next control block, or a control block. -/
inductive Front (w : Writer) (queue : List Item) : Prop
  | nothing (empty : queue = []) (plan : ∀ stale, w.planned stale = (0, .sample))
  | samples (bytes : List UInt8) (behind : List Item) (split : queue = bytes.map .sample ++ behind)
      (some_ : bytes ≠ []) (planned : UInt16) (length : planned.toNat = bytes.length)
      (plan : ∀ stale, w.planned stale = (planned, .sample))
  | control (block : List UInt8) (behind : List Item) (split : queue = .control block :: behind)
      (planned : UInt16) (length : planned.toNat = block.length)
      (plan : ∀ stale, w.planned stale = (planned, .control))

theorem Holds.front (holds : Holds w.stream w.marks queue) : Front w queue := by
  rcases queue_cases queue with ⟨bytes, rfl⟩ | ⟨bytes, block, behind, rfl⟩
  · -- no control block ahead
    have total := holds.size
    have marks := holds.markContents
    rw [marksOf_samples] at marks
    rw [bytes_samples] at total
    have plan : ∀ stale, w.planned stale = (w.stream.size, .sample) := by
      intro stale
      rw [Writer.planned, RingFast.peek_eq holds.validMarks, marks]
      rfl
    rcases eq_or_ne bytes [] with rfl | some_
    · have none_ : w.stream.size = 0 := UInt16.toNat_inj.mp total
      rw [none_] at plan
      exact .nothing rfl plan
    · exact .samples bytes [] (List.append_nil _).symm some_ _ total plan
  · obtain ⟨mark, distance, peeked, length, measured, distanceNat⟩ := peek_mark holds
    rcases eq_or_ne bytes [] with rfl | some_
    · have zero : distance = 0 := UInt16.toNat_inj.mp distanceNat
      refine .control block behind rfl _ length fun stale => ?_
      rw [Writer.planned, peeked]
      simp only [measured, Option.getD_some, zero]
      rfl
    · refine .samples bytes _ rfl some_ _ distanceNat fun stale => ?_
      have ahead : distance > 0 := UInt16.lt_iff_toNat_lt.mpr (by
        rw [distanceNat]
        exact List.length_pos_iff.mpr some_)
      rw [Writer.planned, peeked]
      simp only [measured, Option.getD_some, if_pos ahead]

/-- Nothing is read from an empty queue. -/
theorem readNext_nothing (holds : Holds w.stream w.marks [])
    (plan : ∀ stale, w.planned stale = (0, .sample)) (buf : Nat → UInt8) (stale : UInt16) :
    w.readNext buf size stale = ⟨w, .sample, buf, 0⟩ := by
  have none_ := RingFast.readReserve_none (r := w.stream) holds.size
  simp only [Writer.readNext, plan, none_]
  exact if_neg fun both => StreamType.noConfusion both.1

/-- **`readNext` takes from the front of the queue**: sample bytes up to the next control block, or
a control block, and nothing from an empty queue only. -/
theorem readNext_spec (holds : Holds w.stream w.marks queue) (positive : 0 < size)
    (fits : ∀ bytes, .control bytes ∈ queue → bytes.length ≤ size) (buf : Nat → UInt8)
    (stale : UInt16) : ReadStep w queue (w.readNext buf size stale) := by
  rcases holds.front with ⟨rfl, plan⟩ | ⟨bytes, behind, rfl, some_, planned, length, plan⟩ |
    ⟨block, behind, rfl, planned, length, plan⟩
  · rw [readNext_nothing holds plan]
    exact .nothing rfl rfl rfl
  · exact readNext_samples holds some_ positive length stale (plan stale) buf
  · exact readNext_control holds (fits block List.mem_cons_self) length stale (plan stale) buf

end Read

end ForgeDrive.Daq
