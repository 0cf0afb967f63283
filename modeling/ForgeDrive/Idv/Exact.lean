/-
**The reader on any bytes** (`IDV.h`).

Any bytes begin with some complete fields and go on with something that is no complete field
(`message_eq`). A reader finds exactly these fields, one after the other (`Ahead.next_cons`); at
what is left it fails, and it goes on failing: a truncated header leaves the cursor where it cannot
move, a truncated value sets it to the sentinel (`Ahead.next_nil`, `Ended.next`).

`reads_exactly` — for at most 65535 bytes: how often `next` succeeds, where the values are, that the
fields written again are the bytes consumed, and what is left of them.
-/

import ForgeDrive.Idv.RoundTrip

namespace ForgeDrive.Idv

open Circular (segment store)

/-! ### What a reader finds -/

/-- What the reader stands on after a `next` that succeeds: `id()`, `valueLength()`, and the place
of `asBinary()` in the span. -/
structure Taken where
  id : UInt8
  length : UInt8
  offset : Nat
  deriving DecidableEq, Repr

/-- What the reader stands on. -/
def Reader.taken (r : Reader) : Taken := ⟨r.idvId, r.idvLen, r.idvValue⟩

/-- What so many calls of `next` find, `none` for a call that fails. -/
def outcomes : (count : Nat) → Reader → List (Option Taken)
  | 0, _ => []
  | count + 1, r =>
    (if r.next.2 then some r.next.1.taken else none) :: outcomes count r.next.1

/-- The fields stand side by side from `start` to `stop`: a header of two bytes before each value,
and nothing between a value and the next header. -/
def Adjacent : (start : Nat) → List Taken → (stop : Nat) → Prop
  | start, [], stop => start = stop
  | start, taken :: rest, stop =>
    taken.offset = start + 2 ∧ Adjacent (taken.offset + taken.length.toNat) rest stop

/-- `add_BINARY(id(), asBinary(), valueLength())` for each of the fields, and whether each call
returned `OK`. -/
def rewriteAll (source : List UInt8) : Writer → List Taken → Writer × Bool
  | w, [] => (w, true)
  | w, taken :: rest =>
    let (w, err) :=
      w.addBinary taken.id (fun index => source.getD (taken.offset + index) 0) taken.length
    let (w, fine) := rewriteAll source w rest
    (w, err = .ok && fine)

/-- Where a reader finds these fields when they begin at `start`. -/
def places : (start : Nat) → List Field → List Taken
  | _, [] => []
  | start, field :: rest =>
    ⟨field.id, UInt8.ofNat field.value.length, start + 2⟩ ::
      places (start + 2 + field.value.length) rest

/-! ### What any bytes begin with -/

/-- **Any bytes are complete fields and something that does not begin with one.** -/
theorem message_eq (message : List UInt8) : ∃ rest,
    message = messageBytes (fields message) ++ rest ∧ ¬ StartsWithField rest ∧
      ∀ field ∈ fields message, field.Short := by
  fun_induction fields message with
  | case1 id length bytes complete ih =>
    obtain ⟨rest, split, stops, short⟩ := ih
    have taken : (bytes.take length.toNat).length = length.toNat := by
      rw [List.length_take, Nat.min_eq_left complete]
    refine ⟨rest, ?_, stops, ?_⟩
    · rw [messageBytes, List.flatMap_cons, Field.bytes, List.cons_append, List.cons_append,
        List.append_assoc]
      change _ = _ :: _ :: (_ ++ (messageBytes _ ++ rest))
      rw [← split, taken, UInt8.ofNat_toNat, List.take_append_drop]
    · intro field member
      rcases List.mem_cons.mp member with rfl | later
      · rw [Field.Short, taken]
        exact length.toNat_lt
      · exact short field later
  | case2 id length bytes incomplete =>
    refine ⟨id :: length :: bytes, rfl, ?_, List.forall_mem_nil _⟩
    rw [← fields_eq_nil_iff, fields, if_neg incomplete]
  | case3 message noHeader =>
    refine ⟨message, rfl, ?_, List.forall_mem_nil _⟩
    rw [← fields_eq_nil_iff]
    unfold fields
    split
    · exact absurd rfl (noHeader _ _ _)
    · rfl

/-! ### Reading on -/

/-- A reader with these complete fields ahead of it, and then something that is none. -/
structure Ahead (r : Reader) (ahead : List Field) (rest : List UInt8) : Prop where
  bytes : r.buf.drop r.bufIdx.toNat = messageBytes ahead ++ rest
  stops : ¬ StartsWithField rest
  short : ∀ field ∈ ahead, field.Short
  inside : r.bufIdx.toNat ≤ r.buf.length
  small : r.buf.length ≤ 65535

/-- A reader that has no room for a header in front of it. -/
def Ended (r : Reader) : Prop := r.buf.length < r.bufIdx.toNat + 2

section Reading

variable {r : Reader} {field : Field} {ahead : List Field} {rest : List UInt8}

/-- **A reader that has ended stays where it is.** -/
theorem Ended.next (ended : Ended r) : r.next = (r, false) := by
  rw [Reader.next]
  split
  · rfl
  · exact if_pos ended

/-- **`next` finds the first field ahead.** -/
theorem Ahead.next_cons (here : Ahead r (field :: ahead) rest) :
    r.next.2 = true ∧ r.next.1.buf = r.buf ∧
      r.next.1.taken = ⟨field.id, UInt8.ofNat field.value.length, r.bufIdx.toNat + 2⟩ ∧
      r.next.1.value = field.value ∧
      r.next.1.bufIdx.toNat = r.bufIdx.toNat + 2 + field.value.length ∧
      Ahead r.next.1 ahead rest := by
  have short := here.short field List.mem_cons_self
  have split : messageBytes (field :: ahead) ++ rest =
      field.bytes ++ (messageBytes ahead ++ rest) := by
    rw [messageBytes, List.flatMap_cons, List.append_assoc]
    rfl
  obtain ⟨cursor, place, next, behind⟩ :=
    Reader.next_field here.small (here.bytes.trans split) short
  have lenNat : (UInt8.ofNat field.value.length).toNat = field.value.length :=
    UInt8.toNat_ofNat_of_lt' short
  have length := congrArg List.length (here.bytes.trans split)
  rw [List.length_drop, List.length_append, Field.bytes_length] at length
  rw [next]
  refine ⟨rfl, rfl, rfl, ?_, place, ?_, here.stops, ?_, ?_, here.small⟩
  · show (r.buf.drop (r.bufIdx.toNat + 2)).take (UInt8.ofNat field.value.length).toNat = _
    rw [behind, lenNat, List.take_left]
  · show r.buf.drop cursor.toNat = _
    rw [place, ← List.drop_drop, behind, List.drop_left]
  · exact fun other member => here.short other (List.mem_cons_of_mem _ member)
  · show cursor.toNat ≤ r.buf.length
    omega

/-- **At what is no complete field `next` fails**, and the reader has ended. -/
theorem Ahead.next_nil (here : Ahead r [] rest) :
    r.next.2 = false ∧ Ended r.next.1 ∧ r.next.1.buf = r.buf := by
  have bytes : r.buf.drop r.bufIdx.toNat = rest := here.bytes
  have small := here.small
  have stops := here.stops
  have sentinel : (0xFFFF : UInt16).toNat = 65535 := rfl
  rw [Reader.next]
  split
  case isTrue last =>
    refine ⟨rfl, ?_, rfl⟩
    show r.buf.length < r.bufIdx.toNat + 2
    rw [last]
    omega
  case isFalse =>
    split
    case isTrue noHeader => exact ⟨rfl, noHeader, rfl⟩
    case isFalse header =>
      have one : (r.bufIdx + 1).toNat = r.bufIdx.toNat + 1 := by
        rw [UInt16.toNat_add]
        exact Nat.mod_eq_of_lt (show r.bufIdx.toNat + 1 < 65536 by omega)
      have two : (r.bufIdx + 1 + 1).toNat = r.bufIdx.toNat + 2 := by
        rw [UInt16.toNat_add, one]
        exact Nat.mod_eq_of_lt (show r.bufIdx.toNat + 1 + 1 < 65536 by omega)
      have length : (rest.getD 1 0).toNat = (r.buf.getD (r.bufIdx + 1).toNat 0).toNat := by
        rw [← bytes, List.getD_eq_getElem?_getD, List.getElem?_drop, one,
          List.getD_eq_getElem?_getD]
      have left : rest.length = r.buf.length - r.bufIdx.toNat := by
        rw [← bytes, List.length_drop]
      rw [StartsWithField, length, left] at stops
      rw [if_pos (show (r.bufIdx + 1 + 1).toNat + (r.buf.getD (r.bufIdx + 1).toNat 0).toNat >
        r.buf.length by omega)]
      refine ⟨rfl, ?_, rfl⟩
      show r.buf.length < (0xFFFF : UInt16).toNat + 2
      omega

theorem Ended.outcomes (ended : Ended r) (count : Nat) :
    outcomes count r = List.replicate count none := by
  induction count with
  | zero => rfl
  | succ count ih =>
    rw [Idv.outcomes, ended.next]
    exact congrArg (none :: ·) ih

/-- **What any number of calls find**: the fields ahead, in order, and then nothing any more. -/
theorem Ahead.outcomes (here : Ahead r ahead rest) (count : Nat) :
    outcomes count r = ((places r.bufIdx.toNat ahead).take count).map some ++
      List.replicate (count - ahead.length) none := by
  induction ahead generalizing r count with
  | nil =>
    cases count with
    | zero => rfl
    | succ count =>
      obtain ⟨fails, ended, -⟩ := here.next_nil
      rw [Idv.outcomes, fails, ended.outcomes]
      rfl
  | cons field ahead ih =>
    cases count with
    | zero =>
      rw [Nat.zero_sub, List.take_zero]
      rfl
    | succ count =>
      obtain ⟨finds, -, taken, -, place, later⟩ := here.next_cons
      rw [Idv.outcomes, finds, taken, ih later, place, places, List.take_succ_cons, List.map_cons,
        List.length_cons, Nat.succ_sub_succ]
      rfl

end Reading

/-! ### Where the fields are -/

theorem places_length (start : Nat) (ahead : List Field) :
    (places start ahead).length = ahead.length := by
  induction ahead generalizing start with
  | nil => rfl
  | cons field rest ih => rw [places, List.length_cons, List.length_cons, ih]

theorem places_adjacent {ahead : List Field} (short : ∀ field ∈ ahead, field.Short) (start : Nat) :
    Adjacent start (places start ahead) (start + (messageBytes ahead).length) := by
  induction ahead generalizing start with
  | nil => exact rfl
  | cons field rest ih =>
    have lenNat : (UInt8.ofNat field.value.length).toNat = field.value.length :=
      UInt8.toNat_ofNat_of_lt' (short field List.mem_cons_self)
    have later := ih (fun other member => short other (List.mem_cons_of_mem _ member))
      (start + 2 + field.value.length)
    have stop : start + (messageBytes (field :: rest)).length =
        start + 2 + field.value.length + (messageBytes rest).length := by
      rw [messageBytes, List.flatMap_cons, List.length_append, Field.bytes_length]
      show _ = _ + (List.flatMap Field.bytes rest).length
      omega
    refine ⟨rfl, ?_⟩
    rw [lenNat, stop]
    exact later

/-- Fields that stand side by side end before the last of them does. -/
theorem Adjacent.le {found : List Taken} {start stop : Nat} (adjacent : Adjacent start found stop) :
    start + 2 * found.length ≤ stop ∧
      ∀ taken ∈ found, taken.offset + taken.length.toNat ≤ stop := by
  induction found generalizing start with
  | nil => exact ⟨Nat.le_of_eq adjacent, List.forall_mem_nil _⟩
  | cons taken rest ih =>
    obtain ⟨offset, later⟩ := adjacent
    obtain ⟨length, inside⟩ := ih later
    refine ⟨?_, List.forall_mem_cons.mpr ⟨?_, inside⟩⟩
    · rw [List.length_cons]
      omega
    · omega

/-! ### Writing the fields again -/

/-- **Writing again what was found** appends the bytes that were read. -/
theorem rewriteAll_places {source : List UInt8} {ahead : List Field} {rest : List UInt8}
    {start : Nat} {w : Writer} (bytes : source.drop start = messageBytes ahead ++ rest)
    (short : ∀ field ∈ ahead, field.Short)
    (room : w.bufIdx.toNat + (messageBytes ahead).length ≤ w.bufSize)
    (small : w.bufIdx.toNat + (messageBytes ahead).length < 65536) :
    (rewriteAll source w (places start ahead)).2 = true ∧
      (rewriteAll source w (places start ahead)).1.written =
        w.written ++ messageBytes ahead := by
  induction ahead generalizing start w with
  | nil => exact ⟨rfl, (List.append_nil _).symm⟩
  | cons field ahead ih =>
    have split : messageBytes (field :: ahead) = field.bytes ++ messageBytes ahead :=
      List.flatMap_cons
    have lenNat : (UInt8.ofNat field.value.length).toNat = field.value.length :=
      UInt8.toNat_ofNat_of_lt' (short field List.mem_cons_self)
    rw [split, List.append_assoc] at bytes
    rw [split, List.length_append, Field.bytes_length] at room small
    have behind : source.drop (start + 2) = field.value ++ (messageBytes ahead ++ rest) := by
      rw [← List.drop_drop, bytes]
      rfl
    have value : segment (fun index => source.getD (start + 2 + index) 0) 0
        field.value.length = field.value := by
      refine List.ext_getElem (Circular.segment_length _ _ _) fun index _ inside => ?_
      have found : (source.drop (start + 2))[index]? = some field.value[index] := by
        rw [behind, List.getElem?_append_left inside, List.getElem?_eq_getElem inside]
      rw [List.getElem?_drop] at found
      simp only [Circular.segment, List.getElem_map, List.getElem_range, Nat.zero_add]
      rw [List.getD_eq_getElem?_getD, found]
      rfl
    have call : w.addBinary field.id (fun index => source.getD (start + 2 + index) 0)
        (UInt8.ofNat field.value.length) = w.add field := by
      rw [addBinary_eq, lenNat, value]
    have ok : (w.add field).2 = .ok := by
      rw [Writer.add, Writer.addPrimitive, if_neg (by omega)]
    obtain ⟨written, index⟩ := add_written ok (by rw [Field.bytes_length]; omega)
    have size := add_bufSize w field
    have next : source.drop (start + 2 + field.value.length) = messageBytes ahead ++ rest := by
      rw [← List.drop_drop, behind, List.drop_left]
    rw [Field.bytes_length] at index
    obtain ⟨fine, rest⟩ := ih next (fun other member => short other (List.mem_cons_of_mem _ member))
      (w := (w.add field).1) (by rw [index, size]; omega) (by rw [index]; omega)
    simp only [places, rewriteAll, call]
    rw [fine, rest, written, split, List.append_assoc, ok]
    exact ⟨rfl, rfl⟩

/-! ### The reader is exact -/

/-- **What a reader does with a message**: it finds these fields and stops there. Any number of
calls of `next` finds them in order and then fails for good, until a reset (`outcomes`); they are at
most half as many as there are bytes (`few`), with their values inside (`inside`), side by side from
the beginning (`adjacent`); writing them again gives the bytes up to the stop (`rewritten`); and what
is left does not begin with a complete field (`left`). -/
structure ReadsExactly (message : List UInt8) (found : List Taken) (stop : Nat) : Prop where
  outcomes : ∀ r : Reader, r.buf = message → ∀ count, outcomes count r.reset =
    (found.take count).map some ++ List.replicate (count - found.length) none
  few : found.length ≤ message.length / 2
  inside : ∀ taken ∈ found, taken.offset + taken.length.toNat ≤ message.length
  adjacent : Adjacent 0 found stop
  rewritten : ∀ (buffer : Nat → UInt8) (size : Nat), stop ≤ size →
    (rewriteAll message (Writer.new buffer size) found).2 = true ∧
      (rewriteAll message (Writer.new buffer size) found).1.written = message.take stop
  left : ¬ StartsWithField (message.drop stop)

/-- **The reader is exact on any bytes**, up to the 65535 its cursor can count. -/
theorem reads_exactly (message : List UInt8) (small : message.length ≤ 65535) :
    ∃ found stop, ReadsExactly message found stop := by
  obtain ⟨rest, split, stops, short⟩ := message_eq message
  have length := congrArg List.length split
  rw [List.length_append] at length
  have adjacent := places_adjacent short 0
  rw [Nat.zero_add] at adjacent
  obtain ⟨few, inside⟩ := adjacent.le
  refine ⟨places 0 (fields message), (messageBytes (fields message)).length, ?_, ?_, ?_, adjacent,
    ?_, ?_⟩
  · rintro r rfl count
    have here : Ahead r.reset (fields r.buf) rest :=
      ⟨split, stops, short, Nat.zero_le _, small⟩
    rw [here.outcomes, places_length]
    rfl
  · omega
  · intro taken member
    have before := inside taken member
    omega
  · intro buffer size fits
    have start : (Writer.new buffer size).bufIdx.toNat = 0 := rfl
    have bytes : message.drop 0 = messageBytes (fields message) ++ rest := split
    obtain ⟨fine, written⟩ := rewriteAll_places (w := Writer.new buffer size) bytes short
      (by rw [start, Nat.zero_add]; exact fits) (by rw [start]; omega)
    refine ⟨fine, ?_⟩
    have taken := congrArg (List.take (messageBytes (fields message)).length) split
    rw [List.take_left] at taken
    rw [written, taken]
    rfl
  · have dropped := congrArg (List.drop (messageBytes (fields message)).length) split
    rw [List.drop_left] at dropped
    rw [dropped]
    exact stops

/-- A field of two bytes, an empty field, and a length that goes beyond the end. -/
theorem reads_exactly_seven :
    [(7 : UInt8), 2, 10, 11, 8, 0, 9, 3, 1].length ≤ 65535 ∧
      ∃ found stop, ReadsExactly [7, 2, 10, 11, 8, 0, 9, 3, 1] found stop :=
  ⟨by decide, reads_exactly _ (by decide)⟩

end ForgeDrive.Idv
