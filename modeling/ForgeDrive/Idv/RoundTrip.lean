/-
**What the writer writes, the reader reads** (`IDV.h`).

Every `add_*` appends one field, or nothing and reports it (`Writer.add`). Fields that were all
accepted are the bytes of the message in order (`written_addAll`), and a reader at the beginning of
such a message stands on them one after the other (`Standing.next`).
-/

import ForgeDrive.Idv.Message

namespace ForgeDrive.Idv

open Circular (segment store)

/-! ### The bytes of a field -/

/-- A field with a length that fits its length byte. -/
def Field.Short (field : Field) : Prop := field.value.length < 256

/-- The bytes of a field: its id, its length and its value. -/
def Field.bytes (field : Field) : List UInt8 :=
  field.id :: UInt8.ofNat field.value.length :: field.value

/-- The bytes of a message. -/
def messageBytes (message : List Field) : List UInt8 := message.flatMap Field.bytes

@[simp] theorem Field.bytes_length (field : Field) :
    field.bytes.length = 2 + field.value.length := by
  rw [Field.bytes, List.length_cons, List.length_cons]
  omega

/-! ### Writing -/

/-- Add a field. All `add_*` are this, each with the bytes of its value. -/
def Writer.add (w : Writer) (field : Field) : Writer × Err := w.addPrimitive field.id field.value

/-- Add the fields, one after the other. -/
def Writer.addAll (w : Writer) (message : List Field) : Writer :=
  message.foldl (fun w field => (w.add field).1) w

/-- Every call of `add_*` returns `OK`. -/
def Writer.Takes (w : Writer) : List Field → Prop
  | [] => True
  | field :: rest => (w.add field).2 = .ok ∧ (w.add field).1.Takes rest

instance Writer.decidableTakes (w : Writer) : (message : List Field) → Decidable (w.Takes message)
  | [] => inferInstanceAs (Decidable True)
  | field :: rest =>
    have := (w.add field).1.decidableTakes rest
    inferInstanceAs (Decidable (_ ∧ _))

section Writing

variable {w : Writer} {field : Field}

/-- **`add_BINARY`** adds a field with the bytes behind the pointer. -/
theorem addBinary_eq (w : Writer) (id : UInt8) (str : Nat → UInt8) (length : UInt8) :
    w.addBinary id str length = w.add ⟨id, segment str 0 length.toNat⟩ := by
  rw [Writer.addBinary, Writer.add, Writer.addPrimitive, Circular.segment_length,
    UInt8.ofNat_toNat]

/-- The bytes behind a copy to the end of what is written. -/
theorem segment_store_end (buf : Nat → UInt8) (count : Nat) (bytes : List UInt8) :
    segment (store buf count bytes) 0 (count + bytes.length) = segment buf 0 count ++ bytes := by
  rw [Circular.segment_add, Nat.zero_add, Circular.segment_store]
  refine congrArg (· ++ bytes) (Circular.segment_congr _ fun offset inside => ?_)
  rw [Nat.zero_add]
  exact Circular.store_apply_of_outside (.inl inside)

theorem put_written (room : w.bufIdx.toNat + 1 < 65536) (byte : UInt8) :
    (w.put byte).written = w.written ++ [byte] ∧
      (w.put byte).bufIdx.toNat = w.bufIdx.toNat + 1 := by
  have index : (w.put byte).bufIdx.toNat = w.bufIdx.toNat + 1 := by
    show (w.bufIdx + 1).toNat = _
    rw [UInt16.toNat_add]
    exact Nat.mod_eq_of_lt room
  refine ⟨?_, index⟩
  have updated : Function.update w.buf w.bufIdx.toNat byte = store w.buf w.bufIdx.toNat [byte] := by
    rw [Circular.store_cons, Circular.store_nil]
  rw [Writer.written, index]
  show segment (Function.update w.buf w.bufIdx.toNat byte) 0 _ = _
  rw [updated]
  exact segment_store_end w.buf w.bufIdx.toNat [byte]

theorem copy_written {bytes : List UInt8} (room : w.bufIdx.toNat + bytes.length < 65536) :
    (w.copy bytes).written = w.written ++ bytes ∧
      (w.copy bytes).bufIdx.toNat = w.bufIdx.toNat + bytes.length := by
  have index : (w.copy bytes).bufIdx.toNat = w.bufIdx.toNat + bytes.length := by
    show (w.bufIdx + UInt16.ofNat bytes.length).toNat = _
    rw [UInt16.toNat_add, UInt16.toNat_ofNat']
    omega
  refine ⟨?_, index⟩
  rw [Writer.written, index]
  exact segment_store_end w.buf w.bufIdx.toNat bytes

/-- **A field that is accepted** is appended. -/
theorem add_written (ok : (w.add field).2 = .ok)
    (room : w.bufIdx.toNat + field.bytes.length < 65536) :
    (w.add field).1.written = w.written ++ field.bytes ∧
      (w.add field).1.bufIdx.toNat = w.bufIdx.toNat + field.bytes.length := by
  rw [Field.bytes_length] at room ⊢
  rw [Writer.add, Writer.addPrimitive] at ok ⊢
  split at ok
  case isTrue => cases ok
  case isFalse fits =>
    rw [if_neg fits]
    obtain ⟨first, indexFirst⟩ := put_written (w := w) (by omega) field.id
    obtain ⟨second, indexSecond⟩ := put_written (w := w.put field.id) (by omega)
      (UInt8.ofNat field.value.length)
    obtain ⟨third, indexThird⟩ :=
      copy_written (w := (w.put field.id).put (UInt8.ofNat field.value.length))
        (show _ + field.value.length < 65536 by omega)
    refine ⟨?_, by rw [indexThird, indexSecond, indexFirst]; omega⟩
    rw [third, second, first, Field.bytes, List.append_assoc, List.append_assoc]
    rfl

theorem add_bufSize (w : Writer) (field : Field) : (w.add field).1.bufSize = w.bufSize := by
  rw [Writer.add, Writer.addPrimitive]
  split <;> rfl

theorem addAll_bufSize (w : Writer) (message : List Field) :
    (w.addAll message).bufSize = w.bufSize := by
  induction message generalizing w with
  | nil => rfl
  | cons field rest ih => exact (ih (w.add field).1).trans (add_bufSize w field)

/-- **A message whose fields are all accepted** is written as its bytes. -/
theorem written_addAll {message : List Field} (takes : w.Takes message)
    (room : w.bufIdx.toNat + (messageBytes message).length < 65536) :
    (w.addAll message).written = w.written ++ messageBytes message := by
  induction message generalizing w with
  | nil => exact (List.append_nil _).symm
  | cons field rest ih =>
    have split : messageBytes (field :: rest) = field.bytes ++ messageBytes rest :=
      List.flatMap_cons
    rw [split, List.length_append] at room
    obtain ⟨first, index⟩ := add_written takes.1 (by omega)
    have later := ih takes.2 (by omega)
    rw [split, ← List.append_assoc, ← first, ← later]
    rfl

end Writing

/-! ### Reading -/

/-- A reader in a message, with these fields ahead of it. -/
structure Standing (r : Reader) (ahead : List Field) : Prop where
  bytes : r.buf.drop r.bufIdx.toNat = messageBytes ahead
  inside : r.bufIdx.toNat ≤ r.buf.length
  short : ∀ field ∈ ahead, field.Short
  small : r.buf.length < 65535

section Reading

variable {r : Reader} {field : Field} {ahead : List Field}

/-- A reader at the beginning of a message. -/
theorem standing_start {message : List Field} (short : ∀ field ∈ message, field.Short)
    (small : (messageBytes message).length < 65535) (idvId idvLen : UInt8) (idvValue : Nat) :
    Standing ⟨messageBytes message, 0, idvId, idvLen, idvValue⟩ message :=
  ⟨rfl, Nat.zero_le _, short, small⟩

/-- Behind the last field there is no further one. -/
theorem Standing.next_nil (standing : Standing r []) : r.next = (r, false) := by
  have length := congrArg List.length standing.bytes
  have inside := standing.inside
  rw [List.length_drop] at length
  have none_ : (messageBytes []).length = 0 := rfl
  rw [Reader.next]
  split
  · rfl
  · exact if_pos (by omega)

/-- **`next` at a complete field** stands on it, with the cursor behind it. -/
theorem Reader.next_field {rest : List UInt8} (small : r.buf.length ≤ 65535)
    (bytes : r.buf.drop r.bufIdx.toNat = field.bytes ++ rest) (short : field.Short) :
    ∃ cursor : UInt16, cursor.toNat = r.bufIdx.toNat + 2 + field.value.length ∧
      r.next = (⟨r.buf, cursor, field.id, UInt8.ofNat field.value.length, r.bufIdx.toNat + 2⟩,
        true) ∧
      r.buf.drop (r.bufIdx.toNat + 2) = field.value ++ rest := by
  have shortNat : field.value.length < 256 := short
  have length := congrArg List.length bytes
  rw [List.length_drop, List.length_append, Field.bytes_length] at length
  have one : (r.bufIdx + 1).toNat = r.bufIdx.toNat + 1 := by
    rw [UInt16.toNat_add]
    exact Nat.mod_eq_of_lt (show r.bufIdx.toNat + 1 < 65536 by omega)
  have two : (r.bufIdx + 1 + 1).toNat = r.bufIdx.toNat + 2 := by
    rw [UInt16.toNat_add, one]
    exact Nat.mod_eq_of_lt (show r.bufIdx.toNat + 1 + 1 < 65536 by omega)
  have byteAt : ∀ offset byte, (r.buf.drop r.bufIdx.toNat)[offset]? = some byte →
      r.buf.getD (r.bufIdx.toNat + offset) 0 = byte := by
    intro offset byte found
    rw [List.getElem?_drop] at found
    rw [List.getD_eq_getElem?_getD, found]
    rfl
  have id : r.buf.getD r.bufIdx.toNat 0 = field.id := byteAt 0 _ (by rw [bytes]; rfl)
  have len : r.buf.getD (r.bufIdx.toNat + 1) 0 = UInt8.ofNat field.value.length :=
    byteAt 1 _ (by rw [bytes]; rfl)
  have lenNat : (UInt8.ofNat field.value.length).toNat = field.value.length :=
    UInt8.toNat_ofNat_of_lt' short
  have place : (r.bufIdx + 1 + 1 + (UInt8.ofNat field.value.length).toUInt16).toNat =
      r.bufIdx.toNat + 2 + field.value.length := by
    rw [UInt16.toNat_add, two, UInt8.toNat_toUInt16, lenNat]
    exact Nat.mod_eq_of_lt (show r.bufIdx.toNat + 2 + field.value.length < 65536 by omega)
  refine ⟨_, place, ?_, ?_⟩
  · rw [Reader.next, if_neg, if_neg (by omega)]
    · simp only [one, two, id, len]
      rw [if_neg (by omega)]
    · intro last
      have lastNat := congrArg UInt16.toNat last
      have value : (0xFFFF : UInt16).toNat = 65535 := rfl
      omega
  · rw [← List.drop_drop, bytes]
    rfl

/-- **`next`** stands on the first field ahead, with its id and its value. -/
theorem Standing.next (standing : Standing r (field :: ahead)) :
    r.next.2 = true ∧ r.next.1.idvId = field.id ∧ r.next.1.value = field.value ∧
      r.next.1.idvLen.toNat = field.value.length ∧
      (∀ byte, field.value = [byte] → r.next.1.buf.getD r.next.1.idvValue 0 = byte) ∧
      Standing r.next.1 ahead := by
  have small := standing.small
  have short := standing.short field List.mem_cons_self
  have split : messageBytes (field :: ahead) = field.bytes ++ messageBytes ahead :=
    List.flatMap_cons
  obtain ⟨cursor, place, next, behind⟩ :=
    Reader.next_field (Nat.le_of_lt small) (standing.bytes.trans split) short
  have lenNat : (UInt8.ofNat field.value.length).toNat = field.value.length :=
    UInt8.toNat_ofNat_of_lt' short
  have length := congrArg List.length behind
  rw [List.length_drop, List.length_append] at length
  rw [next]
  refine ⟨rfl, rfl, ?_, lenNat, fun byte one_ => ?_, ?_, ?_, ?_, small⟩
  · show (r.buf.drop (r.bufIdx.toNat + 2)).take (UInt8.ofNat field.value.length).toNat = _
    rw [behind, lenNat, List.take_left]
  · rw [one_] at behind
    show r.buf.getD (r.bufIdx.toNat + 2) 0 = byte
    rw [List.getD_eq_getElem?_getD, ← Nat.add_zero (r.bufIdx.toNat + 2), ← List.getElem?_drop,
      behind]
    rfl
  · show r.buf.drop cursor.toNat = _
    rw [place, ← List.drop_drop, behind, List.drop_left]
  · have inside := standing.inside
    have bytes := congrArg List.length (standing.bytes.trans split)
    rw [List.length_drop, List.length_append, Field.bytes_length] at bytes
    show cursor.toNat ≤ r.buf.length
    omega
  · exact fun other member => standing.short other (List.mem_cons_of_mem _ member)

/-- `as<uint8_t>` of a field of one byte. -/
theorem asUInt8_eq {byte : UInt8} (length : r.idvLen.toNat = 1)
    (value : r.buf.getD r.idvValue 0 = byte) (val : UInt8) : r.asUInt8 val = (byte, true) := by
  rw [Reader.asUInt8, if_neg (not_not_intro length), value]

end Reading

end ForgeDrive.Idv
