/-
**The id–length–value messages** (`IDV.h`).

A message is a row of fields, each an id byte, a length byte and that many value bytes. `Writer`
appends fields to a buffer, `Reader` walks over a span of bytes. `fields` says what a message
means: the fields it begins with, up to the first one that is not complete.

The span of a reader is the list of bytes it views, and `idv_value` is an offset in it. Whatever a
program does, the reader of a session is one of those that the public members of `Reader` bring
about (`Made`): none of them ever sets the span (`Made.buf_eq`).
-/

import ForgeDrive.Library.Circular

namespace ForgeDrive.Idv

open Circular (segment store)

inductive Err
  | ok
  | bufferFull
  deriving DecidableEq, Repr

/-! ### The writer -/

/-- `idv::Writer`, with the memory of its span. -/
structure Writer where
  buf : Nat → UInt8
  bufSize : Nat
  bufIdx : UInt16

/-- `Writer::Writer`. -/
def Writer.new (buffer : Nat → UInt8) (size : Nat) : Writer := ⟨buffer, size, 0⟩

/-- `Writer::reset`. -/
def Writer.reset (w : Writer) : Writer := { w with bufIdx := 0 }

/-- `buf[buf_idx++] = byte`. -/
def Writer.put (w : Writer) (byte : UInt8) : Writer :=
  { w with buf := Function.update w.buf w.bufIdx.toNat byte, bufIdx := w.bufIdx + 1 }

/-- The `memcpy` to `buf.data() + buf_idx`, and the step of the index behind it. -/
def Writer.copy (w : Writer) (bytes : List UInt8) : Writer :=
  { w with
    buf := store w.buf w.bufIdx.toNat bytes, bufIdx := w.bufIdx + UInt16.ofNat bytes.length }

/-- `Writer::addPrimitive` of a value with these bytes in memory. -/
def Writer.addPrimitive (w : Writer) (id : UInt8) (value : List UInt8) : Writer × Err :=
  if w.bufIdx.toNat + value.length + 2 > w.bufSize then (w, .bufferFull)
  else (((w.put id).put (UInt8.ofNat value.length)).copy value, .ok)

/-- `Writer::add_UINT8`. -/
def Writer.addUInt8 (w : Writer) (id value : UInt8) : Writer × Err := w.addPrimitive id [value]

/-- The bytes of a 32-bit word in memory, on a little endian machine. -/
def wordBytes (value : UInt32) : List UInt8 :=
  [value.toUInt8, (value >>> 8).toUInt8, (value >>> 16).toUInt8, (value >>> 24).toUInt8]

/-- `Writer::add_UINT32`. -/
def Writer.addUInt32 (w : Writer) (id : UInt8) (value : UInt32) : Writer × Err :=
  w.addPrimitive id (wordBytes value)

/-- `Writer::add_FLOAT` of a `float` with these bits. -/
def Writer.addFloat (w : Writer) (id : UInt8) (bits : UInt32) : Writer × Err :=
  w.addPrimitive id (wordBytes bits)

/-- `Writer::add_BINARY` of the bytes behind `str`. -/
def Writer.addBinary (w : Writer) (id : UInt8) (str : Nat → UInt8) (length : UInt8) :
    Writer × Err :=
  if w.bufIdx.toNat + length.toNat + 2 > w.bufSize then (w, .bufferFull)
  else (((w.put id).put length).copy (segment str 0 length.toNat), .ok)

/-- The bytes `data()` points to, `size()` of them. -/
def Writer.written (w : Writer) : List UInt8 := segment w.buf 0 w.bufIdx.toNat

/-! ### The reader -/

/-- `idv::Reader`. -/
structure Reader where
  buf : List UInt8
  bufIdx : UInt16
  idvId : UInt8
  idvLen : UInt8
  idvValue : Nat

/-- `Reader::next`. -/
def Reader.next (r : Reader) : Reader × Bool :=
  if r.bufIdx = 0xFFFF then (r, false)
  else if r.bufIdx.toNat + 2 > r.buf.length then (r, false)
  else
    let r := { r with idvId := r.buf.getD r.bufIdx.toNat 0, bufIdx := r.bufIdx + 1 }
    let r := { r with idvLen := r.buf.getD r.bufIdx.toNat 0, bufIdx := r.bufIdx + 1 }
    if r.bufIdx.toNat + r.idvLen.toNat > r.buf.length then ({ r with bufIdx := 0xFFFF }, false)
    else ({ r with idvValue := r.bufIdx.toNat, bufIdx := r.bufIdx + r.idvLen.toUInt16 }, true)

/-- `Reader::reset`. -/
def Reader.reset (r : Reader) : Reader := { r with bufIdx := 0 }

/-- The bytes from `asBinary()`, `valueLength()` of them. -/
def Reader.value (r : Reader) : List UInt8 := (r.buf.drop r.idvValue).take r.idvLen.toNat

/-- `Reader::as<uint8_t>`, with the value of the variable before it. -/
def Reader.asUInt8 (r : Reader) (val : UInt8) : UInt8 × Bool :=
  if r.idvLen.toNat ≠ 1 then (val, false) else (r.buf.getD r.idvValue 0, true)

/-- **The readers a program can have.** The members without an initialiser start with any values,
and the constructor from a span does nothing with the span. -/
inductive Reader.Made : Reader → Prop
  | default (idvId idvLen : UInt8) (idvValue : Nat) : Made ⟨[], 0, idvId, idvLen, idvValue⟩
  | ofSpan (span : List UInt8) (idvId idvLen : UInt8) (idvValue : Nat) :
      Made (Reader.reset ⟨[], 0, idvId, idvLen, idvValue⟩)
  | next {r : Reader} (made : Made r) : Made r.next.1
  | reset {r : Reader} (made : Made r) : Made r.reset

theorem Reader.next_buf (r : Reader) : r.next.1.buf = r.buf := by
  simp only [Reader.next]
  split
  · rfl
  · split
    · rfl
    · split <;> rfl

/-- **No reader views any bytes.** -/
theorem Reader.Made.buf_eq {r : Reader} (made : r.Made) : r.buf = [] := by
  induction made with
  | default => rfl
  | ofSpan => rfl
  | next _ ih => rw [Reader.next_buf, ih]
  | reset _ ih => exact ih

/-- Over no bytes there is no field. -/
theorem Reader.next_empty {r : Reader} (empty : r.buf = []) : r.next = (r, false) := by
  simp only [Reader.next, empty, List.length_nil]
  split
  · rfl
  · rw [if_pos (Nat.succ_pos _)]

/-! ### What a message means -/

/-- A field of a message. -/
structure Field where
  id : UInt8
  value : List UInt8
  deriving DecidableEq, Repr

/-- **The fields a message begins with**, up to the first that is not complete. -/
def fields : List UInt8 → List Field
  | id :: length :: rest =>
    if length.toNat ≤ rest.length then
      ⟨id, rest.take length.toNat⟩ :: fields (rest.drop length.toNat)
    else []
  | _ => []
  termination_by message => message.length
  decreasing_by
    rw [List.length_drop, List.length_cons, List.length_cons]
    omega

/-- **The message begins with a complete field**: an id, a length and that many bytes. -/
def StartsWithField (message : List UInt8) : Prop :=
  2 ≤ message.length ∧ 2 + (message.getD 1 0).toNat ≤ message.length

instance (message : List UInt8) : Decidable (StartsWithField message) :=
  inferInstanceAs (Decidable (_ ∧ _))

/-- **There is a field to interpret when the message begins with one.** -/
theorem fields_eq_nil_iff (message : List UInt8) :
    fields message = [] ↔ ¬ StartsWithField message := by
  match message with
  | [] => simp [fields, StartsWithField]
  | [_] => simp [fields, StartsWithField]
  | id :: length :: rest =>
    rw [fields]
    have starts : StartsWithField (id :: length :: rest) ↔ length.toNat ≤ rest.length := by
      simp only [StartsWithField, List.length_cons, List.getD_cons_succ, List.getD_cons_zero]
      omega
    rw [starts]
    split
    · next complete => exact iff_of_false (List.cons_ne_nil _ _) (not_not_intro complete)
    · next incomplete => exact iff_of_true rfl incomplete

end ForgeDrive.Idv
