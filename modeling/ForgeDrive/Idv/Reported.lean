/-
**What the errors of the writer report** (`IDV.h`).

A call of `add_*` is accepted if its field fits behind the cursor (`add_accepted`, `add_refused`),
and nothing else is looked at: neither whether the length went through a `uint8_t` whole, nor whether
the cursor can count beyond the field.

* `okMeansWhole_iff` — so `OK` means that a value of `n` bytes was stored exactly for values of at
  most 255 bytes that end by the index 65535, or where the call is refused;
* `addRow_reports_iff` — and if of a row of fields only the last result is looked at, it reports them
  all exactly if they all fit, or if the fields that fit leave no room for the last one.
-/

import Mathlib.Tactic.SplitIfs
import ForgeDrive.Idv.RoundTrip

namespace ForgeDrive.Idv

open Circular (segment)

/-! ### One call -/

section Add

variable {w : Writer} {field : Field}

theorem add_refused (full : w.bufSize < w.bufIdx.toNat + field.bytes.length) :
    w.add field = (w, .bufferFull) := by
  rw [Field.bytes_length] at full
  exact if_pos (by omega)

/-- **A field that fits** is accepted, and the cursor moves behind it, modulo `2^16`. -/
theorem add_accepted (fits : w.bufIdx.toNat + field.bytes.length ≤ w.bufSize) :
    (w.add field).2 = .ok ∧ (w.add field).1.bufSize = w.bufSize ∧
      (w.add field).1.bufIdx.toNat = (w.bufIdx.toNat + field.bytes.length) % 65536 := by
  rw [Field.bytes_length] at fits ⊢
  have accepted : w.add field =
      (((w.put field.id).put (UInt8.ofNat field.value.length)).copy field.value, .ok) :=
    if_neg (by omega)
  rw [accepted]
  refine ⟨rfl, rfl, ?_⟩
  show (w.bufIdx + 1 + 1 + UInt16.ofNat field.value.length).toNat = _
  have one : (1 : UInt16).toNat = 1 := rfl
  rw [UInt16.toNat_add, UInt16.toNat_add, UInt16.toNat_add, UInt16.toNat_ofNat', one]
  omega

theorem add_ok_iff : (w.add field).2 = .ok ↔
    w.bufIdx.toNat + field.bytes.length ≤ w.bufSize := by
  rcases Nat.lt_or_ge w.bufSize (w.bufIdx.toNat + field.bytes.length) with full | fits
  · rw [add_refused full]
    exact iff_of_false (fun refused => by cases refused) (Nat.not_le.mpr full)
  · exact iff_of_true (add_accepted fits).1 fits

@[simp] theorem written_length (w : Writer) : w.written.length = w.bufIdx.toNat :=
  Circular.segment_length _ _ _

end Add

/-! ### Values longer than their length byte -/

/-- `Writer::add_BINARY<T>` of `count` elements of `size` bytes, the bytes behind `data`. -/
def Writer.addElements (w : Writer) (id : UInt8) (size : Nat) (data : Nat → UInt8)
    (count : UInt8) : Writer × Err :=
  w.addBinary id data (UInt8.ofNat (size * count.toNat))

/-- `Writer::add<T>` of a value of `size` bytes. -/
def Writer.addValue (w : Writer) (id : UInt8) (size : Nat) (value : Nat → UInt8) :
    Writer × Err :=
  w.addBinary id value (UInt8.ofNat size)

/-- **The whole value is stored**: what is new is a field with the length of the value, and all of
its bytes. -/
def StoresWhole (w after : Writer) (id : UInt8) (data : Nat → UInt8) (n : Nat) : Prop :=
  ∃ length : UInt8, length.toNat = n ∧ after.written = w.written ++ id :: length :: segment data 0 n

/-- `OK` from a call on `w` means that the whole value was stored. -/
def OkMeansWhole (w : Writer) (call : Writer × Err) (id : UInt8) (data : Nat → UInt8) (n : Nat) :
    Prop := call.2 = .ok → StoresWhole w call.1 id data n

/-- There is no room for a field with what is left of the length in a `uint8_t`. -/
def Refuses (w : Writer) (n : Nat) : Prop := w.bufSize < w.bufIdx.toNat + n % 256 + 2

/-- A value of `n` bytes has a length byte, and ends where the cursor can still count. -/
def Countable (w : Writer) (n : Nat) : Prop := n ≤ 255 ∧ w.bufIdx.toNat + n + 2 ≤ 65535

/-- **`OK` means that the whole value was stored** exactly for values of at most 255 bytes that end
by the index 65535, or where the call is refused. -/
theorem okMeansWhole_iff (w : Writer) (id : UInt8) (data : Nat → UInt8) (n : Nat) :
    OkMeansWhole w (w.addBinary id data (UInt8.ofNat n)) id data n ↔
      Refuses w n ∨ Countable w n := by
  have cut : (UInt8.ofNat n).toNat = n % 256 := UInt8.toNat_ofNat'
  have length : (Field.bytes ⟨id, segment data 0 (n % 256)⟩).length = 2 + n % 256 := by
    rw [Field.bytes_length, Circular.segment_length]
  rw [addBinary_eq, cut]
  by_cases refuses : Refuses w n
  · have full := refuses
    unfold Refuses at full
    rw [add_refused (by omega)]
    exact iff_of_true (fun ok => by cases ok) (Or.inl refuses)
  · have fits := refuses
    unfold Refuses at fits
    have inside : w.bufIdx.toNat + (Field.bytes ⟨id, segment data 0 (n % 256)⟩).length ≤
        w.bufSize := by omega
    obtain ⟨ok, -, index⟩ := add_accepted inside
    rw [length] at index
    rw [or_iff_right refuses]
    unfold Countable
    constructor
    · intro stores
      obtain ⟨stored, storedLength, written⟩ := stores ok
      have short := stored.toNat_lt
      have lengths := congrArg List.length written
      rw [written_length, List.length_append, List.length_cons, List.length_cons,
        Circular.segment_length, written_length, index] at lengths
      omega
    · rintro ⟨short, inside⟩ -
      have whole : n % 256 = n := Nat.mod_eq_of_lt (by omega)
      obtain ⟨written, -⟩ := add_written (w := w) ok (by omega)
      refine ⟨UInt8.ofNat n, by rw [cut, whole], ?_⟩
      rw [written, Field.bytes, Circular.segment_length, whole]

/-! ### Rows of fields -/

/-- What is left of `free` bytes when fields of these sizes are taken from them in turn, each if it
still fits. -/
def left (free : Nat) (sizes : List Nat) : Nat :=
  sizes.foldl (fun free size => if size ≤ free then free - size else free) free

theorem left_cons (free size : Nat) (rest : List Nat) :
    left free (size :: rest) = left (if size ≤ free then free - size else free) rest := rfl

theorem left_nil (free : Nat) : left free [] = free := rfl

/-- The sizes of fields with their headers. -/
def sizes (row : List Field) : List Nat := row.map fun field => field.bytes.length

/-- **`OK` reports a row** of these sizes before a last mark of three bytes: in a buffer that the
cursor can count, unless `loses` holds of the free bytes. In a larger one, the row ends where the
cursor can count, or it is refused the last mark before the cursor has gone around. -/
def KeepsErrors (w : Writer) (row : List Nat) (loses : Nat → Prop) : Prop :=
  if w.bufSize ≤ 65535 then ¬ loses (w.bufSize - w.bufIdx.toNat)
  else w.bufIdx.toNat + row.sum + 3 ≤ 65535 ∨
    w.bufSize - 65535 ≤ left (w.bufSize - w.bufIdx.toNat) row ∧
      left (w.bufSize - w.bufIdx.toNat) row < 3

/-- The fields of a row, and the last one, of which alone the result is looked at. -/
def Writer.addRow (w : Writer) (body : List Field) (last : Field) : Writer × Err :=
  (w.addAll body).add last

/-- **`OK` from a call on `w` means that every field was written**: the bytes written are those of
the fields, behind what was there. -/
def Reports (w : Writer) (call : Writer × Err) (message : List Field) : Prop :=
  call.2 = .ok → call.1.written = w.written ++ messageBytes message

/-- How the cursor stands while a row is written, against what would be `left` of the free bytes,
with `rest` bytes to come: as many are free, or the cursor has gone around, in a buffer that is
larger than it can count, and all that is to come fits. -/
def Filling (w : Writer) (free rest : Nat) : Prop :=
  (w.bufSize - w.bufIdx.toNat = free ∧ w.bufSize - 65535 ≤ free) ∨
    (free < w.bufSize - 65535 ∧ w.bufIdx.toNat + rest ≤ 65535)

section Row

variable {w : Writer} {field last : Field} {body : List Field} {free rest : Nat}

theorem messageBytes_cons_length (field : Field) (row : List Field) :
    (messageBytes (field :: row)).length = field.bytes.length + (messageBytes row).length := by
  rw [messageBytes, List.flatMap_cons, List.length_append]
  rfl

theorem messageBytes_concat_length (row : List Field) (field : Field) :
    (messageBytes (row ++ [field])).length = (messageBytes row).length + field.bytes.length := by
  rw [messageBytes, List.flatMap_append, List.length_append, List.flatMap_singleton]
  rfl

theorem sum_sizes (row : List Field) : (sizes row).sum = (messageBytes row).length :=
  (List.length_flatMap ..).symm

theorem addAll_concat (w : Writer) (body : List Field) (last : Field) :
    w.addAll (body ++ [last]) = (w.addRow body last).1 := by
  rw [Writer.addAll, List.foldl_append]
  rfl

/-- **One field** leaves as many bytes as it would take from the free ones. -/
theorem Filling.add (filling : Filling w free (field.bytes.length + rest))
    (small : field.bytes.length + rest ≤ 65535) :
    Filling (w.add field).1
      (if field.bytes.length ≤ free then free - field.bytes.length else free) rest := by
  have header : 2 ≤ field.bytes.length := by
    rw [Field.bytes_length]
    omega
  have size := add_bufSize w field
  unfold Filling at filling ⊢
  rw [size]
  rcases filling with ⟨same, inside⟩ | ⟨around, fits⟩
  · by_cases room : field.bytes.length ≤ free
    · have fits : w.bufIdx.toNat + field.bytes.length ≤ w.bufSize := by omega
      obtain ⟨-, -, index⟩ := add_accepted fits
      rw [if_pos room, index]
      rcases Nat.lt_or_ge 65535 (w.bufIdx.toNat + field.bytes.length) with wraps | counts
      · right
        omega
      · left
        omega
    · rw [if_neg room, add_refused (by omega)]
      exact Or.inl ⟨same, inside⟩
  · have inside : w.bufIdx.toNat + field.bytes.length ≤ w.bufSize := by omega
    obtain ⟨-, -, index⟩ := add_accepted inside
    rw [index]
    right
    split_ifs <;> omega

/-- **A row of fields.** -/
theorem Filling.addAll (filling : Filling w free ((messageBytes body).length + rest))
    (small : (messageBytes body).length + rest ≤ 65535) :
    Filling (w.addAll body) (left free (sizes body)) rest := by
  induction body generalizing w free with
  | nil =>
    rw [show (messageBytes []).length = 0 from rfl, Nat.zero_add] at filling
    exact filling
  | cons field row ih =>
    rw [messageBytes_cons_length, Nat.add_assoc] at filling small
    exact ih (filling.add small) (by omega)

/-- **The last field is refused** exactly if less is left than it takes, and, in a buffer larger
than the cursor can count, the cursor has not gone around. -/
theorem addRow_refused_iff (small : (messageBytes (body ++ [last])).length ≤ 65535) :
    (w.addRow body last).2 ≠ .ok ↔
      w.bufSize - 65535 ≤ left (w.bufSize - w.bufIdx.toNat) (sizes body) ∧
        left (w.bufSize - w.bufIdx.toNat) (sizes body) < last.bytes.length := by
  rw [messageBytes_concat_length] at small
  have header : 2 ≤ last.bytes.length := by
    rw [Field.bytes_length]
    omega
  have cursor := w.bufIdx.toNat_lt
  have start : Filling w (w.bufSize - w.bufIdx.toNat)
      ((messageBytes body).length + last.bytes.length) := Or.inl ⟨rfl, by omega⟩
  have filling := start.addAll small
  have size := addAll_bufSize w body
  rw [Writer.addRow, Ne, add_ok_iff, size]
  unfold Filling at filling
  rw [size] at filling
  omega

/-- A row that fits is accepted. -/
theorem takes_of_fits (fits : w.bufIdx.toNat + (messageBytes body).length ≤ w.bufSize)
    (small : w.bufIdx.toNat + (messageBytes body).length ≤ 65535) : w.Takes body := by
  induction body generalizing w with
  | nil => trivial
  | cons field row ih =>
    rw [messageBytes_cons_length] at fits small
    have inside : w.bufIdx.toNat + field.bytes.length ≤ w.bufSize := by omega
    obtain ⟨ok, size, index⟩ := add_accepted inside
    rw [Nat.mod_eq_of_lt (by omega)] at index
    exact ⟨ok, ih (by omega) (by omega)⟩

/-- **The last result reports a row** exactly if the whole row fits, or if the fields that fit leave
no room for the last one. -/
theorem addRow_reports_iff (small : (messageBytes (body ++ [last])).length ≤ 65535) :
    Reports w (w.addRow body last) (body ++ [last]) ↔
      w.bufIdx.toNat + (messageBytes (body ++ [last])).length ≤ min w.bufSize 65535 ∨
        w.bufSize - 65535 ≤ left (w.bufSize - w.bufIdx.toNat) (sizes body) ∧
          left (w.bufSize - w.bufIdx.toNat) (sizes body) < last.bytes.length := by
  rw [← addRow_refused_iff small]
  constructor
  · intro reports
    by_cases ok : (w.addRow body last).2 = .ok
    · left
      have lengths := congrArg List.length (reports ok)
      rw [List.length_append, written_length, written_length] at lengths
      have counted := (w.addRow body last).1.bufIdx.toNat_lt
      have fits := add_ok_iff.mp ok
      obtain ⟨-, -, index⟩ := add_accepted fits
      have same : (w.addRow body last).1.bufIdx.toNat = _ := index
      have size := addAll_bufSize w body
      omega
    · exact Or.inr ok
  · rintro (fits | refused) ok
    · have takes : w.Takes (body ++ [last]) := takes_of_fits (by omega) (by omega)
      rw [← addAll_concat]
      exact written_addAll takes (by omega)
    · exact absurd ok refused

/-- **The last mark reports a row** unless the free bytes are such that a field is refused and the
mark is not. -/
theorem keepsErrors_iff {row : List Nat} {loses : Nat → Prop} (same : sizes body = row)
    (mark : last.bytes.length = 3) (small : row.sum + 3 ≤ 65535)
    (loses_iff : ∀ free, row.sum + 3 ≤ free ∨ left free row < 3 ↔ ¬ loses free) :
    Reports w (w.addRow body last) (body ++ [last]) ↔ KeepsErrors w row loses := by
  have total : (messageBytes (body ++ [last])).length = row.sum + 3 := by
    rw [messageBytes_concat_length, mark, ← same, sum_sizes]
  rw [addRow_reports_iff (by omega), total, mark, same, KeepsErrors]
  split_ifs with counts
  · rw [← loses_iff]
    omega
  · omega

/-- The cursor stays in the buffer. -/
theorem addAll_inside (inside : w.bufIdx.toNat ≤ w.bufSize) :
    (w.addAll body).bufIdx.toNat ≤ w.bufSize := by
  induction body generalizing w with
  | nil => exact inside
  | cons field row ih =>
    suffices next : (w.add field).1.bufIdx.toNat ≤ (w.add field).1.bufSize by
      rw [← add_bufSize w field]
      exact ih next
    rcases Nat.lt_or_ge w.bufSize (w.bufIdx.toNat + field.bytes.length) with full | fits
    · rw [add_refused full]
      exact inside
    · obtain ⟨-, size, index⟩ := add_accepted fits
      rw [size, index]
      exact le_trans (Nat.mod_le _ _) fits

/-- **An empty writer holds all fields of a row** exactly if there is room for them. -/
theorem addAll_written_iff (empty : w.bufIdx = 0) (small : (messageBytes body).length ≤ 65535) :
    (w.addAll body).written = messageBytes body ↔ (messageBytes body).length ≤ w.bufSize := by
  have start : w.bufIdx.toNat = 0 := congrArg UInt16.toNat empty
  constructor
  · intro written
    have inside : (w.addAll body).bufIdx.toNat ≤ w.bufSize :=
      addAll_inside (start ▸ Nat.zero_le w.bufSize)
    rw [← written, written_length]
    exact inside
  · intro fits
    have nothing : w.written = [] := List.eq_nil_of_length_eq_zero (by rw [written_length, start])
    have takes : w.Takes body := takes_of_fits (by omega) (by omega)
    rw [written_addAll takes (by omega), nothing, List.nil_append]

end Row

end ForgeDrive.Idv
