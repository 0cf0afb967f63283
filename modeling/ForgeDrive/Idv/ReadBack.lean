/-
**Writing and reading is the identity** (`IDV.h`), for all types of values.

A value of a plain type is its bytes in memory, little endian (`Plain`); `add_*` appends a field with
these bytes and `as<T>` takes them for a value again. In a buffer of up to 65535 bytes the cursor of
the writer can reach the end, which is the sentinel of the reader's; there the reader has nothing
left to find either.

* `call_accepted` — a call that returns `OK` appends its field;
* `written_accepted` — so the bytes written are the fields of the calls that returned `OK`;
* `written_readBack` — and a reader over these bytes reads them back.
-/

import Mathlib.Data.Nat.Basic
import ForgeDrive.Idv.Exact
import ForgeDrive.Library.EventMachine

namespace ForgeDrive.Idv

open Circular (segment)
open EventMachine (run Along)

/-! ### Bytes of words -/

/-- The first `count` bytes of a number, little endian. -/
def leBytes : (count : Nat) → Nat → List UInt8
  | 0, _ => []
  | count + 1, value => UInt8.ofNat value :: leBytes count (value / 256)

/-- The number with these bytes. -/
def leValue : List UInt8 → Nat
  | [] => 0
  | byte :: rest => byte.toNat + 256 * leValue rest

@[simp] theorem leBytes_length (count value : Nat) : (leBytes count value).length = count := by
  induction count generalizing value with
  | zero => rfl
  | succ count ih => rw [leBytes, List.length_cons, ih]

theorem leValue_leBytes (count value : Nat) :
    leValue (leBytes count value) = value % 256 ^ count := by
  induction count generalizing value with
  | zero => rw [Nat.pow_zero, Nat.mod_one]; rfl
  | succ count ih =>
    have power : 256 ^ (count + 1) = 256 * 256 ^ count := Nat.pow_succ'
    rw [leBytes, leValue, ih, UInt8.toNat_ofNat', power, Nat.mod_mul]

/-- **A trivially copyable type**: a value is `size` bytes, which tell the value. -/
class Plain (T : Type) where
  size : Nat
  bytes : T → List UInt8
  ofBytes : List UInt8 → T
  size_lt : size < 256
  bytes_length : ∀ value, (bytes value).length = size
  ofBytes_bytes : ∀ value, ofBytes (bytes value) = value

/-- A type of words of `size` bytes. -/
@[reducible] def Plain.ofWord {T : Type} (size : Nat) (toNat : T → Nat) (ofNat : Nat → T)
    (size_lt : size < 256) (toNat_lt : ∀ value, toNat value < 256 ^ size)
    (ofNat_toNat : ∀ value, ofNat (toNat value) = value) : Plain T where
  size := size
  bytes := fun value => leBytes size (toNat value)
  ofBytes := fun bytes => ofNat (leValue bytes)
  size_lt := size_lt
  bytes_length := fun _ => leBytes_length _ _
  ofBytes_bytes := fun value => by
    rw [leValue_leBytes, Nat.mod_eq_of_lt (toNat_lt value), ofNat_toNat]

/-- A `float`, by its bits. -/
structure Single where
  bits : UInt32
  deriving DecidableEq, Repr

/-- A `double`, by its bits. -/
structure Double where
  bits : UInt64
  deriving DecidableEq, Repr

instance : Plain UInt8 := .ofWord 1 UInt8.toNat UInt8.ofNat (by decide) UInt8.toNat_lt fun _ =>
  UInt8.ofNat_toNat

instance : Plain UInt16 := .ofWord 2 UInt16.toNat UInt16.ofNat (by decide) UInt16.toNat_lt fun _ =>
  UInt16.ofNat_toNat

instance : Plain UInt32 := .ofWord 4 UInt32.toNat UInt32.ofNat (by decide) UInt32.toNat_lt fun _ =>
  UInt32.ofNat_toNat

instance : Plain UInt64 := .ofWord 8 UInt64.toNat UInt64.ofNat (by decide) UInt64.toNat_lt fun _ =>
  UInt64.ofNat_toNat

instance : Plain Int8 := .ofWord 1 (UInt8.toNat ·.toUInt8) (UInt8.toInt8 <| .ofNat ·) (by decide)
  (fun value => value.toUInt8.toNat_lt) fun value => by rw [UInt8.ofNat_toNat, Int8.toInt8_toUInt8]

instance : Plain Int16 := .ofWord 2 (UInt16.toNat ·.toUInt16) (UInt16.toInt16 <| .ofNat ·)
  (by decide) (fun value => value.toUInt16.toNat_lt) fun value => by
    rw [UInt16.ofNat_toNat, Int16.toInt16_toUInt16]

instance : Plain Int32 := .ofWord 4 (UInt32.toNat ·.toUInt32) (UInt32.toInt32 <| .ofNat ·)
  (by decide) (fun value => value.toUInt32.toNat_lt) fun value => by
    rw [UInt32.ofNat_toNat, Int32.toInt32_toUInt32]

instance : Plain Int64 := .ofWord 8 (UInt64.toNat ·.toUInt64) (UInt64.toInt64 <| .ofNat ·)
  (by decide) (fun value => value.toUInt64.toNat_lt) fun value => by
    rw [UInt64.ofNat_toNat, Int64.toInt64_toUInt64]

instance : Plain Single := .ofWord 4 (UInt32.toNat ·.bits) (⟨.ofNat ·⟩) (by decide)
  (fun value => value.bits.toNat_lt) fun value => by rw [UInt32.ofNat_toNat]

instance : Plain Double := .ofWord 8 (UInt64.toNat ·.bits) (⟨.ofNat ·⟩) (by decide)
  (fun value => value.bits.toNat_lt) fun value => by rw [UInt64.ofNat_toNat]

/-! ### The calls of the writer -/

/-- `Writer::add_INT8`. -/
def Writer.addInt8 (w : Writer) (id : UInt8) (value : Int8) : Writer × Err :=
  w.addPrimitive id (Plain.bytes value)

/-- `Writer::add_UINT16`. -/
def Writer.addUInt16 (w : Writer) (id : UInt8) (value : UInt16) : Writer × Err :=
  w.addPrimitive id (Plain.bytes value)

/-- `Writer::add_INT16`. -/
def Writer.addInt16 (w : Writer) (id : UInt8) (value : Int16) : Writer × Err :=
  w.addPrimitive id (Plain.bytes value)

/-- `Writer::add_INT32`. -/
def Writer.addInt32 (w : Writer) (id : UInt8) (value : Int32) : Writer × Err :=
  w.addPrimitive id (Plain.bytes value)

/-- `Writer::add_UINT64`. -/
def Writer.addUInt64 (w : Writer) (id : UInt8) (value : UInt64) : Writer × Err :=
  w.addPrimitive id (Plain.bytes value)

/-- `Writer::add_INT64`. -/
def Writer.addInt64 (w : Writer) (id : UInt8) (value : Int64) : Writer × Err :=
  w.addPrimitive id (Plain.bytes value)

/-- `Writer::add_DOUBLE`. -/
def Writer.addDouble (w : Writer) (id : UInt8) (value : Double) : Writer × Err :=
  w.addPrimitive id (Plain.bytes value)

/-- `Reader::as<T>`; `none` where it returns `false` and leaves the variable alone. -/
def Reader.as {T : Type} [Plain T] (r : Reader) : Option T :=
  if r.idvLen.toNat ≠ Plain.size T then none
  else some (Plain.ofBytes ((r.buf.drop r.idvValue).take (Plain.size T)))

/-- A call of an `add_*`. -/
inductive AddCall
  | uint8 (id : UInt8) (value : UInt8)
  | int8 (id : UInt8) (value : Int8)
  | uint16 (id : UInt8) (value : UInt16)
  | int16 (id : UInt8) (value : Int16)
  | uint32 (id : UInt8) (value : UInt32)
  | int32 (id : UInt8) (value : Int32)
  | uint64 (id : UInt8) (value : UInt64)
  | int64 (id : UInt8) (value : Int64)
  | float (id : UInt8) (value : Single)
  | double (id : UInt8) (value : Double)
  | binary (id : UInt8) (str : Nat → UInt8) (length : UInt8)

/-- The call. -/
def Writer.call (w : Writer) : AddCall → Writer × Err
  | .uint8 id value => w.addUInt8 id value
  | .int8 id value => w.addInt8 id value
  | .uint16 id value => w.addUInt16 id value
  | .int16 id value => w.addInt16 id value
  | .uint32 id value => w.addUInt32 id value
  | .int32 id value => w.addInt32 id value
  | .uint64 id value => w.addUInt64 id value
  | .int64 id value => w.addInt64 id value
  | .float id value => w.addFloat id value.bits
  | .double id value => w.addDouble id value
  | .binary id str length => w.addBinary id str length

/-- The id and the bytes that a call is given. -/
def AddCall.field : AddCall → Field
  | .uint8 id value => ⟨id, Plain.bytes value⟩
  | .int8 id value => ⟨id, Plain.bytes value⟩
  | .uint16 id value => ⟨id, Plain.bytes value⟩
  | .int16 id value => ⟨id, Plain.bytes value⟩
  | .uint32 id value => ⟨id, Plain.bytes value⟩
  | .int32 id value => ⟨id, Plain.bytes value⟩
  | .uint64 id value => ⟨id, Plain.bytes value⟩
  | .int64 id value => ⟨id, Plain.bytes value⟩
  | .float id value => ⟨id, Plain.bytes value⟩
  | .double id value => ⟨id, Plain.bytes value⟩
  | .binary id str length => ⟨id, segment str 0 length.toNat⟩

/-- `as<T>`, for the type of the value that a call is given, returns this value. -/
def AddCall.GivenBy (r : Reader) : AddCall → Prop
  | .uint8 _ value => r.as = some value
  | .int8 _ value => r.as = some value
  | .uint16 _ value => r.as = some value
  | .int16 _ value => r.as = some value
  | .uint32 _ value => r.as = some value
  | .int32 _ value => r.as = some value
  | .uint64 _ value => r.as = some value
  | .int64 _ value => r.as = some value
  | .float _ value => r.as = some value
  | .double _ value => r.as = some value
  | .binary _ _ _ => True

/-- A call, with itself as the event if it returns `OK`. -/
def addStep (w : Writer) (call : AddCall) : Writer × List AddCall :=
  ((w.call call).1, if (w.call call).2 = .ok then [call] else [])

/-- **The reader reads the calls back**: `next` stands on the field of each of them, with its id,
its length, its bytes and its value, and fails behind the last. -/
def ReadBack : Reader → List AddCall → Prop
  | r, [] => r.next.2 = false
  | r, call :: rest =>
    r.next.2 = true ∧ r.next.1.idvId = call.field.id ∧
      r.next.1.idvLen.toNat = call.field.value.length ∧ r.next.1.value = call.field.value ∧
      call.GivenBy r.next.1 ∧ ReadBack r.next.1 rest

/-! ### Writing -/

/-- The bytes of a word of 32 bits, as `add_UINT32` and `add_FLOAT` write them. -/
theorem wordBytes_eq (value : UInt32) : wordBytes value = leBytes 4 value.toNat := by
  have byte : ∀ shift : UInt32, shift.toNat < 32 →
      (value >>> shift).toUInt8 = UInt8.ofNat (value.toNat / 2 ^ shift.toNat) := by
    intro shift less
    rw [← UInt8.toNat_inj, UInt32.toNat_toUInt8, UInt32.toNat_shiftRight, UInt8.toNat_ofNat',
      Nat.mod_eq_of_lt less, Nat.shiftRight_eq_div_pow]
  have first : value.toUInt8 = UInt8.ofNat value.toNat := by
    rw [← UInt8.toNat_inj, UInt32.toNat_toUInt8, UInt8.toNat_ofNat']
  rw [wordBytes, first, byte 8 (by decide), byte 16 (by decide), byte 24 (by decide)]
  simp only [leBytes, Nat.div_div_eq_div_mul]
  rfl

/-- **Every call is `add` of its field.** -/
theorem call_eq (w : Writer) (call : AddCall) : w.call call = w.add call.field := by
  cases call with
  | uint8 id value =>
    have one : [value] = leBytes 1 value.toNat := by
      rw [leBytes, UInt8.ofNat_toNat]
      rfl
    exact congrArg (w.addPrimitive id) one
  | uint32 id value => exact congrArg (w.addPrimitive id) (wordBytes_eq value)
  | float id value => exact congrArg (w.addPrimitive id) (wordBytes_eq value.bits)
  | binary id str length => exact addBinary_eq w id str length
  | int8 | uint16 | int16 | int32 | uint64 | int64 | double => rfl

theorem field_short (call : AddCall) : call.field.Short := by
  have plain : ∀ {T : Type} [Plain T] (value : T), (Plain.bytes value).length < 256 := by
    intro T _ value
    rw [Plain.bytes_length]
    exact Plain.size_lt
  cases call with
  | binary id str length =>
    exact lt_of_eq_of_lt (Circular.segment_length _ _ _) length.toNat_lt
  | uint8 | int8 | uint16 | int16 | uint32 | int32 | uint64 | int64 | float | double =>
    exact plain _

/-- **A call that does not return `OK`** leaves the writer alone. -/
theorem call_refused {w : Writer} {call : AddCall} (refused : (w.call call).2 ≠ .ok) :
    (w.call call).1 = w := by
  rw [call_eq, Writer.add, Writer.addPrimitive] at refused ⊢
  split at refused
  case isTrue full => rw [if_pos full]
  case isFalse => exact absurd rfl refused

/-- What has been written into a buffer of `size` bytes by calls that returned `OK`. -/
structure Written (size : Nat) (w : Writer) (accepted : List AddCall) : Prop where
  sized : w.bufSize = size
  inside : w.bufIdx.toNat ≤ size
  bytes : w.written = messageBytes (accepted.map AddCall.field)

theorem call_accepted {size : Nat} (small : size ≤ 65535) {w : Writer} {accepted : List AddCall}
    (written : Written size w accepted) {call : AddCall} (ok : (w.call call).2 = .ok) :
    Written size (w.call call).1 (accepted ++ [call]) := by
  have sized := written.sized
  rw [call_eq] at ok ⊢
  have fits : w.bufIdx.toNat + call.field.bytes.length ≤ size := by
    have room := ok
    rw [Writer.add, Writer.addPrimitive] at room
    rw [Field.bytes_length]
    split at room
    case isTrue => cases room
    case isFalse notFull => omega
  obtain ⟨appended, index⟩ := add_written ok (by omega)
  refine ⟨?_, index.trans_le fits, ?_⟩
  · rw [add_bufSize, sized]
  · rw [appended, written.bytes, List.map_append, messageBytes, messageBytes, List.flatMap_append]
    exact congrArg _ (List.append_nil _).symm

/-- **The bytes written** are the fields of the calls that returned `OK`. -/
theorem written_accepted (buffer : Nat → UInt8) {size : Nat} (small : size ≤ 65535)
    (calls : List AddCall) :
    Written size (run addStep (Writer.new buffer size) calls).1
      (run addStep (Writer.new buffer size) calls).2 := by
  have start : Written size (Writer.new buffer size) [] := ⟨rfl, Nat.zero_le _, rfl⟩
  refine EventMachine.run_history_always addStep (Written size) (fun w call past holds => ?_) start
    calls
  show Written size (w.call call).1 (past ++ if _ then _ else _)
  by_cases ok : (w.call call).2 = .ok
  · rw [if_pos ok]
    exact call_accepted small holds ok
  · rw [if_neg ok, List.append_nil, call_refused ok]
    exact holds

/-! ### Reading -/

section Reading

variable {r : Reader}

/-- **`as<T>`** of the bytes of a value is the value. -/
theorem as_eq {T : Type} [Plain T] {value : T}
    (length : r.idvLen.toNat = (Plain.bytes value).length) (bytes : r.value = Plain.bytes value) :
    r.as = some value := by
  have size := length.trans (Plain.bytes_length value)
  rw [Reader.as, if_neg (not_not_intro size), ← size]
  show some (Plain.ofBytes r.value) = _
  rw [bytes, Plain.ofBytes_bytes]

theorem givenBy (call : AddCall) (length : r.idvLen.toNat = call.field.value.length)
    (bytes : r.value = call.field.value) : call.GivenBy r := by
  cases call with
  | binary id str length => trivial
  | uint8 | int8 | uint16 | int16 | uint32 | int32 | uint64 | int64 | float | double =>
    exact as_eq length bytes

/-- **The fields of the calls ahead** are read back. -/
theorem Ahead.readBack {calls : List AddCall}
    (here : Ahead r (calls.map AddCall.field) []) : ReadBack r calls := by
  induction calls generalizing r with
  | nil => exact here.next_nil.1
  | cons call rest ih =>
    obtain ⟨finds, -, taken, value, -, later⟩ := here.next_cons
    have id : r.next.1.idvId = call.field.id := congrArg Taken.id taken
    have idvLen : r.next.1.idvLen = UInt8.ofNat call.field.value.length :=
      congrArg Taken.length taken
    have length : r.next.1.idvLen.toNat = call.field.value.length := by
      rw [idvLen]
      exact UInt8.toNat_ofNat_of_lt' (field_short call)
    exact ⟨finds, id, length, value, givenBy call length value, ih later⟩

end Reading

/-- **Writing and then reading is the identity**: in a buffer of at most 65535 bytes, after any
calls, of which those that return `OK` are accepted and the others change nothing, a reader at the
beginning of the bytes written reads back the calls that were accepted. -/
theorem written_readBack (buffer : Nat → UInt8) {size : Nat} (small : size ≤ 65535)
    (calls : List AddCall) :
    Along addStep (fun w call => (w.call call).2 ≠ .ok → (w.call call).1 = w)
      (Writer.new buffer size) calls ∧
    ∀ idvId idvLen idvValue,
      ReadBack ⟨(run addStep (Writer.new buffer size) calls).1.written, 0, idvId, idvLen, idvValue⟩
        (run addStep (Writer.new buffer size) calls).2 := by
  have written := written_accepted buffer small calls
  refine ⟨EventMachine.along_of_forall addStep (fun _ _ => call_refused) _ calls,
    fun idvId idvLen idvValue => Ahead.readBack ?_⟩
  refine ⟨?_, by decide, ?_, Nat.zero_le _, ?_⟩
  · rw [List.append_nil, ← written.bytes]
    rfl
  · intro field member
    obtain ⟨call, -, rfl⟩ := List.mem_map.mp member
    exact field_short call
  · have inside := written.inside
    show (segment _ 0 _).length ≤ 65535
    rw [Circular.segment_length]
    omega

/-- Nine bytes: the second call is refused, and the two others are read back. -/
theorem written_readBack_nine :
    let after := run addStep (Writer.new (fun _ => 0) 9)
      [.int16 1 (-2), .uint64 2 5, .binary 3 (fun _ => 7) 3]
    after.2 = [.int16 1 (-2), .binary 3 (fun _ => 7) 3] ∧
      after.1.written = [1, 2, 254, 255, 3, 3, 7, 7, 7] ∧
      Along addStep (fun w call => (w.call call).2 ≠ .ok → (w.call call).1 = w)
        (Writer.new (fun _ => 0) 9) [.int16 1 (-2), .uint64 2 5, .binary 3 (fun _ => 7) 3] ∧
      ∀ idvId idvLen idvValue,
        ReadBack ⟨after.1.written, 0, idvId, idvLen, idvValue⟩ after.2 :=
  ⟨rfl, by decide +kernel, written_readBack (fun _ => 0) (by decide) _⟩

end ForgeDrive.Idv
