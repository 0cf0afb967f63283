/-
**The payload phase: what a header with a matching checksum delivers.**

A receiver that has consumed a sync byte and a good header is followed from there. Either the
declared length is one the receiver has room for and that many non-zero bytes come next: then one
frame is due, right behind them, with the bytes at the chained distances replaced by `0x00`
(`DeliversOnce`). Or no frame of this header is due at all (`NeverDelivers`).

`payloadExact_iff`: the code does just that, but for two slips (`Slips`). A header that declares no
payload delivers an empty frame and drops a byte, whatever it is; and the single byte of a payload
of length one is stored and delivered even if it is the `0x00` that has just reset the parser.
-/

import ForgeDrive.Abf.HeaderCheck
import ForgeDrive.Library.Chained

namespace ForgeDrive.Abf

open ZeroStuffing
open Circular (segment)

/-- The distance that a byte stands for: `0x00` means `256`. -/
def byteDistance (byte : UInt8) : Nat := if byte = 0 then 256 else byte.toNat

theorem byteDistance_counts : Counts byteCode byteDistance := by
  have values : ∀ byte : UInt8, byteDistance byte = if byte.toNat = 0 then 256 else byte.toNat := by
    intro byte
    rw [byteDistance]
    exact if_congr UInt8.toNat_inj.symm rfl rfl
  constructor
  · intro byte
    rw [values]
    split <;> omega
  · intro byte
    rw [values, show byteCode.code 1 = 1 from rfl, ← UInt8.toNat_inj]
    show _ ↔ byte.toNat = 1
    split <;> omega
  · intro byte notOne
    have lt := byte.toNat_lt
    have notOneNat : byte.toNat ≠ 1 := fun same => notOne (UInt8.toNat_inj.mp same)
    rw [values, values, byteCode_next, UInt8.toNat_sub]
    show _ =
      (if (2 ^ 8 - 1 + byte.toNat) % 2 ^ 8 = 0 then _ else (2 ^ 8 - 1 + byte.toNat) % 2 ^ 8) + 1
    by_cases zero : byte.toNat = 0
    · rw [zero]
      rfl
    · have back : (2 ^ 8 - 1 + byte.toNat) % 2 ^ 8 = byte.toNat - 1 := by omega
      rw [back, if_neg zero, if_neg (by omega)]
      omega

/-! ### What is due -/

section Due

variable (s : Stream) (serviceId payloadLen code : UInt8) (following : List UInt8)

/-- The receiver behind a header with a matching checksum. -/
def Stream.afterHeader : Stream :=
  (s.process [0, serviceId, payloadLen, code, headerCrc serviceId payloadLen code]).1

/-- No other header is begun while these bytes are consumed. -/
def NoHeaderBegun (t : Stream) (bytes : List UInt8) : Prop :=
  ∀ begun, begun <+: bytes → (t.process begun).1.state ≠ .readHeader

/-- The declared payload fits the receiver and comes next, without a zero. -/
structure PayloadFollows : Prop where
  some_ : 1 ≤ payloadLen.toNat
  room : payloadLen.toNat ≤ s.rxCapacity
  whole : payloadLen.toNat ≤ following.length
  nonzero : ∀ byte ∈ following.take payloadLen.toNat, byte ≠ 0

/-- **One frame, right behind the payload**: nothing before its last byte, then the frame, and
nothing more until another header is begun. -/
structure DeliversOnce : Prop where
  before : ∀ fed, fed <+: following → fed.length < payloadLen.toNat →
    ((s.afterHeader serviceId payloadLen code).process fed).2 = []
  frame : ∃ payload, ((s.afterHeader serviceId payloadLen code).process
      (following.take payloadLen.toNat)).2 = [.onFrame serviceId payload] ∧
    Replaced byteDistance 0 (byteDistance code) (following.take payloadLen.toNat) payload
  later : ∀ between byte after, following = between ++ byte :: after →
    payloadLen.toNat ≤ between.length →
    NoHeaderBegun (s.afterHeader serviceId payloadLen code) between →
    eventsAt (s.afterHeader serviceId payloadLen code) between byte = []

/-- **No frame of this header**: none is delivered before another header is begun. -/
def NeverDelivers : Prop :=
  ∀ between byte after, following = between ++ byte :: after →
    NoHeaderBegun (s.afterHeader serviceId payloadLen code) between →
    NoFrame (eventsAt (s.afterHeader serviceId payloadLen code) between byte)

/-- **The payload phase is exact.** -/
structure PayloadExact : Prop where
  due : PayloadFollows s payloadLen following → DeliversOnce s serviceId payloadLen code following
  undue : payloadLen = 0 ∨ 0 ∈ following.take payloadLen.toNat ∨ s.rxCapacity < payloadLen.toNat →
    NeverDelivers s serviceId payloadLen code following

/-- The two slips: an empty payload that a byte follows, and a payload of one byte that is zero. -/
def Slips (capacity : Nat) (payloadLen : UInt8) (following : List UInt8) : Prop :=
  (payloadLen = 0 ∧ following ≠ []) ∨ (payloadLen = 1 ∧ 1 ≤ capacity ∧ following.head? = some 0)

end Due

/-! ### What is delivered -/

section Delivered

variable {s : Stream} {serviceId payloadLen code : UInt8} {following : List UInt8}

theorem afterHeader_eq (hunt : s.state = .huntSync) : s.afterHeader serviceId payloadLen code =
    s.startPayload serviceId payloadLen code (headerCrc serviceId payloadLen code) :=
  congrArg Prod.fst (process_header hunt serviceId payloadLen code _)

/-- The stream from the header on. -/
theorem eventsAt_afterHeader (between : List UInt8) (byte : UInt8) :
    eventsAt (s.afterHeader serviceId payloadLen code) between byte =
      eventsAt s ([] ++ [0, serviceId, payloadLen, code, headerCrc serviceId payloadLen code] ++
        between) byte := by
  rw [eventsAt, eventsAt, List.nil_append, process_append]
  rfl

/-- A hunting receiver makes no callback before another header is begun. -/
theorem process_hunting {t : Stream} (hunt : t.state = .huntSync) {bytes : List UInt8}
    (noHeader : NoHeaderBegun t bytes) : (t.process bytes).1 = t := by
  induction bytes with
  | nil => rfl
  | cons byte rest ih =>
    have nonzero : byte ≠ 0 := by
      rintro rfl
      refine noHeader [0] (List.prefix_append [0] rest) ?_
      rw [process_cons, processOne_sync hunt]
      rfl
    have skip := processOne_skip hunt nonzero
    rw [process_cons, skip]
    refine ih fun begun isPrefix => ?_
    have next := noHeader (byte :: begun) (List.cons_prefix_cons.mpr ⟨rfl, isPrefix⟩)
    rw [process_cons, skip] at next
    exact next

theorem eventsAt_of_hunting {t : Stream} (hunt : t.state = .huntSync) {between : List UInt8}
    (noHeader : NoHeaderBegun t between) (byte : UInt8) : eventsAt t between byte = [] := by
  refine eventsAt_hunting ?_ byte
  rw [Hunting, process_hunting hunt noHeader]
  exact hunt

/-- **A payload that follows is delivered once.** -/
theorem deliversOnce (hunt : s.state = .huntSync)
    (follows : PayloadFollows s payloadLen following) :
    DeliversOnce s serviceId payloadLen code following := by
  set t := s.startPayload serviceId payloadLen code (headerCrc serviceId payloadLen code) with tDef
  have after : s.afterHeader serviceId payloadLen code = t := afterHeader_eq hunt
  have start : t.rxPos = 0 := rfl
  have declared : t.header 2 = payloadLen := rfl
  have capacity : t.rxCapacity = s.rxCapacity := rfl
  set taken := following.take payloadLen.toNat with takenDef
  have length : taken.length = payloadLen.toNat := List.length_take_of_le follows.whole
  have delivered : t.process taken = ((t.acceptAll taken).reset, [(t.acceptAll taken).frame]) :=
    process_payload_whole rfl (fun none => by
      have := follows.some_
      rw [none, List.length_nil] at length
      omega) (by rw [start, declared, length, Nat.zero_add])
    (by rw [declared, capacity]; exact follows.room)
    follows.nonzero
  constructor
  · intro fed isPrefix short
    have room := follows.room
    have part : fed <+: taken := List.prefix_take_iff.mpr ⟨isPrefix, short.le⟩
    rw [after, process_payload_open (s := t) rfl (by rw [start, declared]; omega)
      (by rw [start, capacity]; omega) fun byte member => follows.nonzero byte (part.subset member)]
  · refine ⟨unstuff byteCode code taken, ?_, unstuff_replaced byteDistance_counts code taken⟩
    rw [after, delivered]
    have contents : segment (Circular.store t.rxPayload 0 (unstuff byteCode code taken)) 0
        payloadLen.toNat = unstuff byteCode code taken := by
      have replaced := unstuff_replaced byteDistance_counts code taken
      rw [← length, ← replaced.length]
      exact Circular.segment_store _ _ _
    show [Event.onFrame serviceId (segment _ 0 payloadLen.toNat)] = _
    rw [← contents]
    rfl
  · rintro between byte rest split long noHeader
    obtain ⟨skipped, rfl⟩ : taken <+: between :=
      List.prefix_of_prefix_length_le (List.take_prefix _ _)
        (by rw [split]; exact List.prefix_append _ _) (length.trans_le long)
    have hunting : (t.process taken).1.state = .huntSync := by
      rw [delivered]
      rfl
    rw [after] at noHeader ⊢
    rw [eventsAt, process_append]
    refine eventsAt_of_hunting hunting (fun begun isPrefix => ?_) byte
    have next := noHeader (taken ++ begun) ((List.prefix_append_right_inj taken).mpr isPrefix)
    rw [process_append] at next
    exact next

/-- Where no payload is due and no slip happens, no byte completes the payload. -/
theorem not_completes {capacity : Nat} {between : List UInt8} {byte : UInt8} {rest : List UInt8}
    (undue : payloadLen = 0 ∨ 0 ∈ (between ++ byte :: rest).take payloadLen.toNat ∨
      capacity < payloadLen.toNat)
    (noSlip : ¬ Slips capacity payloadLen (between ++ byte :: rest)) :
    ¬ Completes capacity payloadLen.toNat (between ++ [byte]) := by
  have length : (between ++ [byte]).length = between.length + 1 := by simp
  have notZero : payloadLen ≠ 0 := fun zero => noSlip (.inl ⟨zero, by simp⟩)
  rcases undue with zero | hasZero | small
  · exact absurd zero notZero
  · have same : payloadLen.toNat = (between ++ [byte]).length →
        (between ++ byte :: rest).take payloadLen.toNat = between ++ [byte] := by
      intro whole
      rw [whole, show between ++ byte :: rest = (between ++ [byte]) ++ rest by simp]
      exact List.take_left
    rintro (⟨zero, -⟩ | ⟨one, single, room⟩ | ⟨-, whole, -, nonzero⟩)
    · exact notZero (UInt8.toNat_inj.mp zero)
    · rw [same (one.trans single.symm)] at hasZero
      obtain rfl : between = [] := List.length_eq_zero_iff.mp (by omega)
      obtain rfl : 0 = byte := List.mem_singleton.mp hasZero
      exact noSlip (.inr ⟨UInt8.toNat_inj.mp one, room, rfl⟩)
    · rw [same whole.symm] at hasZero
      exact nonzero 0 hasZero rfl
  · rintro (⟨zero, -⟩ | ⟨one, -, room⟩ | ⟨-, -, room, -⟩)
    · exact notZero (UInt8.toNat_inj.mp zero)
    · omega
    · omega

/-- **Where no payload is due and no slip happens, nothing is delivered.** -/
theorem neverDelivers (hunt : s.state = .huntSync)
    (undue : payloadLen = 0 ∨ 0 ∈ following.take payloadLen.toNat ∨ s.rxCapacity < payloadLen.toNat)
    (noSlip : ¬ Slips s.rxCapacity payloadLen following) :
    NeverDelivers s serviceId payloadLen code following := by
  rintro between byte rest rfl noHeader
  have start : Hunting s [] := hunt
  rw [eventsAt_afterHeader]
  rcases inPayload_or_hunting start between (fun begun isPrefix => by
    have next := noHeader begun isPrefix
    rw [List.nil_append, process_append]
    exact next) with hunting | ⟨inside, room, nonzero⟩
  · rw [eventsAt_hunting hunting]
    exact noFrame_nil
  · rcases payloadStep_at code _ start inside room nonzero byte with
      ⟨complete, -, -⟩ | ⟨-, -, noFrame⟩ | ⟨-, -, -, -, silent⟩
    · exact absurd complete (not_completes undue noSlip)
    · exact noFrame
    · rw [eventsAt, silent]
      exact noFrame_nil

/-- The first byte delivers a frame where it completes the payload. -/
theorem delivers_first (hunt : s.state = .huntSync) {byte : UInt8}
    (complete : Completes s.rxCapacity payloadLen.toNat [byte]) :
    ¬ NoFrame (eventsAt (s.afterHeader serviceId payloadLen code) [] byte) := by
  have start : Hunting s [] := hunt
  rw [eventsAt_afterHeader, eventsAt]
  rcases payloadStep_at code (headerCrc serviceId payloadLen code) start (inside_nil payloadLen)
    (Nat.zero_le _) (List.forall_mem_nil _) byte with
    ⟨-, -, errors, payload, -, -, events⟩ | ⟨incomplete, -, -⟩ | ⟨incomplete, -, -, -, -⟩
  · rw [events]
    exact fun noFrame => noFrame _ _ (List.mem_append_right _ List.mem_cons_self)
  · exact absurd complete incomplete
  · exact absurd complete incomplete

end Delivered

/-- **When the payload phase is exact**: for every receiver behind a header with a matching checksum
and all bytes that follow, exactly if neither slip happens. -/
theorem payloadExact_iff {s : Stream} (hunt : s.state = .huntSync)
    (serviceId payloadLen code : UInt8) (following : List UInt8) :
    PayloadExact s serviceId payloadLen code following ↔
      ¬ Slips s.rxCapacity payloadLen following := by
  constructor
  · rintro exact_ (⟨rfl, some_⟩ | ⟨rfl, room, zero⟩)
    · obtain ⟨byte, rest, rfl⟩ := List.exists_cons_of_ne_nil some_
      refine delivers_first hunt (.inl ⟨rfl, rfl⟩)
        (exact_.undue (.inl rfl) [] byte rest rfl fun begun isPrefix => ?_)
      rw [List.prefix_nil.mp isPrefix, process_nil, afterHeader_eq hunt]
      exact State.noConfusion
    · obtain ⟨rest, rfl⟩ := List.head?_eq_some_iff.mp zero
      refine delivers_first hunt (.inr (.inl ⟨rfl, rfl, room⟩))
        (exact_.undue (.inr (.inl List.mem_cons_self)) [] 0 rest rfl fun begun isPrefix => ?_)
      rw [List.prefix_nil.mp isPrefix, process_nil, afterHeader_eq hunt]
      exact State.noConfusion
  · intro noSlip
    exact ⟨fun follows => deliversOnce hunt follows, fun undue => neverDelivers hunt undue noSlip⟩

/-- Two payload bytes behind a header. -/
theorem payloadExact_iff_two :
    PayloadExact (Stream.new (fun _ => 0) 255) 7 2 1 [9, 8] ∧
      ¬ PayloadExact (Stream.new (fun _ => 0) 255) 7 0 1 [9] :=
  ⟨(payloadExact_iff (s := Stream.new (fun _ => 0) 255) rfl 7 2 1 [9, 8]).mpr (by
      rintro (⟨zero, -⟩ | ⟨one, -⟩)
      · exact absurd zero (by decide)
      · exact absurd one (by decide)),
    fun exact_ => (payloadExact_iff (s := Stream.new (fun _ => 0) 255) rfl 7 0 1 [9]).mp exact_
      (.inl ⟨rfl, by decide⟩)⟩

/-- A header that declares one byte, and a zero: the parser is reset and reports an incomplete
payload, and the zero is delivered as the payload. -/
theorem not_always_payloadExact :
    ¬ ∀ (s : Stream) (serviceId payloadLen code : UInt8) (following : List UInt8),
      s.state = .huntSync → PayloadExact s serviceId payloadLen code following := by
  intro always
  have exact_ := always (Stream.new (fun _ => 0) 255) 7 1 2 [0] rfl
  refine exact_.undue (.inr (.inl (by decide))) [] 0 [] rfl (fun begun isPrefix => ?_) 7 [0]
    (by decide +kernel)
  rw [List.prefix_nil.mp isPrefix]
  decide +kernel

end ForgeDrive.Abf
