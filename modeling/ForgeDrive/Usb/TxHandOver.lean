/-
**The transmit hand-over between the main thread and the completion interrupt.**

The main thread writes to the ring and starts a transfer when none runs; the completion interrupt
releases the transferred bytes and starts the next transfer. `usbxch_start_tx` is a sequence of
steps between which the interrupt can fire; the transfer is started before the release count and
the busy flag are written.

`handOver_of_undisturbed`: in every run in which no completion falls between the start of a
transfer and the writing of its release count, none that finds the ring empty falls between that and
the setting of the busy flag, and every write is shorter than `65536` bytes, the bytes handed over
are a beginning of the bytes accepted, one transfer is in flight at a time, and outside
`usbxch_start_tx` the flag says whether.
-/

import ForgeDrive.Library.LabelledSystem
import ForgeDrive.Usb.Exchange

namespace ForgeDrive.Usb

open Circular (segment)
open Fd (Ring Regions Splits)
open LabelledSystem (exec Meets)

/-! ### The system -/

/-- Where the main thread is in `usbxch_start_tx`, with the locals it still needs. -/
inductive Pc
  | outside
  | testBusy
  | reserve
  | transmit (out : Regions)
  | setRelease (c1 : UInt16)
  | setBusy
  deriving DecidableEq, Repr

/-- The driver, the transfers in flight, and all bytes handed over and accepted so far. -/
structure TxSystem where
  link : Exchange
  pc : Pc
  inFlight : List (List UInt8)
  handed : List UInt8
  accepted : List UInt8

/-- The steps: the calls of the main thread, the next step of `usbxch_start_tx`, and the completion
interrupt. -/
inductive TxStep
  | write (data : List UInt8)
  | update
  | flush
  | startTx
  | complete
  deriving DecidableEq, Repr

def TxSystem.init (txStorage rxStorage : Nat → UInt8) (txSize rxSize : UInt16) : TxSystem where
  link := Exchange.init txStorage rxStorage txSize rxSize
  pc := .outside
  inFlight := []
  handed := []
  accepted := []

/-- `USBD_XCH_Transmit`: one more transfer in flight. -/
def TxSystem.transmit (s : TxSystem) (transfer : List UInt8) : TxSystem :=
  { s with inFlight := s.inFlight ++ [transfer], handed := s.handed ++ transfer }

/-- The next step of `usbxch_start_tx`. -/
def TxSystem.startTxStep (s : TxSystem) : Option TxSystem :=
  match s.pc with
  | .outside => none
  | .testBusy => some { s with pc := if s.link.busy then .outside else .reserve }
  | .reserve => match s.link.tx.readReserve with
    | none => some { s with pc := .outside }
    | some out => some { s with pc := .transmit out }
  | .transmit out => some { s.transmit (s.link.transfer out) with pc := .setRelease out.cont1 }
  | .setRelease c1 => some { s with link := { s.link with txToRelease := c1 }, pc := .setBusy }
  | .setBusy => some { s with
      link := { s.link with flags := s.link.flags ||| txBusy }, pc := .outside }

/-- `USBD_XCH_TxComplete` for the transfer in flight. -/
def TxSystem.complete (s : TxSystem) : Option TxSystem :=
  match s.inFlight with
  | [] => none
  | _ :: rest =>
    let after := { s with link := s.link.txComplete.1, inFlight := rest }
    match s.link.txComplete.2 with
    | none => some after
    | some transfer => some (after.transmit transfer)

/-- One step of the system. The calls of the driver are made outside `usbxch_start_tx`. -/
def TxSystem.step (s : TxSystem) : TxStep → Option TxSystem
  | .write data =>
    if s.pc = .outside then
      some { s with
        link := (s.link.write data).1
        accepted := if (s.link.write data).2 = 0 then s.accepted ++ data else s.accepted }
    else none
  | .update =>
    if s.pc = .outside then
      some { s with pc := if !s.link.busy && s.link.tx.size > 0 then .testBusy else .outside }
    else none
  | .flush =>
    if s.pc = .outside then some { s with pc := if s.link.busy then .outside else .testBusy }
    else none
  | .startTx => s.startTxStep
  | .complete => s.complete

/-- **The hand-over is correct.** -/
structure HandOver (s : TxSystem) : Prop where
  order : s.handed <+: s.accepted
  single : s.inFlight.length ≤ 1
  busy : s.pc = .outside → (s.link.busy ↔ s.inFlight ≠ [])

/-- The interrupt does not fire between the start of a transfer and the writing of its release
count; between that and the setting of the busy flag it fires only with more bytes in the ring; and
no write is accepted whose length does not fit the ring's 16 bit counts. -/
def Undisturbed (s : TxSystem) : TxStep → Prop
  | .write data => (s.link.write data).2 = 0 → data.length < 65536
  | .complete => (∀ c1, s.pc ≠ .setRelease c1) ∧
      (s.pc = .setBusy → s.link.txToRelease.toNat < s.link.tx.size.toNat)
  | _ => True

/-- The steps of `usbxch_start_tx`, taken without interruption, are the function. -/
theorem startTxSteps (s : TxSystem) (called : s.pc = .testBusy) :
    ∃ steps after, exec TxSystem.step s (List.replicate steps .startTx) = some after ∧
      after.pc = .outside ∧ after.link = s.link.startTx.1 ∧
      after.inFlight = s.inFlight ++ s.link.startTx.2.toList ∧ after.accepted = s.accepted := by
  unfold Exchange.startTx
  by_cases busy : s.link.busy
  · refine ⟨1, { s with pc := .outside }, ?_, rfl, ?_, ?_, rfl⟩
    · simp [TxSystem.step, TxSystem.startTxStep, called, busy]
    · rw [if_pos busy]
    · rw [if_pos busy]
      exact (List.append_nil _).symm
  · rw [if_neg busy]
    cases reserved : s.link.tx.readReserve with
    | none =>
      refine ⟨2, { s with pc := .outside }, ?_, rfl, rfl, (List.append_nil _).symm, rfl⟩
      simp [List.replicate, TxSystem.step, TxSystem.startTxStep, called, busy, reserved]
    | some out =>
      refine ⟨5, { s.transmit (s.link.transfer out) with
        link := { s.link with txToRelease := out.cont1, flags := s.link.flags ||| txBusy }
        pc := .outside }, ?_, rfl, rfl, rfl, rfl⟩
      simp [List.replicate, TxSystem.step, TxSystem.startTxStep, called, busy, reserved,
        TxSystem.transmit]

/-! ### The invariant -/

/-- No transfer in flight: all bytes accepted were handed over or are in the ring. -/
structure Quiet (s : TxSystem) : Prop where
  inFlight : s.inFlight = []
  accepted : s.accepted = s.handed ++ s.link.tx.contents

/-- One transfer in flight, of the first `count` bytes of the ring. -/
structure OnWire (s : TxSystem) (count : Nat) : Prop where
  inFlight : s.inFlight = [s.link.tx.contents.take count]
  within : count ≤ s.link.tx.size.toNat
  accepted : s.accepted = s.handed ++ s.link.tx.contents.drop count

/-- Where the two parties can be. The busy flag is set exactly while a transfer is in flight, but
for the two steps of the main thread right after it has started one. -/
inductive Phase (s : TxSystem) : Prop
  | quiet (quiet : Quiet s) (idle : s.link.busy = false)
      (pc : s.pc = .outside ∨ s.pc = .testBusy ∨ s.pc = .reserve ∨
        ∃ out, s.pc = .transmit out ∧ s.link.tx.readReserve = some out)
  | onWire (onWire : OnWire s s.link.txToRelease.toNat) (busy : s.link.busy = true)
      (pc : s.pc = .outside ∨ s.pc = .testBusy)
  | started (c1 : UInt16) (onWire : OnWire s c1.toNat) (pc : s.pc = .setRelease c1)
  | released (onWire : OnWire s s.link.txToRelease.toNat) (pc : s.pc = .setBusy)

/-- The invariant of the undisturbed system. -/
structure TxInvariant (s : TxSystem) : Prop where
  valid : s.link.tx.Valid
  phase : Phase s

theorem busy_set (h : Exchange) :
    ({ h with flags := h.flags ||| txBusy } : Exchange).busy = true := by
  have flag : txBusy.toNat.testBit 2 = true := by decide
  have some_ : (h.flags ||| txBusy) &&& txBusy ≠ 0 := by
    intro zero
    have bit := congrArg (fun flags => flags.toNat.testBit 2) zero
    simp only [UInt8.toNat_and, UInt8.toNat_or, Nat.testBit_and, Nat.testBit_or, flag] at bit
    simp at bit
  simpa only [Exchange.busy, decide_eq_true_eq] using some_

theorem busy_clear (h : Exchange) :
    ({ h with flags := h.flags &&& ~~~txBusy } : Exchange).busy = false := by
  have apart : ~~~txBusy &&& txBusy = 0 := by decide
  simp only [Exchange.busy, UInt8.and_assoc, apart, UInt8.and_zero, ne_eq, not_true_eq_false,
    decide_false]

theorem Phase.handOver {s : TxSystem} (phase : Phase s) : HandOver s := by
  cases phase with
  | quiet quiet idle pc =>
    refine ⟨⟨_, quiet.accepted.symm⟩, ?_, fun _ => ?_⟩
    · rw [quiet.inFlight]
      exact Nat.zero_le _
    · rw [idle, quiet.inFlight]
      simp
  | onWire onWire busy pc =>
    refine ⟨⟨_, onWire.accepted.symm⟩, ?_, fun _ => ?_⟩
    · rw [onWire.inFlight]
      exact le_rfl
    · rw [busy, onWire.inFlight]
      simp
  | started c1 onWire pc =>
    refine ⟨⟨_, onWire.accepted.symm⟩, ?_, fun outside => ?_⟩
    · rw [onWire.inFlight]
      exact le_rfl
    · cases pc.symm.trans outside
  | released onWire pc =>
    refine ⟨⟨_, onWire.accepted.symm⟩, ?_, fun outside => ?_⟩
    · rw [onWire.inFlight]
      exact le_rfl
    · cases pc.symm.trans outside

theorem TxInvariant.init (txStorage rxStorage : Nat → UInt8) {txSize : UInt16} (rxSize : UInt16)
    (positive : 0 < txSize) : TxInvariant (TxSystem.init txStorage rxStorage txSize rxSize) :=
  ⟨Ring.init_valid _ positive, .quiet ⟨rfl, (Ring.init_contents _ _).symm⟩
    (by simp [TxSystem.init, Exchange.busy, Exchange.init]) (.inl rfl)⟩

/-! ### The steps -/

section Steps

variable {s next : TxSystem}

/-- The main thread outside `usbxch_start_tx`. -/
theorem Phase.outside (phase : Phase s) (pc : s.pc = .outside) :
    (Quiet s ∧ s.link.busy = false) ∨
      (OnWire s s.link.txToRelease.toNat ∧ s.link.busy = true) := by
  cases phase with
  | quiet quiet idle _ => exact .inl ⟨quiet, idle⟩
  | onWire onWire busy _ => exact .inr ⟨onWire, busy⟩
  | started c1 _ started => cases started.symm.trans pc
  | released _ released => cases released.symm.trans pc

theorem TxInvariant.write (holds : TxInvariant s) (pc : s.pc = .outside) {data : List UInt8}
    (short : (s.link.write data).2 = 0 → data.length < 65536) :
    TxInvariant { s with
      link := (s.link.write data).1
      accepted := if (s.link.write data).2 = 0 then s.accepted ++ data else s.accepted } := by
  rcases write_cases s.link holds.valid data short with ⟨refused, same⟩ |
    ⟨accepted, tx, after, valid, contents⟩
  · rw [if_neg refused, same]
    exact holds
  · rw [if_pos accepted, after]
    refine ⟨valid, ?_⟩
    rcases holds.phase.outside pc with ⟨quiet, idle⟩ | ⟨onWire, busy⟩
    · refine .quiet ⟨quiet.inFlight, ?_⟩ idle (.inl pc)
      show s.accepted ++ data = s.handed ++ tx.contents
      rw [contents, quiet.accepted, List.append_assoc]
    · have length := congrArg List.length contents
      rw [List.length_append, Ring.contents_length, Ring.contents_length] at length
      have within := onWire.within
      refine .onWire ⟨?_, ?_, ?_⟩ busy (.inl pc)
      · show s.inFlight = [tx.contents.take s.link.txToRelease.toNat]
        rw [contents, List.take_append_of_le_length (by rw [Ring.contents_length]; exact within)]
        exact onWire.inFlight
      · show s.link.txToRelease.toNat ≤ tx.size.toNat
        omega
      · show s.accepted ++ data = s.handed ++ tx.contents.drop s.link.txToRelease.toNat
        rw [contents, List.drop_append_of_le_length (by rw [Ring.contents_length]; exact within),
          onWire.accepted, List.append_assoc]

/-- A change of the program counter to a place where the phase allows it. -/
theorem TxInvariant.goto (holds : TxInvariant s) {pc : Pc}
    (allowed : s.pc = .outside ∨ s.pc = .testBusy)
    (place : pc = .outside ∨ (s.link.busy = false ∧ (pc = .testBusy ∨ pc = .reserve))) :
    TxInvariant { s with pc := pc } := by
  refine ⟨holds.valid, ?_⟩
  cases holds.phase with
  | quiet quiet idle _ =>
    refine .quiet ⟨quiet.inFlight, quiet.accepted⟩ idle ?_
    rcases place with here | ⟨-, here | here⟩
    · exact .inl here
    · exact .inr (.inl here)
    · exact .inr (.inr (.inl here))
  | onWire onWire busy _ =>
    refine .onWire ⟨onWire.inFlight, onWire.within, onWire.accepted⟩ busy ?_
    rcases place with here | ⟨idle, -⟩
    · exact .inl here
    · cases idle.symm.trans busy
  | started c1 _ started =>
    rcases allowed with here | here <;> cases started.symm.trans here
  | released _ released =>
    rcases allowed with here | here <;> cases released.symm.trans here

/-- The main thread between its test of the flag and the start of the transfer. -/
theorem Phase.starting (phase : Phase s) (pc : s.pc = .reserve ∨ ∃ out, s.pc = .transmit out) :
    Quiet s ∧ s.link.busy = false ∧
      ∀ out, s.pc = .transmit out → s.link.tx.readReserve = some out := by
  cases phase with
  | quiet quiet idle place =>
    refine ⟨quiet, idle, fun out here => ?_⟩
    rcases place with other | other | other | ⟨out', other, reserved⟩
    · cases here.symm.trans other
    · cases here.symm.trans other
    · cases here.symm.trans other
    · obtain rfl := Pc.transmit.inj (here.symm.trans other)
      exact reserved
  | onWire _ _ place =>
    rcases pc with here | ⟨out, here⟩ <;> rcases place with other | other <;>
      cases here.symm.trans other
  | started c1 _ started => rcases pc with here | ⟨out, here⟩ <;> cases started.symm.trans here
  | released _ released => rcases pc with here | ⟨out, here⟩ <;> cases released.symm.trans here

/-- Handing over the reserved region puts a beginning of the ring on the wire. -/
theorem Quiet.transmit (quiet : Quiet s) (valid : s.link.tx.Valid) {out : Regions}
    (reserved : s.link.tx.readReserve = some out) :
    OnWire (s.transmit (s.link.transfer out)) out.cont1.toNat := by
  obtain ⟨transfer, within, -⟩ := transfer_eq s.link valid reserved
  rw [transfer]
  refine ⟨?_, within, ?_⟩
  · show s.inFlight ++ [s.link.tx.contents.take out.cont1.toNat] = _
    rw [quiet.inFlight]
    rfl
  · show s.accepted = s.handed ++ s.link.tx.contents.take out.cont1.toNat ++ _
    rw [quiet.accepted, List.append_assoc]
    exact congrArg _ (List.take_append_drop _ _).symm

theorem TxInvariant.startTxStep (holds : TxInvariant s) (taken : s.startTxStep = some next) :
    TxInvariant next := by
  unfold TxSystem.startTxStep at taken
  cases pc : s.pc with
  | outside =>
    rw [pc] at taken
    cases taken
  | testBusy =>
    rw [pc] at taken
    obtain rfl := Option.some.inj taken
    apply holds.goto (.inr pc)
    split
    case isTrue => exact .inl rfl
    case isFalse idle => exact .inr ⟨eq_false_of_ne_true idle, .inr rfl⟩
  | reserve =>
    rw [pc] at taken
    obtain ⟨quiet, idle, -⟩ := holds.phase.starting (.inl pc)
    cases reserved : s.link.tx.readReserve with
    | none =>
      simp only [reserved, Option.some.injEq] at taken
      rw [← taken]
      exact ⟨holds.valid, .quiet ⟨quiet.inFlight, quiet.accepted⟩ idle (.inl rfl)⟩
    | some out =>
      simp only [reserved, Option.some.injEq] at taken
      rw [← taken]
      exact ⟨holds.valid, .quiet ⟨quiet.inFlight, quiet.accepted⟩ idle
        (.inr (.inr (.inr ⟨out, rfl, reserved⟩)))⟩
  | transmit out =>
    rw [pc] at taken
    obtain ⟨quiet, -, reserved⟩ := holds.phase.starting (.inr ⟨out, pc⟩)
    have onWire := quiet.transmit holds.valid (reserved out pc)
    obtain rfl := Option.some.inj taken
    exact ⟨holds.valid, .started out.cont1 ⟨onWire.inFlight, onWire.within, onWire.accepted⟩ rfl⟩
  | setRelease c1 =>
    rw [pc] at taken
    obtain rfl := Option.some.inj taken
    refine ⟨holds.valid, ?_⟩
    cases holds.phase with
    | quiet _ _ place =>
      rcases place with other | other | other | ⟨_, other, _⟩ <;> cases pc.symm.trans other
    | onWire _ _ place => rcases place with other | other <;> cases pc.symm.trans other
    | started c1' onWire here =>
      obtain rfl := Pc.setRelease.inj (pc.symm.trans here)
      exact .released ⟨onWire.inFlight, onWire.within, onWire.accepted⟩ rfl
    | released _ other => cases pc.symm.trans other
  | setBusy =>
    rw [pc] at taken
    obtain rfl := Option.some.inj taken
    refine ⟨holds.valid, ?_⟩
    cases holds.phase with
    | quiet _ _ place =>
      rcases place with other | other | other | ⟨_, other, _⟩ <;> cases pc.symm.trans other
    | onWire _ _ place => rcases place with other | other <;> cases pc.symm.trans other
    | started _ _ other => cases pc.symm.trans other
    | released onWire _ =>
      exact .onWire ⟨onWire.inFlight, onWire.within, onWire.accepted⟩ (busy_set s.link) (.inl rfl)

/-- **The completion interrupt**, with the release count already written: the transfer leaves the
ring, and the next one is started, or there is nothing left and the flag is cleared. -/
theorem OnWire.complete (onWire : OnWire s s.link.txToRelease.toNat) (valid : s.link.tx.Valid)
    (taken : s.complete = some next) :
    next.pc = s.pc ∧ next.link.tx.Valid ∧
      ((Quiet next ∧ next.link.busy = false ∧ s.link.tx.size.toNat ≤ s.link.txToRelease.toNat) ∨
        (OnWire next next.link.txToRelease.toNat ∧ next.link.busy = s.link.busy)) := by
  unfold TxSystem.complete at taken
  rw [onWire.inFlight] at taken
  -- The ring without the transferred bytes, and no transfer in flight.
  have within := onWire.within
  have size := s.link.tx.size_lt valid
  have validAfter := Fd.readCommit_valid valid
    (show s.link.txToRelease.toNat ≤ _ by omega)
  have contents := Fd.readCommit_contents valid within
  let after : TxSystem := { s with
    link := { s.link with tx := s.link.tx.readCommit s.link.txToRelease }, inFlight := [] }
  have quiet : Quiet after := ⟨rfl, onWire.accepted.trans (congrArg _ contents.symm)⟩
  cases reserved : (s.link.tx.readCommit s.link.txToRelease).readReserve with
  | none =>
    have empty : (s.link.tx.readCommit s.link.txToRelease).size.toNat = 0 := by
      by_contra some_
      obtain ⟨out, other, -⟩ := Fd.readReserve_eq validAfter some_
      cases reserved.symm.trans other
    rw [Fd.readCommit_size valid within] at empty
    simp only [Exchange.txComplete, reserved, Option.some.injEq] at taken
    rw [← taken]
    exact ⟨rfl, validAfter, .inl ⟨⟨rfl, quiet.accepted⟩, busy_clear after.link, by omega⟩⟩
  | some out =>
    simp only [Exchange.txComplete, reserved, Option.some.injEq] at taken
    rw [← taken]
    have next := quiet.transmit validAfter reserved
    exact ⟨rfl, validAfter, .inr ⟨⟨next.inFlight, next.within, next.accepted⟩, rfl⟩⟩

theorem TxInvariant.complete (holds : TxInvariant s) (undisturbed : Undisturbed s .complete)
    (taken : s.complete = some next) : TxInvariant next := by
  cases holds.phase with
  | quiet quiet _ _ =>
    unfold TxSystem.complete at taken
    rw [quiet.inFlight] at taken
    cases taken
  | started c1 _ here => exact absurd here (undisturbed.1 c1)
  | released onWire here =>
    obtain ⟨pc, valid, ⟨-, -, empty⟩ | ⟨next, -⟩⟩ := onWire.complete holds.valid taken
    · exact absurd empty (Nat.not_le.mpr (undisturbed.2 here))
    · exact ⟨valid, .released next (pc.trans here)⟩
  | onWire onWire busy place =>
    obtain ⟨pc, valid, ⟨quiet, idle, -⟩ | ⟨next, same⟩⟩ := onWire.complete holds.valid taken
    · refine ⟨valid, .quiet quiet idle ?_⟩
      rcases place with here | here
      · exact .inl (pc.trans here)
      · exact .inr (.inl (pc.trans here))
    · exact ⟨valid, .onWire next (same.trans busy)
        (place.imp (pc.trans ·) (pc.trans ·))⟩

/-- **Every undisturbed step** keeps the invariant. -/
theorem TxInvariant.step (holds : TxInvariant s) {label : TxStep}
    (undisturbed : Undisturbed s label)
    (taken : s.step label = some next) : TxInvariant next := by
  cases label with
  | write data =>
    rw [TxSystem.step] at taken
    split at taken
    case isTrue pc =>
      obtain rfl := Option.some.inj taken
      exact holds.write pc undisturbed
    case isFalse => cases taken
  | update =>
    rw [TxSystem.step] at taken
    split at taken
    case isTrue pc =>
      obtain rfl := Option.some.inj taken
      apply holds.goto (.inl pc)
      split
      case isTrue pending =>
        simp only [Bool.and_eq_true, Bool.not_eq_true'] at pending
        exact .inr ⟨pending.1, .inl rfl⟩
      case isFalse => exact .inl rfl
    case isFalse => cases taken
  | flush =>
    rw [TxSystem.step] at taken
    split at taken
    case isTrue pc =>
      obtain rfl := Option.some.inj taken
      apply holds.goto (.inl pc)
      split
      case isTrue => exact .inl rfl
      case isFalse idle => exact .inr ⟨eq_false_of_ne_true idle, .inl rfl⟩
    case isFalse => cases taken
  | startTx => exact holds.startTxStep taken
  | complete => exact holds.complete undisturbed taken

end Steps

/-! ### The runs -/

/-- **When the transmit hand-over is correct**: in every interleaving, of any length, whose steps are
all undisturbed, every state reached has handed over a beginning of what was accepted, has one
transfer in flight at most, and outside `usbxch_start_tx` has the busy flag set if and only if a
transfer is in flight. -/
theorem handOver_of_undisturbed (txStorage rxStorage : Nat → UInt8) (txSize rxSize : UInt16)
    (positive : 0 < txSize) (steps : List TxStep)
    (undisturbed : Meets TxSystem.step Undisturbed
      (TxSystem.init txStorage rxStorage txSize rxSize) steps)
    (reached : TxSystem)
    (run : exec TxSystem.step (TxSystem.init txStorage rxStorage txSize rxSize) steps =
      some reached) : HandOver reached :=
  (LabelledSystem.exec_invariant TxInvariant
    (fun _ _ _ holds allowed taken => holds.step allowed taken)
    (TxInvariant.init txStorage rxStorage rxSize positive) undisturbed run).phase.handOver

/-- One byte written, its transfer started and completed. -/
theorem handOver_of_undisturbed_byte :
    ∃ reached, exec TxSystem.step (TxSystem.init (fun _ => 0) (fun _ => 0) 4096 256)
        [.write [7], .update, .startTx, .startTx, .startTx, .startTx, .startTx, .complete] =
          some reached ∧ HandOver reached := by
  refine ⟨_, rfl, handOver_of_undisturbed (fun _ => 0) (fun _ => 0) 4096 256 (by decide)
    [.write [7], .update, .startTx, .startTx, .startTx, .startTx, .startTx, .complete] ?_ _ rfl⟩
  refine ⟨fun _ => by decide, ?_⟩
  rintro _ ⟨⟩
  refine ⟨trivial, ?_⟩
  rintro _ ⟨⟩
  refine ⟨trivial, ?_⟩
  rintro _ ⟨⟩
  refine ⟨trivial, ?_⟩
  rintro _ ⟨⟩
  refine ⟨trivial, ?_⟩
  rintro _ ⟨⟩
  refine ⟨trivial, ?_⟩
  rintro _ ⟨⟩
  refine ⟨trivial, ?_⟩
  rintro _ ⟨⟩
  exact ⟨⟨fun _ => Pc.noConfusion, Pc.noConfusion⟩, fun _ _ => trivial⟩

/-- The completion fires right after the transfer was started: nothing is released, and the byte is
handed over again. -/
theorem handOver_interrupted :
    ¬ ∀ (txStorage rxStorage : Nat → UInt8) (txSize rxSize : UInt16), 0 < txSize →
      ∀ (steps : List TxStep) (reached : TxSystem),
        exec TxSystem.step (TxSystem.init txStorage rxStorage txSize rxSize) steps = some reached →
          HandOver reached := by
  intro always
  have handOver := always (fun _ => 0) (fun _ => 0) 4096 256 (by decide)
    [.write [7], .update, .startTx, .startTx, .startTx, .complete] _ rfl
  exact absurd handOver.order (by decide +kernel)

end ForgeDrive.Usb
