/-
**Clearing the exchange.**

`fd_usbxch_clear` sets the four indices of the rings to zero. A transfer that is in flight keeps its
release count, and the OUT endpoint keeps the pointer that was armed.

* `ClearInvariant` — what every state reached keeps, whatever was cleared in it;
* `Cleared` — what holds after a clear that found no transfer in flight and the endpoint armed at
  the beginning of the ring, or with no bytes: from there on the rings carry what is written and
  delivered;
* `clear_discards_iff` — in every state that regular uses reach, the pending data is discarded,
  whatever regular calls come later, exactly under this condition.

Regular is a write of fewer than 65536 bytes, or of more that is refused, and a delivery within the
bytes armed. What goes wrong outside is seen without a clear as well: a longer write is accepted and
truncated, and a delivery beyond the bytes armed overruns the storage.
-/

import ForgeDrive.Usb.RxStorage
import ForgeDrive.Usb.TxHandOver

namespace ForgeDrive.Usb

open Circular (segment store)
open Fd (Ring Regions Splits)
open LabelledSystem (exec Meets)

/-! ### The system -/

/-- `fd_usbxch_clear`. -/
def Exchange.clear (h : Exchange) : Exchange :=
  { h with tx := { h.tx with head := 0, tail := 0 }, rx := { h.rx with head := 0, tail := 0 } }

/-- `fd_usbxch_update`, and the transfer it starts. -/
def Exchange.update (h : Exchange) : Exchange × Option (List UInt8) :=
  if !h.busy && h.tx.size > 0 then h.startTx else (h, none)

/-- `fd_usbxch_flush`, and the transfer it starts. -/
def Exchange.flush (h : Exchange) : Exchange × Option (List UInt8) :=
  if h.busy then (h, none) else h.startTx

/-- The driver with the transfers in flight, and the bytes handed over to the core, accepted from
the program, delivered by the host and returned to the program since the last clear. -/
structure XchSystem where
  link : Exchange
  inFlight : List (List UInt8)
  handed : List UInt8
  accepted : List UInt8
  delivered : List UInt8
  returned : List UInt8

/-- The calls of the main thread, and the two callbacks. -/
inductive XchCall
  | write (data : List UInt8)
  | read (length : UInt32)
  | update
  | flush
  | txComplete
  | rxComplete (bytes : List UInt8)
  deriving DecidableEq, Repr

/-- The calls, and `fd_usbxch_clear`. -/
inductive XchUse
  | call (call : XchCall)
  | clear
  deriving DecidableEq, Repr

/-- After `USBD_XCH_Init`. -/
def XchSystem.init (txStorage rxStorage : Nat → UInt8) (txSize rxSize : UInt16) : XchSystem where
  link := (Exchange.init txStorage rxStorage txSize rxSize).getRxStorage
  inFlight := []
  handed := []
  accepted := []
  delivered := []
  returned := []

/-- The driver after a call, with the transfer it started. -/
def XchSystem.after (s : XchSystem) (done : Exchange × Option (List UInt8)) : XchSystem :=
  { s with
    link := done.1
    inFlight := s.inFlight ++ done.2.toList
    handed := s.handed ++ done.2.getD [] }

/-- One call. `USBD_XCH_TxComplete` is for the transfer in flight, and `USBD_XCH_RxComplete` for
bytes the core may deliver; the endpoint is armed again behind it. -/
def XchSystem.step (s : XchSystem) : XchCall → Option XchSystem
  | .write data => some { s with
      link := (s.link.write data).1
      accepted := if (s.link.write data).2 = 0 then s.accepted ++ data else s.accepted }
  | .read length => some { s with
      link := (s.link.read length).1, returned := s.returned ++ (s.link.read length).2 }
  | .update => some (s.after s.link.update)
  | .flush => some (s.after s.link.flush)
  | .txComplete => match s.inFlight with
    | [] => none
    | _ :: rest => some ({ s with inFlight := rest }.after s.link.txComplete)
  | .rxComplete bytes =>
    if bytes.length ≤ deliverable s.link.c1.toNat then
      some { s with link := s.link.dataOut bytes, delivered := s.delivered ++ bytes }
    else none

/-- After a clear, nothing has been written or delivered. The transfer in flight stays. -/
def XchSystem.clear (s : XchSystem) : XchSystem where
  link := s.link.clear
  inFlight := s.inFlight
  handed := []
  accepted := []
  delivered := []
  returned := []

/-- One call, or a clear. -/
def XchSystem.use (s : XchSystem) : XchUse → Option XchSystem
  | .call call => s.step call
  | .clear => some s.clear

/-- The bytes transmitted are a beginning of those accepted, and the bytes returned are a beginning
of those delivered. -/
structure InOrder (s : XchSystem) : Prop where
  transmitted : s.handed <+: s.accepted
  returned : s.returned <+: s.delivered

/-- A write whose length fits the counts of the ring, and a delivery within the bytes armed for
it. -/
def Regular (s : XchSystem) : XchCall → Prop
  | .write data => (s.link.write data).2 = 0 → data.length < 65536
  | .rxComplete bytes => bytes.length ≤ s.link.c1.toNat
  | _ => True

/-- The same of a use. -/
def RegularUse (s : XchSystem) : XchUse → Prop
  | .call call => Regular s call
  | .clear => True

/-- **A clear here discards the pending data before the later calls**: in the state they lead to,
only bytes written and delivered after the clear have been transmitted and returned. Nothing is asked
of the calls here; `clear_discards_iff` is for those that are regular. -/
def Discards (s : XchSystem) (later : List XchCall) : Prop :=
  ∀ after, exec XchSystem.step s.clear later = some after → InOrder after

/-- No transfer is in flight, and the endpoint is armed at the beginning of the ring, or with no
bytes. -/
structure AtRest (s : XchSystem) : Prop where
  noTransfer : s.inFlight = []
  armed : s.link.r1 = 0 ∨ s.link.c1 = 0

/-! ### The invariant of all reachable states -/

/-- What every state reached keeps: the rings are valid, the busy flag says whether the one transfer
is in flight, its release count is that of a region of the ring, and so is the length that is
armed. -/
structure ClearInvariant (s : XchSystem) : Prop where
  tx : s.link.tx.Valid
  rx : s.link.rx.Valid
  busy : s.link.busy = true ↔ s.inFlight ≠ []
  single : s.inFlight.length ≤ 1
  release : s.inFlight ≠ [] →
    0 < s.link.txToRelease.toNat ∧ s.link.txToRelease.toNat < s.link.tx.capacity.toNat
  armed : s.link.c1.toNat < s.link.rx.capacity.toNat

section Steps

variable {s next : XchSystem}

/-- The release count of a region reserved in the ring. -/
theorem reserved_count {h : Exchange} (valid : h.tx.Valid) {out : Regions}
    (reserved : h.tx.readReserve = some out) :
    0 < out.cont1.toNat ∧ out.cont1.toNat < h.tx.capacity.toNat := by
  obtain ⟨-, within, some_⟩ := transfer_eq h valid reserved
  exact ⟨some_, lt_of_le_of_lt within (h.tx.size_lt valid)⟩

/-- Nothing started. -/
theorem XchSystem.after_nothing (s : XchSystem) : s.after (s.link, none) = s := by
  show ({ s with inFlight := s.inFlight ++ [], handed := s.handed ++ [] } : XchSystem) = s
  rw [List.append_nil, List.append_nil]

/-- `update` and `flush` start a transfer or do nothing. -/
theorem XchSystem.after_cases (s : XchSystem) {done : Exchange × Option (List UInt8)}
    (starts : done = s.link.startTx ∨ done = (s.link, none)) :
    s.after done = s ∨ ∃ out, s.link.busy = false ∧ s.link.tx.readReserve = some out ∧
      s.after done = s.after
        ({ s.link with txToRelease := out.cont1, flags := s.link.flags ||| txBusy },
          some (s.link.transfer out)) := by
  rcases starts with rfl | rfl
  · rcases startTx_cases s.link with same | ⟨out, idle, reserved, started⟩
    · rw [same]
      exact .inl s.after_nothing
    · rw [started]
      exact .inr ⟨out, idle, reserved, rfl⟩
  · exact .inl s.after_nothing

theorem update_starts (h : Exchange) : h.update = h.startTx ∨ h.update = (h, none) :=
  ite_eq_or_eq _ _ _

theorem flush_starts (h : Exchange) : h.flush = h.startTx ∨ h.flush = (h, none) :=
  (ite_eq_or_eq _ _ _).symm

theorem ClearInvariant.start (holds : ClearInvariant s) {done : Exchange × Option (List UInt8)}
    (starts : done = s.link.startTx ∨ done = (s.link, none)) : ClearInvariant (s.after done) := by
  rcases s.after_cases starts with same | ⟨out, idle, reserved, after⟩
  · rw [same]
    exact holds
  · have none_ : s.inFlight = [] := by
      by_contra running
      rw [holds.busy.mpr running] at idle
      cases idle
    rw [after]
    refine ⟨holds.tx, holds.rx, ?_, ?_, fun _ => reserved_count holds.tx reserved, holds.armed⟩
    · exact iff_of_true (busy_set s.link) (List.append_ne_nil_of_right_ne_nil _
        (List.cons_ne_nil _ _))
    · show (s.inFlight ++ [s.link.transfer out]).length ≤ 1
      rw [none_]
      exact le_rfl

theorem write_capacity (h : Exchange) (data : List UInt8) :
    (h.write data).1.tx.capacity = h.tx.capacity := by
  rw [Exchange.write]
  cases reserved : h.tx.writeReserve (UInt32.ofNat data.length).toUInt16 with
  | none => rfl
  | some out => exact (Fd.copyIn_indices h.tx out data).1

theorem ClearInvariant.write (holds : ClearInvariant s) {data : List UInt8}
    (regular : Regular s (.write data)) (taken : s.step (.write data) = some next) :
    ClearInvariant next := by
  obtain rfl := Option.some.inj taken
  have capacity := write_capacity s.link data
  rcases write_cases s.link holds.tx data regular with ⟨-, same⟩ | ⟨-, tx, after, valid, -⟩
  · simp only [same]
    exact ⟨holds.tx, holds.rx, holds.busy, holds.single, holds.release, holds.armed⟩
  · rw [after] at capacity
    simp only [after]
    refine ⟨valid, holds.rx, holds.busy, holds.single, fun running => ?_, holds.armed⟩
    show _ ∧ _ < tx.capacity.toNat
    rw [show tx.capacity = s.link.tx.capacity from capacity]
    exact holds.release running

theorem ClearInvariant.read (holds : ClearInvariant s) {length : UInt32}
    (taken : s.step (.read length) = some next) : ClearInvariant next := by
  obtain rfl := Option.some.inj taken
  obtain ⟨count, within, after, -⟩ := read_eq s.link holds.rx length
  have size := s.link.rx.size_lt holds.rx
  simp only [after]
  exact ⟨holds.tx, Fd.readCommit_valid holds.rx (by omega), holds.busy, holds.single,
    holds.release, holds.armed⟩

theorem ClearInvariant.txComplete (holds : ClearInvariant s)
    (taken : s.step .txComplete = some next) : ClearInvariant next := by
  rw [XchSystem.step] at taken
  cases inFlight : s.inFlight with
  | nil =>
    rw [inFlight] at taken
    cases taken
  | cons first rest =>
    rw [inFlight] at taken
    obtain rfl := Option.some.inj taken
    have running : s.inFlight ≠ [] := inFlight ▸ List.cons_ne_nil first rest
    obtain ⟨-, release⟩ := holds.release running
    have single := holds.single
    rw [inFlight, List.length_cons] at single
    obtain rfl : rest = [] := List.eq_nil_of_length_eq_zero (by omega)
    have valid := Fd.readCommit_valid holds.tx (le_of_lt release)
    cases reserved : (s.link.tx.readCommit s.link.txToRelease).readReserve with
    | none =>
      simp only [Exchange.txComplete, reserved]
      refine ⟨valid, holds.rx, ?_, Nat.zero_le 1, fun other => absurd rfl other, holds.armed⟩
      refine iff_of_false ?_ (not_not_intro rfl)
      exact Bool.eq_false_iff.mp (busy_clear s.link)
    | some out =>
      simp only [Exchange.txComplete, reserved]
      have count := reserved_count (h := { s.link with
        tx := s.link.tx.readCommit s.link.txToRelease }) valid reserved
      refine ⟨valid, holds.rx, ?_, le_rfl, fun _ => count, holds.armed⟩
      exact iff_of_true (holds.busy.mpr running) (List.cons_ne_nil _ _)

/-- Arming leaves the transmitting side alone. -/
theorem getRxStorage_tx (h : Exchange) : h.getRxStorage.tx = h.tx ∧
    h.getRxStorage.flags = h.flags ∧ h.getRxStorage.txToRelease = h.txToRelease := by
  rw [Exchange.getRxStorage]
  split <;> exact ⟨rfl, rfl, rfl⟩

/-- Arming the endpoint. -/
theorem ClearInvariant.arm (holds : ClearInvariant s) :
    ClearInvariant { s with link := s.link.getRxStorage } := by
  have free := s.link.rx.free_toNat holds.rx
  have size := s.link.rx.size_lt holds.rx
  have armed := (getRxStorage_armed holds.rx).free
  have rx := getRxStorage_rx s.link
  obtain ⟨tx, flags, release⟩ := getRxStorage_tx s.link
  rw [rx] at armed
  refine ⟨?_, ?_, ?_, holds.single, ?_, ?_⟩
  · show s.link.getRxStorage.tx.Valid
    rw [tx]
    exact holds.tx
  · show s.link.getRxStorage.rx.Valid
    rw [rx]
    exact holds.rx
  · show s.link.getRxStorage.busy = true ↔ _
    rw [Exchange.busy, flags]
    exact holds.busy
  · show s.inFlight ≠ [] → 0 < s.link.getRxStorage.txToRelease.toNat ∧
      s.link.getRxStorage.txToRelease.toNat < s.link.getRxStorage.tx.capacity.toNat
    rw [tx, release]
    exact holds.release
  · show (s.link.getRxStorage).c1.toNat < (s.link.getRxStorage).rx.capacity.toNat
    rw [rx]
    omega

theorem ClearInvariant.rxComplete (holds : ClearInvariant s) {bytes : List UInt8}
    (regular : Regular s (.rxComplete bytes)) (taken : s.step (.rxComplete bytes) = some next) :
    ClearInvariant next := by
  rw [XchSystem.step] at taken
  split at taken
  case isFalse => cases taken
  case isTrue =>
    obtain rfl := Option.some.inj taken
    have inside : bytes.length ≤ s.link.c1.toNat := regular
    have armed := holds.armed
    have small := s.link.c1.toNat_lt
    have counted := length_toUInt16 (show bytes.length < 65536 by omega)
    let received := s.link.receive bytes
    have stored : received.rx.Valid := ⟨holds.rx.head, holds.rx.tail⟩
    have committed : (received.rxComplete (UInt32.ofNat bytes.length).toUInt16).rx.Valid :=
      Fd.writeCommit_valid stored (show _ ≤ s.link.rx.capacity.toNat by omega)
    exact ClearInvariant.arm (s := { s with
      link := received.rxComplete (UInt32.ofNat bytes.length).toUInt16
      delivered := s.delivered ++ bytes }) ⟨holds.tx, committed, holds.busy, holds.single,
        holds.release, armed⟩

/-- **Every regular use** keeps the invariant, a clear as well. -/
theorem ClearInvariant.use (holds : ClearInvariant s) {use : XchUse} (regular : RegularUse s use)
    (taken : s.use use = some next) : ClearInvariant next := by
  cases use with
  | clear =>
    obtain rfl := Option.some.inj taken
    have tx := Nat.zero_lt_of_lt holds.tx.head
    have rx := Nat.zero_lt_of_lt holds.rx.head
    exact ⟨⟨tx, tx⟩, ⟨rx, rx⟩, holds.busy, holds.single, holds.release, holds.armed⟩
  | call call =>
    cases call with
    | write data => exact holds.write regular taken
    | read length => exact holds.read taken
    | update =>
      obtain rfl := Option.some.inj taken
      exact holds.start (update_starts s.link)
    | flush =>
      obtain rfl := Option.some.inj taken
      exact holds.start (flush_starts s.link)
    | txComplete => exact holds.txComplete taken
    | rxComplete bytes => exact holds.rxComplete regular taken

end Steps

theorem ClearInvariant.init (txStorage rxStorage : Nat → UInt8) {txSize rxSize : UInt16}
    (txPositive : 0 < txSize) (rxPositive : 0 < rxSize) :
    ClearInvariant (XchSystem.init txStorage rxStorage txSize rxSize) := by
  let start : XchSystem :=
    ⟨Exchange.init txStorage rxStorage txSize rxSize, [], [], [], [], []⟩
  have positive : 0 < rxSize.toNat := UInt16.lt_iff_toNat_lt.mp rxPositive
  have holds : ClearInvariant start :=
    ⟨Ring.init_valid txStorage txPositive, Ring.init_valid rxStorage rxPositive,
      iff_of_false (by simp [start, Exchange.busy, Exchange.init]) (not_not_intro rfl),
      Nat.zero_le 1, fun running => absurd rfl running, positive⟩
  exact holds.arm

/-! ### After a clear at rest -/

/-- The transmitting side, outside `usbxch_start_tx`. -/
def XchSystem.txSide (s : XchSystem) : TxSystem :=
  ⟨s.link, .outside, s.inFlight, s.handed, s.accepted⟩

/-- The receiving side, as if the endpoint were armed at the head. -/
def XchSystem.rxSide (s : XchSystem) : RxSystem :=
  ⟨{ s.link with r1 := s.link.rx.head }, s.delivered, s.returned⟩

/-- What holds from a clear at rest on: both sides carry what is accepted and delivered since, and
the endpoint is armed at the head, or with no bytes. -/
structure Cleared (s : XchSystem) : Prop where
  tx : TxInvariant s.txSide
  rx : RxInvariant s.rxSide
  armed : s.link.r1 = s.link.rx.head ∨ s.link.c1 = 0

section Cleared

variable {s next : XchSystem}

theorem Cleared.inOrder (cleared : Cleared s) : InOrder s :=
  ⟨cleared.tx.phase.handOver.order, ⟨_, cleared.rx.kept.symm⟩⟩

theorem cleared_clear (holds : ClearInvariant s) (rest : AtRest s) : Cleared s.clear := by
  have tx := Nat.zero_lt_of_lt holds.tx.head
  have rx := Nat.zero_lt_of_lt holds.rx.head
  have armed := holds.armed
  have idle : s.link.busy = false := by
    rw [Bool.eq_false_iff]
    exact fun busy => holds.busy.mp busy rest.noTransfer
  have zero : (0 : UInt16).toNat = 0 := rfl
  have txEmpty : s.link.clear.tx.contents = [] := Ring.init_contents _ _
  have rxEmpty : s.link.clear.rx.contents = [] := Ring.init_contents _ _
  have rxSize : s.link.clear.rx.size.toNat = 0 := by
    rw [← Ring.contents_length, rxEmpty]
    rfl
  have rxValid : s.link.clear.rx.Valid := ⟨rx, rx⟩
  have free := s.link.clear.rx.free_toNat rxValid
  refine ⟨⟨⟨tx, tx⟩, .quiet ⟨rest.noTransfer, txEmpty.symm⟩ idle (.inl rfl)⟩,
    ⟨rxValid, ⟨rfl, ?_, ?_⟩, rxEmpty.symm⟩, rest.armed⟩
  · show s.link.c1.toNat ≤ s.link.clear.rx.free.toNat
    rw [free, rxSize]
    show _ ≤ s.link.rx.capacity.toNat - 1 - 0
    omega
  · show 0 + s.link.c1.toNat ≤ s.link.rx.capacity.toNat
    omega

/-- The transmitting side does not depend on the receiving one. -/
theorem tx_of_same {link : Exchange} {delivered returned : List UInt8}
    (holds : TxInvariant s.txSide)
    (tx : link.tx = s.link.tx) (flags : link.flags = s.link.flags)
    (release : link.txToRelease = s.link.txToRelease) :
    TxInvariant ({ s with link := link, delivered := delivered, returned := returned } :
      XchSystem).txSide := by
  have busy : link.busy = s.link.busy := by rw [Exchange.busy, Exchange.busy, flags]
  refine ⟨?_, ?_⟩
  · show link.tx.Valid
    rw [tx]
    exact holds.valid
  · obtain ⟨quiet, idle⟩ | ⟨onWire, running⟩ := holds.phase.outside rfl
    · refine .quiet ⟨quiet.inFlight, ?_⟩ (busy.trans idle) (.inl rfl)
      show s.accepted = s.handed ++ link.tx.contents
      rw [tx]
      exact quiet.accepted
    · refine .onWire ⟨?_, ?_, ?_⟩ (busy.trans running) (.inl rfl)
      · show s.inFlight = [link.tx.contents.take link.txToRelease.toNat]
        rw [tx, release]
        exact onWire.inFlight
      · show link.txToRelease.toNat ≤ link.tx.size.toNat
        rw [tx, release]
        exact onWire.within
      · show s.accepted = s.handed ++ link.tx.contents.drop link.txToRelease.toNat
        rw [tx, release]
        exact onWire.accepted

/-- The receiving side does not depend on the transmitting one. -/
theorem rx_of_same {after : XchSystem} (holds : RxInvariant s.rxSide)
    (rx : after.link.rx = s.link.rx) (c1 : after.link.c1 = s.link.c1)
    (delivered : after.delivered = s.delivered) (returned : after.returned = s.returned) :
    RxInvariant after.rxSide := by
  refine ⟨?_, ⟨rfl, ?_, ?_⟩, ?_⟩
  · show after.link.rx.Valid
    rw [rx]
    exact holds.valid
  · show after.link.c1.toNat ≤ after.link.rx.free.toNat
    rw [rx, c1]
    exact holds.armed.free
  · show after.link.rx.head.toNat + after.link.c1.toNat ≤ after.link.rx.capacity.toNat
    rw [rx, c1]
    exact holds.armed.contiguous
  · show after.delivered = after.returned ++ after.link.rx.contents
    rw [rx, delivered, returned]
    exact holds.kept

theorem Cleared.start (cleared : Cleared s) {done : Exchange × Option (List UInt8)}
    (starts : done = s.link.startTx ∨ done = (s.link, none)) : Cleared (s.after done) := by
  rcases s.after_cases starts with same | ⟨out, idle, reserved, after⟩
  · rw [same]
    exact cleared
  · rw [after]
    obtain ⟨quiet, -⟩ | ⟨-, running⟩ := cleared.tx.phase.outside rfl
    · have onWire := quiet.transmit cleared.tx.valid reserved
      refine ⟨⟨cleared.tx.valid, ?_⟩, rx_of_same cleared.rx rfl rfl rfl rfl, cleared.armed⟩
      exact .onWire ⟨onWire.inFlight, onWire.within, onWire.accepted⟩ (busy_set s.link) (.inl rfl)
    · exact absurd (running.symm.trans idle) Bool.noConfusion

theorem write_rx (h : Exchange) (data : List UInt8) :
    (h.write data).1.rx = h.rx ∧ (h.write data).1.r1 = h.r1 ∧ (h.write data).1.c1 = h.c1 := by
  rw [Exchange.write]
  cases reserved : h.tx.writeReserve (UInt32.ofNat data.length).toUInt16 with
  | none => exact ⟨rfl, rfl, rfl⟩
  | some out => exact ⟨rfl, rfl, rfl⟩

theorem Cleared.write (cleared : Cleared s) {data : List UInt8}
    (regular : Regular s (.write data)) (taken : s.step (.write data) = some next) :
    Cleared next := by
  obtain rfl := Option.some.inj taken
  obtain ⟨rx, r1, c1⟩ := write_rx s.link data
  refine ⟨cleared.tx.write rfl regular, rx_of_same cleared.rx rx c1 rfl rfl, ?_⟩
  show (s.link.write data).1.r1 = (s.link.write data).1.rx.head ∨ (s.link.write data).1.c1 = 0
  rw [rx, r1, c1]
  exact cleared.armed

/-- A read does not use the pointer that is armed. -/
theorem read_r1 (h : Exchange) (r1 : UInt16) (length : UInt32) :
    ({ h with r1 := r1 } : Exchange).read length =
      ({ (h.read length).1 with r1 := r1 }, (h.read length).2) := by
  rw [Exchange.read, Exchange.read]
  cases reserved : h.rx.readReserve with
  | none => rfl
  | some out => rfl

theorem Cleared.read (cleared : Cleared s) {length : UInt32}
    (taken : s.step (.read length) = some next) : Cleared next := by
  obtain rfl := Option.some.inj taken
  obtain ⟨count, -, after, -⟩ := read_eq s.link cleared.rx.valid length
  have rx := cleared.rx.read length
  rw [XchSystem.rxSide, read_r1] at rx
  rw [after] at rx
  simp only [after]
  exact ⟨tx_of_same cleared.tx rfl rfl rfl, rx, cleared.armed⟩

theorem Cleared.txComplete (cleared : Cleared s) (taken : s.step .txComplete = some next) :
    Cleared next := by
  have completed : s.txSide.complete = some next.txSide ∧ next.link = s.link.txComplete.1 ∧
      next.delivered = s.delivered ∧ next.returned = s.returned := by
    rw [XchSystem.step] at taken
    cases inFlight : s.inFlight with
    | nil =>
      rw [inFlight] at taken
      cases taken
    | cons first rest =>
      rw [inFlight] at taken
      obtain rfl := Option.some.inj taken
      refine ⟨?_, rfl, rfl, rfl⟩
      simp only [TxSystem.complete, XchSystem.txSide, inFlight]
      cases started : s.link.txComplete.2 with
      | none => simp only [XchSystem.after, started, Option.toList_none, List.append_nil,
          Option.getD_none]
      | some transfer => simp only [XchSystem.after, started, TxSystem.transmit,
          Option.toList_some, Option.getD_some]
  obtain ⟨completed, link, delivered, returned⟩ := completed
  have undisturbed : Undisturbed s.txSide .complete := ⟨fun _ => Pc.noConfusion, Pc.noConfusion⟩
  have rx : next.link.rx = s.link.rx ∧ next.link.r1 = s.link.r1 ∧ next.link.c1 = s.link.c1 := by
    rw [link, Exchange.txComplete]
    cases (s.link.tx.readCommit s.link.txToRelease).readReserve with
    | none => exact ⟨rfl, rfl, rfl⟩
    | some out => exact ⟨rfl, rfl, rfl⟩
  refine ⟨cleared.tx.complete undisturbed completed,
    rx_of_same cleared.rx rx.1 rx.2.2 delivered returned, ?_⟩
  rw [rx.1, rx.2.1, rx.2.2]
  exact cleared.armed

/-- Arming writes the pointer anew. -/
theorem getRxStorage_r1 (h : Exchange) (r1 : UInt16) :
    ({ h with r1 := r1 } : Exchange).getRxStorage = h.getRxStorage := by
  have fits : ¬ h.rx.free > h.rx.free := UInt16.lt_irrefl _
  simp only [Exchange.getRxStorage, Ring.writeReserve, if_neg fits]

/-- A delivery of nothing does not use the pointer either. -/
theorem dataOut_nil (h : Exchange) (r1 : UInt16) :
    ({ h with r1 := r1 } : Exchange).dataOut [] = h.dataOut [] := by
  have received : ({ h with r1 := r1 } : Exchange).receive [] =
      { h.receive [] with r1 := r1 } := by
    rw [Exchange.receive, Exchange.receive, Circular.store_nil, Circular.store_nil]
  have committed : ∀ count, ({ h.receive [] with r1 := r1 } : Exchange).rxComplete count =
      { (h.receive []).rxComplete count with r1 := r1 } := fun _ => rfl
  rw [Exchange.dataOut, Exchange.dataOut, received, committed, getRxStorage_r1]

theorem Cleared.rxComplete (cleared : Cleared s) {bytes : List UInt8}
    (regular : Regular s (.rxComplete bytes)) (taken : s.step (.rxComplete bytes) = some next) :
    Cleared next := by
  rw [XchSystem.step] at taken
  split at taken
  case isFalse => cases taken
  case isTrue =>
    obtain rfl := Option.some.inj taken
    have inside : bytes.length ≤ s.link.c1.toNat := regular
    have delivered := cleared.rx.dataOut (show _ ≤ s.rxSide.link.c1.toNat from inside)
    have same : s.rxSide.link.dataOut bytes = s.link.dataOut bytes := by
      obtain head | none_ := cleared.armed
      · have link : s.rxSide.link = s.link := by
          rw [XchSystem.rxSide, ← head]
        rw [link]
      · rw [none_] at inside
        obtain rfl := List.eq_nil_of_length_eq_zero (Nat.le_zero.mp inside)
        exact dataOut_nil s.link s.link.rx.head
    rw [same] at delivered
    have head : (s.link.dataOut bytes).r1 = (s.link.dataOut bytes).rx.head := delivered.armed.first
    have dataOut_tx := getRxStorage_tx
      ((s.link.receive bytes).rxComplete (UInt32.ofNat bytes.length).toUInt16)
    refine ⟨tx_of_same cleared.tx dataOut_tx.1 dataOut_tx.2.1 dataOut_tx.2.2, ?_, .inl head⟩
    have link : ({ s.link.dataOut bytes with r1 := (s.link.dataOut bytes).rx.head } : Exchange) =
        s.link.dataOut bytes := by
      rw [← head]
    show RxInvariant ⟨{ s.link.dataOut bytes with r1 := (s.link.dataOut bytes).rx.head },
      s.delivered ++ bytes, s.returned⟩
    rw [link]
    exact delivered

/-- **Every regular call** keeps it. -/
theorem Cleared.step (cleared : Cleared s) {call : XchCall} (regular : Regular s call)
    (taken : s.step call = some next) : Cleared next := by
  cases call with
  | write data => exact cleared.write regular taken
  | read length => exact cleared.read taken
  | update =>
    obtain rfl := Option.some.inj taken
    exact cleared.start (update_starts s.link)
  | flush =>
    obtain rfl := Option.some.inj taken
    exact cleared.start (flush_starts s.link)
  | txComplete => exact cleared.txComplete taken
  | rxComplete bytes => exact cleared.rxComplete regular taken

/-- **A clear at rest discards**, before all regular calls. -/
theorem AtRest.discards (rest : AtRest s) (holds : ClearInvariant s) {later : List XchCall}
    (regular : Meets XchSystem.step Regular s.clear later) : Discards s later := by
  intro after run
  exact (LabelledSystem.exec_invariant Cleared
    (fun _ _ _ cleared allowed taken => cleared.step allowed taken)
    (cleared_clear holds rest) regular run).inOrder

end Cleared

/-! ### After a clear that is not at rest -/

section Stale

variable {s : XchSystem}

/-- **The transfer in flight completes**: its release count leaves the tail in front of the head,
and the bytes from there to the end of the buffer are transmitted. -/
theorem completes_stale (holds : ClearInvariant s) (running : s.inFlight ≠ []) :
    ¬ Discards s [.txComplete] := by
  intro discards
  obtain ⟨some_, release⟩ := holds.release running
  have positive := Nat.zero_lt_of_lt holds.tx.head
  have cleared : s.link.clear.tx.Valid := ⟨positive, positive⟩
  have valid := Fd.readCommit_valid cleared (le_of_lt release)
  have tail : (s.link.clear.tx.readCommit s.link.txToRelease).tail.toNat =
      s.link.txToRelease.toNat := by
    have advanced := Fd.advance_toNat cleared.tail (le_of_lt release)
    have zero : s.link.clear.tx.tail.toNat = 0 := rfl
    rw [zero, Nat.zero_add] at advanced
    exact advanced.trans (Nat.mod_eq_of_lt release)
  have size := Ring.size_toNat valid
  have head : (s.link.clear.tx.readCommit s.link.txToRelease).head.toNat = 0 := rfl
  have capacity : (s.link.clear.tx.readCommit s.link.txToRelease).capacity = s.link.tx.capacity :=
    rfl
  rw [tail, head, capacity, if_neg (by omega)] at size
  obtain ⟨out, reserved, -⟩ := Fd.readReserve_eq valid (by omega)
  let link : Exchange :=
    { s.link.clear with tx := s.link.clear.tx.readCommit s.link.txToRelease }
  have completed : s.link.clear.txComplete =
      ({ link with txToRelease := out.cont1 }, some (link.transfer out)) := by
    simp only [Exchange.txComplete]
    rw [show s.link.clear.txToRelease = s.link.txToRelease from rfl, reserved]
    rfl
  obtain ⟨first, rest, inFlight⟩ := List.exists_cons_of_ne_nil running
  have taken : s.clear.step .txComplete =
      some (({ s.clear with inFlight := rest } : XchSystem).after s.link.clear.txComplete) := by
    have same : s.clear.inFlight = first :: rest := inFlight
    simp only [XchSystem.step, same]
    rfl
  have order := (discards _ (by rw [LabelledSystem.exec_cons, taken]; rfl)).transmitted
  rw [completed] at order
  have nothing : link.transfer out = [] := List.prefix_nil.mp order
  obtain ⟨transfer, within, more⟩ := transfer_eq link valid reserved
  have length := congrArg List.length transfer
  rw [nothing, List.length_take, Ring.contents_length, List.length_nil] at length
  omega

/-- A read of one byte from a ring of one byte. -/
theorem read_one {h : Exchange} (valid : h.rx.Valid) (one : h.rx.size.toNat = 1) :
    (h.read 1).2 = h.rx.contents := by
  have tail := valid.tail
  obtain ⟨out, reserved, splits⟩ := Fd.readReserve_eq valid (by omega)
  have cont1 := splits.cont1
  have cont2 := splits.cont2
  have count : copyFromFirst out 1 = 1 := by
    unfold copyFromFirst
    omega
  have copied : h.copyOut out 1 = segment h.rx.buffer out.first.toNat out.cont1.toNat := by
    have oneByte : out.cont1.toNat = 1 := by omega
    have noMore : ¬ 1 < 1 := lt_irrefl 1
    simp only [Exchange.copyOut, count, oneByte, if_neg noMore]
    cases out.second with
    | none => exact List.append_nil _
    | some start => exact List.append_nil _
  simp only [Exchange.read, reserved]
  rw [show (1 : UInt32).toNat = 1 from rfl, copied, splits.segment_first]
  refine List.take_of_length_le ?_
  rw [Ring.contents_length]
  omega

/-- The endpoint is armed with some bytes. -/
theorem armed_some (some_ : s.link.c1 ≠ 0) : 0 < s.link.c1.toNat :=
  Nat.pos_of_ne_zero fun zero => some_ (UInt16.toNat_inj.mp zero)

/-- **The host delivers a byte** to the pointer that was armed: it is committed at the beginning of
the ring, where another byte is. -/
theorem delivers_stale (holds : ClearInvariant s) (elsewhere : s.link.r1 ≠ 0)
    (some_ : s.link.c1 ≠ 0) :
    ¬ Discards s [.rxComplete [s.link.rx.buffer 0 + 1], .read 1] := by
  intro discards
  have armed := holds.armed
  have room := armed_some some_
  have positive := Nat.zero_lt_of_lt holds.rx.head
  let stale : UInt8 := s.link.rx.buffer 0
  let byte : UInt8 := stale + 1
  have possible : [byte].length ≤ deliverable s.clear.link.c1.toNat := by
    show 1 ≤ deliverable s.link.c1.toNat
    unfold deliverable packetSize
    split <;> omega
  have taken : s.clear.step (.rxComplete [byte]) = some { s.clear with
      link := s.clear.link.dataOut [byte], delivered := [byte] } := if_pos possible
  -- What the ring holds after the delivery.
  let ring : Ring :=
    { s.link.clear.rx with buffer := store s.link.rx.buffer s.link.r1.toNat [byte] }
  have valid : ring.Valid := ⟨positive, positive⟩
  have empty : ring.size.toNat = 0 := by
    rw [← Ring.contents_length]
    exact congrArg List.length (Ring.init_contents _ _)
  have one : (1 : UInt16).toNat = 1 := rfl
  have capacity : ring.capacity = s.link.rx.capacity := rfl
  have rx : (s.clear.link.dataOut [byte]).rx = ring.writeCommit 1 := by
    rw [Exchange.dataOut, getRxStorage_rx]
    rfl
  have after : (ring.writeCommit 1).Valid :=
    Fd.writeCommit_valid valid (by rw [capacity, one]; omega)
  have size : (ring.writeCommit 1).size.toNat = 1 :=
    (Fd.writeCommit_size valid (by rw [capacity, empty, one]; omega)).trans (by rw [empty, one])
  have contents : (ring.writeCommit 1).contents = [stale] := by
    have first : s.link.r1.toNat ≠ 0 := fun zero => elsewhere (UInt16.toNat_inj.mp zero)
    rw [Ring.contents, size]
    show [store s.link.rx.buffer s.link.r1.toNat [byte] ((0 + 0) % s.link.rx.capacity.toNat)] = _
    rw [Nat.zero_mod, Circular.store_apply_of_outside (.inl (Nat.pos_of_ne_zero first))]
  have returned : ((s.clear.link.dataOut [byte]).read 1).2 = [stale] := by
    rw [read_one (rx ▸ after) (rx ▸ size), rx, contents]
  have order := (discards _ (by rw [LabelledSystem.exec_cons, taken]; rfl)).returned
  have same : [stale] <+: [byte] := returned ▸ order
  have equal : stale = stale + 1 := (List.cons.inj (same.eq_of_length rfl)).1
  have value := congrArg UInt8.toNat equal
  have next : (1 : UInt8).toNat = 1 := rfl
  rw [UInt8.toNat_add, next] at value
  omega

end Stale

/-! ### The reachable states -/

/-- What every reachable state keeps. -/
theorem reached_invariant {txStorage rxStorage : Nat → UInt8} {txSize rxSize : UInt16}
    (txPositive : 0 < txSize) (rxPositive : 0 < rxSize) {uses : List XchUse}
    (regular : Meets XchSystem.use RegularUse
      (XchSystem.init txStorage rxStorage txSize rxSize) uses) {reached : XchSystem}
    (run : exec XchSystem.use (XchSystem.init txStorage rxStorage txSize rxSize) uses =
      some reached) : ClearInvariant reached :=
  LabelledSystem.exec_invariant ClearInvariant
    (fun _ _ _ holds allowed taken => holds.use allowed taken)
    (ClearInvariant.init txStorage rxStorage txPositive rxPositive) regular run

/-- **When a clear discards the pending data**: in every state that regular calls and clears reach,
it does before all regular calls exactly if no transfer is in flight and the endpoint is armed at the
beginning of the ring, or with no bytes. -/
theorem clear_discards_iff (txStorage rxStorage : Nat → UInt8) (txSize rxSize : UInt16)
    (txPositive : 0 < txSize) (rxPositive : 0 < rxSize) (uses : List XchUse)
    (regular : Meets XchSystem.use RegularUse
      (XchSystem.init txStorage rxStorage txSize rxSize) uses) (reached : XchSystem)
    (run : exec XchSystem.use (XchSystem.init txStorage rxStorage txSize rxSize) uses =
      some reached) :
    (∀ later, Meets XchSystem.step Regular reached.clear later → Discards reached later) ↔
      AtRest reached := by
  have holds := reached_invariant txPositive rxPositive regular run
  constructor
  · intro discards
    refine ⟨?_, ?_⟩
    · by_contra running
      exact completes_stale holds running (discards _ ⟨trivial, fun _ _ => trivial⟩)
    · by_contra other
      rw [not_or] at other
      have delivered : Regular reached.clear (.rxComplete [reached.link.rx.buffer 0 + 1]) :=
        armed_some other.2
      exact delivers_stale holds other.1 other.2
        (discards _ ⟨delivered, fun _ _ => ⟨trivial, fun _ _ => trivial⟩⟩)
  · exact fun rest _ regular => rest.discards holds regular

/-- A byte written, transmitted and completed: a clear behind it discards. -/
theorem clear_discards_iff_byte :
    ∃ reached, exec XchSystem.use (XchSystem.init (fun _ => 0) (fun _ => 0) 4096 256)
        [.call (.write [7]), .call .update, .call .txComplete] = some reached ∧
      ∀ later, Meets XchSystem.step Regular reached.clear later → Discards reached later := by
  refine ⟨_, rfl, (clear_discards_iff (fun _ => 0) (fun _ => 0) 4096 256 (by decide) (by decide)
    [.call (.write [7]), .call .update, .call .txComplete] ?_ _ rfl).mpr ⟨rfl, .inl rfl⟩⟩
  exact ⟨fun _ => (by decide : 1 < 65536),
    fun _ _ => ⟨trivial, fun _ _ => ⟨trivial, fun _ _ => trivial⟩⟩⟩

/-- A byte written, and its transfer started: the transfer completes behind the clear. -/
theorem not_always_discards :
    ¬ ∀ (txStorage rxStorage : Nat → UInt8) (txSize rxSize : UInt16), 0 < txSize → 0 < rxSize →
      ∀ uses reached,
        exec XchSystem.use (XchSystem.init txStorage rxStorage txSize rxSize) uses =
          some reached → ∀ later, Discards reached later := by
  intro always
  let uses : List XchUse := [.call (.write [7]), .call .update]
  have regular : Meets XchSystem.use RegularUse
      (XchSystem.init (fun _ => 0) (fun _ => 0) 4096 256) uses :=
    ⟨fun _ => (by decide : 1 < 65536), fun _ _ => ⟨trivial, fun _ _ => trivial⟩⟩
  have discards := always (fun _ => 0) (fun _ => 0) 4096 256 (by decide) (by decide) uses _ rfl
  have holds : ClearInvariant _ := reached_invariant (by decide) (by decide) regular rfl
  refine completes_stale holds ?_ (discards _)
  exact List.cons_ne_nil _ _

end ForgeDrive.Usb
