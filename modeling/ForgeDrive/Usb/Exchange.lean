/-
**The USB exchange driver** (`fd_usbxch.c`): one ring to the host, one ring from the host.

The main thread writes, reads and starts transfers; the callbacks of the USB core run in the
interrupt. A call of `USBD_XCH_Transmit` is an output of the function that makes it: the bytes of
the region it is given. The pointers into the ring storage are indices.
-/

import ForgeDrive.Fd.Ring

namespace ForgeDrive.Usb

open Circular (segment store)
open Fd (Ring Regions Splits)

/-- `USBXCH_FLAG_TX_BUSY`. -/
def txBusy : UInt8 := 0x04

/-- `fd_usbxch_handle_t`. -/
structure Exchange where
  flags : UInt8
  tx : Ring
  txToRelease : UInt16
  rx : Ring
  r1 : UInt16
  c1 : UInt16

/-- `fd_usbxch_init`, with storages of these sizes. -/
def Exchange.init (txStorage rxStorage : Nat → UInt8) (txSize rxSize : UInt16) : Exchange where
  flags := 0
  tx := Ring.init txStorage txSize
  txToRelease := 0
  rx := Ring.init rxStorage rxSize
  r1 := 0
  c1 := 0

/-- `h->flags & USBXCH_FLAG_TX_BUSY`. -/
def Exchange.busy (h : Exchange) : Bool := h.flags &&& txBusy ≠ 0

/-- The bytes handed over by `USBD_XCH_Transmit(&hUsbDeviceFS, r1, c1)`. -/
def Exchange.transfer (h : Exchange) (out : Regions) : List UInt8 :=
  segment h.tx.buffer out.first.toNat out.cont1.toNat

/-! ### The main thread -/

/-- `fd_usbxch_write`. The length is a `uint32_t`; both calls of the ring truncate it. -/
def Exchange.write (h : Exchange) (data : List UInt8) : Exchange × UInt32 :=
  let length := UInt32.ofNat data.length
  match h.tx.writeReserve length.toUInt16 with
  | some out => ({ h with tx := (h.tx.copyIn out data).writeCommit length.toUInt16 }, 0)
  | none => (h, length)

/-- `copy_from_first` of `fd_usbxch_read`. -/
def copyFromFirst (out : Regions) (length : Nat) : Nat :=
  min (min length (out.cont1.toNat + out.cont2.toNat) % 65536) out.cont1.toNat

/-- The bytes `fd_usbxch_read` copies from the reserved regions. -/
def Exchange.copyOut (h : Exchange) (out : Regions) (length : Nat) : List UInt8 :=
  let first := copyFromFirst out length
  segment h.rx.buffer out.first.toNat first ++
    match out.second with
    | some start =>
      if first < length then
        segment h.rx.buffer start.toNat (min ((length - first) % 65536) out.cont2.toNat)
      else []
    | none => []

/-- `fd_usbxch_read`: the bytes copied to the caller's buffer. -/
def Exchange.read (h : Exchange) (length : UInt32) : Exchange × List UInt8 :=
  match h.rx.readReserve with
  | some out =>
    let total := h.copyOut out length.toNat
    ({ h with rx := h.rx.readCommit (UInt16.ofNat total.length) }, total)
  | none => (h, [])

/-- `usbxch_start_tx`, and the transfer it starts. -/
def Exchange.startTx (h : Exchange) : Exchange × Option (List UInt8) :=
  if h.busy then (h, none)
  else match h.tx.readReserve with
    | none => (h, none)
    | some out => ({ h with txToRelease := out.cont1, flags := h.flags ||| txBusy },
        some (h.transfer out))

/-! ### The interrupt -/

/-- `USBD_XCH_TxComplete`, and the transfer it starts. -/
def Exchange.txComplete (h : Exchange) : Exchange × Option (List UInt8) :=
  let h := { h with tx := h.tx.readCommit h.txToRelease }
  match h.tx.readReserve with
  | none => ({ h with flags := h.flags &&& ~~~txBusy }, none)
  | some out => ({ h with txToRelease := out.cont1 }, some (h.transfer out))

/-- `USBD_XCH_GetRxStorage`. -/
def Exchange.getRxStorage (h : Exchange) : Exchange :=
  match h.rx.writeReserve h.rx.free with
  | some out => { h with r1 := out.first, c1 := out.cont1 }
  | none => h

/-- `USBD_XCH_RxComplete`. -/
def Exchange.rxComplete (h : Exchange) (size : UInt16) : Exchange :=
  { h with rx := h.rx.writeCommit size }

/-! ### What a write and a transfer do to the contents -/

/-- **A write** of a length that fits 16 bits is refused and changes nothing, or is accepted and
appends the bytes. -/
theorem write_cases (h : Exchange) (valid : h.tx.Valid) (data : List UInt8)
    (short : (h.write data).2 = 0 → data.length < 65536) :
    ((h.write data).2 ≠ 0 ∧ (h.write data).1 = h) ∨
      ((h.write data).2 = 0 ∧ ∃ tx : Ring, (h.write data).1 = { h with tx := tx } ∧ tx.Valid ∧
        tx.contents = h.tx.contents ++ data) := by
  have free := h.tx.free_toNat valid
  have size := h.tx.size_lt valid
  have truncated : (UInt32.ofNat data.length).toUInt16.toNat = data.length % 65536 := by
    rw [UInt32.toNat_toUInt16, UInt32.toNat_ofNat']
    omega
  rcases Nat.lt_or_ge h.tx.free.toNat (data.length % 65536) with more | fits
  · have refused := Fd.writeReserve_none (r := h.tx) (truncated.symm ▸ more)
    refine .inl ⟨?_, ?_⟩
    · simp only [Exchange.write, refused]
      intro zero
      rw [zero] at truncated
      have zeroNat : (0 : UInt32).toUInt16.toNat = 0 := rfl
      omega
    · simp only [Exchange.write, refused]
  · obtain ⟨out, reserved, splits⟩ := Fd.writeReserve_eq valid _ (truncated.symm ▸ fits)
    have accepted : (h.write data).2 = 0 := by simp only [Exchange.write, reserved]
    have all : (UInt32.ofNat data.length).toUInt16.toNat = data.length := by
      rw [truncated, Nat.mod_eq_of_lt (short accepted)]
    rw [all] at splits truncated
    obtain ⟨capacity, -, -⟩ := Fd.copyIn_indices h.tx out data
    refine .inr ⟨accepted, (h.tx.copyIn out data).writeCommit (UInt32.ofNat data.length).toUInt16,
      by simp only [Exchange.write, reserved], ?_, ?_⟩
    · exact Fd.writeCommit_valid (Fd.copyIn_valid _ _ valid) (by rw [capacity, all]; omega)
    · exact Fd.copyIn_contents valid splits (by omega) all

/-- The length of a write, as the ring sees it. -/
theorem length_toUInt16 {data : List UInt8} (short : data.length < 65536) :
    (UInt32.ofNat data.length).toUInt16.toNat = data.length := by
  rw [UInt32.toNat_toUInt16, UInt32.toNat_ofNat']
  omega

/-- **A write that fits** is accepted. -/
theorem write_fits {h : Exchange} (valid : h.tx.Valid) {data : List UInt8}
    (fits : data.length ≤ h.tx.free.toNat) :
    (h.write data).2 = 0 ∧ ∃ tx : Ring, (h.write data).1 = { h with tx := tx } ∧ tx.Valid ∧
      tx.capacity = h.tx.capacity ∧ tx.contents = h.tx.contents ++ data := by
  have small := h.tx.free.toNat_lt
  have length := length_toUInt16 (show data.length < 65536 by omega)
  obtain ⟨out, reserved, -⟩ := Fd.writeReserve_eq valid _ (length.le.trans fits)
  have accepted : (h.write data).2 = 0 := by simp only [Exchange.write, reserved]
  rcases write_cases h valid data (fun _ => by omega) with ⟨refused, -⟩ |
    ⟨-, tx, after, validAfter, contents⟩
  · exact absurd accepted refused
  · refine ⟨accepted, tx, after, validAfter, ?_, contents⟩
    obtain ⟨capacity, -, -⟩ := Fd.copyIn_indices h.tx out data
    simp only [Exchange.write, reserved] at after
    have same := congrArg (fun link => link.tx.capacity) after
    exact same.symm.trans capacity

/-- **A write that does not fit** returns its length, and nothing changes. -/
theorem write_refused_eq {h : Exchange} {data : List UInt8} (short : data.length < 65536)
    (more : h.tx.free.toNat < data.length) : h.write data = (h, UInt32.ofNat data.length) := by
  have refused := Fd.writeReserve_none (r := h.tx) ((length_toUInt16 short).symm ▸ more)
  simp only [Exchange.write, refused]

/-- What a write that does not fit returns is not zero. -/
theorem write_refused {h : Exchange} {data : List UInt8} (short : data.length < 65536)
    (more : h.tx.free.toNat < data.length) :
    (h.write data).2 ≠ 0 ∧ (h.write data).1 = h := by
  rw [write_refused_eq short more]
  refine ⟨fun zero => ?_, rfl⟩
  have length := length_toUInt16 short
  rw [show UInt32.ofNat data.length = 0 from zero] at length
  have empty : data.length = 0 := length.symm
  omega

/-- **What `usbxch_start_tx` can do**: nothing, or start the transfer of a region, if none is in
flight. -/
theorem startTx_cases (h : Exchange) :
    h.startTx = (h, none) ∨ ∃ out, h.busy = false ∧ h.tx.readReserve = some out ∧
      h.startTx = ({ h with txToRelease := out.cont1, flags := h.flags ||| txBusy },
        some (h.transfer out)) := by
  rw [Exchange.startTx]
  split
  case isTrue => exact .inl rfl
  case isFalse idle =>
    cases reserved : h.tx.readReserve with
    | none => exact .inl rfl
    | some out => exact .inr ⟨out, Bool.eq_false_iff.mpr idle, rfl, rfl⟩

/-- Starting a transfer leaves the ring as it is. -/
theorem startTx_tx (h : Exchange) : h.startTx.1.tx = h.tx := by
  rcases startTx_cases h with same | ⟨out, -, -, started⟩
  · rw [same]
  · rw [started]

/-- The region reserved for a transfer is a beginning of the contents, and not empty. -/
theorem transfer_eq (h : Exchange) (valid : h.tx.Valid) {out : Regions}
    (reserved : h.tx.readReserve = some out) :
    h.transfer out = h.tx.contents.take out.cont1.toNat ∧ out.cont1.toNat ≤ h.tx.size.toNat ∧
      0 < out.cont1.toNat := by
  have some_ : h.tx.size.toNat ≠ 0 := by
    intro none_
    rw [Fd.readReserve_none none_] at reserved
    cases reserved
  obtain ⟨out', reserved', splits⟩ := Fd.readReserve_eq valid some_
  obtain rfl := Option.some.inj (reserved.symm.trans reserved')
  have cont1 := splits.cont1
  have tail := valid.tail
  exact ⟨splits.segment_first, by omega, by omega⟩

end ForgeDrive.Usb
