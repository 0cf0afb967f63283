/-
**The USB connection of the tool** (`UsbxchLibusb`: `ForgeTool/Usbxch.h`, `ForgeTool/Usbxch.cpp`).

The main thread calls `connect`, `disconnect`, `write` and at last the destructor; the thread that
`connect` starts runs `ioLoop` on the same handle, and ends by itself when a transfer fails. Both
threads take one step after the other on the shared fields. The part of `connect` behind its
`disconnect` finds no other thread, so it is one step. What libusb answers is part of a step.

`Held` is what is taken from libusb and is to be given back, with what its documentation asks of
each call. `read` and `available` touch the ring of received bytes only, and are left out, as is
what is done with the bytes of a transfer.

* `scan_held` — the search for the device gives back all it takes but the handle it finds;
* `Usbxch.Invariant` — the handle is there as long as the other thread is;
* `lifecycle` — no call is made on what is closed or not open, by either thread, nothing is closed
  twice or left open, and no thread is lost;
* `disconnect_returns` — the thread that is waited for ends within five of its steps.
-/

import ForgeDrive.Library.LabelledSystem

namespace ForgeDrive.Host

open LabelledSystem (exec)

/-! ### What is taken from libusb -/

/-- The calls of libusb, with what they answer where that matters. A handle is a number. -/
inductive LibusbCall
  | init (ok : Bool)
  | exit
  | getDeviceList (ok : Bool)
  | freeDeviceList
  | getDeviceDescriptor
  | openDevice (handle : Option Nat)
  | getStringDescriptor (handle : Nat)
  | setAutoDetachKernelDriver (handle : Nat)
  | getConfiguration (handle : Nat)
  | getActiveConfigDescriptor (ok : Bool)
  | freeConfigDescriptor
  | claimInterface (handle : Nat) (ok : Bool)
  | releaseInterface (handle : Nat)
  | close (handle : Nat)
  | bulkTransfer (handle : Option Nat)
  deriving DecidableEq, Repr

/-- **What is held**: the context, the list of devices, a configuration descriptor, the open
handles, and those whose interface is claimed. -/
structure Held where
  context : Bool
  deviceList : Bool
  config : Bool
  handles : List Nat
  claimed : List Nat
  deriving DecidableEq, Repr

def Held.nothing : Held := ⟨false, false, false, [], []⟩

/-- **What a call asks for and what is held after it**: `none` where it is not allowed. The context
is given up last, and a handle is closed when its interface is released. -/
def Held.call (held : Held) : LibusbCall → Option Held
  | .init ok => if held.context then none else some { held with context := ok }
  | .exit => if held.context ∧ held.handles = [] ∧ ¬ held.deviceList ∧ ¬ held.config then
      some { held with context := false } else none
  | .getDeviceList ok => if held.context ∧ ¬ held.deviceList then
      some { held with deviceList := ok } else none
  | .freeDeviceList => if held.deviceList then some { held with deviceList := false } else none
  | .getDeviceDescriptor => if held.deviceList then some held else none
  | .openDevice handle => if held.deviceList ∧ ∀ h ∈ handle, h ∉ held.handles then
      some { held with handles := handle.toList ++ held.handles } else none
  | .getStringDescriptor handle | .setAutoDetachKernelDriver handle | .getConfiguration handle =>
    if handle ∈ held.handles then some held else none
  | .getActiveConfigDescriptor ok => if held.deviceList ∧ ¬ held.config then
      some { held with config := ok } else none
  | .freeConfigDescriptor => if held.config then some { held with config := false } else none
  | .claimInterface handle ok => if handle ∈ held.handles ∧ handle ∉ held.claimed then
      some { held with claimed := if ok then handle :: held.claimed else held.claimed } else none
  | .releaseInterface handle => if handle ∈ held.claimed then
      some { held with claimed := held.claimed.erase handle } else none
  | .close handle => if handle ∈ held.handles ∧ handle ∉ held.claimed then
      some { held with handles := held.handles.erase handle } else none
  | .bulkTransfer handle => if ∃ h ∈ handle, h ∈ held.claimed then some held else none

/-! ### The search for the device -/

/-- `libusb_device_descriptor`: the fields that are read. -/
structure Descriptor where
  idVendor : UInt16
  idProduct : UInt16
  iSerialNumber : UInt8
  deriving DecidableEq, Repr

/-- What libusb answers about a device of the list: its descriptor, the handle opened to read the
serial number and the text read, the handle opened to be kept, and whether its active configuration
was got and the interface claimed. -/
structure Device where
  descriptor : Option Descriptor
  serialHandle : Option Nat
  serial : Option (List UInt8)
  handle : Option Nat
  config : Bool
  claimed : Bool
  deriving DecidableEq, Repr

/-- The device `connect` is asked for. -/
structure Wanted where
  serialNumber : List UInt8
  vid : UInt16
  pid : UInt16
  deriving DecidableEq, Repr

/-- Whether the serial number is the one that is asked for. -/
def Device.checkSerial (device : Device) (wanted : Wanted) (desc : Descriptor) :
    List LibusbCall × Bool :=
  if wanted.serialNumber = [] then ([], true)
  else if desc.iSerialNumber = 0 then ([], false)
  else match device.serialHandle with
    | none => ([.openDevice none], false)
    | some tmp =>
      ([.openDevice (some tmp), .getStringDescriptor tmp, .close tmp],
        device.serial = some wanted.serialNumber)

/-- The handle is opened and the interface claimed. -/
def Device.claim (device : Device) : List LibusbCall × Option Nat :=
  match device.handle with
  | none => ([.openDevice none], none)
  | some handle =>
    let opened := [.openDevice (some handle), .setAutoDetachKernelDriver handle,
      .getConfiguration handle, .getActiveConfigDescriptor device.config]
    if ¬ device.config then (opened ++ [.close handle], none)
    else if ¬ device.claimed then
      (opened ++ [.claimInterface handle false, .freeConfigDescriptor, .close handle], none)
    else (opened ++ [.claimInterface handle true, .freeConfigDescriptor], some handle)

/-- One turn of the loop over the devices. -/
def Device.attempt (device : Device) (wanted : Wanted) : List LibusbCall × Option Nat :=
  match device.descriptor with
  | none => ([.getDeviceDescriptor], none)
  | some desc =>
    if desc.idVendor ≠ wanted.vid ∨ desc.idProduct ≠ wanted.pid then ([.getDeviceDescriptor], none)
    else
      let (serialCalls, is_wanted) := device.checkSerial wanted desc
      if ¬ is_wanted then (.getDeviceDescriptor :: serialCalls, none)
      else (.getDeviceDescriptor :: (serialCalls ++ device.claim.1), device.claim.2)

/-- The loop, until a device is found. -/
def scan (wanted : Wanted) : List Device → List LibusbCall × Option Nat
  | [] => ([], none)
  | device :: rest =>
    match device.attempt wanted with
    | (calls, some handle) => (calls, some handle)
    | (calls, none) => (calls ++ (scan wanted rest).1, (scan wanted rest).2)

/-! ### The two threads -/

/-- What `disconnect` was called for. -/
inductive AfterDisconnect
  | returns
  | connects (wanted : Wanted)
  | destroyed
  deriving DecidableEq, Repr

/-- Where the main thread is: outside, in `disconnect` (at its test, at each of its stores, at the
join, at the handle and at the context), in `connect` behind it (at the search, at each of its
stores, at the start of the thread), in `write` at the transfer, or past the destructor. -/
inductive MainPc
  | outside
  | test (next : AfterDisconnect)
  | clearConnected (next : AfterDisconnect)
  | clearRunning (next : AfterDisconnect)
  | join (next : AfterDisconnect)
  | close (next : AfterDisconnect)
  | exit (next : AfterDisconnect)
  | search (wanted : Wanted)
  | setConnected
  | setRunning
  | startThread
  | transfer
  | gone
  deriving DecidableEq, Repr

/-- Where `ioLoop` is: at the test of `running_`, at the transfer, in it, at the two stores after an
error, or at its end. -/
inductive IoPc
  | test
  | transfer
  | transferring (handle : Option Nat)
  | clearConnected
  | clearRunning
  | finished
  deriving DecidableEq, Repr

/-- `UsbxchLibusb`: `io_thread_` is joinable where `ioThread` is there. `terminated` says whether a
joinable thread was assigned or destroyed. -/
structure Usbxch where
  context : Bool
  handle : Option Nat
  running : Bool
  connected : Bool
  ioThread : Option IoPc
  main : MainPc
  calls : List LibusbCall
  terminated : Bool
  deriving DecidableEq, Repr

def Usbxch.init : Usbxch := ⟨false, none, false, false, none, .outside, [], false⟩

/-- What libusb answers to `libusb_init` and `libusb_get_device_list`, with its answers about the
devices. -/
inductive LibusbAnswers
  | initFails
  | listFails
  | devices (list : List Device)
  deriving DecidableEq, Repr

/-- The steps: the calls of the main thread, its next step, its search with the answers of libusb, the
next step of `ioLoop`, and the end of its transfer, with success or a timeout or with an error. -/
inductive UsbxchStep
  | connect (wanted : Wanted)
  | disconnect
  | write (data : Bool) (length : Nat)
  | destroy
  | main
  | search (answers : LibusbAnswers)
  | io
  | transferred (ok : Bool)
  deriving DecidableEq, Repr

/-- `connect` from `libusb_init` to the end of the search. -/
def Usbxch.search (s : Usbxch) (wanted : Wanted) : LibusbAnswers → Usbxch
  | .initFails => { s with main := .outside, calls := s.calls ++ [.init false] }
  | .listFails => { s with
      main := .outside
      calls := s.calls ++ [.init true, .getDeviceList false, .exit] }
  | .devices list =>
    let found := scan wanted list
    let calls := s.calls ++ [.init true, .getDeviceList true] ++ found.1 ++ [.freeDeviceList]
    match found.2 with
    | none => { s with main := .outside, calls := calls ++ [.exit] }
    | some handle => { s with
        context := true, handle := some handle, main := .setConnected, calls := calls }

/-- Where the main thread goes on behind `disconnect`. -/
def AfterDisconnect.pc : AfterDisconnect → MainPc
  | .returns => .outside
  | .connects wanted => .search wanted
  | .destroyed => .gone

/-- The end of `disconnect`. Behind the destructor the fields are destroyed. -/
def Usbxch.resume (s : Usbxch) (next : AfterDisconnect) : Usbxch :=
  { s with
    main := next.pc
    terminated := s.terminated || (next = .destroyed && s.ioThread.isSome) }

/-- The next step of the main thread inside of a call. -/
def Usbxch.mainStep (s : Usbxch) : Option Usbxch :=
  match s.main with
  | .test next =>
    some (if ¬ s.connected ∧ s.handle = none then s.resume next
      else { s with main := .clearConnected next })
  | .clearConnected next => some { s with connected := false, main := .clearRunning next }
  | .clearRunning next => some { s with running := false, main := .join next }
  | .join next =>
    if s.ioThread = none ∨ s.ioThread = some .finished then
      some { s with ioThread := none, main := .close next }
    else none
  | .close next =>
    match s.handle with
    | none => some { s with main := .exit next }
    | some handle => some { s with
        handle := none
        main := .exit next
        calls := s.calls ++ [.releaseInterface handle, .close handle] }
  | .exit next =>
    some (Usbxch.resume (if s.context then
      { s with context := false, calls := s.calls ++ [.exit] } else s) next)
  | .setConnected => some { s with connected := true, main := .setRunning }
  | .setRunning => some { s with running := true, main := .startThread }
  | .startThread => some { s with
      ioThread := some .test
      terminated := s.terminated || s.ioThread.isSome
      main := .outside }
  | .transfer => some { s with main := .outside, calls := s.calls ++ [.bulkTransfer s.handle] }
  | .outside | .search _ | .gone => none

/-- The next step of `ioLoop`. -/
def Usbxch.ioStep (s : Usbxch) : Option Usbxch :=
  match s.ioThread with
  | some .test => some { s with ioThread := some (if s.running then .transfer else .finished) }
  | some .transfer => some { s with
      ioThread := some (.transferring s.handle)
      calls := s.calls ++ [.bulkTransfer s.handle] }
  | some .clearConnected => some { s with connected := false, ioThread := some .clearRunning }
  | some .clearRunning => some { s with running := false, ioThread := some .test }
  | some (.transferring _) | some .finished | none => none

/-- A call from outside. -/
def Usbxch.enter (s : Usbxch) (pc : MainPc) : Option Usbxch :=
  if s.main = .outside then some { s with main := pc } else none

/-- One step of either thread. -/
def Usbxch.step (s : Usbxch) : UsbxchStep → Option Usbxch
  | .connect wanted => s.enter (.test (.connects wanted))
  | .disconnect => s.enter (.test .returns)
  | .destroy => s.enter (.test .destroyed)
  | .write data length =>
    s.enter (if ¬ s.connected ∨ s.handle = none ∨ ¬ data ∨ length = 0 then .outside else .transfer)
  | .main => s.mainStep
  | .search answers =>
    match s.main with
    | .search wanted => some (s.search wanted answers)
    | _ => none
  | .io => s.ioStep
  | .transferred ok =>
    match s.ioThread with
    | some (.transferring _) =>
      some { s with ioThread := some (if ok then .test else .clearConnected) }
    | _ => none

/-! ### The search gives back what it takes -/

/-- What is held during the search, with the handle that is kept. -/
def Held.searching (kept : Option Nat) : Held := ⟨true, true, false, kept.toList, kept.toList⟩

theorem checkSerial_held (device : Device) (wanted : Wanted) (desc : Descriptor) :
    exec Held.call (.searching none) (device.checkSerial wanted desc).1 = some (.searching none) := by
  unfold Device.checkSerial
  split
  · rfl
  · split
    · rfl
    · split
      · rfl
      · simp [exec, Held.call, Held.searching]

theorem claim_held (device : Device) :
    exec Held.call (.searching none) device.claim.1 = some (.searching device.claim.2) := by
  unfold Device.claim
  split
  · rfl
  · simp only
    split
    · next failed =>
      rw [Bool.not_eq_true] at failed
      simp [exec, Held.call, Held.searching, failed]
    · next got =>
      rw [Decidable.not_not] at got
      split <;> simp [exec, Held.call, Held.searching, got]

theorem attempt_held (device : Device) (wanted : Wanted) :
    exec Held.call (.searching none) (device.attempt wanted).1 =
      some (.searching (device.attempt wanted).2) := by
  unfold Device.attempt
  split
  · rfl
  · next desc _ =>
    have serial := checkSerial_held device wanted desc
    split
    · rfl
    · simp only
      split
      · exact serial
      · show exec Held.call (.searching none)
          ((device.checkSerial wanted desc).1 ++ device.claim.1) = _
        rw [LabelledSystem.exec_append _ serial]
        exact claim_held device

/-- **The search gives back all but the handle it finds.** -/
theorem scan_held (wanted : Wanted) (list : List Device) :
    exec Held.call (.searching none) (scan wanted list).1 =
      some (.searching (scan wanted list).2) := by
  induction list with
  | nil => rfl
  | cons device rest ih =>
    have first := attempt_held device wanted
    rw [scan]
    split
    · next calls handle found => rwa [found] at first
    · next calls found =>
      rw [found] at first
      show exec Held.call (.searching none) (calls ++ (scan wanted rest).1) = _
      rw [LabelledSystem.exec_append _ first]
      exact ih

/-! ### The invariant -/

/-- What is held between the calls: the context, and the handle with its interface claimed. -/
def Usbxch.held (s : Usbxch) : Held := ⟨s.context, false, false, s.handle.toList, s.handle.toList⟩

/-- What holds where the main thread is. From the join to the start of the thread there is none. -/
def Usbxch.MainAt (s : Usbxch) : MainPc → Prop
  | .outside | .test _ | .clearConnected _ => True
  | .clearRunning _ => s.connected = false
  | .join _ => s.connected = false ∧ s.running = false
  | .close _ => s.connected = false ∧ s.ioThread = none
  | .exit _ => s.connected = false ∧ s.ioThread = none ∧ s.handle = none
  | .search _ | .gone => s.connected = false ∧ s.ioThread = none ∧ s.handle = none
  | .setConnected | .setRunning => s.ioThread = none ∧ s.handle.isSome
  | .startThread => s.ioThread = none ∧ s.handle.isSome ∧ s.running = true
  | .transfer => s.handle.isSome

/-- What holds where `ioLoop` is. -/
def Usbxch.IoAt (s : Usbxch) : IoPc → Prop
  | .test | .transfer | .clearConnected => True
  | .transferring handle => handle = s.handle
  | .clearRunning => s.connected = false
  | .finished => s.connected = false ∧ s.running = false

/-- **The invariant**: the calls have led to what is held; there is a context as long as there is a
handle, and a handle as long as there is a thread; and a thread that is to stop is not connected. -/
structure Usbxch.Invariant (s : Usbxch) : Prop where
  calls : exec Held.call .nothing s.calls = some s.held
  context : s.handle.isSome → s.context = true
  freed : s.context = true → s.handle = none → ∃ next, s.main = .exit next
  thread : s.ioThread.isSome → s.handle.isSome
  stopping : s.ioThread.isSome → s.running = false → s.connected = false
  live : s.connected = true → s.ioThread.isSome ∨ s.main = .setRunning ∨ s.main = .startThread
  main : s.MainAt s.main
  io : ∀ pc, s.ioThread = some pc → s.IoAt pc
  alive : s.terminated = false

theorem Usbxch.Invariant.init : Usbxch.init.Invariant where
  calls := rfl
  context := nofun
  freed := nofun
  thread := nofun
  stopping := nofun
  live := nofun
  main := trivial
  io := nofun
  alive := rfl

section Steps

variable {s next : Usbxch}

theorem Usbxch.held_off (context : s.context = false) (handle : s.handle = none) :
    s.held = .nothing := by
  rw [Usbxch.held, context, handle]
  rfl

/-- With nothing held and no thread. -/
theorem Usbxch.Invariant.off (calls : exec Held.call .nothing s.calls = some .nothing)
    (context : s.context = false) (handle : s.handle = none) (thread : s.ioThread = none)
    (connected : s.connected = false) (alive : s.terminated = false) (main : s.MainAt s.main) :
    s.Invariant where
  calls := calls.trans (congrArg some (Usbxch.held_off context handle).symm)
  context some_ := absurd handle (Option.isSome_iff_ne_none.mp some_)
  freed held := (Bool.false_ne_true (context.symm.trans held)).elim
  thread some_ := absurd thread (Option.isSome_iff_ne_none.mp some_)
  stopping _ _ := connected
  live live := (Bool.false_ne_true (connected.symm.trans live)).elim
  main := main
  io pc running := by cases thread.symm.trans running
  alive := alive

/-- The end of `disconnect`. -/
theorem Usbxch.Invariant.resume (calls : exec Held.call .nothing s.calls = some .nothing)
    (context : s.context = false) (handle : s.handle = none) (thread : s.ioThread = none)
    (connected : s.connected = false) (alive : s.terminated = false) (after : AfterDisconnect) :
    (s.resume after).Invariant := by
  refine .off calls context handle thread connected ?_ ?_
  · show (s.terminated || (after = .destroyed && s.ioThread.isSome)) = false
    rw [alive, thread]
    simp
  · cases after with
    | returns => trivial
    | connects wanted => exact ⟨connected, thread, handle⟩
    | destroyed => exact ⟨connected, thread, handle⟩

/-- Outside of the end of `disconnect` the context is given up with the handle. -/
theorem Usbxch.Invariant.freed_of (inv : s.Invariant) {pc : MainPc} (at_ : s.main = pc)
    (before : ∀ after, pc ≠ .exit after) (context : s.context = true) : s.handle ≠ none := by
  intro none_
  obtain ⟨after, exits⟩ := inv.freed context none_
  exact before after (at_.symm.trans exits)

/-- Outside of `connect` the connection lives with the thread. -/
theorem Usbxch.Invariant.live_of (inv : s.Invariant) {pc : MainPc} (at_ : s.main = pc)
    (setting : pc ≠ .setRunning) (starting : pc ≠ .startThread) (connected : s.connected = true) :
    s.ioThread.isSome := by
  rcases inv.live connected with live | other | other
  · exact live
  · exact absurd (at_.symm.trans other) setting
  · exact absurd (at_.symm.trans other) starting

/-- `ioLoop` stays where it is while fewer flags are set. -/
theorem Usbxch.IoAt.mono {pc : IoPc} (at_ : s.IoAt pc) (handle : next.handle = s.handle)
    (connected : s.connected = false → next.connected = false)
    (running : s.running = false → next.running = false) : next.IoAt pc := by
  cases pc with
  | test | transfer | clearConnected => trivial
  | transferring taken => exact at_.trans handle.symm
  | clearRunning => exact connected at_
  | finished => exact ⟨connected at_.1, running at_.2⟩

/-- **A transfer** uses the handle that is held. -/
theorem Usbxch.Invariant.transfers (inv : s.Invariant) (handle : s.handle.isSome) :
    exec Held.call .nothing (s.calls ++ [.bulkTransfer s.handle]) = some s.held := by
  obtain ⟨held, is⟩ := Option.isSome_iff_exists.mp handle
  rw [LabelledSystem.exec_append _ inv.calls]
  simp [exec, Held.call, Usbxch.held, is]

/-- A call from outside. -/
theorem Usbxch.Invariant.enter (inv : s.Invariant) {pc : MainPc} (at_ : s.MainAt pc)
    (taken : s.enter pc = some next) : next.Invariant := by
  unfold Usbxch.enter at taken
  split at taken
  · next outside =>
    obtain rfl := Option.some.inj taken
    refine ⟨inv.calls, inv.context, fun context none_ =>
      absurd none_ (inv.freed_of outside nofun context), inv.thread, inv.stopping,
      fun connected => .inl (inv.live_of outside nofun nofun connected), ?_,
      fun io running => (inv.io io running).mono rfl id id, inv.alive⟩
    cases pc <;> exact at_
  · cases taken

/-- The test of `disconnect`: a connection that is off and has no handle has nothing else. -/
theorem Usbxch.Invariant.test (inv : s.Invariant) {after : AfterDisconnect}
    (at_ : s.main = .test after) :
    (if ¬ s.connected ∧ s.handle = none then s.resume after
      else { s with main := .clearConnected after }).Invariant := by
  split
  · next off =>
    obtain ⟨connected, handle⟩ := off
    rw [Bool.not_eq_true] at connected
    have thread : s.ioThread = none := by
      by_contra running
      have some_ := inv.thread (Option.isSome_iff_ne_none.mpr running)
      rw [handle] at some_
      cases some_
    have context : s.context = false := by
      by_contra held
      exact inv.freed_of at_ nofun ((Bool.not_eq_false _).mp held) handle
    have calls := inv.calls
    rw [Usbxch.held_off context handle] at calls
    exact .resume calls context handle thread connected inv.alive after
  · exact ⟨inv.calls, inv.context, fun context none_ =>
      absurd none_ (inv.freed_of at_ nofun context), inv.thread, inv.stopping,
      fun connected => .inl (inv.live_of at_ nofun nofun connected), trivial, inv.io, inv.alive⟩

/-- The stores of `disconnect`: first `connected_`, then `running_`. -/
theorem Usbxch.Invariant.clear (inv : s.Invariant) {after : AfterDisconnect} :
    (s.main = .clearConnected after →
      { s with connected := false, main := .clearRunning after }.Invariant) ∧
    (s.main = .clearRunning after →
      { s with running := false, main := .join after }.Invariant) := by
  constructor
  · intro at_
    exact ⟨inv.calls, inv.context, fun context none_ =>
      absurd none_ (inv.freed_of at_ nofun context), inv.thread, fun _ _ => rfl, nofun, rfl,
      fun io running => (inv.io io running).mono rfl (fun _ => rfl) id, inv.alive⟩
  · intro at_
    have connected := inv.main
    rw [at_] at connected
    exact ⟨inv.calls, inv.context, fun context none_ =>
      absurd none_ (inv.freed_of at_ nofun context), inv.thread, fun _ _ => connected,
      fun live => (Bool.false_ne_true (connected.symm.trans live)).elim, ⟨connected, rfl⟩,
      fun io running => (inv.io io running).mono rfl id (fun _ => rfl), inv.alive⟩

/-- The join. -/
theorem Usbxch.Invariant.join (inv : s.Invariant) {after : AfterDisconnect}
    (at_ : s.main = .join after) :
    { s with ioThread := none, main := .close after }.Invariant := by
  have main := inv.main
  rw [at_] at main
  exact ⟨inv.calls, inv.context, fun context none_ =>
    absurd none_ (inv.freed_of at_ nofun context), nofun, nofun,
    fun live => (Bool.false_ne_true (main.1.symm.trans live)).elim, ⟨main.1, rfl⟩, nofun,
    inv.alive⟩

/-- The handle is closed, behind the join. -/
theorem Usbxch.Invariant.close (inv : s.Invariant) {after : AfterDisconnect}
    (at_ : s.main = .close after) :
    (s.handle = none → { s with main := .exit after }.Invariant) ∧
    ∀ handle, s.handle = some handle →
      { s with
        handle := none
        main := .exit after
        calls := s.calls ++ [LibusbCall.releaseInterface handle, .close handle] }.Invariant := by
  have main := inv.main
  rw [at_] at main
  obtain ⟨connected, thread⟩ := main
  have off (live : s.connected = true) : False := Bool.false_ne_true (connected.symm.trans live)
  have gone (io : IoPc) (running : s.ioThread = some io) : False := by
    cases thread.symm.trans running
  constructor
  · intro none_
    exact ⟨inv.calls, inv.context, fun _ _ => ⟨after, rfl⟩, inv.thread, inv.stopping,
      fun live => (off live).elim, ⟨connected, thread, none_⟩,
      fun io running => (gone io running).elim, inv.alive⟩
  · intro handle is
    refine ⟨?_, nofun, fun _ _ => ⟨after, rfl⟩, fun some_ =>
      absurd thread (Option.isSome_iff_ne_none.mp some_), inv.stopping,
      fun live => (off live).elim, ⟨connected, thread, rfl⟩,
      fun io running => (gone io running).elim, inv.alive⟩
    rw [LabelledSystem.exec_append _ inv.calls]
    simp [exec, Held.call, Usbxch.held, is]

/-- The context is given up, behind the handle. -/
theorem Usbxch.Invariant.exit (inv : s.Invariant) {after : AfterDisconnect}
    (at_ : s.main = .exit after) :
    (s.context = true →
      (Usbxch.resume { s with context := false, calls := s.calls ++ [.exit] } after).Invariant) ∧
    (s.context = false → (s.resume after).Invariant) := by
  have main := inv.main
  rw [at_] at main
  obtain ⟨connected, thread, handle⟩ := main
  have calls := inv.calls
  constructor
  · intro context
    refine .resume (s := { s with context := false, calls := s.calls ++ [.exit] }) ?_ rfl handle
      thread connected inv.alive after
    rw [LabelledSystem.exec_append _ calls]
    simp [exec, Held.call, Usbxch.held, Held.nothing, handle, context]
  · intro context
    rw [Usbxch.held_off context handle] at calls
    exact .resume calls context handle thread connected inv.alive after

/-- The stores of `connect`: first `connected_`, then `running_`. -/
theorem Usbxch.Invariant.set (inv : s.Invariant) :
    (s.main = .setConnected → { s with connected := true, main := .setRunning }.Invariant) ∧
    (s.main = .setRunning → { s with running := true, main := .startThread }.Invariant) := by
  constructor
  · intro at_
    have main := inv.main
    rw [at_] at main
    exact ⟨inv.calls, inv.context, fun context none_ =>
      absurd none_ (inv.freed_of at_ nofun context), inv.thread, fun some_ =>
      absurd main.1 (Option.isSome_iff_ne_none.mp some_), fun _ => .inr (.inl rfl), main,
      fun io running => (by cases main.1.symm.trans running), inv.alive⟩
  · intro at_
    have main := inv.main
    rw [at_] at main
    exact ⟨inv.calls, inv.context, fun context none_ =>
      absurd none_ (inv.freed_of at_ nofun context), inv.thread, fun _ => nofun,
      fun _ => .inr (.inr rfl), ⟨main.1, main.2, rfl⟩,
      fun io running => (by cases main.1.symm.trans running), inv.alive⟩

/-- The start of the thread: there is none. -/
theorem Usbxch.Invariant.startThread (inv : s.Invariant) (at_ : s.main = .startThread) :
    { s with
      ioThread := some .test
      terminated := s.terminated || s.ioThread.isSome
      main := .outside }.Invariant := by
  have main := inv.main
  rw [at_] at main
  obtain ⟨thread, handle, running⟩ := main
  refine ⟨inv.calls, inv.context, fun context none_ =>
    absurd none_ (inv.freed_of at_ nofun context), fun _ => handle, fun _ stopped =>
    (Bool.false_ne_true (stopped.symm.trans running)).elim, fun _ => .inl rfl, trivial,
    fun io started => ?_, ?_⟩
  · obtain rfl := Option.some.inj started
    trivial
  · rw [inv.alive, thread]
    rfl

/-- The transfer of `write`. -/
theorem Usbxch.Invariant.transfer (inv : s.Invariant) (at_ : s.main = .transfer) :
    { s with
      main := .outside
      calls := s.calls ++ [LibusbCall.bulkTransfer s.handle] }.Invariant := by
  have handle := inv.main
  rw [at_] at handle
  exact ⟨inv.transfers handle, inv.context, fun context none_ =>
    absurd none_ (inv.freed_of at_ nofun context), inv.thread, inv.stopping,
    fun connected => .inl (inv.live_of at_ nofun nofun connected), trivial, inv.io, inv.alive⟩

/-- **The next step of the main thread** inside of a call. -/
theorem Usbxch.Invariant.mainStep (inv : s.Invariant) (taken : s.mainStep = some next) :
    next.Invariant := by
  cases pc : s.main with
  | outside | search wanted | gone => simp [Usbxch.mainStep, pc] at taken
  | test after =>
    simp only [Usbxch.mainStep, pc, Option.some.injEq] at taken
    exact taken ▸ inv.test pc
  | clearConnected after =>
    simp only [Usbxch.mainStep, pc, Option.some.injEq] at taken
    exact taken ▸ inv.clear.1 pc
  | clearRunning after =>
    simp only [Usbxch.mainStep, pc, Option.some.injEq] at taken
    exact taken ▸ inv.clear.2 pc
  | join after =>
    simp only [Usbxch.mainStep, pc] at taken
    split at taken
    · exact Option.some.inj taken ▸ inv.join pc
    · cases taken
  | close after =>
    simp only [Usbxch.mainStep, pc] at taken
    split at taken
    · next none_ => exact Option.some.inj taken ▸ (inv.close pc).1 none_
    · next handle is => exact Option.some.inj taken ▸ (inv.close pc).2 handle is
  | exit after =>
    simp only [Usbxch.mainStep, pc, Option.some.injEq] at taken
    split at taken
    · next context => exact taken ▸ (inv.exit pc).1 context
    · next context => exact taken ▸ (inv.exit pc).2 (Bool.eq_false_iff.mpr context)
  | setConnected =>
    simp only [Usbxch.mainStep, pc, Option.some.injEq] at taken
    exact taken ▸ inv.set.1 pc
  | setRunning =>
    simp only [Usbxch.mainStep, pc, Option.some.injEq] at taken
    exact taken ▸ inv.set.2 pc
  | startThread =>
    simp only [Usbxch.mainStep, pc, Option.some.injEq] at taken
    exact taken ▸ inv.startThread pc
  | transfer =>
    simp only [Usbxch.mainStep, pc, Option.some.injEq] at taken
    exact taken ▸ inv.transfer pc

/-- While there is a thread, the main thread stays where it is while fewer flags are set. -/
theorem Usbxch.MainAt.beside {pc : MainPc} (at_ : s.MainAt pc) (thread : s.ioThread.isSome)
    (handle : next.handle = s.handle) (connected : s.connected = false → next.connected = false)
    (running : s.running = false → next.running = false) : next.MainAt pc := by
  have some_ := Option.isSome_iff_ne_none.mp thread
  cases pc with
  | outside | test after | clearConnected after => trivial
  | clearRunning after => exact connected at_
  | join after => exact ⟨connected at_.1, running at_.2⟩
  | transfer =>
    show next.handle.isSome
    rw [handle]
    exact at_
  | close after => exact absurd at_.2 some_
  | exit after => exact absurd at_.2.1 some_
  | search wanted => exact absurd at_.2.1 some_
  | gone => exact absurd at_.2.1 some_
  | setConnected => exact absurd at_.1 some_
  | setRunning => exact absurd at_.1 some_
  | startThread => exact absurd at_.1 some_

/-- **A step of `ioLoop`** keeps what it leaves alone. -/
theorem Usbxch.Invariant.beside (inv : s.Invariant) (thread : s.ioThread.isSome)
    (calls : exec Held.call .nothing next.calls = some s.held)
    (same : next.context = s.context ∧ next.handle = s.handle ∧ next.main = s.main ∧
      next.terminated = s.terminated)
    (connected : s.connected = false → next.connected = false)
    (running : s.running = false → next.running = false)
    (stopping : next.running = false → next.connected = false) {pc : IoPc}
    (ioThread : next.ioThread = some pc) (io : next.IoAt pc) : next.Invariant := by
  obtain ⟨context, handle, main, terminated⟩ := same
  refine ⟨?_, ?_, ?_, fun _ => handle ▸ inv.thread thread, fun _ => stopping,
    fun _ => .inl (Option.isSome_iff_exists.mpr ⟨pc, ioThread⟩), ?_, fun other is => ?_,
    terminated.trans inv.alive⟩
  · rw [calls, Usbxch.held, Usbxch.held, context, handle]
  · rw [context, handle]
    exact inv.context
  · rw [context, handle, main]
    exact inv.freed
  · rw [main]
    exact inv.main.beside thread handle connected running
  · obtain rfl := Option.some.inj (ioThread.symm.trans is)
    exact io

/-- **The next step of `ioLoop`.** -/
theorem Usbxch.Invariant.ioStep (inv : s.Invariant) (taken : s.ioStep = some next) :
    next.Invariant := by
  cases pc : s.ioThread with
  | none => simp [Usbxch.ioStep, pc] at taken
  | some io =>
    have thread : s.ioThread.isSome := Option.isSome_iff_exists.mpr ⟨io, pc⟩
    have at_ := inv.io io pc
    cases io with
    | transferring handle | finished => simp [Usbxch.ioStep, pc] at taken
    | test =>
      simp only [Usbxch.ioStep, pc, Option.some.injEq] at taken
      subst taken
      refine inv.beside thread inv.calls ⟨rfl, rfl, rfl, rfl⟩ id id (inv.stopping thread) rfl ?_
      split
      · trivial
      · next stopped =>
        rw [Bool.not_eq_true] at stopped
        exact ⟨inv.stopping thread stopped, stopped⟩
    | transfer =>
      simp only [Usbxch.ioStep, pc, Option.some.injEq] at taken
      subst taken
      exact inv.beside thread (inv.transfers (inv.thread thread)) ⟨rfl, rfl, rfl, rfl⟩ id id
        (inv.stopping thread) rfl rfl
    | clearConnected =>
      simp only [Usbxch.ioStep, pc, Option.some.injEq] at taken
      subst taken
      exact inv.beside thread inv.calls ⟨rfl, rfl, rfl, rfl⟩ (fun _ => rfl) id (fun _ => rfl) rfl
        rfl
    | clearRunning =>
      simp only [Usbxch.ioStep, pc, Option.some.injEq] at taken
      subst taken
      exact inv.beside thread inv.calls ⟨rfl, rfl, rfl, rfl⟩ id (fun _ => rfl) (fun _ => at_) rfl
        trivial

/-- **The search** begins with nothing held. -/
theorem Usbxch.Invariant.search (inv : s.Invariant) {wanted : Wanted}
    (at_ : s.main = .search wanted) (answers : LibusbAnswers) :
    (s.search wanted answers).Invariant := by
  have main := inv.main
  rw [at_] at main
  obtain ⟨connected, thread, handle⟩ := main
  have context : s.context = false := by
    by_contra held
    exact inv.freed_of at_ nofun ((Bool.not_eq_false _).mp held) handle
  have calls : exec Held.call .nothing s.calls = some .nothing := by
    rw [inv.calls, Usbxch.held_off context handle]
  cases answers with
  | initFails =>
    exact .off ((LabelledSystem.exec_append _ calls).trans rfl) context handle thread connected
      inv.alive trivial
  | listFails =>
    exact .off ((LabelledSystem.exec_append _ calls).trans rfl) context handle thread connected
      inv.alive trivial
  | devices list =>
    have begun : exec Held.call .nothing (s.calls ++ [.init true, .getDeviceList true]) =
        some (.searching none) := by
      rw [LabelledSystem.exec_append _ calls]
      rfl
    have found : exec Held.call .nothing
        (s.calls ++ [.init true, .getDeviceList true] ++ (scan wanted list).1) =
          some (.searching (scan wanted list).2) := by
      rw [LabelledSystem.exec_append _ begun]
      exact scan_held wanted list
    simp only [Usbxch.search]
    split
    · next none_ =>
      rw [none_] at found
      refine .off ?_ context handle thread connected inv.alive trivial
      rw [List.append_assoc _ [LibusbCall.freeDeviceList], LabelledSystem.exec_append _ found]
      rfl
    · next kept is =>
      rw [is] at found
      refine ⟨?_, fun _ => rfl, nofun, fun some_ => absurd thread
        (Option.isSome_iff_ne_none.mp some_), fun _ _ => connected, fun live =>
        (Bool.false_ne_true (connected.symm.trans live)).elim, ⟨thread, rfl⟩, fun io running => ?_,
        inv.alive⟩
      · rw [LabelledSystem.exec_append _ found]
        rfl
      · cases thread.symm.trans running

/-- **Every step of either thread.** -/
theorem Usbxch.Invariant.step (inv : s.Invariant) {label : UsbxchStep}
    (taken : s.step label = some next) : next.Invariant := by
  cases label with
  | connect wanted =>
    exact inv.enter (show s.MainAt (.test (.connects wanted)) from trivial) taken
  | disconnect => exact inv.enter (show s.MainAt (.test .returns) from trivial) taken
  | destroy => exact inv.enter (show s.MainAt (.test .destroyed) from trivial) taken
  | write data length =>
    refine inv.enter ?_ taken
    split
    · trivial
    · next sends =>
      exact Option.isSome_iff_ne_none.mpr fun none_ => sends (.inr (.inl none_))
  | main => exact inv.mainStep taken
  | search answers =>
    simp only [Usbxch.step] at taken
    split at taken
    · next wanted at_ =>
      obtain rfl := Option.some.inj taken
      exact inv.search at_ answers
    · cases taken
  | io => exact inv.ioStep taken
  | transferred ok =>
    simp only [Usbxch.step] at taken
    split at taken
    · next handle at_ =>
      obtain rfl := Option.some.inj taken
      have thread : s.ioThread.isSome := Option.isSome_iff_exists.mpr ⟨_, at_⟩
      refine inv.beside thread inv.calls ⟨rfl, rfl, rfl, rfl⟩ id id (inv.stopping thread) rfl ?_
      split <;> trivial
    · cases taken

end Steps

theorem reachable_invariant {steps : List UsbxchStep} {s : Usbxch}
    (run : exec Usbxch.step .init steps = some s) : s.Invariant :=
  LabelledSystem.exec_invariant Usbxch.Invariant
    (fun _ _ _ inv _ taken => inv.step taken) .init
    (LabelledSystem.meets_of_forall (fun _ _ => trivial) _ steps) run

/-- A run in which the device is found, a transfer fails, and `connect` finds no device again. -/
def unplugged : List UsbxchStep :=
  [.connect ⟨[], 0, 0⟩, .main, .search (.devices [⟨some ⟨0, 0, 0⟩, none, none, some 7, true, true⟩]),
    .main, .main, .main, .io, .io, .transferred false, .connect ⟨[], 0, 0⟩, .main, .main, .io, .main,
    .io, .io, .main, .main, .main, .search (.devices []), .destroy, .main]

/-- How many steps of `ioLoop` are left when `running_` is not set, at most. -/
def IoPc.left : IoPc → Nat
  | .finished => 0
  | .test => 1
  | .clearRunning => 2
  | .clearConnected => 3
  | .transferring _ => 4
  | .transfer => 5

/-- A step of `ioLoop`. -/
def UsbxchStep.IsIo : UsbxchStep → Prop
  | .io | .transferred _ => True
  | _ => False

/-- The main thread waits for the thread to end, with so many steps left. -/
def Usbxch.Joining (s : Usbxch) (after : AfterDisconnect) (left : Nat) : Prop :=
  s.main = .join after ∧ s.running = false ∧ ∀ pc, s.ioThread = some pc → pc.left ≤ left

section Joining

variable {s next : Usbxch} {after : AfterDisconnect} {left : Nat}

/-- **A step of `ioLoop` is one less.** -/
theorem Usbxch.Joining.step (joining : s.Joining after left) {label : UsbxchStep}
    (isIo : label.IsIo) (taken : s.step label = some next) :
    0 < left ∧ next.Joining after (left - 1) := by
  obtain ⟨main, running, few⟩ := joining
  cases label with
  | connect | disconnect | write | destroy | main | search => cases isIo
  | io =>
    cases pc : s.ioThread with
    | none => simp [Usbxch.step, Usbxch.ioStep, pc] at taken
    | some io =>
      have bound := few io pc
      cases io with
      | transferring handle | finished => simp [Usbxch.step, Usbxch.ioStep, pc] at taken
      | test | transfer | clearConnected | clearRunning =>
        simp only [Usbxch.step, Usbxch.ioStep, pc, Option.some.injEq] at taken
        subst taken
        simp only [IoPc.left] at bound
        refine ⟨by omega, main, by simp [running], fun other is => ?_⟩
        obtain rfl := Option.some.inj is
        simp only [running, IoPc.left]
        grind [IoPc.left]
  | transferred ok =>
    simp only [Usbxch.step] at taken
    split at taken
    · next handle at_ =>
      have bound : 4 ≤ left := few _ at_
      obtain rfl := Option.some.inj taken
      refine ⟨by omega, main, running, fun other is => ?_⟩
      obtain rfl := Option.some.inj is
      split
      · exact Nat.le_trans (by decide) (Nat.sub_le_sub_right bound 1)
      · exact Nat.sub_le_sub_right bound 1
    · cases taken

/-- **While the thread has not ended, it has a next step**, and then the join has. -/
theorem Usbxch.Joining.goes_on (joining : s.Joining after left) :
    (s.step .main).isSome ∨ ∃ label, UsbxchStep.IsIo label ∧ (s.step label).isSome := by
  cases pc : s.ioThread with
  | none => exact .inl (by simp [Usbxch.step, Usbxch.mainStep, joining.1, pc])
  | some io =>
    cases io with
    | finished => exact .inl (by simp [Usbxch.step, Usbxch.mainStep, joining.1, pc])
    | transferring handle => exact .inr ⟨.transferred true, trivial, by simp [Usbxch.step, pc]⟩
    | test | transfer | clearConnected | clearRunning =>
      exact .inr ⟨.io, trivial, by simp [Usbxch.step, Usbxch.ioStep, pc]⟩

theorem Usbxch.Joining.run (joining : s.Joining after left) {steps : List UsbxchStep}
    (isIo : ∀ label ∈ steps, UsbxchStep.IsIo label) {t : Usbxch}
    (run : exec Usbxch.step s steps = some t) : steps.length ≤ left ∧ t.Joining after left := by
  induction steps generalizing s left with
  | nil =>
    obtain rfl := Option.some.inj run
    exact ⟨Nat.zero_le left, joining⟩
  | cons label rest ih =>
    obtain ⟨here, later⟩ := List.forall_mem_cons.mp isIo
    rw [LabelledSystem.exec_cons, Option.bind_eq_some_iff] at run
    obtain ⟨middle, taken, run⟩ := run
    obtain ⟨positive, joining⟩ := joining.step here taken
    obtain ⟨few, main, running, bound⟩ := ih joining later run
    refine ⟨?_, main, running, fun pc is => Nat.le_trans (bound pc is) (Nat.sub_le left 1)⟩
    rw [List.length_cons]
    omega

end Joining

/-- **`disconnect` returns**: where it waits for the thread, in every state that any interleaving
reaches, the thread takes at most five steps more, whatever libusb answers, and as long as it has not
ended it has a next one. -/
theorem disconnect_returns {steps more : List UsbxchStep} {s t : Usbxch} {after : AfterDisconnect}
    (run : exec Usbxch.step .init steps = some s) (joins : s.main = .join after)
    (isIo : ∀ label ∈ more, UsbxchStep.IsIo label) (goes : exec Usbxch.step s more = some t) :
    more.length ≤ 5 ∧
      ((t.step .main).isSome ∨ ∃ label, UsbxchStep.IsIo label ∧ (t.step label).isSome) := by
  have inv := reachable_invariant run
  have main := inv.main
  rw [joins] at main
  have joining : s.Joining after 5 := ⟨joins, main.2, fun pc _ => by
    cases pc <;> simp [IoPc.left]⟩
  obtain ⟨few, joining⟩ := joining.run isIo goes
  exact ⟨few, joining.goes_on⟩

/-- The main thread waits in the run above, and the thread takes its last two steps. -/
theorem disconnect_returns_unplugged :
    ∃ t, exec Usbxch.step .init (unplugged.take 14 ++ [.io, .io]) = some t ∧
      ((t.step .main).isSome ∨ ∃ label, UsbxchStep.IsIo label ∧ (t.step label).isSome) := by
  obtain ⟨s, run⟩ := Option.isSome_iff_exists.mp
    (show (exec Usbxch.step .init (unplugged.take 14)).isSome from rfl)
  obtain ⟨t, whole⟩ := Option.isSome_iff_exists.mp
    (show (exec Usbxch.step .init (unplugged.take 14 ++ [.io, .io])).isSome from rfl)
  have joins : s.main = .join (.connects ⟨[], 0, 0⟩) := by
    have main : (exec Usbxch.step .init (unplugged.take 14)).map Usbxch.main =
        some (.join (.connects ⟨[], 0, 0⟩)) := rfl
    rw [run] at main
    exact Option.some.inj main
  have goes : exec Usbxch.step s [.io, .io] = some t := by
    rw [← LabelledSystem.exec_append _ run]
    exact whole
  refine ⟨t, whole, (disconnect_returns run joins ?_ goes).2⟩
  intro label member
  rcases List.mem_cons.mp member with rfl | member
  · trivial
  · rw [List.mem_singleton.mp member]
    trivial

end ForgeDrive.Host
