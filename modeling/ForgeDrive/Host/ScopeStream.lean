/-
**The capture window of a scope** (`fdlib/middleware/ScopeStream.h`).

`write` keeps every `decimation`-th row; a kept row above the upper level triggers, if the scope has
been armed by a row below the lower level since the last trigger, and from there the kept rows fill
the buffer until it is frozen. `reset` starts again, but does not arm.

* `Holds` — what the buffer holds of the rows written to it;
* `ScopeStream.kept_apart` — the kept rows are `decimation` apart;
* `Captured` — how the state tells of the kept rows: the window so far, and the trigger behind it;
* `frozen_window` — a frozen buffer is the window that a trigger started, and between two triggers a
  row has armed the scope.
-/

import Mathlib.Algebra.Group.Nat.Defs
import ForgeDrive.Library.EventMachine
import ForgeDrive.Library.History

namespace ForgeDrive.Host

variable {T : Type*}

/-! ### The scope -/

/-- `ScopeStream`, of a sample type with the comparisons and the sums of the code. -/
structure ScopeStream (T : Type*) where
  buf : Nat → T
  triggerLevel : T
  hysteresisLevel : T
  hystTrig : Bool
  decimation : UInt8
  decimationCounter : UInt8
  writeIdx : UInt16
  channelsNum : UInt8
  sampleDepth : UInt32
  triggered : Bool
  frozen : Bool

/-- `memcpy` of a row to the buffer. -/
def ScopeStream.store (scope : ScopeStream T) (data : Nat → T) : Nat → T := fun place =>
  let start := scope.writeIdx.toNat * scope.channelsNum.toNat
  if start ≤ place ∧ place < start + scope.channelsNum.toNat then data (place - start)
  else scope.buf place

/-- The sequential fill in `write`. -/
def ScopeStream.fill (scope : ScopeStream T) (data : Nat → T) : ScopeStream T :=
  if scope.triggered then
    { scope with
      buf := scope.store data
      writeIdx := scope.writeIdx + 1
      frozen := if (scope.writeIdx + 1).toUInt32 ≥ scope.sampleDepth then true else scope.frozen }
  else scope

/-- `reset`. -/
def ScopeStream.reset (scope : ScopeStream T) : ScopeStream T :=
  { scope with
    writeIdx := 0
    triggered := false
    frozen := false
    decimationCounter := scope.decimation }

/-- `update_decimation`, with the number itself. -/
def ScopeStream.updateDecimation (decimation : UInt8) (scope : ScopeStream T) : ScopeStream T :=
  { scope with
    decimation := decimation
    decimationCounter := decimation }

/-- The constructor. It leaves `hysteresis_level` and `hyst_trig` as they are. -/
def ScopeStream.new [OfNat T 0] (storage : Nat → T) (hysteresisLevel : T) (hystTrig : Bool)
    (channels : UInt8) (sampleDepth : UInt32) : ScopeStream T where
  buf := storage
  triggerLevel := 0
  hysteresisLevel := hysteresisLevel
  hystTrig := hystTrig
  decimation := 1
  decimationCounter := 1
  writeIdx := 0
  channelsNum := channels
  sampleDepth := sampleDepth
  triggered := false
  frozen := false

/-- `set_trigger_level`. -/
def ScopeStream.setTriggerLevel (level : T) (scope : ScopeStream T) : ScopeStream T :=
  { scope with triggerLevel := level }

/-- Whether `write` keeps a row: the scope is not frozen, and the decimation counter gets to 0. -/
def ScopeStream.keeps (scope : ScopeStream T) : Bool :=
  !scope.frozen && scope.decimationCounter - 1 == 0

section Trigger

variable [Add T] [Sub T] [LT T] [DecidableLT T]

/-- The trigger logic in `write`. -/
def ScopeStream.trigger (scope : ScopeStream T) (data : Nat → T) : ScopeStream T :=
  if !scope.triggered then
    if data 0 > scope.triggerLevel + scope.hysteresisLevel && !scope.hystTrig then
      { scope with
        hystTrig := true
        triggered := true
        writeIdx := 0 }
    else if data 0 < scope.triggerLevel - scope.hysteresisLevel && scope.hystTrig then
      { scope with hystTrig := false }
    else scope
  else scope

/-- `write`. -/
def ScopeStream.write (scope : ScopeStream T) (data : Nat → T) : ScopeStream T :=
  if !scope.frozen then
    if scope.decimationCounter - 1 > 0 then
      { scope with decimationCounter := scope.decimationCounter - 1 }
    else
      ({ scope with decimationCounter := scope.decimation }.trigger data).fill data
  else scope

/-- A call that the scope gets. -/
inductive ScopeCall (T : Type*)
  | write (data : Nat → T)
  | reset

/-- A kept row, with `triggered` before and after it was written. -/
structure KeptRow (T : Type*) where
  data : Nat → T
  before : Bool
  after : Bool

/-- The row at which the scope has triggered. -/
def KeptRow.Triggers (row : KeptRow T) : Prop := row.before = false ∧ row.after = true

/-- One call, with the row it keeps. -/
def ScopeStream.step (scope : ScopeStream T) : ScopeCall T → ScopeStream T × List (KeptRow T)
  | .write data =>
    (scope.write data,
      if scope.keeps then [⟨data, scope.triggered, (scope.write data).triggered⟩] else [])
  | .reset => (scope.reset, [])

end Trigger

/-! ### The buffer -/

/-- The buffer holds the rows, one after the other. -/
def Holds (buf : Nat → T) (channels : Nat) (rows : List (Nat → T)) : Prop :=
  ∀ index row, rows[index]? = some row → ∀ channel < channels,
    buf (index * channels + channel) = row channel

theorem holds_nil {buf : Nat → T} {channels : Nat} : Holds buf channels [] := by
  intro index row found
  rw [List.getElem?_nil] at found
  cases found

/-- The next row is stored behind those that the buffer holds. -/
theorem ScopeStream.store_holds {scope : ScopeStream T} {rows : List (Nat → T)} (data : Nat → T)
    (length : scope.writeIdx.toNat = rows.length)
    (holds : Holds scope.buf scope.channelsNum.toNat rows) :
    Holds (scope.store data) scope.channelsNum.toNat (rows ++ [data]) := by
  intro index row found channel within
  simp only [ScopeStream.store, length]
  rcases Nat.lt_trichotomy index rows.length with old | new | beyond
  · rw [List.getElem?_append_left old] at found
    have ahead : (index + 1) * scope.channelsNum.toNat ≤ rows.length * scope.channelsNum.toNat :=
      Nat.mul_le_mul_right _ old
    rw [Nat.succ_mul] at ahead
    rw [if_neg (by omega)]
    exact holds index row found channel within
  · subst new
    rw [List.getElem?_concat_length] at found
    cases found
    rw [if_pos (by omega), Nat.add_sub_cancel_left]
  · rw [List.getElem?_eq_none (by rw [List.length_append]; exact beyond)] at found
    cases found

/-- **A row fills the buffer up or leaves room**, if there was room for it. -/
theorem ScopeStream.fill_progress {scope : ScopeStream T} (data : Nat → T)
    (triggered : scope.triggered = true) (unfrozen : scope.frozen = false)
    (room : scope.sampleDepth.toNat < 2 ^ 16 → scope.writeIdx.toNat < scope.sampleDepth.toNat) :
    ∃ full, scope.fill data = { scope with
        buf := scope.store data
        writeIdx := scope.writeIdx + 1
        frozen := full } ∧
      (full = true → scope.sampleDepth.toNat < 2 ^ 16 ∧
        scope.writeIdx.toNat + 1 = scope.sampleDepth.toNat) ∧
      (full = false → scope.sampleDepth.toNat < 2 ^ 16 →
        (scope.writeIdx + 1).toNat = scope.writeIdx.toNat + 1 ∧
          (scope.writeIdx + 1).toNat < scope.sampleDepth.toNat) := by
  have index := scope.writeIdx.toNat_lt
  have next : (scope.writeIdx + 1).toNat = (scope.writeIdx.toNat + 1) % 2 ^ 16 :=
    UInt16.toNat_add _ _
  refine ⟨_, if_pos triggered, fun full => ?_, fun short => ?_⟩
  · have reached : (scope.writeIdx + 1).toUInt32 ≥ scope.sampleDepth := by
      by_contra free
      rw [if_neg free, unfrozen] at full
      cases full
    rw [ge_iff_le, UInt32.le_iff_toNat_le, UInt16.toNat_toUInt32, next] at reached
    omega
  · have free : ¬ (scope.writeIdx + 1).toUInt32 ≥ scope.sampleDepth := by
      intro reached
      rw [if_pos reached] at short
      cases short
    rw [ge_iff_le, UInt32.le_iff_toNat_le, UInt16.toNat_toUInt32, next] at free
    omega

theorem ScopeStream.fill_of_quiet {scope : ScopeStream T} (data : Nat → T)
    (quiet : scope.triggered = false) : scope.fill data = scope := by
  rw [ScopeStream.fill, quiet, if_neg Bool.false_ne_true]

theorem ScopeStream.fill_triggered (scope : ScopeStream T) (data : Nat → T) :
    (scope.fill data).triggered = scope.triggered := by
  rw [ScopeStream.fill]
  split_ifs <;> rfl

theorem ScopeStream.fill_counter (scope : ScopeStream T) (data : Nat → T) :
    (scope.fill data).decimationCounter = scope.decimationCounter := by
  rw [ScopeStream.fill]
  split_ifs <;> rfl

/-! ### The kept rows -/

section KeptRows

variable [LT T] {upper lower : T} {kept : List (KeptRow T)}

/-- A row below the lower level, kept while the scope had not triggered. -/
def KeptRow.Arms (lower : T) (row : KeptRow T) : Prop := row.before = false ∧ row.data 0 < lower

/-- Behind every row that has triggered there is one that arms. -/
def Armed (lower : T) (kept : List (KeptRow T)) : Prop :=
  ∀ before trigger after, kept = before ++ trigger :: after → trigger.Triggers →
    ∃ row ∈ after, row.Arms lower

/-- **The buffer holds a window**: the last `length` of the kept rows, of which the first is above
the upper level and has triggered. -/
def Window (upper : T) (channels : Nat) (buf : Nat → T) (kept : List (KeptRow T)) (length : Nat) :
    Prop :=
  ∃ before rows trigger, kept = before ++ rows ∧ rows.length = length ∧
    rows.head? = some trigger ∧ trigger.Triggers ∧ trigger.data 0 > upper ∧
    Holds buf channels (rows.map KeptRow.data)

theorem armed_nil : Armed lower [] := by
  intro before trigger after split
  cases List.append_ne_nil_of_right_ne_nil before (List.cons_ne_nil trigger after) split.symm

/-- A row that does not trigger leaves the scope armed. -/
theorem Armed.concat {row : KeptRow T} (armed : Armed lower kept) (quiet : ¬ row.Triggers) :
    Armed lower (kept ++ [row]) := by
  intro before trigger after split triggers
  rcases History.concat_eq_split split with ⟨-, rfl, -⟩ | ⟨rest, rfl, old⟩
  · exact absurd triggers quiet
  · obtain ⟨found, member, arms⟩ := armed before trigger rest old triggers
    exact ⟨found, List.mem_append_left _ member, arms⟩

/-- A row below the lower level arms the scope. -/
theorem armed_concat {row : KeptRow T} (quiet : ¬ row.Triggers) (arms : row.Arms lower) :
    Armed lower (kept ++ [row]) := by
  intro before trigger after split triggers
  rcases History.concat_eq_split split with ⟨-, rfl, -⟩ | ⟨rest, rfl, -⟩
  · exact absurd triggers quiet
  · exact ⟨row, List.mem_append_right _ List.mem_cons_self, arms⟩

/-- **A trigger starts a window**, at the beginning of the buffer. -/
theorem window_start {scope : ScopeStream T} {row : KeptRow T} (empty : scope.writeIdx = 0)
    (triggers : row.Triggers) (above : row.data 0 > upper) :
    Window upper scope.channelsNum.toNat (scope.store row.data) (kept ++ [row]) 1 := by
  have nothing : scope.writeIdx.toNat = ([] : List (Nat → T)).length :=
    congrArg UInt16.toNat empty
  exact ⟨kept, [row], row, rfl, rfl, rfl, triggers, above,
    scope.store_holds row.data nothing holds_nil⟩

/-- **A window grows** by the row that is stored behind it. -/
theorem Window.concat {scope : ScopeStream T} (row : KeptRow T)
    (window : Window upper scope.channelsNum.toNat scope.buf kept scope.writeIdx.toNat) :
    Window upper scope.channelsNum.toNat (scope.store row.data) (kept ++ [row])
      (scope.writeIdx.toNat + 1) := by
  obtain ⟨before, rows, trigger, rfl, length, first, triggers, above, holds⟩ := window
  refine ⟨before, rows ++ [row], trigger, List.append_assoc _ _ _, ?_, ?_, triggers, above, ?_⟩
  · rw [List.length_append, length]
    rfl
  · rw [List.head?_append, first]
    rfl
  · rw [List.map_append]
    exact scope.store_holds row.data (by rw [List.length_map, length]) holds

end KeptRows

/-! ### What the state tells -/

section Calls

variable [Add T] [Sub T] [LT T] {origin scope : ScopeStream T}
  {kept : List (KeptRow T)}

/-- What no call changes. -/
structure SameSetup (origin scope : ScopeStream T) : Prop where
  triggerLevel : scope.triggerLevel = origin.triggerLevel
  hysteresisLevel : scope.hysteresisLevel = origin.hysteresisLevel
  channelsNum : scope.channelsNum = origin.channelsNum
  sampleDepth : scope.sampleDepth = origin.sampleDepth

/-- **How the state tells of the kept rows.** A buffer of `2 ^ 16` rows or more is never full: the
index wraps before. -/
structure Captured (origin scope : ScopeStream T) (kept : List (KeptRow T)) : Prop where
  setup : SameSetup origin scope
  armed : scope.hystTrig = false → Armed (origin.triggerLevel - origin.hysteresisLevel) kept
  separated : History.Each (fun before row =>
    row.Triggers → Armed (origin.triggerLevel - origin.hysteresisLevel) before) kept
  filling : scope.triggered = true → scope.frozen = false → scope.sampleDepth.toNat < 2 ^ 16 →
    Window (origin.triggerLevel + origin.hysteresisLevel) scope.channelsNum.toNat scope.buf kept
        scope.writeIdx.toNat ∧
      scope.writeIdx.toNat < scope.sampleDepth.toNat
  full : scope.frozen = true →
    Window (origin.triggerLevel + origin.hysteresisLevel) scope.channelsNum.toNat scope.buf kept
      scope.sampleDepth.toNat

/-- A row that is stored keeps what the state tells, if it is part of a window. -/
theorem Captured.fill {row : KeptRow T} (setup : SameSetup origin scope)
    (armed : scope.hystTrig = false →
      Armed (origin.triggerLevel - origin.hysteresisLevel) (kept ++ [row]))
    (separated : History.Each (fun before row =>
      row.Triggers → Armed (origin.triggerLevel - origin.hysteresisLevel) before) (kept ++ [row]))
    (triggered : scope.triggered = true) (unfrozen : scope.frozen = false)
    (room : scope.sampleDepth.toNat < 2 ^ 16 → scope.writeIdx.toNat < scope.sampleDepth.toNat)
    (window : scope.sampleDepth.toNat < 2 ^ 16 →
      Window (origin.triggerLevel + origin.hysteresisLevel) scope.channelsNum.toNat
        (scope.store row.data) (kept ++ [row]) (scope.writeIdx.toNat + 1)) :
    Captured origin (scope.fill row.data) (kept ++ [row]) := by
  obtain ⟨full, filled, last, more⟩ := scope.fill_progress row.data triggered unfrozen room
  rw [filled]
  refine ⟨⟨setup.1, setup.2, setup.3, setup.4⟩, armed, separated, fun _ short small => ?_,
    fun frozen => ?_⟩
  · obtain ⟨next, free⟩ := more short small
    refine ⟨?_, free⟩
    rw [next]
    exact window small
  · obtain ⟨small, ends⟩ := last frozen
    rw [← ends]
    exact window small

/-- Counting a row is no change that matters. -/
theorem Captured.count (captured : Captured origin scope kept) (counter : UInt8) :
    Captured origin { scope with decimationCounter := counter } kept :=
  ⟨⟨captured.setup.1, captured.setup.2, captured.setup.3, captured.setup.4⟩, captured.armed,
    captured.separated, captured.filling, captured.full⟩

/-- `reset` keeps what the state tells: it neither arms nor triggers. -/
theorem Captured.reset (captured : Captured origin scope kept) :
    Captured origin scope.reset kept :=
  ⟨⟨captured.setup.1, captured.setup.2, captured.setup.3, captured.setup.4⟩, captured.armed,
    captured.separated, fun triggered => Bool.noConfusion triggered,
    fun frozen => Bool.noConfusion frozen⟩

/-- A row before the trigger keeps what the state tells, if the scope is armed rightly. -/
theorem Captured.wait (captured : Captured origin scope kept) {row : KeptRow T} {hystTrig : Bool}
    (quiet : scope.triggered = false) (unfrozen : scope.frozen = false) (no : ¬ row.Triggers)
    (armed : hystTrig = false →
      Armed (origin.triggerLevel - origin.hysteresisLevel) (kept ++ [row])) :
    Captured origin { scope with hystTrig := hystTrig } (kept ++ [row]) :=
  ⟨⟨captured.setup.1, captured.setup.2, captured.setup.3, captured.setup.4⟩, armed,
    History.each_concat captured.separated fun triggers => absurd triggers no,
    fun triggered => Bool.noConfusion (quiet.symm.trans triggered),
    fun frozen => Bool.noConfusion (unfrozen.symm.trans frozen)⟩

/-! ### The calls -/

variable [DecidableLT T]

/-- **What the trigger logic can do.** -/
theorem ScopeStream.trigger_cases (scope : ScopeStream T) (data : Nat → T) :
    (scope.triggered = true ∧ scope.trigger data = scope) ∨
    (scope.triggered = false ∧ scope.hystTrig = false ∧
      data 0 > scope.triggerLevel + scope.hysteresisLevel ∧
      scope.trigger data = { scope with hystTrig := true, triggered := true, writeIdx := 0 }) ∨
    (scope.triggered = false ∧ data 0 < scope.triggerLevel - scope.hysteresisLevel ∧
      scope.trigger data = { scope with hystTrig := false }) ∨
    (scope.triggered = false ∧ scope.trigger data = scope) := by
  rw [ScopeStream.trigger]
  cases triggered : scope.triggered with
  | true => exact .inl ⟨rfl, rfl⟩
  | false =>
    refine .inr ?_
    rw [if_pos (by rfl)]
    split_ifs with high low
    · rw [Bool.and_eq_true, decide_eq_true_eq, Bool.not_eq_true'] at high
      exact .inl ⟨rfl, high.2, high.1, rfl⟩
    · rw [Bool.and_eq_true, decide_eq_true_eq] at low
      exact .inr (.inl ⟨rfl, low.1, rfl⟩)
    · exact .inr (.inr ⟨rfl, rfl⟩)

/-- `write` of a row that is kept. -/
theorem ScopeStream.write_of_keeps (data : Nat → T) (keeps : scope.keeps = true) :
    scope.frozen = false ∧ scope.write data =
      ({ scope with decimationCounter := scope.decimation }.trigger data).fill data := by
  rw [ScopeStream.keeps, Bool.and_eq_true, Bool.not_eq_true', beq_iff_eq] at keeps
  refine ⟨keeps.1, ?_⟩
  rw [ScopeStream.write, keeps.1, if_pos (by rfl), if_neg (by rw [keeps.2]; decide)]

/-- `write` of a row that is only counted. -/
theorem ScopeStream.write_of_counts (data : Nat → T) (unfrozen : scope.frozen = false)
    (more : scope.decimationCounter - 1 ≠ 0) :
    scope.write data = { scope with decimationCounter := scope.decimationCounter - 1 } := by
  rw [ScopeStream.write, if_pos (by rw [unfrozen]; rfl), if_pos (UInt8.pos_iff_ne_zero.mpr more)]

/-- `write` of a row that is not kept changes the counter at most. -/
theorem ScopeStream.write_of_drops (data : Nat → T) (drops : scope.keeps = false) :
    ∃ counter, scope.write data = { scope with decimationCounter := counter } := by
  rcases Bool.eq_false_or_eq_true scope.frozen with frozen | unfrozen
  · refine ⟨scope.decimationCounter, ?_⟩
    rw [ScopeStream.write, if_neg (by rw [frozen]; decide)]
  · rw [ScopeStream.keeps, unfrozen, Bool.not_false, Bool.true_and, beq_eq_false_iff_ne] at drops
    exact ⟨_, ScopeStream.write_of_counts data unfrozen drops⟩

/-- The counter starts again behind a kept row. -/
theorem ScopeStream.write_counter (data : Nat → T) (keeps : scope.keeps = true) :
    (scope.write data).decimationCounter = scope.decimation := by
  rw [(scope.write_of_keeps data keeps).2, ScopeStream.fill_counter]
  rcases ScopeStream.trigger_cases { scope with decimationCounter := scope.decimation } data with
    ⟨-, same⟩ | ⟨-, -, -, changed⟩ | ⟨-, -, changed⟩ | ⟨-, same⟩
  · rw [same]
  · rw [changed]
  · rw [changed]
  · rw [same]

/-- The rows are dropped that the counter has still to count, and the next is kept. -/
theorem ScopeStream.count_down (rows : List (Nat → T)) (unfrozen : scope.frozen = false)
    (counter : scope.decimationCounter.toNat = rows.length + 1) :
    (EventMachine.run ScopeStream.step scope (rows.map ScopeCall.write)).2 = [] ∧
      (EventMachine.run ScopeStream.step scope (rows.map ScopeCall.write)).1.keeps = true := by
  induction rows generalizing scope with
  | nil =>
    have last : scope.decimationCounter = 1 := UInt8.toNat_inj.mp counter
    refine ⟨rfl, ?_⟩
    show scope.keeps = true
    rw [ScopeStream.keeps, unfrozen, last]
    rfl
  | cons data rest ih =>
    rw [List.length_cons] at counter
    have next : (scope.decimationCounter - 1).toNat = rest.length + 1 := by
      have one : 1 ≤ scope.decimationCounter := by
        rw [UInt8.le_iff_toNat_le, counter]
        exact Nat.le_add_left 1 _
      rw [UInt8.toNat_sub_of_le _ _ one, counter]
      rfl
    have more : scope.decimationCounter - 1 ≠ 0 := fun zero => by
      rw [zero] at next
      cases next
    have drops : scope.keeps = false := by
      rw [ScopeStream.keeps, unfrozen, Bool.not_false, Bool.true_and, beq_eq_false_iff_ne]
      exact more
    have counted : scope.step (.write data) =
        ({ scope with decimationCounter := scope.decimationCounter - 1 }, []) := by
      rw [ScopeStream.step, drops, if_neg Bool.false_ne_true,
        ScopeStream.write_of_counts data unfrozen more]
    rw [List.map_cons, EventMachine.run_cons, counted]
    exact ih unfrozen next

/-- **The kept rows are `decimation` apart**: behind a kept row that does not fill the buffer up,
`decimation - 1` rows are dropped, and the next one is kept. -/
theorem ScopeStream.kept_apart (data : Nat → T) (keeps : scope.keeps = true)
    (unfrozen : (scope.write data).frozen = false) (rows : List (Nat → T))
    (apart : rows.length + 1 = scope.decimation.toNat) :
    (EventMachine.run ScopeStream.step (scope.write data) (rows.map ScopeCall.write)).2 = [] ∧
      (EventMachine.run ScopeStream.step (scope.write data)
        (rows.map ScopeCall.write)).1.keeps = true :=
  ScopeStream.count_down rows unfrozen (by rw [scope.write_counter data keeps, apart])

/-- **A kept row keeps what the state tells.** -/
theorem Captured.keep (captured : Captured origin scope kept) (some : 1 ≤ origin.sampleDepth.toNat)
    (unfrozen : scope.frozen = false) (data : Nat → T) :
    Captured origin ((scope.trigger data).fill data) (kept ++
      [⟨data, scope.triggered, ((scope.trigger data).fill data).triggered⟩]) := by
  rw [ScopeStream.fill_triggered]
  rcases scope.trigger_cases data with ⟨triggered, same⟩ | ⟨quiet, armed, above, changed⟩ |
    ⟨quiet, below, changed⟩ | ⟨quiet, same⟩
  · -- the window goes on
    rw [same]
    have no : ¬ (⟨data, scope.triggered, scope.triggered⟩ : KeptRow T).Triggers := fun triggers =>
      Bool.noConfusion (triggered.symm.trans triggers.1)
    have window := captured.filling triggered unfrozen
    exact .fill captured.setup (fun ready => (captured.armed ready).concat no)
      (History.each_concat captured.separated fun triggers => absurd triggers no) triggered unfrozen
      (fun small => (window small).2) (fun small => (window small).1.concat _)
  · -- a window starts
    rw [changed]
    have setup : SameSetup origin
        { scope with hystTrig := true, triggered := true, writeIdx := 0 } :=
      ⟨captured.setup.1, captured.setup.2, captured.setup.3, captured.setup.4⟩
    show Captured origin (ScopeStream.fill _ (KeptRow.data ⟨data, scope.triggered, true⟩))
      (kept ++ [⟨data, scope.triggered, true⟩])
    refine .fill setup (fun ready => Bool.noConfusion ready)
      (History.each_concat captured.separated fun _ => captured.armed armed) rfl unfrozen
      (fun _ => ?_) (fun _ => ?_)
    · show 0 < scope.sampleDepth.toNat
      rw [captured.setup.sampleDepth]
      exact some
    · rw [captured.setup.triggerLevel, captured.setup.hysteresisLevel] at above
      exact window_start rfl ⟨quiet, rfl⟩ above
  · -- the row arms the scope
    have idle : ScopeStream.fill { scope with hystTrig := false } data =
        { scope with hystTrig := false } := ScopeStream.fill_of_quiet data quiet
    rw [changed, idle]
    have no : ¬ (⟨data, scope.triggered, scope.triggered⟩ : KeptRow T).Triggers := fun triggers =>
      Bool.noConfusion (quiet.symm.trans triggers.2)
    rw [captured.setup.triggerLevel, captured.setup.hysteresisLevel] at below
    exact captured.wait quiet unfrozen no fun _ => armed_concat no ⟨quiet, below⟩
  · -- the row changes nothing
    rw [same, ScopeStream.fill_of_quiet data quiet]
    have no : ¬ (⟨data, scope.triggered, scope.triggered⟩ : KeptRow T).Triggers := fun triggers =>
      Bool.noConfusion (quiet.symm.trans triggers.2)
    exact captured.wait quiet unfrozen no fun ready => (captured.armed ready).concat no

/-- **Every call keeps what the state tells.** -/
theorem Captured.step (captured : Captured origin scope kept) (some : 1 ≤ origin.sampleDepth.toNat)
    (call : ScopeCall T) :
    Captured origin (scope.step call).1 (kept ++ (scope.step call).2) := by
  cases call with
  | reset =>
    show Captured origin scope.reset (kept ++ [])
    rw [List.append_nil]
    exact captured.reset
  | write data =>
    cases keeps : scope.keeps with
    | false =>
      obtain ⟨counter, dropped⟩ := scope.write_of_drops data keeps
      rw [ScopeStream.step, keeps, if_neg Bool.false_ne_true, List.append_nil, dropped]
      exact captured.count counter
    | true =>
      obtain ⟨unfrozen, written⟩ := scope.write_of_keeps data keeps
      rw [ScopeStream.step, keeps, if_pos rfl, written]
      exact (captured.count scope.decimation).keep some unfrozen data

/-! ### Any sequence of calls -/

/-- A new scope with its levels and its decimation set. -/
def ScopeStream.start [OfNat T 0] (storage : Nat → T) (triggerLevel hysteresisLevel : T)
    (hystTrig : Bool) (decimation channels : UInt8) (sampleDepth : UInt32) : ScopeStream T :=
  ((ScopeStream.new storage hysteresisLevel hystTrig channels sampleDepth).setTriggerLevel
    triggerLevel).updateDecimation decimation

/-- **A frozen buffer is a whole window**: the `sampleDepth` rows kept last, starting at the row
that has triggered, which is above the upper level; and between two rows that have triggered there
is one, kept while the scope had not, below the lower level. -/
theorem frozen_window [OfNat T 0] (storage : Nat → T) (triggerLevel hysteresisLevel : T)
    (hystTrig : Bool) (decimation channels : UInt8) (sampleDepth : UInt32)
    (some : 1 ≤ sampleDepth.toNat) (calls : List (ScopeCall T)) :
    let start := ScopeStream.start storage triggerLevel hysteresisLevel hystTrig decimation channels
      sampleDepth
    let scope := (EventMachine.run ScopeStream.step start calls).1
    let kept := (EventMachine.run ScopeStream.step start calls).2
    (scope.frozen = true → ∃ before trigger rest,
      kept = before ++ trigger :: rest ∧ (trigger :: rest).length = sampleDepth.toNat ∧
      trigger.Triggers ∧ trigger.data 0 > triggerLevel + hysteresisLevel ∧
      Holds scope.buf channels.toNat ((trigger :: rest).map KeptRow.data)) ∧
    ∀ before first between second after,
      kept = before ++ first :: between ++ second :: after → first.Triggers → second.Triggers →
      ∃ row ∈ between, row.before = false ∧ row.data 0 < triggerLevel - hysteresisLevel := by
  intro start scope kept
  have initial : Captured start start [] :=
    ⟨⟨rfl, rfl, rfl, rfl⟩, fun _ => armed_nil, History.each_nil,
      fun triggered => Bool.noConfusion triggered, fun frozen => Bool.noConfusion frozen⟩
  have captured : Captured start scope kept :=
    EventMachine.run_history_always ScopeStream.step (Captured start)
      (fun _ call _ before => before.step some call) initial calls
  refine ⟨fun frozen => ?_, fun before first between second after split triggers again => ?_⟩
  · obtain ⟨before, rows, trigger, split, length, head, triggers, above, holds⟩ :=
      captured.full frozen
    obtain ⟨rest, rfl⟩ := List.head?_eq_some_iff.mp head
    rw [captured.setup.channelsNum] at holds
    rw [captured.setup.sampleDepth] at length
    exact ⟨before, trigger, rest, split, length, triggers, above, holds⟩
  · exact captured.separated (before ++ first :: between) second after split again before first
      between rfl triggers

/-- One channel and two rows, with levels 5 ± 2: the row 9 triggers and the row 4 fills up. -/
theorem frozen_window_pair :
    let start := ScopeStream.start (fun _ => (0 : Int)) 5 2 false 1 1 2
    let calls := [ScopeCall.write fun _ => 6, .write fun _ => 9, .write fun _ => 4]
    let kept := (EventMachine.run ScopeStream.step start calls).2
    ∃ before trigger rest,
      kept = before ++ trigger :: rest ∧ (trigger :: rest).length = 2 ∧
      trigger.Triggers ∧ trigger.data 0 > 5 + 2 ∧
      Holds (EventMachine.run ScopeStream.step start calls).1.buf 1
        ((trigger :: rest).map KeptRow.data) :=
  (frozen_window (fun _ => (0 : Int)) 5 2 false 1 1 2 (by decide)
    [.write fun _ => 6, .write fun _ => 9, .write fun _ => 4]).1 (by decide)

end Calls

end ForgeDrive.Host
