/-
**The dispatcher of the tool on any messages** (`DAQSessionAPP.h` of the tool).

Whatever bytes arrive, the loop of `process` hands each field that the reader finds in them to
`on_mark` or `on_field` (`dispatched`). Beside the members of the tool, a step gives what it accesses:
the entry of `ID_NAMES` it reads and the fields of `objects` it stores to (`Access`).

* `hearAll_eq_run` — the loop is a run of such steps;
* `onField_unchanged` — what is not stored to stays as it is;
* `current` — the object that the fields speak of, if they say so: that of the last ID field since
  the last mark other than those of a reply;
* `robust_iff` — so the accesses are right exactly as long as all ID fields have one byte and no
  field without a name comes while there is a current object.
-/

import ForgeDrive.Daq.Reconstruction
import ForgeDrive.Library.EventMachine

namespace ForgeDrive.Daq.Discovery

open EventMachine (run Along)

/-! ### What is accessed -/

/-- An entry of `ID_NAMES` is read, or something is stored in a field of `objects[object]`. -/
inductive Access
  | name (index : Nat)
  | store (object field : UInt8)
  deriving DecidableEq, Repr

/-- The accesses of the `switch` of `on_field`. -/
def HostMembers.switchAccesses (h : HostMembers) (id : UInt8) (r : Idv.Reader) : List Access :=
  if id = ID.id.code then [.store (r.asUInt8 h.cId).1 id]
  else if h.hasId then [.store h.cId id] else []

/-- The accesses of `on_field`. -/
def HostMembers.accesses (h : HostMembers) (id : UInt8) (r : Idv.Reader) : List Access :=
  let switched := h.fileField id r
  h.switchAccesses id r ++
    if switched.hasId then [.name id.toNat, .store switched.cId id] else []

/-- One turn of the loop of `process`, with what it accesses; the reader stands on the field. -/
def HostMembers.step (h : HostMembers) (r : Idv.Reader) : HostMembers × List Access :=
  ((Listener.dispatch ⟨r, h⟩).host,
    if r.idvId = ID.marker.code then [] else h.accesses r.idvId r)

section Unchanged

variable (h : HostMembers) {id object field : UInt8}

theorem assign_object (assignment : HostObject → HostObject) (object : UInt8) :
    (h.assign assignment).object object =
      if object = h.cId then assignment (h.object h.cId) else h.object object := by
  show (Function.update h.objects h.cId _ object).getD _ = _
  rw [Function.update_apply]
  split <;> rfl

/-- An assignment to one field of the current object leaves the other fields as they are. -/
theorem assign_unchanged {assignment : HostObject → HostObject}
    (others : ∀ o field, field ≠ id → (assignment o).fields field = o.fields field)
    (free : ¬ (object = h.cId ∧ field = id)) :
    ((h.assign assignment).object object).fields field = (h.object object).fields field := by
  rw [assign_object]
  split
  case isTrue same =>
    rw [same]
    exact others _ _ fun filed => free ⟨same, filed⟩
  case isFalse => rfl

/-- An assignment to a member that is no field leaves all fields as they are. -/
theorem assign_fields {assignment : HostObject → HostObject}
    (same : ∀ o, (assignment o).fields = o.fields) (object : UInt8) :
    ((h.assign assignment).object object).fields = (h.object object).fields := by
  rw [assign_object]
  split
  case isTrue current => rw [same, current]
  case isFalse => rfl

theorem set_others (value : List UInt8) (o : HostObject) (field : UInt8) (other : field ≠ id) :
    (o.set id value).fields field = o.fields field := Function.update_of_ne other _ _

theorem setName_others (o : HostObject) (field : UInt8) (other : field ≠ id) :
    (o.setName id).fields field = o.fields field := Function.update_of_ne other _ _

/-- What the `switch` does not store to is unchanged. -/
theorem fileField_unchanged {r : Idv.Reader}
    (free : Access.store object field ∉ h.switchAccesses id r) :
    ((h.fileField id r).object object).fields field = (h.object object).fields field := by
  rw [HostMembers.switchAccesses] at free
  rw [HostMembers.fileField]
  split
  case isTrue isId =>
    rw [if_pos isId, List.mem_singleton, Access.store.injEq] at free
    rw [assign_fields]
    · exact assign_unchanged _ (set_others _) free
    · exact fun _ => rfl
  case isFalse notId =>
    rw [if_neg notId] at free
    cases known : h.hasId with
    | true =>
      rw [known, if_pos rfl, List.mem_singleton, Access.store.injEq] at free
      split
      · simp only [if_true]
        rw [assign_fields, assign_fields]
        · exact assign_unchanged _ (set_others _) free
        · exact fun _ => rfl
        · exact fun _ => rfl
      · exact assign_unchanged _ (set_others _) free
    | false => split <;> rfl

/-- **What is not stored to is unchanged.** -/
theorem onField_unchanged {r : Idv.Reader}
    (free : Access.store object field ∉ h.accesses id r) :
    ((h.onField id r).object object).fields field = (h.object object).fields field := by
  rw [HostMembers.accesses, List.mem_append, not_or] at free
  rw [← fileField_unchanged h free.1, HostMembers.onField]
  split
  case isTrue known =>
    have named := free.2
    rw [if_pos known] at named
    refine assign_unchanged _ setName_others fun stored => named ?_
    rw [stored.1, stored.2]
    exact List.mem_cons_of_mem _ (List.mem_singleton.mpr rfl)
  case isFalse => rfl

end Unchanged

/-! ### What is dispatched -/

/-- The fields that so many calls of `next` find, with the reader on each of them. -/
def yields : (turns : Nat) → Idv.Reader → List Idv.Reader
  | 0, _ => []
  | turns + 1, r => if r.next.2 then r.next.1 :: yields turns r.next.1 else []

/-- The fields found in the messages, one message after the other. -/
def dispatched (turns : Nat) (messages : List (List UInt8)) : List Idv.Reader :=
  messages.flatMap fun message => yields turns ⟨message, 0, 0, 0, 0⟩

section Loop

variable {turns : Nat} {l l' : Listener}

theorem dispatch_reader (l : Listener) : l.dispatch.reader = l.reader := by
  rw [Listener.dispatch]
  split <;> rfl

/-- **The loop of `process` is a run** over the fields that the reader finds. -/
theorem loop_eq_run (heard : Listener.loop turns l = some l') :
    l'.host = (run HostMembers.step l.host (yields turns l.reader)).1 := by
  induction turns generalizing l with
  | zero => cases heard
  | succ turns ih =>
    rw [Listener.loop] at heard
    rw [yields]
    simp only at heard
    split at heard
    case isTrue more =>
      have later := ih heard
      rw [dispatch_reader] at later
      rw [if_pos more, EventMachine.run_cons]
      exact later
    case isFalse done =>
      rw [if_neg done, ← Option.some.inj heard]
      rfl

/-- What `next` finds does not depend on what the reader stands on. -/
theorem yields_eq (turns : Nat) (message : List UInt8) (index : UInt16) (id len id' len' : UInt8)
    (value value' : Nat) :
    yields turns ⟨message, index, id, len, value⟩ =
      yields turns ⟨message, index, id', len', value'⟩ := by
  cases turns with
  | zero => rfl
  | succ turns =>
    simp only [yields, Idv.Reader.next]
    split_ifs <;> first | rfl | contradiction

/-- **Hearing messages is a run** over the fields dispatched. -/
theorem hearAll_eq_run {messages : List (List UInt8)}
    (heard : l.hearAll turns messages = some l') :
    l'.host = (run HostMembers.step l.host (dispatched turns messages)).1 := by
  induction messages generalizing l with
  | nil => exact congrArg Listener.host (Option.some.inj heard).symm
  | cons message rest ih =>
    rw [Listener.hearAll, List.foldlM_cons] at heard
    obtain ⟨between, first, later⟩ := Option.bind_eq_some_iff.mp heard
    have parts : dispatched turns (message :: rest) =
        yields turns ⟨message, 0, 0, 0, 0⟩ ++ dispatched turns rest := List.flatMap_cons
    rw [parts, EventMachine.run_append_fst, ih later, loop_eq_run first]
    exact congrArg (fun fields => (run HostMembers.step (run HostMembers.step l.host fields).1
      (dispatched turns rest)).1) (yields_eq turns message 0 _ _ _ _ _ _)

end Loop

/-! ### The current object -/

/-- The value of a field of one byte, as `as<uint8_t>` gives it. -/
def single (r : Idv.Reader) : Option UInt8 :=
  if r.idvLen.toNat = 1 then some (r.buf.getD r.idvValue 0) else none

/-- The reader is on a mark of a reply, `AUTO_DISCOVER_REP` at its entry or at its exit. -/
def OnReply (r : Idv.Reader) : Prop :=
  (single r).map (· &&& 0x7F) = some Marker.autoDiscoverRep.code

instance (r : Idv.Reader) : Decidable (OnReply r) := inferInstanceAs (Decidable (_ = _))

/-- What a field makes the current object. -/
def currentStep (current : Option UInt8) (r : Idv.Reader) : Option UInt8 :=
  if r.idvId = ID.marker.code then if OnReply r then current else none
  else if r.idvId = ID.id.code then single r else current

/-- **The current object** behind these fields: the value of the last ID field, if that is a byte,
since the last mark other than those of a reply. -/
def current (fields : List Idv.Reader) : Option UInt8 := fields.foldl currentStep none

/-- An access that is right while this is the current object: to an entry that there is, or to the
current object. -/
def Access.Right (current : Option UInt8) : Access → Prop
  | .name index => index < idNames.length
  | .store object _ => current = some object

/-- **All accesses are right** when these fields are dispatched. -/
def Robust (h : HostMembers) (fields : List Idv.Reader) : Prop :=
  ∀ before r after, fields = before ++ r :: after →
    ∀ access ∈ ((run HostMembers.step h before).1.step r).2,
      access.Right (current (before ++ [r]))

/-- The current object, step by step. -/
def track (current : Option UInt8) (r : Idv.Reader) : Option UInt8 × List Access :=
  (currentStep current r, [])

/-- The field is in order: an ID field has one byte, and a field of an object has a name. -/
def InOrder (current : Option UInt8) (r : Idv.Reader) : Prop :=
  (r.idvId = ID.id.code → r.idvLen.toNat = 1) ∧
    (r.idvId = ID.marker.code ∨ current = none ∨ r.idvId.toNat < idNames.length)

instance (current : Option UInt8) (r : Idv.Reader) : Decidable (InOrder current r) :=
  inferInstanceAs (Decidable (_ ∧ _))

/-- **All fields are in order.** -/
def Orderly (fields : List Idv.Reader) : Prop := Along track InOrder none fields

instance (fields : List Idv.Reader) : Decidable (Orderly fields) :=
  inferInstanceAs (Decidable (Along _ _ _ _))

/-- The tool holds this as the current object. -/
def Current (h : HostMembers) (current : Option UInt8) : Prop :=
  current = if h.hasId then some h.cId else none

section Steps

variable {h : HostMembers} {c : Option UInt8} {r : Idv.Reader} {id : UInt8}

/-- `as<uint8_t>` takes the byte of a field of one byte, and leaves the variable otherwise. -/
theorem asUInt8_single (r : Idv.Reader) (val : UInt8) :
    (r.asUInt8 val).1 = (single r).getD val := by
  rw [Idv.Reader.asUInt8, single]
  by_cases one : r.idvLen.toNat = 1
  · rw [if_neg (not_not_intro one), if_pos one]
    rfl
  · rw [if_pos one, if_neg one]
    rfl

/-- After an ID field there is a current object: that of the field, or the one before. -/
theorem fileField_id : (h.fileField ID.id.code r).hasId = true ∧
    (h.fileField ID.id.code r).cId = (single r).getD h.cId := by
  refine ⟨rfl, ?_⟩
  rw [← asUInt8_single]
  rfl

/-- No other field changes the current object. -/
theorem fileField_other (other : id ≠ ID.id.code) :
    (h.fileField id r).hasId = h.hasId ∧ (h.fileField id r).cId = h.cId := by
  rw [HostMembers.fileField, if_neg other]
  split
  · simp only
    split <;> exact ⟨rfl, rfl⟩
  · split <;> exact ⟨rfl, rfl⟩

theorem onField_current :
    (h.onField id r).hasId = (h.fileField id r).hasId ∧
      (h.onField id r).cId = (h.fileField id r).cId := by
  rw [HostMembers.onField]
  split <;> exact ⟨rfl, rfl⟩

/-- A mark accesses nothing. It leaves the current object if it is one of a reply, and else there is
none any more. -/
theorem step_mark (mark : r.idvId = ID.marker.code) :
    (h.step r).2 = [] ∧ (h.step r).1.cId = h.cId ∧
      (h.step r).1.hasId = (h.hasId && decide (OnReply r)) := by
  have masked : (~~~(0x80 : UInt8)) = 0x7F := by decide
  have dispatched : (h.step r).1 = h.onMark ((r.asUInt8 0xFF).1 &&& 0x7F)
      ((r.asUInt8 0xFF).1 &&& 0x80 = 0) := by
    rw [HostMembers.step, Listener.dispatch, if_pos mark, masked]
  have reply : OnReply r ↔ (r.asUInt8 0xFF).1 &&& 0x7F = Marker.autoDiscoverRep.code := by
    rw [OnReply, asUInt8_single]
    cases single r with
    | none => decide
    | some byte => exact Option.some_inj
  refine ⟨if_pos mark, ?_⟩
  rw [dispatched, HostMembers.onMark]
  by_cases onReply : OnReply r
  · rw [if_pos (reply.mp onReply), decide_eq_true onReply, Bool.and_true]
    exact ⟨rfl, rfl⟩
  · rw [if_neg (mt reply.mpr onReply), decide_eq_false onReply, Bool.and_false]
    split <;> exact ⟨rfl, rfl⟩

theorem step_field (field : r.idvId ≠ ID.marker.code) :
    h.step r = (h.onField r.idvId r, h.accesses r.idvId r) := by
  rw [HostMembers.step, Listener.dispatch, if_neg field, if_neg field]

/-- **The tool holds the current object** as long as the fields are in order. -/
theorem step_current (now : Current h c) (inOrder : InOrder c r) :
    Current (h.step r).1 (currentStep c r) := by
  unfold Current at now ⊢
  rw [currentStep]
  by_cases mark : r.idvId = ID.marker.code
  · obtain ⟨-, cId, hasId⟩ := step_mark (h := h) mark
    rw [if_pos mark, hasId, cId, now]
    by_cases onReply : OnReply r
    · rw [if_pos onReply, decide_eq_true onReply, Bool.and_true]
    · rw [if_neg onReply, decide_eq_false onReply, Bool.and_false]
      rfl
  · rw [if_neg mark, step_field mark, onField_current.1, onField_current.2]
    by_cases isId : r.idvId = ID.id.code
    · rw [if_pos isId, isId, fileField_id.1, fileField_id.2, if_pos rfl]
      have one := inOrder.1 isId
      rw [single, if_pos one]
      rfl
    · rw [if_neg isId, (fileField_other isId).1, (fileField_other isId).2, now]

/-- **The accesses are right** exactly if the field is in order. -/
theorem right_iff_inOrder (now : Current h c) :
    (∀ access ∈ (h.step r).2, access.Right (currentStep c r)) ↔ InOrder c r := by
  unfold Current at now
  by_cases mark : r.idvId = ID.marker.code
  · have notId : r.idvId ≠ ID.id.code := by
      rw [mark]
      decide
    rw [(step_mark mark).1]
    exact iff_of_true (List.forall_mem_nil _) ⟨fun isId => absurd isId notId, Or.inl mark⟩
  · rw [currentStep, if_neg mark, step_field mark, InOrder, or_iff_right mark]
    by_cases isId : r.idvId = ID.id.code
    · have named : r.idvId.toNat < idNames.length := by
        rw [isId]
        decide
      rw [if_pos isId, HostMembers.accesses, HostMembers.switchAccesses, if_pos isId, isId,
        fileField_id.1, fileField_id.2, if_pos rfl, asUInt8_single]
      rw [isId] at named
      simp only [List.singleton_append, List.forall_mem_cons, Access.Right, List.not_mem_nil,
        false_imp_iff, implies_true, and_true, named, true_and, and_self, or_true, true_imp_iff]
      by_cases one : r.idvLen.toNat = 1 <;> simp [single, one]
    · rw [if_neg isId, HostMembers.accesses, HostMembers.switchAccesses, if_neg isId,
        (fileField_other isId).1, (fileField_other isId).2, now]
      cases h.hasId with
      | true => simp [Access.Right, isId]
      | false => simp [isId]

end Steps

/-! ### Any messages -/

/-- The tool and the current object, step by step. -/
def watch (s : HostMembers × Option UInt8) (r : Idv.Reader) :
    (HostMembers × Option UInt8) × List Access :=
  (((s.1.step r).1, currentStep s.2 r), (s.1.step r).2)

theorem run_watch (h : HostMembers) (c : Option UInt8) (fields : List Idv.Reader) :
    (run watch (h, c) fields).1 =
      ((run HostMembers.step h fields).1, fields.foldl currentStep c) := by
  induction fields generalizing h c with
  | nil => rfl
  | cons r rest ih => exact ih (h.step r).1 (currentStep c r)

/-- **The accesses are right exactly to fields that are in order**, whatever the other members are. -/
theorem robust_iff_orderly {h : HostMembers} (fresh : h.hasId = false)
    (fields : List Idv.Reader) : Robust h fields ↔ Orderly fields := by
  have start : Current h none := by
    rw [Current, fresh]
    rfl
  calc Robust h fields
      ↔ Along watch (fun s r => ∀ access ∈ (s.1.step r).2, access.Right (currentStep s.2 r))
          (h, none) fields := by
        rw [EventMachine.along_iff_every, Robust]
        simp only [run_watch, current, List.foldl_append, List.foldl_cons, List.foldl_nil]
    _ ↔ Along watch (fun s r => InOrder s.2 r) (h, none) fields :=
        EventMachine.along_congr watch (fun s => Current s.1 s.2)
          (fun _ _ now => right_iff_inOrder now)
          (fun _ _ now right => step_current now ((right_iff_inOrder now).mp right)) start fields
    _ ↔ Orderly fields := EventMachine.along_part watch (fun _ _ => rfl) InOrder (h, none) fields

/-- **The tool is robust** exactly to messages all of whose ID fields have one byte, and where no
field without a name comes while there is a current object. -/
theorem robust_iff (h : HostMembers) (fresh : h.hasId = false) (messages : List (List UInt8))
    (turns : Nat) :
    Robust h (dispatched turns messages) ↔ Orderly (dispatched turns messages) :=
  robust_iff_orderly fresh _

/-- The members of the tool before the first message. -/
def HostMembers.new (cMark : UInt8) : HostMembers := ⟨cMark, 0, 0, false, false, fun _ => none⟩

/-- A message about one object, with its text behind its ids. -/
theorem robust_object : Robust (.new 0)
    (dispatched 6 [[0xFF, 1, 2], [0, 1, 7, 1, 1, 0, 2, 2, 68, 84, 0xFF, 1, 0x82]]) :=
  (robust_iff (.new 0) rfl _ _).mpr (by decide)

/-- **Not to any messages**: behind an ID field, a field with the id 10 reads an entry of `ID_NAMES`
that there is not; and an ID field without a byte is filed under object 0. -/
theorem not_robust :
    ¬ Robust (.new 0) (dispatched 3 [[0, 1, 5, 10, 0]]) ∧
      ¬ Robust (.new 0) (dispatched 2 [[0, 0]]) := by
  constructor
  · intro robust
    have entry : 10 < idNames.length := robust
      (dispatched 1 [[0, 1, 5, 10, 0]]) _ [] rfl (.name 10) ?_
    · exact absurd entry (by decide)
    · decide
  · intro robust
    have object : current [_] = some 0 := robust [] _ [] rfl (.store 0 0) ?_
    · exact absurd object (by decide)
    · decide

end ForgeDrive.Daq.Discovery
