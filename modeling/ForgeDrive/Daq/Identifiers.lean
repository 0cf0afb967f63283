/-
**The ids of discovery.**

`annonate` numbers the session, its streams and their channels with one counter of eight bits, and
checks nothing. The tool keys its objects by these ids.

`idsUnique_iff`: the ids are different, the tool keeps every object of the tree apart from the
others, and the parent id of a channel is that of its stream alone, exactly for the sessions of at
most `256` objects.
-/

import ForgeDrive.Daq.Reconstruction

namespace ForgeDrive.Daq.Discovery

/-! ### Lists with different keys -/

section Keys

variable {Item Key : Type*} [DecidableEq Key] {key : Item → Key}

/-- Among items with different keys, the key of an item selects this item alone. -/
theorem filter_key_eq {items : List Item} (distinct : (items.map key).Nodup) {item : Item}
    (member : item ∈ items) : items.filter (fun other => key other = key item) = [item] := by
  induction items with
  | nil => cases member
  | cons head rest ih =>
    rw [List.map_cons, List.nodup_cons] at distinct
    obtain ⟨fresh, distinctRest⟩ := distinct
    rcases List.mem_cons.mp member with rfl | inRest
    · have none_ : rest.filter (fun other => key other = key item) = [] := by
        rw [List.filter_eq_nil_iff]
        intro other otherIn same
        exact fresh (List.mem_map.mpr ⟨other, otherIn, of_decide_eq_true same⟩)
      rw [List.filter_cons_of_pos (by rw [decide_eq_true_eq]), none_]
    · have differs : key head ≠ key item := fun same =>
        fresh (List.mem_map.mpr ⟨item, inRest, same.symm⟩)
      rw [List.filter_cons_of_neg (by rw [decide_eq_true_eq]; exact differs),
        ih distinctRest inRest]

end Keys

/-! ### The counter -/

/-- **The counter does not wrap** exactly where there are no more objects than it has values. -/
theorem Session.annonate_ids_nodup_iff (s : Session) :
    s.annonate.ids.Nodup ↔ s.ids.length ≤ 256 := by
  refine ⟨fun distinct => ?_, Session.annonate_ids_nodup⟩
  by_contra many
  rw [s.annonate_spec.1] at distinct
  have first : ((List.range s.ids.length).map UInt8.ofNat)[0]? = some 0 := by
    rw [List.getElem?_map, List.getElem?_range (by omega)]
    rfl
  have wrapped : ((List.range s.ids.length).map UInt8.ofNat)[256]? = some 0 := by
    rw [List.getElem?_map, List.getElem?_range (by omega)]
    rfl
  have inside : 0 < ((List.range s.ids.length).map UInt8.ofNat).length := by
    rw [List.length_map, List.length_range]
    omega
  have same : 0 = 256 := (List.getElem?_inj inside distinct).mp (first.trans wrapped.symm)
  exact absurd same (by decide)

/-! ### The tree -/

/-- What `discovery_respond` needs to send the tree whole: texts that fit their length byte, and a
writer that takes each message. -/
structure SentWhole (s : Session) : Prop where
  short : ∀ text ∈ s.texts, text.bytes.length ≤ 255
  accepted : ∀ message ∈ s.annonate.outline, s.writer.reset.Takes message

/-- **The ids are unique**: they are pairwise different (`distinct`); a tool that knows no objects
and hears the tree holds each of its objects apart from the others (`apart`); and of all objects of
the tree only its stream has the id that a channel reports as its parent (`parent`). -/
structure IdsUnique (s : Session) : Prop where
  distinct : s.annonate.ids.Nodup
  apart : SentWhole s → ∀ l : Listener, (∀ id, l.host.objects id = none) →
    ∃ l' needed, (∀ turns, needed ≤ turns → l.hearAll turns s.messages = some l') ∧
      HoldsTree l'.host s.annonate.reports
  parent : ∀ stream ∈ s.annonate.streams, ∀ channel ∈ stream.channels,
    s.annonate.reports.filter (fun report => report.id = (channel.report stream.id).parentId) =
      [stream.report s.annonate.id]

theorem Session.stream_reported {s : Session} {stream : Stream} (member : stream ∈ s.streams) :
    stream.report s.id ∈ s.reports :=
  List.mem_cons_of_mem _ (List.mem_flatMap.mpr ⟨stream, member, List.mem_cons_self⟩)

/-- **When the ids are unique**: for every session, exactly if it has at most `256` objects. -/
theorem idsUnique_iff (s : Session) : IdsUnique s ↔ s.ids.length ≤ 256 := by
  rw [← s.annonate_ids_nodup_iff]
  refine ⟨fun unique => unique.distinct, fun distinct => ⟨distinct, fun whole l empty => ?_, ?_⟩⟩
  · exact holdsTree_of_distinct distinct whole.short whole.accepted l empty
  · intro stream member channel _
    rw [← Session.reports_ids] at distinct
    exact filter_key_eq distinct (Session.stream_reported member)

/-- One stream of `255` channels: the last of them has the id of the session. -/
theorem not_always_idsUnique : ¬ ∀ s : Session, IdsUnique s := by
  intro always
  have wide := (always (quiet.registerStreams [⟨1000, 50000, 0, List.replicate 255
    ⟨0, ⟨[73, 117], by decide⟩, 0x3F800000, 0⟩, ⟨[68, 84, 67], by decide⟩⟩])).distinct
  rw [Session.annonate_ids_nodup_iff] at wide
  exact absurd wide (by decide +kernel)

end ForgeDrive.Daq.Discovery
