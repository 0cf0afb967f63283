/-
**Histories: what each entry of a log says about the entries before it.**

`Each Condition history` holds when every entry meets `Condition` with the entries before it. A log
grows at its end, so only the new entry is to be checked:

* `concat_eq_split` — an entry of a log is the newest one, or one of those before it;
* `each_nil`, `each_concat` — one more entry;
* `Each.append_of_free` — entries of a kind that the condition does not speak of.
-/

import Mathlib.Data.List.Basic

namespace ForgeDrive.History

variable {Entry : Type*} {Condition : List Entry → Entry → Prop} {history : List Entry}

/-- Every entry meets a condition with the entries before it. -/
def Each (Condition : List Entry → Entry → Prop) (history : List Entry) : Prop :=
  ∀ before entry after, history = before ++ entry :: after → Condition before entry

theorem each_nil : Each Condition [] := by
  intro before entry after split
  cases List.append_ne_nil_of_right_ne_nil before (List.cons_ne_nil entry after) split.symm

/-- An entry of a log that has grown is the new entry, or one of the old log. -/
theorem concat_eq_split {entry found : Entry} {before after : List Entry}
    (split : history ++ [entry] = before ++ found :: after) :
    (before = history ∧ found = entry ∧ after = []) ∨
      ∃ rest, after = rest ++ [entry] ∧ history = before ++ found :: rest := by
  rcases List.eq_nil_or_concat after with rfl | ⟨rest, last, rfl⟩
  · obtain ⟨rfl, same⟩ := List.append_inj' split rfl
    exact .inl ⟨rfl, (List.cons.inj same).1.symm, rfl⟩
  · rw [List.concat_eq_append, ← List.cons_append, ← List.append_assoc] at split
    obtain ⟨rfl, same⟩ := List.append_inj' split rfl
    rw [(List.cons.inj same).1, List.concat_eq_append]
    exact .inr ⟨rest, rfl, rfl⟩

/-- **One more entry** has to meet the condition with all of them before it. -/
theorem each_concat {entry : Entry} (each : Each Condition history)
    (now : Condition history entry) : Each Condition (history ++ [entry]) := by
  intro before found after split
  rcases concat_eq_split split with ⟨rfl, rfl, -⟩ | ⟨rest, -, rfl⟩
  · exact now
  · exact each before found rest rfl

/-- More entries of which the condition asks nothing. -/
theorem Each.append_of_free {more : List Entry} (each : Each Condition history)
    (free : ∀ entry ∈ more, ∀ before, Condition before entry) : Each Condition (history ++ more) := by
  induction more generalizing history with
  | nil => rwa [List.append_nil]
  | cons entry rest ih =>
    rw [List.append_cons]
    exact ih (each_concat each (free entry List.mem_cons_self history)) fun other member =>
      free other (List.mem_cons_of_mem entry member)

end ForgeDrive.History
