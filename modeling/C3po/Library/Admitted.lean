import Mathlib.Data.List.Induction

/-! A log whose every entry was admitted on the entries before it, and how much of a kind such a
log can hold.
-/

set_option autoImplicit false

namespace C3po.Library

section Admitted
variable {α : Type} {admits admits' : List α → α → Prop} {entries : List α}

def Admitted (admits : List α → α → Prop) (entries : List α) : Prop :=
  ∀ before entry after, entries = before ++ entry :: after → admits before entry

theorem admitted_nil : Admitted admits [] := by
  intro before entry after split
  simp at split

theorem Admitted.append {entry : α} (held : Admitted admits entries) (next : admits entries entry) :
    Admitted admits (entries ++ [entry]) := by
  intro before other after split
  rcases List.eq_nil_or_concat after with rfl | ⟨later, last, rfl⟩
  · obtain ⟨rfl, ends⟩ := List.append_inj' split rfl
    obtain ⟨rfl, -⟩ := List.cons.inj ends
    exact next
  · rw [List.concat_eq_append, ← List.cons_append, ← List.append_assoc] at split
    obtain ⟨rfl, -⟩ := List.append_inj' split rfl
    exact held before other later rfl

theorem Admitted.dropLast {entry : α} (held : Admitted admits (entries ++ [entry])) : Admitted admits entries := by
  intro before other after split
  apply held before other (after ++ [entry])
  rw [split, List.append_assoc, List.cons_append]

theorem Admitted.map {revise : α → α} (held : Admitted admits entries)
    (keeps : ∀ before entry, admits before entry → admits (before.map revise) (revise entry)) :
    Admitted admits (entries.map revise) := by
  intro before entry after split
  obtain ⟨first, rest, rfl, rfl, tail⟩ := List.map_eq_append_iff.mp split
  obtain ⟨own, later, rfl, rfl, rfl⟩ := List.map_eq_cons_iff.mp tail
  exact keeps first own (held first own later rfl)

theorem Admitted.mono (held : Admitted admits entries) (weaker : ∀ before entry, admits before entry → admits' before entry) :
    Admitted admits' entries :=
  fun before entry after split => weaker before entry (held before entry after split)

theorem Admitted.countP_le {counts : α → Bool} {cap : ℕ} (held : Admitted admits entries)
    (below : ∀ before entry, admits before entry → counts entry = true → before.countP counts < cap) :
    entries.countP counts ≤ cap := by
  induction entries using List.reverseRecOn with
  | nil => exact Nat.zero_le _
  | append_singleton before entry ih =>
    rw [List.countP_append, List.countP_singleton]
    by_cases counted : counts entry = true
    · have room := below before entry (held before entry [] rfl) counted
      rw [if_pos counted]
      omega
    · rw [if_neg counted]
      exact ih held.dropLast

end Admitted

end C3po.Library
