import Mathlib.Data.List.Basic

/-! Lots opened and closed whole.

A book holds at most one lot of a name. A history replays when it opens no name that
is held and closes no lot but the one held, whole.
-/

set_option autoImplicit false

namespace C3po.Library

inductive Lot (K Q : Type) where
  | opened (name : K) (quantity : Q)
  | closed (name : K) (quantity : Q)
  deriving DecidableEq, Repr

namespace Lot
variable {K Q : Type} [DecidableEq K] [DecidableEq Q]

def name : Lot K Q → K
  | opened name _ => name
  | closed name _ => name

def apply (held : K → Option Q) : Lot K Q → Option (K → Option Q)
  | opened name quantity =>
      if held name = none then some (Function.update held name (some quantity)) else none
  | closed name quantity =>
      if held name = some quantity then some (Function.update held name none) else none

def replay (held : K → Option Q) : List (Lot K Q) → Option (K → Option Q)
  | [] => some held
  | lot :: rest => (lot.apply held).bind fun next => replay next rest

variable {held final : K → Option Q}

theorem replay_append (front back : List (Lot K Q)) (held : K → Option Q) :
    replay held (front ++ back) = (replay held front).bind fun middle => replay middle back := by
  induction front generalizing held with
  | nil => rfl
  | cons lot rest ih =>
    rw [List.cons_append, replay, replay]
    cases lot.apply held with
    | none => rfl
    | some next => exact ih next

theorem replay_snoc {lots : List (Lot K Q)} {lot : Lot K Q} {middle : K → Option Q}
    (before : replay held lots = some middle) (next : lot.apply middle = some final) :
    replay held (lots ++ [lot]) = some final := by
  rw [replay_append, before, Option.bind_some, replay, next]
  rfl

theorem replay_split {front back : List (Lot K Q)} {lot : Lot K Q}
    (replayed : replay held (front ++ lot :: back) = some final) :
    ∃ before after, replay held front = some before ∧ lot.apply before = some after ∧
      replay after back = some final := by
  rw [replay_append] at replayed
  obtain ⟨before, front_, rest⟩ := Option.bind_eq_some_iff.mp replayed
  rw [replay] at rest
  obtain ⟨after, lot_, back_⟩ := Option.bind_eq_some_iff.mp rest
  exact ⟨before, after, front_, lot_, back_⟩

theorem apply_other {lot : Lot K Q} {name : K} (applied : lot.apply held = some final)
    (apart : lot.name ≠ name) : final name = held name := by
  cases lot with
  | opened other quantity =>
    simp only [apply] at applied
    split at applied
    · cases applied
      exact Function.update_of_ne (Ne.symm apart) ..
    · cases applied
  | closed other quantity =>
    simp only [apply] at applied
    split at applied
    · cases applied
      exact Function.update_of_ne (Ne.symm apart) ..
    · cases applied

theorem replay_other {lots : List (Lot K Q)} {name : K} (replayed : replay held lots = some final)
    (apart : ∀ lot ∈ lots, lot.name ≠ name) : final name = held name := by
  induction lots generalizing held with
  | nil =>
    cases replayed
    rfl
  | cons lot rest ih =>
    rw [replay] at replayed
    obtain ⟨next, applied, later⟩ := Option.bind_eq_some_iff.mp replayed
    rw [ih later fun other member => apart other (List.mem_cons_of_mem _ member)]
    exact apply_other applied (apart lot List.mem_cons_self)

theorem replay_unheld {lots : List (Lot K Q)} {name : K} (replayed : replay held lots = some final)
    (unheld : held name = none) (unopened : ∀ quantity, opened name quantity ∉ lots) :
    final name = none := by
  induction lots generalizing held with
  | nil =>
    cases replayed
    exact unheld
  | cons lot rest ih =>
    rw [replay] at replayed
    obtain ⟨next, applied, later⟩ := Option.bind_eq_some_iff.mp replayed
    refine ih later ?_ fun quantity member => unopened quantity (List.mem_cons_of_mem _ member)
    by_cases same : lot.name = name
    · cases lot with
      | opened other quantity => exact absurd (same ▸ List.mem_cons_self) (unopened quantity)
      | closed other quantity =>
        have other_ : other = name := same
        subst other_
        simp [apply, unheld] at applied
    · rw [apply_other applied same, unheld]

theorem closed_once {front middle back : List (Lot K Q)} {name : K} {first second : Q}
    (replayed : replay held (front ++ closed name first :: (middle ++ closed name second :: back)) =
      some final) : ∃ quantity, opened name quantity ∈ middle := by
  obtain ⟨before, after, _, applied, rest⟩ := replay_split replayed
  obtain ⟨between, last, middle_, again, _⟩ := replay_split rest
  by_contra unopened
  have gone : after name = none := by
    simp only [apply] at applied
    split at applied
    · cases applied
      exact Function.update_self ..
    · cases applied
  have still := replay_unheld middle_ gone fun quantity member => unopened ⟨quantity, member⟩
  simp [apply, still] at again

theorem closed_whole {front middle back : List (Lot K Q)} {name : K} {bought sold : Q}
    (replayed : replay held (front ++ opened name bought :: (middle ++ closed name sold :: back)) =
      some final) (untouched : ∀ lot ∈ middle, lot.name ≠ name) : sold = bought := by
  obtain ⟨before, after, _, applied, rest⟩ := replay_split replayed
  obtain ⟨between, last, middle_, again, _⟩ := replay_split rest
  have got : after name = some bought := by
    simp only [apply] at applied
    split at applied
    · cases applied
      exact Function.update_self ..
    · cases applied
  have still := replay_other middle_ untouched
  simp only [apply] at again
  split at again
  · rename_i whole
    rw [still, got] at whole
    exact (Option.some.inj whole).symm
  · cases again

end Lot
end C3po.Library
