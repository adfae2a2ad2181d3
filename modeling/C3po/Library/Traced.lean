import Mathlib.Data.Fintype.Basic

/-! Values that carry what they were read from, and records of them. -/

set_option autoImplicit false

namespace C3po.Library

/-- A value and its sources. No computation reads the sources. -/
structure Traced (N S : Type) where
  value : N
  sources : List S
  deriving DecidableEq

namespace Traced
variable {N S : Type}

def combine (f : N → N → N) (first second : Traced N S) : Traced N S :=
  ⟨f first.value second.value, first.sources ++ second.sources⟩

/-- The value alone. -/
def bare (figure : Traced N S) : Traced N S := { figure with sources := [] }

def Within (figure : Traced N S) (known : S → Prop) : Prop := ∀ source ∈ figure.sources, known source

theorem Within.mono {figure : Traced N S} {known wider : S → Prop} (within : figure.Within known)
    (grows : ∀ source, known source → wider source) : figure.Within wider := fun source member => grows source (within source member)

theorem Within.combine {f : N → N → N} {first second : Traced N S} {known : S → Prop} (one : first.Within known)
    (two : second.Within known) : (first.combine f second).Within known := by
  intro source member
  rcases List.mem_append.mp member with among | among
  · exact one source among
  · exact two source among

end Traced

/-- What a record holds under each field. -/
abbrev Record (F N S : Type) := F → Option (Traced N S)

namespace Record
variable {F N S : Type}

def empty : Record F N S := fun _ => none

def fill (first second : Record F N S) : Record F N S := fun field => (first field).or (second field)

/-- What both records hold, combined. -/
def meet (f : N → N → N) (first second : Record F N S) : Record F N S := fun field =>
  match first field, second field with
  | some one, some two => some (one.combine f two)
  | _, _ => none

def any [Fintype F] (record : Record F N S) : Bool := decide (∃ field, (record field).isSome)

/-- The values alone. -/
def bare (record : Record F N S) : Record F N S := fun field => (record field).map Traced.bare

def Within (record : Record F N S) (known : S → Prop) : Prop := ∀ field figure, record field = some figure → figure.Within known

variable {first second : Record F N S} {known wider : S → Prop}

theorem Within.mono (within : first.Within known) (grows : ∀ source, known source → wider source) : first.Within wider :=
  fun field figure holds => (within field figure holds).mono grows

theorem within_empty : (empty : Record F N S).Within known := fun _ _ holds => nomatch holds

theorem Within.fill (one : first.Within known) (two : second.Within known) : (first.fill second).Within known := by
  intro field figure holds
  unfold Record.fill at holds
  cases held : first field with
  | none =>
    rw [held] at holds
    exact two field figure holds
  | some own =>
    rw [held] at holds
    cases holds
    exact one field _ held

theorem Within.meet {f : N → N → N} (one : first.Within known) (two : second.Within known) : (first.meet f second).Within known := by
  intro field figure holds
  unfold Record.meet at holds
  cases held : first field with
  | none =>
    rw [held] at holds
    cases holds
  | some own =>
    cases there : second field with
    | none =>
      rw [held, there] at holds
      cases holds
    | some other =>
      rw [held, there] at holds
      cases holds
      exact (one field own held).combine (two field other there)

end Record
end C3po.Library
