import Mathlib.Data.List.Basic

/-! Transactions over a store.

A transaction writes as it goes and may raise at any point; what it wrote until then
stays in its own view of the store. `commit` runs it as one call: the writes of a
transaction that raises are rolled back.
-/

set_option autoImplicit false

namespace C3po.Library

/-- A call that reads and writes a store and may raise. -/
def Transaction (S E A : Type) := S → Except E A × S

namespace Transaction
variable {S E A B : Type}

instance : Monad (Transaction S E) where
  pure value := fun store => (.ok value, store)
  bind first next := fun store =>
    match first store with
    | (.ok value, written) => next value written
    | (.error refusal, written) => (.error refusal, written)

def read : Transaction S E S := fun store => (.ok store, store)

def write (store : S) : Transaction S E Unit := fun _ => (.ok (), store)

def raise (refusal : E) : Transaction S E A := fun store => (.error refusal, store)

/-- A check that writes nothing. -/
def check (result : Except E A) : Transaction S E A := fun store => (result, store)

/-- One call: committed whole, or rolled back. -/
def commit (transaction : Transaction S E A) (store : S) : Except E A × S :=
  match transaction store with
  | (.ok value, written) => (.ok value, written)
  | (.error refusal, _) => (.error refusal, store)

theorem pure_apply (value : A) (store : S) : (pure value : Transaction S E A) store = (.ok value, store) := rfl

theorem read_bind (next : S → Transaction S E B) (store : S) : (read >>= next) store = next store store := rfl

theorem write_bind (written : S) (next : Unit → Transaction S E B) (store : S) :
    (write written >>= next) store = next () written := rfl

theorem ite_apply (condition : Prop) [Decidable condition] (first second : Transaction S E A) (store : S) :
    (if condition then first else second) store = if condition then first store else second store := by
  split <;> rfl

theorem bind_ok {first : Transaction S E A} {next : A → Transaction S E B} {store final : S}
    {result : B} (ok : (first >>= next) store = (.ok result, final)) :
    ∃ value middle, first store = (.ok value, middle) ∧ next value middle = (.ok result, final) := by
  have unfolded : (match first store with
    | (.ok value, written) => next value written
    | (.error refusal, written) => (.error refusal, written)) = (.ok result, final) := ok
  split at unfolded
  · rename_i value written firstOk
    exact ⟨value, written, firstOk, unfolded⟩
  · cases unfolded

theorem check_ok {found : Except E A} {store final : S} {value : A}
    (ok : check found store = (.ok value, final)) : found = .ok value ∧ final = store := by
  cases ok
  exact ⟨rfl, rfl⟩

theorem commit_error {transaction : Transaction S E A} {store final : S} {refusal : E}
    (raised : transaction.commit store = (.error refusal, final)) : final = store := by
  unfold commit at raised
  split at raised
  · cases raised
  · cases raised
    rfl

theorem commit_ok {transaction : Transaction S E A} {store final : S} {value : A}
    (ok : transaction.commit store = (.ok value, final)) : transaction store = (.ok value, final) := by
  unfold commit at ok
  split at ok
  · rename_i found
    rw [found]
    exact ok
  · cases ok

theorem bind_pure_snd (call : Transaction S E A) (next : A → B) (store : S) :
    ((call >>= fun result => pure (next result)) store).2 = (call store).2 := by
  simp only [bind]
  split
  · rename_i ran
    rw [ran]
    rfl
  · rename_i ran
    rw [ran]

theorem foldlM_keeps {step : B → A → Transaction S E B} (Inv : S → Prop) {items : List A}
    (keeps : ∀ item ∈ items, ∀ value store, Inv store → Inv (step value item store).2)
    {value : B} {store : S} (start : Inv store) : Inv (items.foldlM step value store).2 := by
  induction items generalizing value store with
  | nil => exact start
  | cons item rest ih =>
    have turn := keeps item List.mem_cons_self value store start
    rw [List.foldlM_cons]
    simp only [bind]
    split
    · rename_i next written ran
      rw [ran] at turn
      exact ih (fun other member => keeps other (List.mem_cons_of_mem _ member)) turn
    · rename_i refusal written ran
      rw [ran] at turn
      exact turn

end Transaction
end C3po.Library
