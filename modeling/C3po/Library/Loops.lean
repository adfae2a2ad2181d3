import Mathlib.Data.List.Basic

/-! Loops whose body may raise: what a finished loop and a raised error say of the body. -/

set_option autoImplicit false

namespace C3po.Library

variable {A B S E : Type}

theorem bind_ok {first : Except E A} {next : A → Except E B} {result : B}
    (ok : first >>= next = .ok result) : ∃ value, first = .ok value ∧ next value = .ok result := by
  cases first with
  | error refusal => cases ok
  | ok value => exact ⟨value, rfl, ok⟩

theorem bind_error {first : Except E A} {next : A → Except E B} {refusal : E}
    (raised : first >>= next = .error refusal) :
    first = .error refusal ∨ ∃ value, first = .ok value ∧ next value = .error refusal := by
  cases first with
  | error other => exact .inl (by cases raised; rfl)
  | ok value => exact .inr ⟨value, rfl, raised⟩

theorem foldlM_cons_ok {step : S → A → Except E S} {item : A} {items : List A} {state final : S}
    (ok : (item :: items).foldlM step state = .ok final) :
    ∃ next, step state item = .ok next ∧ items.foldlM step next = .ok final :=
  bind_ok ok

theorem foldlM_pure {step : S → A → Except E S} {plain : S → A → S} (items : List A)
    (same : ∀ item ∈ items, ∀ state, step state item = .ok (plain state item)) (state : S) :
    items.foldlM step state = .ok (items.foldl plain state) := by
  induction items generalizing state with
  | nil => rfl
  | cons item rest ih =>
    rw [List.foldlM_cons, same item (by simp) state]
    exact ih (fun other member => same other (by simp [member])) _

theorem foldlM_guarded {step : S → A → Except E S} {bad : A → Bool} {refusal : E} {plain : S → A → S} (items : List A)
    (same : ∀ item state, step state item = if bad item then .error refusal else .ok (plain state item)) (state : S) :
    items.foldlM step state = if items.any bad then .error refusal else .ok (items.foldl plain state) := by
  induction items generalizing state with
  | nil => rfl
  | cons item rest ih =>
    rw [List.foldlM_cons, same item state, List.any_cons]
    cases bad item with
    | true => rfl
    | false =>
      simp only [Bool.false_eq_true, if_false, Bool.false_or, List.foldl_cons]
      exact ih _

theorem foldlM_back {T : Type} {step : S → A → Except E S} {back : T → A → Except E T} (view : S → T) (Inv : S → Prop)
    (chosen : A → Bool) {items : List A} (each : ∀ item ∈ items, ∀ state next, Inv state → step state item = .ok next →
      Inv next ∧ if chosen item then back (view next) item = .ok (view state) else view next = view state)
    {state final : S} (start : Inv state) (ok : items.foldlM step state = .ok final) :
    (items.filter chosen).reverse.foldlM back (view final) = .ok (view state) := by
  induction items generalizing state with
  | nil =>
    cases ok
    rfl
  | cons item rest ih =>
    obtain ⟨next, nextOk, restOk⟩ := foldlM_cons_ok ok
    obtain ⟨kept, undone⟩ := each item List.mem_cons_self state next start nextOk
    have later := ih (fun other member => each other (List.mem_cons_of_mem _ member)) kept restOk
    cases taken : chosen item with
    | true =>
      rw [if_pos taken] at undone
      rw [List.filter_cons_of_pos taken, List.reverse_cons, List.foldlM_append, later]
      show [item].foldlM back (view next) = _
      rw [List.foldlM_cons, undone]
      rfl
    | false =>
      rw [taken, if_neg Bool.false_ne_true] at undone
      rw [List.filter_cons_of_neg (by simp [taken]), later, undone]

theorem forM_ok {check : A → Except E Unit} {items : List A} (each : ∀ item ∈ items, check item = .ok ()) :
    items.forM check = .ok () := by
  induction items with
  | nil => rfl
  | cons item rest ih =>
    show (check item >>= fun _ => rest.forM check) = _
    rw [each item List.mem_cons_self]
    exact ih fun other member => each other (List.mem_cons_of_mem _ member)

/-- What every raise of the body satisfies, a raise of the loop satisfies. -/
theorem foldlM_error {step : S → A → Except E S} {Kind : E → Prop} {items : List A}
    (raises : ∀ item ∈ items, ∀ state refusal, step state item = .error refusal → Kind refusal)
    {state : S} {refusal : E} (raised : items.foldlM step state = .error refusal) : Kind refusal := by
  induction items generalizing state with
  | nil => cases raised
  | cons item rest ih =>
    rcases bind_error raised with here | ⟨next, _, later⟩
    · exact raises item (by simp) state refusal here
    · exact ih (fun other member => raises other (by simp [member])) later

theorem mapM_pure {call : A → Except E B} {plain : A → B} (items : List A)
    (same : ∀ item ∈ items, call item = .ok (plain item)) :
    items.mapM call = .ok (items.map plain) := by
  induction items with
  | nil => rfl
  | cons item rest ih =>
    rw [List.mapM_cons, same item (by simp), ih fun other member => same other (by simp [member])]
    rfl

theorem mapM_results {call : A → Except E B} {items : List A} {results : List B} (done : items.mapM call = .ok results) :
    List.Forall₂ (fun item result => call item = .ok result) items results := by
  induction items generalizing results with
  | nil =>
    cases done
    exact .nil
  | cons item rest ih =>
    rw [List.mapM_cons] at done
    obtain ⟨first, called, further⟩ := bind_ok done
    obtain ⟨others, mapped, whole⟩ := bind_ok further
    cases whole
    exact .cons called (ih mapped)

theorem foldlM_keeps {step : S → A → Except E S} (Inv : S → Prop) {items : List A}
    (keeps : ∀ item ∈ items, ∀ state next, Inv state → step state item = .ok next → Inv next)
    {state final : S} (start : Inv state) (ok : items.foldlM step state = .ok final) : Inv final := by
  induction items generalizing state with
  | nil =>
    cases ok
    exact start
  | cons item rest ih =>
    obtain ⟨next, nextOk, restOk⟩ := foldlM_cons_ok ok
    exact ih (fun other member => keeps other (by simp [member]))
      (keeps item (by simp) state next start nextOk) restOk

theorem foldl_keeps {step : S → A → S} (Inv : S → Prop) (items : List A)
    (keeps : ∀ item ∈ items, ∀ state, Inv state → Inv (step state item)) {state : S} (start : Inv state) :
    Inv (items.foldl step state) := by
  induction items generalizing state with
  | nil => exact start
  | cons item rest ih =>
    exact ih (fun other member => keeps other (by simp [member])) (keeps item (by simp) state start)

theorem pairwise_of_splits {related : A → A → Prop} {items : List A}
    (before : ∀ front item back, items = front ++ item :: back → ∀ first ∈ front, related first item) :
    items.Pairwise related := by
  induction items with
  | nil => exact List.Pairwise.nil
  | cons head tail ih =>
    refine List.pairwise_cons.mpr ⟨fun item member => ?_, ih fun front item back whole first firstIn => ?_⟩
    · obtain ⟨front, back, whole⟩ := List.append_of_mem member
      exact before (head :: front) item back (by rw [whole]; rfl) head List.mem_cons_self
    · exact before (head :: front) item back (by rw [whole]; rfl) first (List.mem_cons_of_mem _ firstIn)

theorem snoc_split {items before after : List A} {last item : A}
    (same : items ++ [last] = before ++ item :: after) :
    items = before ∧ last = item ∧ after = [] ∨ ∃ rest, items = before ++ item :: rest ∧ after = rest ++ [last] := by
  rcases List.eq_nil_or_concat after with rfl | ⟨rest, final, rfl⟩
  · have both := List.append_inj' same rfl
    exact .inl ⟨both.1, by simpa using both.2, rfl⟩
  · have shape : items ++ [last] = (before ++ item :: rest) ++ [final] := by simpa using same
    have both := List.append_inj' shape rfl
    exact .inr ⟨rest, both.1, by simp [List.singleton_inj.mp both.2]⟩

end C3po.Library
