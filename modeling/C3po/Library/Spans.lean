import Mathlib.Data.List.Induction

/-! The spans of a log whose events carry a key: the events of one key up to one that ends it.

`standing` is what has happened under a key since its last end, and `spans` lists the ended
stretches in the order of their ends. Leaving out whole keys leaves out their spans.
-/

set_option autoImplicit false

namespace C3po.Library
variable {A K : Type} [DecidableEq K] (keyOf : A → K) (ends : A → Bool)

/-- The events of a key since its last end. -/
def standing (key : K) (log : List A) : List A :=
  log.foldl (fun held event => if keyOf event = key then (if ends event then [] else held ++ [event]) else held) []

/-- A stretch of events of one key, with the event that ended it. -/
structure Span (A : Type) where
  last : A
  events : List A
  deriving DecidableEq

/-- The events seen so far, and the stretches ended among them. -/
def spansStep (state : List A × List (Span A)) (event : A) : List A × List (Span A) :=
  (state.1 ++ [event], if ends event then state.2 ++ [⟨event, standing keyOf ends (keyOf event) state.1 ++ [event]⟩] else state.2)

def spans (log : List A) : List (Span A) := (log.foldl (spansStep keyOf ends) ([], [])).2

variable {keyOf ends} {key : K} {log : List A} {event : A}

@[simp] theorem standing_nil : standing keyOf ends key [] = [] := rfl

@[simp] theorem spans_nil : spans keyOf ends [] = [] := rfl

theorem standing_snoc : standing keyOf ends key (log ++ [event]) =
    if keyOf event = key then (if ends event then [] else standing keyOf ends key log ++ [event])
    else standing keyOf ends key log := by
  unfold standing
  rw [List.foldl_append]
  rfl

theorem seen_foldl (log : List A) : (log.foldl (spansStep keyOf ends) ([], [])).1 = log := by
  induction log using List.reverseRecOn with
  | nil => rfl
  | append_singleton log event ih =>
    rw [List.foldl_append]
    exact congrArg (· ++ [event]) ih

theorem spans_snoc : spans keyOf ends (log ++ [event]) =
    if ends event then spans keyOf ends log ++ [⟨event, standing keyOf ends (keyOf event) log ++ [event]⟩]
    else spans keyOf ends log := by
  unfold spans
  rw [List.foldl_append]
  change (if ends event then _ else _) = _
  rw [seen_foldl]

theorem mem_spans {span : Span A} (here : span ∈ spans keyOf ends log) : span.last ∈ log ∧ ends span.last = true := by
  induction log using List.reverseRecOn with
  | nil => cases here
  | append_singleton log last ih =>
    rw [spans_snoc] at here
    split at here
    · rename_i ended
      obtain before | now := List.mem_append.mp here
      · exact ⟨List.mem_append_left _ (ih before).1, (ih before).2⟩
      · cases List.mem_singleton.mp now
        exact ⟨List.mem_append_right _ List.mem_cons_self, ended⟩
    · exact ⟨List.mem_append_left _ (ih here).1, (ih here).2⟩

theorem filter_one {wanted : A → Bool} (holds : wanted event = true) : [event].filter wanted = [event] := by
  rw [List.filter_cons_of_pos holds, List.filter_nil]

theorem filter_none {wanted : A → Bool} (fails : ¬ wanted event = true) : [event].filter wanted = [] := by
  rw [List.filter_cons_of_neg fails, List.filter_nil]

theorem standing_filter {chosen : K → Bool} (kept : chosen key = true) :
    standing keyOf ends key (log.filter fun event => chosen (keyOf event)) = standing keyOf ends key log := by
  induction log using List.reverseRecOn with
  | nil => rfl
  | append_singleton log event ih =>
    rw [List.filter_append, standing_snoc, ← ih]
    by_cases here : chosen (keyOf event) = true
    · rw [@filter_one _ event (fun event => chosen (keyOf event)) here, standing_snoc]
    · have apart : keyOf event ≠ key := fun own => here (own ▸ kept)
      rw [@filter_none _ event (fun event => chosen (keyOf event)) here, List.append_nil, if_neg apart]

theorem spans_filter (chosen : K → Bool) : spans keyOf ends (log.filter fun event => chosen (keyOf event)) =
    (spans keyOf ends log).filter fun span => chosen (keyOf span.last) := by
  induction log using List.reverseRecOn with
  | nil => rfl
  | append_singleton log event ih =>
    rw [List.filter_append, spans_snoc]
    by_cases here : chosen (keyOf event) = true
    · rw [@filter_one _ event (fun event => chosen (keyOf event)) here, spans_snoc, ih, standing_filter here]
      split
      · simp only [List.filter_append, List.filter_cons, here, if_true, List.filter_nil]
      · rfl
    · rw [@filter_none _ event (fun event => chosen (keyOf event)) here, List.append_nil, ih]
      split
      · simp only [List.filter_append, List.filter_cons, here, Bool.false_eq_true, if_false, List.filter_nil, List.append_nil]
      · rfl

theorem spans_before {before after : List A} {wanted : A → Bool} (none : ∀ event ∈ after, wanted event = false) :
    ((spans keyOf ends (before ++ after)).filter fun span => wanted span.last) =
      (spans keyOf ends before).filter fun span => wanted span.last := by
  induction after using List.reverseRecOn with
  | nil => rw [List.append_nil]
  | append_singleton after event ih =>
    rw [← List.append_assoc, spans_snoc]
    have rest := ih fun other here => none other (List.mem_append_left _ here)
    have unwanted : ¬ wanted event = true := by
      rw [none event (List.mem_append_right _ List.mem_cons_self)]
      decide
    split
    · simp only [List.filter_append, List.filter_cons, unwanted, Bool.false_eq_true, if_false, List.filter_nil, List.append_nil]
      exact rest
    · exact rest

end C3po.Library
