import Mathlib.Data.List.Sort

/-! Stable sorting by a key, and folds that do not see the difference.

A stable sort is determined by two facts: its result is sorted by the key, and
the elements of one key keep their order. A fold in which two neighbours out of
key order may be exchanged gives the same state over a list and over its stable
sort, from every state of an invariant the fold keeps.
-/

set_option autoImplicit false

namespace C3po.Library

variable {A K S : Type} [LinearOrder K]

/-- Sort by a key; elements of equal keys keep their order. -/
def stableSort (key : A → K) (items : List A) : List A :=
  items.insertionSort fun first second => key first ≤ key second

@[simp] theorem stableSort_nil (key : A → K) : stableSort key ([] : List A) = [] := rfl

theorem stableSort_cons (key : A → K) (first : A) (rest : List A) :
    stableSort key (first :: rest) =
      (stableSort key rest).orderedInsert (fun a b => key a ≤ key b) first := rfl

theorem stableSort_perm (key : A → K) (items : List A) : (stableSort key items).Perm items :=
  List.perm_insertionSort _ items

theorem mem_stableSort {key : A → K} {items : List A} {item : A} :
    item ∈ stableSort key items ↔ item ∈ items :=
  (stableSort_perm key items).mem_iff

theorem stableSort_sorted (key : A → K) (items : List A) :
    (stableSort key items).Pairwise fun first second => key first ≤ key second := by
  have : Std.Total fun first second : A => key first ≤ key second := ⟨fun a b => le_total _ _⟩
  have : IsTrans A fun first second : A => key first ≤ key second := ⟨fun a b c => le_trans⟩
  exact List.pairwise_insertionSort _ items

theorem stableSort_map {B : Type} (key : B → K) (image : A → B) (items : List A) :
    stableSort key (items.map image) = (stableSort (key ∘ image) items).map image :=
  (List.map_insertionSort _ _ image items fun _ _ _ _ => Iff.rfl).symm

theorem stableSort_image {B : Type} {key : B → K} {other : A → K} {image : A → B} {items : List A}
    (order : ∀ first ∈ items, ∀ second ∈ items,
      other first ≤ other second ↔ key (image first) ≤ key (image second)) :
    stableSort key (items.map image) = (stableSort other items).map image :=
  (List.map_insertionSort _ _ image items order).symm

theorem stableSort_eq_of_perm {key : A → K} {items others : List A} (same : items.Perm others)
    (distinct : (items.map key).Nodup) : stableSort key items = stableSort key others := by
  have perm := (stableSort_perm key items).trans (same.trans (stableSort_perm key others).symm)
  refine List.Perm.eq_of_pairwise ?_ (stableSort_sorted key items) (stableSort_sorted key others) perm
  intro first second firstIn secondIn before after
  have inItems := mem_stableSort.mp firstIn
  have alsoIn := same.mem_iff.mpr (mem_stableSort.mp secondIn)
  exact List.inj_on_of_nodup_map distinct inItems alsoIn (le_antisymm before after)

theorem stableSort_eq_iff_perm {key : A → K} (injective : Function.Injective key) {items others : List A} :
    stableSort key items = stableSort key others ↔ items.Perm others := by
  constructor
  · intro same
    have perm := stableSort_perm key others
    rw [← same] at perm
    exact (stableSort_perm key items).symm.trans perm
  · intro same
    have perm := (stableSort_perm key items).trans (same.trans (stableSort_perm key others).symm)
    refine List.Perm.eq_of_pairwise ?_ (stableSort_sorted key items) (stableSort_sorted key others) perm
    exact fun _ _ _ _ before after => injective (le_antisymm before after)

theorem stableSort_of_sorted {key : A → K} {items : List A}
    (sorted : items.Pairwise fun first second => key first ≤ key second) : stableSort key items = items :=
  sorted.insertionSort_eq

theorem filter_orderedInsert_sorted (key : A → K) (chosen : A → Bool) (item : A) {items : List A}
    (sorted : items.Pairwise fun first second => key first ≤ key second) :
    (items.orderedInsert (fun a b => key a ≤ key b) item).filter chosen =
      if chosen item then (items.filter chosen).orderedInsert (fun a b => key a ≤ key b) item
      else items.filter chosen := by
  induction items with
  | nil => cases kept : chosen item <;> simp [kept]
  | cons head tail ih =>
    obtain ⟨least, rest⟩ := List.pairwise_cons.mp sorted
    by_cases before : key item ≤ key head
    · rw [List.orderedInsert_cons_of_le _ tail before]
      cases kept : chosen item with
      | false => simp [kept]
      | true =>
        have first : ∀ other ∈ (head :: tail).filter chosen, key item ≤ key other := by
          intro other member
          rcases List.mem_cons.mp (List.mem_filter.mp member).1 with rfl | later
          · exact before
          · exact before.trans (least other later)
        rw [List.filter_cons_of_pos kept, if_pos rfl]
        cases chosenItems : (head :: tail).filter chosen with
        | nil => rfl
        | cons other others =>
          rw [List.orderedInsert_cons_of_le _ others (first other (by simp [chosenItems]))]
    · rw [List.orderedInsert_of_not_le _ tail before]
      cases keptHead : chosen head with
      | false => simp only [List.filter_cons, keptHead, ih rest]; rfl
      | true =>
        simp only [List.filter_cons, keptHead, if_true, ih rest]
        split
        · rw [List.orderedInsert_of_not_le (r := fun a b => key a ≤ key b) _ before]
        · rfl

theorem stableSort_choose (key : A → K) (chosen : A → Bool) (items : List A) :
    (stableSort key items).filter chosen = stableSort key (items.filter chosen) := by
  induction items with
  | nil => rfl
  | cons head tail ih =>
    rw [stableSort_cons, filter_orderedInsert_sorted key chosen head (stableSort_sorted key tail), ih,
      List.filter_cons]
    split <;> rfl

theorem foldl_orderedInsert (key : A → K) (step : S → A → S) (Inv : S → Prop) (Ok : A → Prop)
    (keeps : ∀ state item, Inv state → Ok item → Inv (step state item))
    (swap : ∀ state early late, Inv state → Ok early → Ok late → key early < key late →
      step (step state late) early = step (step state early) late)
    (item : A) (okItem : Ok item) (items : List A) (ok : ∀ a ∈ items, Ok a)
    (state : S) (inv : Inv state) :
    (items.orderedInsert (fun a b => key a ≤ key b) item).foldl step state =
      items.foldl step (step state item) := by
  induction items generalizing state with
  | nil => rfl
  | cons head tail ih =>
    have okHead : Ok head := ok head (by simp)
    have okTail : ∀ a ∈ tail, Ok a := fun a member => ok a (by simp [member])
    by_cases before : key item ≤ key head
    · rw [List.orderedInsert_cons_of_le _ tail before]
      rfl
    · rw [List.orderedInsert_of_not_le _ tail before, List.foldl_cons, List.foldl_cons,
        ih okTail _ (keeps state head inv okHead),
        swap state head item inv okHead okItem (lt_of_not_ge before)]

theorem foldl_stableSort (key : A → K) (step : S → A → S) (Inv : S → Prop) (Ok : A → Prop)
    (keeps : ∀ state item, Inv state → Ok item → Inv (step state item))
    (swap : ∀ state early late, Inv state → Ok early → Ok late → key early < key late →
      step (step state late) early = step (step state early) late)
    (items : List A) (ok : ∀ a ∈ items, Ok a) (state : S) (inv : Inv state) :
    (stableSort key items).foldl step state = items.foldl step state := by
  induction items generalizing state with
  | nil => rfl
  | cons head tail ih =>
    have okHead : Ok head := ok head (by simp)
    have okTail : ∀ a ∈ tail, Ok a := fun a member => ok a (by simp [member])
    have okSorted : ∀ a ∈ stableSort key tail, Ok a :=
      fun a member => okTail a (mem_stableSort.mp member)
    rw [stableSort_cons, foldl_orderedInsert key step Inv Ok keeps swap head okHead _ okSorted
      state inv]
    exact ih okTail _ (keeps state head inv okHead)

end C3po.Library
