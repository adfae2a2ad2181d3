import Mathlib.Data.List.Dedup
import Mathlib.Data.List.Induction
import Mathlib.Data.List.Sort

/-! The leaders of groups: a list in falling order of a key, and of it the first element of each group.
An element leads its group when no element ahead of it is of the group, and its place is the number of
groups that have an element ahead.
-/

set_option autoImplicit false

namespace C3po.Library

section First
variable {A I : Type} [DecidableEq I] (group : A → I)

def keepFirst (kept : List A) (item : A) : List A :=
  if kept.any fun other => group other = group item then kept else kept ++ [item]

def firstOfEach (items : List A) : List A := items.foldl (keepFirst group) []

theorem firstOfEach_concat (items : List A) (item : A) : firstOfEach group (items ++ [item]) = keepFirst group (firstOfEach group items) item := by
  unfold firstOfEach
  rw [List.foldl_append]
  rfl

theorem firstOfEach_sublist (items : List A) : (firstOfEach group items).Sublist items := by
  induction items using List.reverseRecOn with
  | nil => exact List.Sublist.refl _
  | append_singleton items item ih =>
    rw [firstOfEach_concat]
    unfold keepFirst
    split
    · exact ih.trans (List.sublist_append_left _ _)
    · exact ih.append (List.Sublist.refl _)

theorem mem_groups (items : List A) (one : I) : one ∈ (firstOfEach group items).map group ↔ one ∈ items.map group := by
  induction items using List.reverseRecOn with
  | nil => exact Iff.rfl
  | append_singleton items item ih =>
    rw [firstOfEach_concat, List.map_append, List.mem_append, ← ih]
    unfold keepFirst
    split
    · rename_i seen
      obtain ⟨other, here, same⟩ := List.any_eq_true.mp seen
      refine (or_iff_left_of_imp fun last => ?_).symm
      rw [List.mem_singleton.mp last, ← of_decide_eq_true same]
      exact List.mem_map_of_mem here
    · rw [List.map_append, List.mem_append]

theorem groups_nodup (items : List A) : ((firstOfEach group items).map group).Nodup := by
  induction items using List.reverseRecOn with
  | nil => exact List.nodup_nil
  | append_singleton items item ih =>
    rw [firstOfEach_concat]
    unfold keepFirst
    split
    · exact ih
    · rename_i fresh
      rw [List.map_append]
      refine List.nodup_append.mpr ⟨ih, List.nodup_singleton _, ?_⟩
      intro one seen other last same
      obtain ⟨kept, here, rfl⟩ := List.mem_map.mp seen
      exact fresh (List.any_eq_true.mpr ⟨kept, here, decide_eq_true (same.trans (List.mem_singleton.mp last))⟩)

theorem firstOfEach_append (first last : List A) : ∃ rest, firstOfEach group (first ++ last) = firstOfEach group first ++ rest := by
  induction last using List.reverseRecOn with
  | nil => exact ⟨[], by rw [List.append_nil, List.append_nil]⟩
  | append_singleton last item ih =>
    obtain ⟨rest, same⟩ := ih
    rw [← List.append_assoc, firstOfEach_concat, same]
    unfold keepFirst
    split
    · exact ⟨rest, rfl⟩
    · exact ⟨rest ++ [item], List.append_assoc _ _ _⟩

theorem firstOfEach_cons {first last : List A} {item : A} (fresh : group item ∉ first.map group) :
    ∃ rest, firstOfEach group (first ++ item :: last) = firstOfEach group first ++ item :: rest := by
  obtain ⟨rest, same⟩ := firstOfEach_append group (first ++ [item]) last
  have kept : keepFirst group (firstOfEach group first) item = firstOfEach group first ++ [item] := by
    unfold keepFirst
    refine if_neg fun seen => fresh ((mem_groups group first _).mp ?_)
    obtain ⟨other, here, equal⟩ := List.any_eq_true.mp seen
    exact of_decide_eq_true equal ▸ List.mem_map_of_mem here
  rw [firstOfEach_concat, kept] at same
  exact ⟨rest, by simpa using same⟩

theorem length_firstOfEach (items : List A) : (firstOfEach group items).length = (items.map group).dedup.length := by
  have same : ((firstOfEach group items).map group).Perm (items.map group).dedup :=
    (List.perm_ext_iff_of_nodup (groups_nodup group items) (List.nodup_dedup _)).mpr fun one => by rw [mem_groups, List.mem_dedup]
  rw [← same.length_eq, List.length_map]

end First

section Falling
variable {A K : Type} [LinearOrder K] (key : A → K)

/-- A list in falling order of a key; elements of equal keys keep their order. -/
def falling (items : List A) : List A := items.insertionSort fun first second => key second ≤ key first

theorem mem_falling {items : List A} {item : A} : item ∈ falling key items ↔ item ∈ items := List.mem_insertionSort _

theorem falling_sorted (items : List A) : (falling key items).Pairwise fun first second => key second ≤ key first := by
  have : Std.Total fun first second : A => key second ≤ key first := ⟨fun first second => le_total _ _⟩
  have : IsTrans A fun first second : A => key second ≤ key first := ⟨fun first second third later earlier => earlier.trans later⟩
  exact List.pairwise_insertionSort _ items

end Falling

section Leaders
variable {A I K : Type} [DecidableEq I] [LinearOrder K] (group : A → I) (key : A → K)

def leaders (items : List A) : List A := firstOfEach group (falling key items)

/-- No element of its group is ahead of an element. -/
def Leads (items : List A) (item : A) : Prop := ∃ first last, falling key items = first ++ item :: last ∧ group item ∉ first.map group

/-- An element leads its group, and fewer groups than the limit have an element ahead of it. -/
def Placed (limit : ℕ) (items : List A) (item : A) : Prop :=
  ∃ first last, falling key items = first ++ item :: last ∧ group item ∉ first.map group ∧ (first.map group).dedup.length < limit

theorem leaders_subset {items : List A} {item : A} (here : item ∈ leaders group key items) : item ∈ items :=
  (mem_falling key).mp ((firstOfEach_sublist group _).subset here)

theorem leaders_falling (items : List A) : falling key (leaders group key items) = leaders group key items :=
  ((falling_sorted key items).sublist (firstOfEach_sublist group _)).insertionSort_eq

theorem mem_take_leaders {limit : ℕ} {items : List A} {item : A} (distinct : items.Nodup) :
    item ∈ (leaders group key items).take limit ↔ Placed group key limit items item := by
  have places {first last : List A} (split : falling key items = first ++ item :: last) :
      item ∈ (leaders group key items).take limit ↔ group item ∉ first.map group ∧ (first.map group).dedup.length < limit := by
    have once : item ∉ first := by
      have nodup : (first ++ item :: last).Nodup := split ▸ (List.perm_insertionSort _ items).nodup_iff.mpr distinct
      exact fun early => (List.nodup_append.mp nodup).2.2 item early item List.mem_cons_self rfl
    unfold leaders
    rw [← length_firstOfEach, split]
    by_cases fresh : group item ∈ first.map group
    · refine iff_of_false (fun taken => ?_) fun led => led.1 fresh
      obtain ⟨rest, parts⟩ := firstOfEach_append group first (item :: last)
      have nodup := groups_nodup group (first ++ item :: last)
      have mem := List.mem_of_mem_take taken
      rw [parts] at mem nodup
      obtain early | late := List.mem_append.mp mem
      · exact once ((firstOfEach_sublist group first).subset early)
      · rw [List.map_append] at nodup
        exact (List.nodup_append.mp nodup).2.2 _ ((mem_groups group first _).mpr fresh) _ (List.mem_map_of_mem late) rfl
    · obtain ⟨rest, parts⟩ := @firstOfEach_cons _ _ _ group _ last _ fresh
      have early : item ∉ (firstOfEach group first).take limit := fun taken =>
        once ((firstOfEach_sublist group first).subset (List.mem_of_mem_take taken))
      rw [parts, List.take_append, List.mem_append, or_iff_right early, and_iff_right fresh]
      cases room : limit - (firstOfEach group first).length with
      | zero => exact iff_of_false List.not_mem_nil (by omega)
      | succ more => exact iff_of_true List.mem_cons_self (by omega)
  constructor
  · intro taken
    obtain ⟨first, last, split⟩ := List.append_of_mem ((firstOfEach_sublist group _).subset (List.mem_of_mem_take taken))
    exact ⟨first, last, split, (places split).mp taken⟩
  · rintro ⟨first, last, split, placed⟩
    exact (places split).mpr placed

theorem mem_leaders {items : List A} {item : A} (distinct : items.Nodup) : item ∈ leaders group key items ↔ Leads group key items item := by
  constructor
  · intro here
    rw [← List.take_length (l := leaders group key items), mem_take_leaders group key distinct] at here
    obtain ⟨first, last, split, led, -⟩ := here
    exact ⟨first, last, split, led⟩
  · rintro ⟨first, last, split, led⟩
    exact List.mem_of_mem_take ((mem_take_leaders group key distinct).mpr ⟨first, last, split, led, Nat.lt_succ_self _⟩)

end Leaders

end C3po.Library
