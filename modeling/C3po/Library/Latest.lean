import Mathlib.Data.List.Induction
import Mathlib.Order.Lattice
import C3po.Library.Dict

/-! The latest element of a list by a clock: the first one no other is later than. -/

set_option autoImplicit false

namespace C3po.Library

variable {A K : Type} [LinearOrder K]

def latest (clock : A → K) : List A → Option A
  | [] => none
  | first :: rest =>
      match latest clock rest with
      | none => some first
      | some best => if clock first < clock best then some best else some first

variable {clock : A → K}

theorem latest_none {items : List A} : latest clock items = none ↔ items = [] := by
  cases items with
  | nil => exact ⟨fun _ => rfl, fun _ => rfl⟩
  | cons first rest =>
    simp only [latest]
    split
    · simp
    · split <;> simp

theorem latest_spec {items : List A} {best : A} (found : latest clock items = some best) :
    best ∈ items ∧ ∀ item ∈ items, clock item ≤ clock best := by
  induction items generalizing best with
  | nil => cases found
  | cons first rest ih =>
    simp only [latest] at found
    split at found
    · rename_i none
      cases found
      simp [latest_none.mp none]
    · rename_i other otherFound
      obtain ⟨member, bound⟩ := ih otherFound
      split at found
      · rename_i before
        cases found
        refine ⟨List.mem_cons_of_mem _ member, fun item itemIn => ?_⟩
        rcases List.mem_cons.mp itemIn with rfl | later
        · exact before.le
        · exact bound item later
      · rename_i notBefore
        cases found
        refine ⟨List.mem_cons_self, fun item itemIn => ?_⟩
        rcases List.mem_cons.mp itemIn with rfl | later
        · exact le_rfl
        · exact (bound item later).trans (not_lt.mp notBefore)

theorem latest_reverse_snoc {items : List A} {last : A} (above : ∀ item ∈ items, clock item ≤ clock last) :
    latest clock (items ++ [last]).reverse = some last := by
  rw [List.reverse_append, List.reverse_singleton, List.singleton_append]
  cases found : latest clock items.reverse with
  | none => simp only [latest, found]
  | some best =>
    have bound := above best (List.mem_reverse.mp (latest_spec found).1)
    simp only [latest, found, if_neg (not_lt.mpr bound)]

theorem latest_reverse_split {items : List A} {best : A} (found : latest clock items.reverse = some best) :
    ∃ front back, items = front ++ best :: back ∧ (∀ item ∈ front, clock item ≤ clock best) ∧
      ∀ item ∈ back, clock item < clock best := by
  induction items using List.reverseRecOn generalizing best with
  | nil => cases found
  | append_singleton items last ih =>
    rw [List.reverse_append, List.reverse_singleton, List.singleton_append] at found
    simp only [latest] at found
    split at found
    · rename_i none
      cases found
      have empty : items = [] := by simpa using latest_none.mp none
      exact ⟨[], [], by simp [empty], by simp, by simp⟩
    · rename_i other otherFound
      obtain ⟨front, back, rfl, early, late⟩ := ih otherFound
      split at found
      · rename_i before
        cases found
        refine ⟨front, back ++ [last], by simp, early, fun item member => ?_⟩
        rcases List.mem_append.mp member with old | new
        · exact late item old
        · rw [List.mem_singleton.mp new]
          exact before
      · rename_i notBefore
        cases found
        refine ⟨front ++ other :: back, [], by simp, fun item member => ?_, by simp⟩
        exact ((latest_spec otherFound).2 item (List.mem_reverse.mpr member)).trans (not_lt.mp notBefore)

theorem latest_eq {items : List A} {best : A} (member : best ∈ items)
    (above : ∀ item ∈ items, item ≠ best → clock item < clock best) : latest clock items = some best := by
  cases found : latest clock items with
  | none => rw [latest_none.mp found] at member; cases member
  | some value =>
    obtain ⟨valueIn, bound⟩ := latest_spec found
    by_contra apart
    have other : value ≠ best := fun same => apart (congrArg some same)
    exact absurd (above value valueIn other) (not_lt.mpr (bound best member))

end C3po.Library

/-! The newest item of each key, as a loop keeps it: of equally new ones, the first.

What the loop keeps of a key is the latest of that key's items. It does not depend on the
order of the items where no two of one key are equally new.
-/

namespace C3po.Library

variable {K V T : Type} [DecidableEq K] [LinearOrder T]

section Loop
variable (clock : V → T)

def Dict.keepNewest (dict : Dict K V) (key : K) (value : V) : Dict K V :=
  match dict.get? key with
  | none => dict.insert key value
  | some kept => if clock kept < clock value then dict.insert key value else dict

def newest (items : List (K × V)) : Dict K V :=
  items.foldl (fun dict item => dict.keepNewest clock item.1 item.2) Dict.empty

def valuesOf (items : List (K × V)) (key : K) : List V := (items.filter fun item => item.1 = key).map Prod.snd

end Loop

section Kept
variable {clock : V → T}

/-- What a value leaves of what was kept. -/
def newer (clock : V → T) (value : V) : Option V → V
  | none => value
  | some kept => if clock kept < clock value then value else kept

theorem keepNewest_eq (dict : Dict K V) (key : K) (value : V) :
    dict.keepNewest clock key value = dict.insert key (newer clock value (dict.get? key)) := by
  unfold Dict.keepNewest newer
  cases found : dict.get? key with
  | none => rfl
  | some kept =>
    simp only
    split
    · rfl
    · have same : Dict.put key kept dict.entries = dict.entries := Dict.put_same found
      obtain ⟨entries, distinct⟩ := dict
      simp only [Dict.insert, same]

theorem latest_newer (kept value : V) (rest : List V) :
    latest clock (newer clock value (some kept) :: rest) = latest clock (kept :: value :: rest) := by
  simp only [newer, latest]
  cases latest clock rest with
  | none =>
    by_cases later : clock kept < clock value
    · simp [later]
    · simp [later]
  | some best =>
    by_cases later : clock kept < clock value
    · by_cases last : clock value < clock best
      · simp [later, last, later.trans last]
      · simp [later, last]
    · by_cases last : clock value < clock best
      · simp [later, last]
      · have never : ¬clock kept < clock best := not_lt.mpr ((not_lt.mp last).trans (not_lt.mp later))
        simp [later, last, never]

theorem foldl_newer (values : List V) (kept : V) :
    values.foldl (fun kept value => some (newer clock value kept)) (some kept) = latest clock (kept :: values) := by
  induction values generalizing kept with
  | nil => rfl
  | cons value rest ih =>
    rw [List.foldl_cons, ih]
    exact latest_newer kept value rest

theorem newest_get? (items : List (K × V)) (key : K) :
    (newest clock items).get? key = latest clock (valuesOf items key) := by
  have inserted : newest clock items =
      items.foldl (fun dict item => dict.insert item.1 (newer clock item.2 (dict.get? item.1))) Dict.empty := by
    unfold newest
    congr 1
    funext dict item
    exact keepNewest_eq dict item.1 item.2
  rw [inserted, Dict.get?_foldl Prod.fst fun item kept => newer clock item.2 kept]
  unfold valuesOf
  rw [← List.foldl_map (f := Prod.snd) (g := fun kept value => some (newer clock value kept))]
  cases (items.filter fun item => item.1 = key).map Prod.snd with
  | nil => rfl
  | cons first rest => exact foldl_newer rest first

end Kept

section Order
variable {clock : V → T}

theorem latest_perm {values others : List V} (same : values.Perm others)
    (apart : ∀ value ∈ values, ∀ other ∈ values, clock value = clock other → value = other) :
    latest clock values = latest clock others := by
  cases found : latest clock values with
  | none =>
    have empty := latest_none.mp found
    subst empty
    rw [List.nil_perm.mp same]
    rfl
  | some best =>
    obtain ⟨member, above⟩ := latest_spec found
    symm
    apply latest_eq (same.subset member)
    intro value listed other
    have inside := same.symm.subset listed
    exact lt_of_le_of_ne (above value inside) fun equal => other (apart value inside best member equal)

/-- No two values of one key are equally new. -/
def Untied (clock : V → T) (items : List (K × V)) : Prop :=
  items.Pairwise fun item other => item.1 = other.1 → clock item.2 ≠ clock other.2

theorem newest_perm {items others : List (K × V)} (same : items.Perm others) (untied : Untied clock items) (key : K) :
    (newest clock items).get? key = (newest clock others).get? key := by
  rw [newest_get?, newest_get?]
  apply latest_perm ((same.filter _).map _)
  have weak : items.Pairwise fun item other => item.1 = other.1 → clock item.2 = clock other.2 → item = other :=
    untied.imp fun apart sameKey sameClock => absurd sameClock (apart sameKey)
  have flipped : items.Pairwise (flip fun item other => item.1 = other.1 → clock item.2 = clock other.2 → item = other) :=
    weak.imp fun apart sameKey sameClock => (apart sameKey.symm sameClock.symm).symm
  have every := weak.forall_of_forall_of_flip (fun _ _ _ _ => rfl) flipped
  intro value valueIn other otherIn sameClock
  obtain ⟨item, itemIn, rfl⟩ := List.mem_map.mp valueIn
  obtain ⟨next, nextIn, rfl⟩ := List.mem_map.mp otherIn
  obtain ⟨itemIn, itemKey⟩ := List.mem_filter.mp itemIn
  obtain ⟨nextIn, nextKey⟩ := List.mem_filter.mp nextIn
  simp only [decide_eq_true_eq] at itemKey nextKey
  rw [every itemIn nextIn (itemKey.trans nextKey.symm) sameClock]

theorem Dict.entries_perm {U : Type} {first : Dict K U} {second : Dict K V} {image : V → U}
    (same : ∀ key, first.get? key = (second.get? key).map image) :
    (second.entries.map fun entry => (entry.1, image entry.2)).Perm first.entries := by
  have distinct : ((second.entries.map fun entry => (entry.1, image entry.2)).map Prod.fst).Nodup := by
    rw [List.map_map]
    exact second.distinct
  refine (List.perm_ext_iff_of_nodup distinct.of_map first.distinct.of_map).mpr fun entry => ?_
  obtain ⟨key, value⟩ := entry
  rw [Dict.mem_entries, same, Option.map_eq_some_iff, List.mem_map]
  constructor
  · rintro ⟨⟨other, kept⟩, member, equal⟩
    cases equal
    exact ⟨kept, Dict.mem_entries.mp member, rfl⟩
  · rintro ⟨kept, found, rfl⟩
    exact ⟨(key, kept), Dict.mem_entries.mpr found, rfl⟩

end Order

section Image
variable {U : Type} {clock : V → T} {clockOf : U → T} {image : V → U}

theorem latest_map (clocks : ∀ value, clockOf (image value) = clock value) (values : List V) :
    latest clockOf (values.map image) = (latest clock values).map image := by
  induction values with
  | nil => rfl
  | cons first rest ih =>
    simp only [List.map_cons, latest, ih]
    cases latest clock rest with
    | none => rfl
    | some best =>
      simp only [Option.map_some, clocks]
      split <;> rfl

theorem newest_map (clocks : ∀ value, clockOf (image value) = clock value) (items : List (K × V)) (key : K) :
    (newest clockOf (items.map (Prod.map id image))).get? key = ((newest clock items).get? key).map image := by
  have values : valuesOf (items.map (Prod.map id image)) key = (valuesOf items key).map image := by
    unfold valuesOf
    rw [List.filter_map, List.map_map, List.map_map]
    rfl
  rw [newest_get?, newest_get?, values, latest_map clocks]

end Image
end C3po.Library
