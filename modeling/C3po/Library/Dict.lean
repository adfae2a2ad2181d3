import Mathlib.Data.List.Nodup
import Mathlib.Algebra.BigOperators.Group.List.Basic
import Mathlib.Tactic.Abel

/-! Dictionaries in insertion order.

The entries of a dictionary are a list in which no key occurs twice. Writing to a
present key keeps its place, writing to a new key appends it, and removing a key
keeps the order of the others. Sums over the entries follow the three operations.
-/

set_option autoImplicit false

namespace C3po.Library

/-- A finite map that remembers the order in which its keys came. -/
structure Dict (K V : Type) where
  entries : List (K × V)
  distinct : (entries.map Prod.fst).Nodup

namespace Dict

section Lists
variable {K V : Type} [DecidableEq K]

def find (wanted : K) : List (K × V) → Option V
  | [] => none
  | (key, value) :: rest => if key = wanted then some value else find wanted rest

def put (wanted : K) (value : V) : List (K × V) → List (K × V)
  | [] => [(wanted, value)]
  | (key, old) :: rest =>
      if key = wanted then (key, value) :: rest else (key, old) :: put wanted value rest

def drop (unwanted : K) (entries : List (K × V)) : List (K × V) :=
  entries.filter fun entry => entry.1 ≠ unwanted

theorem mem_keys_put {wanted key : K} {value : V} {entries : List (K × V)} :
    key ∈ (put wanted value entries).map Prod.fst ↔ key = wanted ∨ key ∈ entries.map Prod.fst := by
  induction entries with
  | nil => simp [put]
  | cons head tail ih =>
    obtain ⟨first, old⟩ := head
    by_cases same : first = wanted
    · subst same
      simp [put]
    · simp only [put, same, if_false, List.map_cons, List.mem_cons, ih]
      tauto

theorem distinct_put {wanted : K} {value : V} {entries : List (K × V)}
    (distinct : (entries.map Prod.fst).Nodup) :
    ((put wanted value entries).map Prod.fst).Nodup := by
  induction entries with
  | nil => simp [put]
  | cons head tail ih =>
    obtain ⟨first, old⟩ := head
    rw [List.map_cons, List.nodup_cons] at distinct
    by_cases same : first = wanted
    · subst same
      simp only [put, if_true, List.map_cons, List.nodup_cons]
      exact distinct
    · simp only [put, same, if_false, List.map_cons, List.nodup_cons, mem_keys_put, false_or]
      exact ⟨distinct.1, ih distinct.2⟩

/-- Writing what is there changes nothing. -/
theorem put_same {wanted : K} {value : V} {entries : List (K × V)} (found : find wanted entries = some value) :
    put wanted value entries = entries := by
  induction entries with
  | nil => cases found
  | cons head tail ih =>
    obtain ⟨key, old⟩ := head
    unfold find at found
    unfold put
    split at found
    · rename_i same
      cases found
      rw [if_pos same]
    · rename_i apart
      rw [if_neg apart, ih found]

theorem filter_put (chosen : K → Bool) {wanted : K} (kept : chosen wanted) (value : V) (entries : List (K × V)) :
    (put wanted value entries).filter (fun entry => chosen entry.1) = put wanted value (entries.filter fun entry => chosen entry.1) := by
  induction entries with
  | nil => simp [put, kept]
  | cons head tail ih =>
    obtain ⟨key, old⟩ := head
    by_cases same : key = wanted
    · subst same
      simp [put, kept]
    · cases keeps : chosen key with
      | true => simp [put, same, keeps, ih]
      | false => simp [put, same, keeps, ih]

theorem countP_put_le {chosen : K × V → Bool} {wanted : K} {old new : V} {entries : List (K × V)} (found : find wanted entries = some old)
    (same : chosen (wanted, new) = true → chosen (wanted, old) = true) :
    (put wanted new entries).countP chosen ≤ entries.countP chosen := by
  induction entries with
  | nil => cases found
  | cons head tail ih =>
    obtain ⟨key, value⟩ := head
    unfold find at found
    unfold put
    split at found
    · rename_i own
      cases found
      rw [if_pos own, List.countP_cons, List.countP_cons, own]
      by_cases counts : chosen (wanted, new) = true
      · rw [if_pos counts, if_pos (same counts)]
      · rw [if_neg counts]
        omega
    · rename_i apart
      rw [if_neg apart, List.countP_cons, List.countP_cons]
      exact Nat.add_le_add_right (ih found) _

theorem distinct_drop {unwanted : K} {entries : List (K × V)}
    (distinct : (entries.map Prod.fst).Nodup) :
    ((drop unwanted entries).map Prod.fst).Nodup :=
  distinct.sublist (List.filter_sublist.map _)

theorem find_put (wanted key : K) (value : V) (entries : List (K × V)) :
    find key (put wanted value entries) = if key = wanted then some value else find key entries := by
  induction entries with
  | nil => simp [put, find, eq_comm]
  | cons head tail ih =>
    obtain ⟨first, old⟩ := head
    by_cases same : first = wanted
    · subst same
      by_cases here : first = key <;> simp [put, find, here, eq_comm]
      simp [Ne.symm here]
    · by_cases here : first = key
      · subst here
        simp [put, find, same]
      · simp only [put, find, same, here, if_false, ih]

theorem find_drop (unwanted key : K) (entries : List (K × V)) :
    find key (drop unwanted entries) = if key = unwanted then none else find key entries := by
  induction entries with
  | nil => simp [drop, find]
  | cons head tail ih =>
    obtain ⟨first, old⟩ := head
    unfold drop at ih ⊢
    by_cases same : first = unwanted
    · subst same
      by_cases here : key = first
      · simpa [here, List.filter_cons] using ih
      · simpa [List.filter_cons, find, Ne.symm here, here] using ih
    · by_cases here : first = key
      · subst here
        simp [find, same]
      · simpa [List.filter_cons, same, find, here] using ih

theorem mem_of_find {key : K} {value : V} {entries : List (K × V)}
    (found : find key entries = some value) : (key, value) ∈ entries := by
  induction entries with
  | nil => simp [find] at found
  | cons head tail ih =>
    obtain ⟨first, old⟩ := head
    by_cases here : first = key
    · simp only [find, here, if_true, Option.some.injEq] at found
      simp [here, found]
    · simp only [find, here, if_false] at found
      exact List.mem_cons_of_mem _ (ih found)

theorem find_of_mem {key : K} {value : V} {entries : List (K × V)}
    (distinct : (entries.map Prod.fst).Nodup) (member : (key, value) ∈ entries) :
    find key entries = some value := by
  induction entries with
  | nil => cases member
  | cons head tail ih =>
    obtain ⟨first, old⟩ := head
    rw [List.map_cons, List.nodup_cons] at distinct
    rcases List.mem_cons.mp member with same | later
    · obtain ⟨rfl, rfl⟩ := Prod.mk.injEq .. ▸ same
      simp [find]
    · have apart : first ≠ key := fun same =>
        distinct.1 (List.mem_map.mpr ⟨(key, value), later, same.symm⟩)
      simpa [find, apart] using ih distinct.2 later

theorem find_isSome {key : K} {entries : List (K × V)} :
    (find key entries).isSome ↔ key ∈ entries.map Prod.fst := by
  induction entries with
  | nil => simp [find]
  | cons head tail ih =>
    obtain ⟨first, old⟩ := head
    by_cases here : first = key
    · simp [find, here]
    · simp only [find, here, if_false, ih, List.map_cons, List.mem_cons, Ne.symm here, false_or]

end Lists

variable {K V : Type} [DecidableEq K]

instance [DecidableEq V] : DecidableEq (Dict K V) := fun first second =>
  decidable_of_iff (first.entries = second.entries)
    ⟨fun same => by cases first; cases second; cases same; rfl, fun same => congrArg entries same⟩

def empty : Dict K V := ⟨[], List.nodup_nil⟩

def get? (dict : Dict K V) (key : K) : Option V := find key dict.entries

def getD (dict : Dict K V) (key : K) (default : V) : V := (dict.get? key).getD default

def keys (dict : Dict K V) : List K := dict.entries.map Prod.fst

def contains (dict : Dict K V) (key : K) : Bool := (dict.get? key).isSome

def insert (dict : Dict K V) (key : K) (value : V) : Dict K V :=
  ⟨put key value dict.entries, distinct_put dict.distinct⟩

def erase (dict : Dict K V) (key : K) : Dict K V :=
  ⟨drop key dict.entries, distinct_drop dict.distinct⟩

omit [DecidableEq K] in
theorem mapValues_keys (change : V → V) (entries : List (K × V)) :
    (entries.map fun entry => (entry.1, change entry.2)).map Prod.fst = entries.map Prod.fst := by
  rw [List.map_map]
  rfl

omit [DecidableEq K] in
def mapValues (dict : Dict K V) (change : V → V) : Dict K V :=
  ⟨dict.entries.map fun entry => (entry.1, change entry.2),
    (mapValues_keys change dict.entries).symm ▸ dict.distinct⟩

def size (dict : Dict K V) : ℕ := dict.entries.length

variable (dict : Dict K V) (key wanted : K) (value : V)

@[simp] theorem get?_mapValues (change : V → V) :
    (dict.mapValues change).get? key = (dict.get? key).map change := by
  obtain ⟨entries, distinct⟩ := dict
  unfold mapValues get?
  simp only
  clear distinct
  induction entries with
  | nil => rfl
  | cons head tail ih =>
    obtain ⟨first, old⟩ := head
    simp only [List.map_cons, find]
    split
    · rfl
    · exact ih

@[simp] theorem get?_empty : (empty : Dict K V).get? key = none := rfl

@[simp] theorem get?_insert : (dict.insert wanted value).get? key =
    if key = wanted then some value else dict.get? key := find_put ..

@[simp] theorem get?_erase : (dict.erase wanted).get? key =
    if key = wanted then none else dict.get? key := find_drop ..

@[simp] theorem getD_empty : (empty : Dict K V).getD key value = value := rfl

@[simp] theorem getD_insert (default : V) : (dict.insert wanted value).getD key default =
    if key = wanted then value else dict.getD key default := by
  unfold getD
  rw [get?_insert]
  split <;> rfl

theorem mem_entries {dict : Dict K V} {key : K} {value : V} :
    (key, value) ∈ dict.entries ↔ dict.get? key = some value :=
  ⟨find_of_mem dict.distinct, mem_of_find⟩

theorem mem_keys {dict : Dict K V} {key : K} : key ∈ dict.keys ↔ (dict.get? key).isSome :=
  find_isSome.symm

omit [DecidableEq K] in
theorem keys_nodup : dict.keys.Nodup := dict.distinct

theorem get?_of_not_mem {dict : Dict K V} {key : K} (absent : key ∉ dict.keys) :
    dict.get? key = none := by
  simpa [mem_keys] using absent

section Rebuild

omit dict key wanted value in
theorem put_absent {key : K} {value : V} {entries : List (K × V)} (absent : key ∉ entries.map Prod.fst) :
    put key value entries = entries ++ [(key, value)] := by
  induction entries with
  | nil => rfl
  | cons head tail ih =>
    obtain ⟨first, old⟩ := head
    rw [List.map_cons, List.mem_cons, not_or] at absent
    simp only [put, Ne.symm absent.1, if_false, ih absent.2, List.cons_append]

theorem entries_foldl_insert (keyOf : V → K) (values : List V) (dict : Dict K V)
    (distinct : (dict.keys ++ values.map keyOf).Nodup) :
    (values.foldl (fun dict value => dict.insert (keyOf value) value) dict).entries =
      dict.entries ++ values.map fun value => (keyOf value, value) := by
  induction values generalizing dict with
  | nil => simp
  | cons value rest ih =>
    have absent : keyOf value ∉ dict.keys := by
      intro member
      exact (List.nodup_append.mp distinct).2.2 _ member _ (by simp) rfl
    have written : (dict.insert (keyOf value) value).entries = dict.entries ++ [(keyOf value, value)] :=
      put_absent absent
    have keys : (dict.insert (keyOf value) value).keys = dict.keys ++ [keyOf value] := by
      simp [Dict.keys, written]
    rw [List.foldl_cons, ih _ (by rw [keys]; simpa using distinct), written]
    simp

theorem foldl_insert_values (keyOf : V → K) (dict : Dict K V)
    (keyed : ∀ entry ∈ dict.entries, keyOf entry.2 = entry.1) :
    (dict.entries.map Prod.snd).foldl (fun dict value => dict.insert (keyOf value) value) empty = dict := by
  have names : (dict.entries.map Prod.snd).map keyOf = dict.entries.map Prod.fst := by
    rw [List.map_map]
    exact List.map_congr_left keyed
  have rebuilt := entries_foldl_insert keyOf (dict.entries.map Prod.snd) empty (by
    rw [names]
    exact dict.distinct)
  obtain ⟨entries, distinct⟩ := dict
  have pairs : (entries.map Prod.snd).map (fun value => (keyOf value, value)) = entries := by
    rw [List.map_map]
    conv_rhs => rw [← List.map_id entries]
    refine List.map_congr_left fun entry member => ?_
    exact Prod.ext (keyed entry member) rfl
  simp only at rebuilt ⊢
  cases whole : (entries.map Prod.snd).foldl (fun dict value => dict.insert (keyOf value) value)
    (empty : Dict K V) with
  | mk found foundDistinct =>
  rw [whole] at rebuilt
  simp only [pairs] at rebuilt
  cases rebuilt
  rfl

end Rebuild

section Totals
variable {M : Type} [AddCommGroup M] (weight : K → V → M)

def total (dict : Dict K V) : M := (dict.entries.map fun entry => weight entry.1 entry.2).sum

variable {dict key value} {old : V}

theorem sum_put (fresh : key ∉ dict.keys) :
    ((put key value dict.entries).map fun entry => weight entry.1 entry.2).sum =
      dict.total weight + weight key value := by
  obtain ⟨entries, distinct⟩ := dict
  unfold keys at fresh
  unfold total
  simp only at fresh ⊢
  clear distinct
  induction entries with
  | nil => simp [put]
  | cons head tail ih =>
    obtain ⟨first, old⟩ := head
    rw [List.map_cons, List.mem_cons, not_or] at fresh
    have apart : first ≠ key := fun same => fresh.1 same.symm
    simp only [put, apart, if_false, List.map_cons, List.sum_cons, ih fresh.2]
    abel

theorem sum_drop {entries : List (K × V)} (distinct : (entries.map Prod.fst).Nodup)
    (found : find key entries = some value) :
    ((drop key entries).map fun entry => weight entry.1 entry.2).sum + weight key value =
      (entries.map fun entry => weight entry.1 entry.2).sum := by
  induction entries with
  | nil => simp [find] at found
  | cons head tail ih =>
    obtain ⟨first, old⟩ := head
    rw [List.map_cons, List.nodup_cons] at distinct
    by_cases here : first = key
    · subst here
      have same : old = value := by simpa [find] using found
      have kept : drop first tail = tail := List.filter_eq_self.mpr fun entry member =>
        decide_eq_true fun hit => distinct.1 (List.mem_map.mpr ⟨entry, member, hit⟩)
      have rest : drop first ((first, old) :: tail) = tail := by
        simpa [drop, List.filter_cons] using kept
      rw [rest, List.map_cons, List.sum_cons, same]
      abel
    · have later : drop key ((first, old) :: tail) = (first, old) :: drop key tail := by
        simp [drop, here]
      have foundLater : find key tail = some value := by simpa [find, here] using found
      rw [later, List.map_cons, List.map_cons, List.sum_cons, List.sum_cons, add_assoc,
        ih distinct.2 foundLater]

theorem total_insert_new (absent : dict.get? key = none) :
    (dict.insert key value).total weight = dict.total weight + weight key value :=
  sum_put weight fun member => by simp [mem_keys, absent] at member

theorem total_erase (found : dict.get? key = some value) :
    (dict.erase key).total weight = dict.total weight - weight key value :=
  eq_sub_of_add_eq (sum_drop weight dict.distinct found)

theorem total_insert (found : dict.get? key = some old) :
    (dict.insert key value).total weight = dict.total weight - weight key old + weight key value := by
  obtain ⟨entries, distinct⟩ := dict
  unfold get? at found
  unfold total insert
  simp only at found ⊢
  clear distinct
  induction entries with
  | nil => simp [find] at found
  | cons head tail ih =>
    obtain ⟨first, held⟩ := head
    by_cases here : first = key
    · subst here
      have same : held = old := by simpa [find] using found
      simp only [put, if_true, List.map_cons, List.sum_cons, same]
      abel
    · have later : find key tail = some old := by simpa [find, here] using found
      simp only [put, here, if_false, List.map_cons, List.sum_cons, ih later]
      abel

omit [DecidableEq K] in
theorem size_eq_total : (dict.size : ℤ) = dict.total fun _ _ => (1 : ℤ) := by
  unfold size total
  induction dict.entries with
  | nil => rfl
  | cons head tail ih => simp [Int.add_comm]

theorem size_insert_new (absent : dict.get? key = none) : (dict.insert key value).size = dict.size + 1 := by
  have total : (dict.insert key value).total (fun _ _ => (1 : ℤ)) = _ := total_insert_new _ absent
  rw [← size_eq_total, ← size_eq_total] at total
  omega

theorem size_insert (found : dict.get? key = some old) : (dict.insert key value).size = dict.size := by
  have total : (dict.insert key value).total (fun _ _ => (1 : ℤ)) = _ := total_insert _ found
  rw [← size_eq_total, ← size_eq_total] at total
  omega

theorem size_erase_le (found : dict.get? key = some old) : (dict.erase key).size ≤ dict.size := by
  have total := total_erase (fun _ _ => (1 : ℤ)) found
  rw [← size_eq_total, ← size_eq_total] at total
  omega

omit [DecidableEq K] in
theorem total_mapValues (change : V → V) :
    (dict.mapValues change).total weight = dict.total fun key value => weight key (change value) := by
  unfold total mapValues
  rw [List.map_map]
  rfl

theorem total_over {names : List K} (nodup : names.Nodup) (cover : ∀ key ∈ dict.keys, key ∈ names) :
    dict.total weight = (names.map fun name => (dict.get? name).elim 0 (weight name)).sum := by
  induction names generalizing dict with
  | nil =>
    have none : dict.entries = [] := by
      have noKeys := List.eq_nil_iff_forall_not_mem.mpr fun key member => nomatch cover key member
      simpa [keys] using noKeys
    simp [total, none]
  | cons name rest ih =>
    rw [List.nodup_cons] at nodup
    have others : ∀ key ∈ (dict.erase name).keys, key ∈ rest := by
      intro key member
      have apart : key ≠ name := by
        rintro rfl
        simp [mem_keys] at member
      have kept : key ∈ dict.keys := by simpa [mem_keys, apart] using member
      exact (List.mem_cons.mp (cover key kept)).resolve_left apart
    have same : ∀ other ∈ rest, ((dict.erase name).get? other).elim 0 (weight other) =
        (dict.get? other).elim 0 (weight other) := by
      intro other member
      have apart : other ≠ name := fun same => nodup.1 (same ▸ member)
      simp [apart]
    have tail := @ih (dict.erase name) nodup.2 others
    rw [List.map_congr_left same] at tail
    rw [List.map_cons, List.sum_cons, ← tail]
    cases found : dict.get? name with
    | none =>
      have kept : dict.erase name = dict := by
        have all : drop name dict.entries = dict.entries := List.filter_eq_self.mpr fun entry member =>
          decide_eq_true fun hit => by
            have : name ∈ dict.keys := List.mem_map.mpr ⟨entry, member, hit⟩
            simp [mem_keys, found] at this
        simp only [erase, all]
      simp [kept]
    | some value =>
      rw [total_erase weight found]
      simp

theorem sum_by_name {A : Type} (nameOf : A → K) (share : A → M) {items : List A} {names : List K}
    (nodup : names.Nodup) (cover : ∀ item ∈ items, nameOf item ∈ names) :
    (items.map share).sum =
      (names.map fun name => ((items.filter fun item => nameOf item = name).map share).sum).sum := by
  induction items with
  | nil => simp
  | cons item rest ih =>
    have split : ∀ name, (((item :: rest).filter fun item => nameOf item = name).map share).sum =
        (if nameOf item = name then share item else 0) +
          ((rest.filter fun item => nameOf item = name).map share).sum := by
      intro name
      by_cases own : nameOf item = name <;> simp [own]
    have once : (names.map fun name => if nameOf item = name then share item else 0).sum =
        share item := by
      simp only [eq_comm (a := nameOf item)]
      rw [List.sum_map_ite_eq, List.count_eq_one_of_mem nodup (cover item (by simp)), one_nsmul]
      simp
    simp only [split, List.sum_map_add, once, List.map_cons, List.sum_cons,
      ih fun other member => cover other (by simp [member])]

end Totals

theorem find?_entries : (dict.entries.find? fun entry => entry.1 = key).map Prod.snd = dict.get? key := by
  obtain ⟨entries, distinct⟩ := dict
  unfold get?
  simp only
  clear distinct
  induction entries with
  | nil => rfl
  | cons head tail ih =>
    obtain ⟨first, old⟩ := head
    by_cases here : first = key <;> simp [find, here, ih]

section Sorting
variable (before : K × V → K × V → Bool)

omit [DecidableEq K] in
theorem distinct_mergeSort : ((dict.entries.mergeSort before).map Prod.fst).Nodup :=
  ((List.mergeSort_perm dict.entries before).map Prod.fst).nodup_iff.mpr dict.distinct

omit [DecidableEq K] in
/-- The same entries in another order. -/
def sorted : Dict K V := ⟨dict.entries.mergeSort before, dict.distinct_mergeSort before⟩

@[simp] theorem get?_sorted : (dict.sorted before).get? key = dict.get? key := by
  apply Option.ext
  intro value
  rw [← Option.mem_def, ← Option.mem_def, Option.mem_def, Option.mem_def, ← mem_entries, ← mem_entries]
  exact List.mem_mergeSort

end Sorting

section Folds
variable {A : Type} (key : A → K) (change : A → Option V → V)

theorem get?_foldl (items : List A) (dict : Dict K V) (wanted : K) :
    (items.foldl (fun dict item => dict.insert (key item) (change item (dict.get? (key item)))) dict).get?
        wanted =
      (items.filter fun item => key item = wanted).foldl (fun value item => some (change item value))
        (dict.get? wanted) := by
  induction items generalizing dict with
  | nil => rfl
  | cons item rest ih =>
    rw [List.foldl_cons, ih]
    by_cases here : key item = wanted
    · subst here
      simp
    · simp [here, Ne.symm here]

theorem get?_foldl_first (entries : List (K × V)) (dict : Dict K V) (wanted : K) :
    (entries.foldl (fun dict entry => if dict.contains entry.1 then dict else dict.insert entry.1 entry.2) dict).get?
        wanted =
      (dict.get? wanted).or ((entries.find? fun entry => entry.1 = wanted).map Prod.snd) := by
  induction entries generalizing dict with
  | nil => simp
  | cons entry rest ih =>
    rw [List.foldl_cons, ih, List.find?_cons]
    by_cases here : entry.1 = wanted
    · subst here
      rw [decide_eq_true rfl, contains]
      cases held : dict.get? entry.1 with
      | none => simp
      | some value => simp [held]
    · rw [decide_eq_false here]
      split
      · rfl
      · rw [get?_insert, if_neg (Ne.symm here)]

omit key change in
theorem get?_foldl_insert {P : V → Prop} (keyOf : V → K) {values : List V} {dict : Dict K V}
    (start : ∀ key value, dict.get? key = some value → P value) (each : ∀ value ∈ values, P value)
    {wanted : K} {value : V}
    (found : (values.foldl (fun dict value => dict.insert (keyOf value) value) dict).get? wanted = some value) :
    P value := by
  induction values generalizing dict with
  | nil => exact start wanted value found
  | cons first rest ih =>
    refine ih (fun key other held => ?_) (fun other member => each other (List.mem_cons_of_mem _ member)) found
    rw [get?_insert] at held
    split at held
    · cases held
      exact each first List.mem_cons_self
    · exact start key other held

end Folds

end Dict
end C3po.Library
