import C3po.Library.Dict
import C3po.Library.StableSort
import Mathlib.Data.Finset.Card

/-! The newest values of a list, one for each time: of one time the last, and so many in all. -/

set_option autoImplicit false

namespace C3po.Library

variable {V T : Type} [LinearOrder T] (clock : V → T)

def lastOf (values : List V) (time : T) : Option V := values.reverse.find? fun value => clock value = time

/-- The values by their times, a later one in the place of an earlier. -/
def byClock (values : List V) : Dict T V := values.foldl (fun dict value => dict.insert (clock value) value) Dict.empty

/-- The newest values, newest first. -/
def retain (limit : ℕ) (values : List V) : List V :=
  (stableSort (fun value => OrderDual.toDual (clock value)) ((byClock clock values).entries.map Prod.snd)).take limit

def newerThan (values : List V) (time : T) : ℕ := ((values.map clock).toFinset.filter (time < ·)).card

section Last
variable {clock : V → T} {values others : List V} {time : T} {value : V}

theorem lastOf_append : lastOf clock (values ++ others) time = (lastOf clock others time).or (lastOf clock values time) := by
  unfold lastOf
  rw [List.reverse_append, List.find?_append]

theorem lastOf_some (found : lastOf clock values time = some value) : value ∈ values ∧ clock value = time := by
  refine ⟨List.mem_reverse.mp (List.mem_of_find?_eq_some found), ?_⟩
  simpa using List.find?_some found

theorem lastOf_isSome : (lastOf clock values time).isSome ↔ time ∈ values.map clock := by
  unfold lastOf
  rw [List.find?_isSome, List.mem_map]
  simp

theorem get?_byClock (values : List V) (time : T) : (byClock clock values).get? time = lastOf clock values time := by
  induction values using List.reverseRecOn with
  | nil => rfl
  | append_singleton rest value ih =>
    have step : byClock clock (rest ++ [value]) = (byClock clock rest).insert (clock value) value := by
      unfold byClock
      rw [List.foldl_append]
      rfl
    rw [step, Dict.get?_insert, lastOf_append, ih]
    by_cases here : clock value = time
    · simp [lastOf, here]
    · simp [lastOf, here, Ne.symm here]

end Last

section Order
variable {clock : V → T} {values others : List V} {time : T} {value : V} {limit : ℕ}

/-- The values one for each time, newest first. -/
def descending (clock : V → T) (values : List V) : List V :=
  stableSort (fun value => OrderDual.toDual (clock value)) ((byClock clock values).entries.map Prod.snd)

theorem mem_descending : value ∈ descending clock values ↔ lastOf clock values (clock value) = some value := by
  unfold descending
  rw [mem_stableSort, List.mem_map]
  constructor
  · rintro ⟨⟨held, found⟩, member, rfl⟩
    have entry := Dict.mem_entries.mp member
    rw [get?_byClock] at entry
    exact (lastOf_some entry).2 ▸ entry
  · intro found
    exact ⟨(clock value, value), Dict.mem_entries.mpr ((get?_byClock values _).trans found), rfl⟩

theorem map_byClock (values : List V) : ((byClock clock values).entries.map Prod.snd).map clock = (byClock clock values).keys := by
  rw [List.map_map]
  refine List.map_congr_left fun entry member => ?_
  have found := Dict.mem_entries.mp (show (entry.1, entry.2) ∈ _ from member)
  rw [get?_byClock] at found
  exact (lastOf_some found).2

variable (clock) in
theorem descending_pairwise (values : List V) : (descending clock values).Pairwise fun newer older => clock older < clock newer := by
  have sorted := stableSort_sorted (fun value => OrderDual.toDual (clock value)) ((byClock clock values).entries.map Prod.snd)
  have apart : ((descending clock values).map clock).Nodup := by
    refine (((stableSort_perm _ _).map clock).nodup_iff).mpr ?_
    rw [map_byClock]
    exact (byClock clock values).keys_nodup
  refine (sorted.and (List.pairwise_map.mp apart)).imp fun {newer older} both => ?_
  exact lt_of_le_of_ne (OrderDual.toDual_le_toDual.mp both.1) both.2.symm

theorem mem_take_descending {list : List V} (ordered : list.Pairwise fun newer older => clock older < clock newer) :
    ∀ limit, value ∈ list.take limit ↔ value ∈ list ∧ (list.filter fun other => clock value < clock other).length < limit := by
  induction list with
  | nil => simp
  | cons first rest ih =>
    obtain ⟨newest, ordered⟩ := List.pairwise_cons.mp ordered
    intro limit
    cases limit with
    | zero => simp
    | succ limit =>
      rw [List.take_succ_cons, List.mem_cons, ih ordered limit]
      by_cases here : value ∈ rest
      · have newer := newest value here
        have other : value ≠ first := fun same => lt_irrefl _ (same ▸ newer)
        simp [here, newer, other]
      · constructor
        · rintro (rfl | ⟨among, _⟩)
          · have nothing : (rest.filter fun other => clock value < clock other) = [] := by
              rw [List.filter_eq_nil_iff]
              intro other member
              simpa using (newest other member).le
            simp [nothing]
          · exact absurd among here
        · rintro ⟨among, _⟩
          exact .inl ((List.mem_cons.mp among).resolve_right here)

theorem mem_times_descending {time : T} : time ∈ (descending clock values).map clock ↔ time ∈ values.map clock := by
  rw [List.mem_map]
  constructor
  · rintro ⟨value, member, rfl⟩
    exact List.mem_map_of_mem (lastOf_some (mem_descending.mp member)).1
  · intro among
    obtain ⟨value, found⟩ := Option.isSome_iff_exists.mp (lastOf_isSome.mpr among)
    have own := (lastOf_some found).2
    exact ⟨value, mem_descending.mpr (own.symm ▸ found), own⟩

theorem newerThan_eq {list : List V} (distinct : (list.map clock).Nodup) (same : ∀ time, time ∈ list.map clock ↔ time ∈ values.map clock)
    (time : T) : newerThan clock values time = (list.filter fun other => time < clock other).length := by
  unfold newerThan
  have times : (values.map clock).toFinset = (list.map clock).toFinset := by
    ext time
    rw [List.mem_toFinset, List.mem_toFinset, same]
  have chosen : (list.map clock).toFinset.filter (time < ·) = ((list.map clock).filter (time < ·)).toFinset := by
    ext later
    simp
  rw [times, chosen, List.toFinset_card_of_nodup (distinct.filter _), List.filter_map, List.length_map]
  rfl

theorem distinct_of_pairwise {list : List V} (ordered : list.Pairwise fun newer older => clock older < clock newer) :
    (list.map clock).Nodup :=
  List.pairwise_map.mpr (ordered.imp fun newer => newer.ne')

theorem mem_retain : value ∈ retain clock limit values ↔
    lastOf clock values (clock value) = some value ∧ newerThan clock values (clock value) < limit := by
  have ordered := descending_pairwise clock values
  rw [newerThan_eq (distinct_of_pairwise ordered) (fun _ => mem_times_descending), ← mem_descending]
  exact mem_take_descending ordered limit

variable (clock) in
theorem retain_pairwise (limit : ℕ) (values : List V) :
    (retain clock limit values).Pairwise fun newer older => clock older < clock newer :=
  (descending_pairwise clock values).sublist (List.take_sublist _ _)

theorem lastOf_eq_of_mem {list : List V} (distinct : (list.map clock).Nodup) (member : value ∈ list) :
    lastOf clock list (clock value) = some value := by
  have held : (lastOf clock list (clock value)).isSome := lastOf_isSome.mpr (List.mem_map_of_mem member)
  obtain ⟨other, found⟩ := Option.isSome_iff_exists.mp held
  obtain ⟨among, same⟩ := lastOf_some found
  rw [found, List.inj_on_of_nodup_map distinct among member same]

theorem lastOf_retain {time : T} : lastOf clock (retain clock limit values) time = some value ↔
    value ∈ retain clock limit values ∧ clock value = time := by
  constructor
  · exact fun found => lastOf_some found
  · rintro ⟨member, rfl⟩
    exact lastOf_eq_of_mem (distinct_of_pairwise (retain_pairwise clock limit values)) member

theorem newerThan_mono {time : T} (within : ∀ later, time < later → later ∈ values.map clock → later ∈ others.map clock) :
    newerThan clock values time ≤ newerThan clock others time := by
  refine Finset.card_le_card fun later member => ?_
  rw [Finset.mem_filter, List.mem_toFinset] at member ⊢
  exact ⟨within later member.2 member.1, member.2⟩

theorem mem_times_retain {time : T} (kept : time ∈ (retain clock limit values).map clock) : time ∈ values.map clock := by
  obtain ⟨value, member, rfl⟩ := List.mem_map.mp kept
  exact List.mem_map_of_mem (lastOf_some (mem_retain.mp member).1).1

theorem newer_of_dropped {time : T} (held : time ∈ values.map clock) (dropped : time ∉ (retain clock limit values).map clock) :
    limit ≤ newerThan clock (retain clock limit values) time := by
  have ordered := descending_pairwise clock values
  obtain ⟨value, member, rfl⟩ := List.mem_map.mp (mem_times_descending.mpr held)
  have left : value ∉ (descending clock values).take limit := fun kept => dropped (List.mem_map_of_mem kept)
  have past : value ∈ (descending clock values).drop limit := by
    rw [← List.take_append_drop limit (descending clock values), List.mem_append] at member
    exact member.resolve_left left
  have newer : ∀ other ∈ (descending clock values).take limit, clock value < clock other := by
    intro other kept
    rw [← List.take_append_drop limit (descending clock values)] at ordered
    exact (List.pairwise_append.mp ordered).2.2 other kept value past
  have many : ((descending clock values).take limit).length = limit := by
    have positive := List.length_pos_of_mem past
    rw [List.length_drop] at positive
    rw [List.length_take]
    omega
  rw [newerThan_eq (distinct_of_pairwise (retain_pairwise clock limit values)) (fun _ => Iff.rfl)]
  have all : (retain clock limit values).filter (fun other => clock value < clock other) = retain clock limit values :=
    List.filter_eq_self.mpr fun other kept => decide_eq_true (newer other kept)
  rw [all]
  exact many.ge

theorem newerThan_retain {time : T} (enough : limit ≤ newerThan clock values time) :
    limit ≤ newerThan clock (retain clock limit values) time := by
  by_cases all : ∀ later, time < later → later ∈ values.map clock → later ∈ (retain clock limit values).map clock
  · exact enough.trans (newerThan_mono all)
  · push Not at all
    obtain ⟨later, newer, held, dropped⟩ := all
    refine (newer_of_dropped held dropped).trans (Finset.card_le_card fun other member => ?_)
    rw [Finset.mem_filter] at member ⊢
    exact ⟨member.1, newer.trans member.2⟩

theorem retain_ext {list : List V} (ordered : list.Pairwise fun newer older => clock older < clock newer)
    (same : ∀ value, value ∈ retain clock limit values ↔ value ∈ list) : retain clock limit values = list := by
  have kept := retain_pairwise clock limit values
  have perm : (retain clock limit values).Perm list :=
    (List.perm_ext_iff_of_nodup (List.Nodup.of_map clock (distinct_of_pairwise kept)) (List.Nodup.of_map clock (distinct_of_pairwise ordered))).mpr same
  exact perm.eq_of_pairwise (fun _ _ _ _ older newer => absurd older newer.asymm) kept ordered

/-- What was left out stays left out. -/
theorem retain_append (limit : ℕ) (values others : List V) :
    retain clock limit (retain clock limit values ++ others) = retain clock limit (values ++ others) := by
  refine retain_ext (retain_pairwise _ _ _) fun value => ?_
  rw [mem_retain, mem_retain, lastOf_append, lastOf_append]
  set time := clock value with clocked
  have less : newerThan clock (retain clock limit values ++ others) time ≤ newerThan clock (values ++ others) time := by
    refine newerThan_mono fun later _ among => ?_
    rw [List.map_append, List.mem_append] at among ⊢
    exact among.imp_left mem_times_retain
  -- with few enough newer, nothing newer was left out
  have few : newerThan clock (retain clock limit values ++ others) time < limit → newerThan clock (values ++ others) time < limit := by
    intro few
    by_contra many
    refine absurd (lt_of_lt_of_le few (not_lt.mp many)) (not_lt.mpr (newerThan_mono fun later newer among => ?_))
    rw [List.map_append, List.mem_append] at among ⊢
    refine among.imp_left fun held => ?_
    by_contra dropped
    have enough := newer_of_dropped held dropped
    have fewer : newerThan clock (retain clock limit values) later ≤ newerThan clock (retain clock limit values ++ others) time := by
      refine Finset.card_le_card fun other member => ?_
      rw [Finset.mem_filter, List.mem_toFinset] at member ⊢
      exact ⟨by rw [List.map_append]; exact List.mem_append_left _ member.1, newer.trans member.2⟩
    omega
  have alone : newerThan clock (values ++ others) time < limit → newerThan clock values time < limit := by
    refine lt_of_le_of_lt (newerThan_mono fun later _ among => ?_)
    rw [List.map_append]
    exact List.mem_append_left _ among
  constructor
  · rintro ⟨found, within⟩
    refine ⟨?_, few within⟩
    rcases Option.or_eq_some_iff.mp found with last | ⟨absent, kept⟩
    · exact Option.or_eq_some_iff.mpr (.inl last)
    · obtain ⟨member, own⟩ := lastOf_retain.mp kept
      exact Option.or_eq_some_iff.mpr (.inr ⟨absent, own ▸ (mem_retain.mp member).1⟩)
  · rintro ⟨found, within⟩
    refine ⟨?_, lt_of_le_of_lt less within⟩
    rcases Option.or_eq_some_iff.mp found with last | ⟨absent, held⟩
    · exact Option.or_eq_some_iff.mpr (.inl last)
    · exact Option.or_eq_some_iff.mpr (.inr ⟨absent, lastOf_retain.mpr ⟨mem_retain.mpr ⟨held, alone within⟩, rfl⟩⟩)

theorem retain_again (limit : ℕ) (values others : List V) :
    retain clock limit (retain clock limit (values ++ others) ++ others) = retain clock limit (values ++ others) := by
  rw [retain_append]
  refine retain_ext (retain_pairwise _ _ _) fun value => ?_
  have times : newerThan clock (values ++ others ++ others) (clock value) = newerThan clock (values ++ others) (clock value) := by
    unfold newerThan
    congr 2
    ext time
    simp
  rw [mem_retain, mem_retain, times, lastOf_append, lastOf_append]
  cases lastOf clock others (clock value) <;> rfl

end Order

end C3po.Library
