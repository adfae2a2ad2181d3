import Mathlib.Algebra.Order.BigOperators.Group.List
import Mathlib.Data.Rat.Cast.Order
import C3po.Producers.Consensus

/-! The reconciliation of the consensus over an issuer: what is selected for a row is one observation of
the issuer, whatever the order of the batch, and the centre stands with the majority of the weight.
-/

set_option autoImplicit false

namespace C3po.Producers
open C3po.Library

section Median
variable {observations : List Observation} {chosen : Observation}

def weightOf (observations : List Observation) : ℚ := (observations.map Observation.weight).sum

theorem weightOf_append (first second : List Observation) : weightOf (first ++ second) = weightOf first + weightOf second := by
  unfold weightOf
  rw [List.map_append, List.sum_append]

theorem weightOf_perm {first second : List Observation} (same : first.Perm second) : weightOf first = weightOf second :=
  (same.map Observation.weight).sum_eq

theorem weightOf_filter_le (positive : ∀ seen ∈ observations, 0 < seen.weight) (keep : Observation → Bool) :
    weightOf (observations.filter keep) ≤ weightOf observations := by
  refine (List.filter_sublist.map Observation.weight).sum_le_sum ?_
  intro weight here
  obtain ⟨seen, mem, rfl⟩ := List.mem_map.mp here
  exact (positive seen mem).le

theorem reaching_spec {threshold cumulative : ℚ} (found : reaching threshold cumulative observations = some chosen)
    (short : cumulative < threshold) (enough : threshold ≤ cumulative + weightOf observations) :
    ∃ before after, observations = before ++ chosen :: after ∧ cumulative + weightOf before < threshold ∧
      threshold ≤ cumulative + weightOf before + chosen.weight := by
  induction observations generalizing cumulative with
  | nil => cases found
  | cons first rest ih =>
    have whole : weightOf (first :: rest) = first.weight + weightOf rest := List.sum_cons
    have nothing : weightOf [] = 0 := rfl
    cases rest with
    | nil =>
      cases found
      exact ⟨[], [], rfl, by linarith, by linarith⟩
    | cons second rest =>
      unfold reaching at found
      split at found
      · cases found
        exact ⟨[], second :: rest, rfl, by linarith, by linarith⟩
      · rename_i further
        obtain ⟨before, after, split, less, reached⟩ := ih found (not_le.mp further) (by linarith)
        have added : weightOf (first :: before) = first.weight + weightOf before := List.sum_cons
        exact ⟨first :: before, after, congrArg (first :: ·) split, by linarith, by linarith⟩

theorem reaching_mem {threshold cumulative : ℚ} (found : reaching threshold cumulative observations = some chosen) : chosen ∈ observations := by
  induction observations generalizing cumulative with
  | nil => cases found
  | cons first rest ih =>
    cases rest with
    | nil =>
      cases found
      exact List.mem_cons_self
    | cons second rest =>
      unfold reaching at found
      split at found
      · cases found
        exact List.mem_cons_self
      · exact List.mem_cons_of_mem _ (ih found)

theorem weightedMedian_mem (found : weightedMedianObservation observations = some chosen) : chosen ∈ observations :=
  mem_stableSort.mp (reaching_mem found)

theorem reaching_eq_none {threshold cumulative : ℚ} (none : reaching threshold cumulative observations = none) : observations = [] := by
  induction observations generalizing cumulative with
  | nil => rfl
  | cons first rest ih =>
    cases rest with
    | nil => cases none
    | cons second rest =>
      unfold reaching at none
      split at none
      · cases none
      · exact absurd (ih none) (List.cons_ne_nil _ _)

theorem weightedMedian_eq_none (none : weightedMedianObservation observations = none) : observations = [] :=
  (reaching_eq_none none ▸ stableSort_perm Observation.ratio observations).nil_eq.symm

theorem weightedMedian_majority (positive : ∀ seen ∈ observations, 0 < seen.weight) (found : weightedMedianObservation observations = some chosen)
    {low high : ℚ} (majority : weightOf observations / 2 < weightOf (observations.filter fun seen => low ≤ seen.ratio ∧ seen.ratio ≤ high)) :
    low ≤ chosen.ratio ∧ chosen.ratio ≤ high := by
  have perm := stableSort_perm Observation.ratio observations
  have sorted := stableSort_sorted Observation.ratio observations
  unfold weightedMedianObservation at found
  rw [← weightOf_perm perm, ← weightOf_perm (perm.filter _)] at majority
  replace positive : ∀ seen ∈ stableSort Observation.ratio observations, 0 < seen.weight := fun seen here => positive seen (mem_stableSort.mp here)
  generalize stableSort Observation.ratio observations = ordered at found sorted majority positive
  have total : 0 < weightOf ordered := List.sum_pos _ (List.forall_mem_map.mpr positive) (by
    rw [ne_eq, List.map_eq_nil_iff]
    exact List.ne_nil_of_mem (reaching_mem found))
  obtain ⟨before, after, rfl, less, reached⟩ := @reaching_spec _ _ _ 0 found (by unfold weightOf at total; linarith)
    (by unfold weightOf at total ⊢; linarith)
  have halves : weightOf (before ++ chosen :: after) = weightOf before + (chosen.weight + weightOf after) := by
    rw [weightOf_append]
    rfl
  change 0 + weightOf before < weightOf (before ++ chosen :: after) / 2 at less
  change weightOf (before ++ chosen :: after) / 2 ≤ 0 + weightOf before + chosen.weight at reached
  obtain ⟨-, later, earlier⟩ := List.pairwise_append.mp sorted
  rw [halves, List.filter_append, weightOf_append] at majority
  rw [halves] at less reached
  have first := weightOf_filter_le (fun seen here => positive seen (List.mem_append_left _ here)) fun seen => decide (low ≤ seen.ratio ∧ seen.ratio ≤ high)
  have last := @weightOf_filter_le after
    (fun seen here => positive seen (List.mem_append_right _ (List.mem_cons_of_mem _ here))) fun seen => decide (low ≤ seen.ratio ∧ seen.ratio ≤ high)
  have nothing : weightOf [] = 0 := rfl
  -- what is on the far side of the centre from the interval holds no more than the other half
  constructor
  · by_contra below
    have none : before.filter (fun seen => low ≤ seen.ratio ∧ seen.ratio ≤ high) = [] := by
      refine List.filter_eq_nil_iff.mpr fun seen here => ?_
      have up := earlier seen here chosen List.mem_cons_self
      rw [decide_eq_true_eq]
      exact fun inside => below (inside.1.trans up)
    rw [none, List.filter_cons_of_neg (by rw [decide_eq_true_eq]; exact fun inside => below inside.1)] at majority
    linarith
  · by_contra above
    have none : (chosen :: after).filter (fun seen => low ≤ seen.ratio ∧ seen.ratio ≤ high) = [] := by
      refine List.filter_eq_nil_iff.mpr fun seen here => ?_
      have up : chosen.ratio ≤ seen.ratio := by
        obtain rfl | there := List.mem_cons.mp here
        · exact le_rfl
        · exact (List.pairwise_cons.mp later).1 seen there
      rw [decide_eq_true_eq]
      exact fun inside => above (up.trans inside.2)
    rw [none] at majority
    linarith

end Median

section Issuer
variable {row : ShareClass} {seen : Observation} {source : Provider}

theorem observation_spec (found : observation row source = some seen) :
    seen.symbol = row.symbol ∧ seen.source = source ∧ 0.50 ≤ seen.ratio ∧ 0 < seen.weight := by
  unfold observation at found
  split at found
  · obtain ⟨admitted, same⟩ := Option.ite_none_right_eq_some.mp found
    cases same
    have counted : (0 : ℚ) < (max (row.answers source).analysts 1 : ℤ) := by exact_mod_cast lt_max_of_lt_right one_pos
    refine ⟨rfl, rfl, admitted.2.1, mul_pos counted ?_⟩
    split <;> norm_num
  · cases found

theorem mem_observations (here : seen ∈ row.observations) : seen.symbol = row.symbol ∧ 0.50 ≤ seen.ratio ∧ 0 < seen.weight := by
  obtain ⟨source, -, found⟩ := List.mem_filterMap.mp here
  obtain ⟨symbol, -, ratio, weight⟩ := observation_spec found
  exact ⟨symbol, ratio, weight⟩

theorem mem_issuerObservations {shares : List ShareClass} {issuer : String} (here : seen ∈ issuerObservations shares issuer) :
    0.50 ≤ seen.ratio ∧ 0 < seen.weight := by
  obtain ⟨share, -, found⟩ := List.mem_flatMap.mp here
  exact (mem_observations found).2

def issuerConsensus (rows references : List ShareClass) (row : ShareClass) : Consensus :=
  consensusOf row (issuerObservations (rows ++ references) row.issuerOf)

def ShareClass.coverage (row : ShareClass) : ℤ := (row.observations.map Observation.analysts).foldl max 0

/-- A consensus stands on the observations of its issuer: it is one of them at the price of the row, it is the
centre of the issuer unless the row is better covered, and the centre stands with the majority of the weight. -/
structure Founded (observations : List Observation) (row : ShareClass) (outcome : Consensus) : Prop where
  chosen : ∀ tp, outcome.publicConsensusTp = some tp → ∃ seen ∈ observations, tp / row.price = seen.ratio ∧
    outcome.originSymbol = some seen.symbol ∧ outcome.originSource = some seen.source.text ∧ outcome.publishedAt = seen.fetchedAt.map .received
  unset : outcome.publicConsensusTp = none → observations = []
  majority : ∀ canonical, weightedMedianObservation observations = some canonical → ∀ low high,
    weightOf observations / 2 < weightOf (observations.filter fun seen => low ≤ seen.ratio ∧ seen.ratio ≤ high) →
      low ≤ canonical.ratio ∧ canonical.ratio ≤ high
  near : ∀ canonical tp, weightedMedianObservation observations = some canonical → outcome.publicConsensusTp = some tp →
    row.coverage ≤ canonical.analysts → |tp / row.price - canonical.ratio| ≤ 0.35 * canonical.ratio

/-- What is selected is an observation of the issuer, close to the centre unless the row is better covered. -/
structure Picked (observations : List Observation) (row : ShareClass) (selected : Selected) (seen : Observation) : Prop where
  mem : seen ∈ observations
  ratio : selected.ratio = some seen.ratio
  symbol : selected.symbol = some seen.symbol
  source : selected.source = some seen.source
  fetchedAt : selected.fetchedAt = seen.fetchedAt
  near : ∀ canonical, weightedMedianObservation observations = some canonical → row.coverage ≤ canonical.analysts →
    |seen.ratio - canonical.ratio| ≤ 0.35 * canonical.ratio

theorem picked_canonical {observations : List Observation} {canonical : Observation} (found : weightedMedianObservation observations = some canonical)
    (pos : 0 < canonical.ratio) : Picked observations row canonical.selected canonical where
  mem := weightedMedian_mem found
  ratio := rfl
  symbol := rfl
  source := rfl
  fetchedAt := rfl
  near := by
    intro other same _
    cases found.symm.trans same
    rw [sub_self, abs_zero]
    positivity

theorem select_picked {observations : List Observation} (within : ∀ seen ∈ row.observations, seen ∈ observations)
    (ratios : ∀ seen ∈ observations, 0.50 ≤ seen.ratio) (some : observations ≠ []) :
    ∃ seen, Picked observations row (select row.symbol row.observations observations) seen := by
  cases centre : weightedMedianObservation observations with
  | none => exact absurd (weightedMedian_eq_none centre) some
  | some canonical =>
    have pos : 0 < canonical.ratio := lt_of_lt_of_le (by norm_num) (ratios canonical (weightedMedian_mem centre))
    unfold select
    rw [centre]
    cases own : weightedMedianObservation row.observations with
    | none => exact ⟨canonical, picked_canonical centre pos⟩
    | some center =>
      dsimp only
      split
      · exact ⟨canonical, picked_canonical centre pos⟩
      · rename_i kept
        have here := weightedMedian_mem own
        refine ⟨center,
          { mem := within center here, ratio := rfl, symbol := by rw [(mem_observations here).1], source := rfl, fetchedAt := rfl, near := ?_ }⟩
        intro other same covered
        cases centre.symm.trans same
        have close := not_lt.mp fun far => kept ⟨far, covered⟩
        exact (div_le_iff₀ pos).mp close

theorem consensusOf_founded {observations : List Observation} (priced : 0 < row.price) (within : ∀ seen ∈ row.observations, seen ∈ observations)
    (admitted : ∀ seen ∈ observations, 0.50 ≤ seen.ratio ∧ 0 < seen.weight) : Founded observations row (consensusOf row observations) := by
  have majority := fun canonical (found : weightedMedianObservation observations = some canonical) low high =>
    @weightedMedian_majority _ _ (fun seen here => (admitted seen here).2) found low high
  by_cases some : observations = []
  · have none : row.observations = [] := List.eq_nil_iff_forall_not_mem.mpr fun seen here => by simpa [some] using within seen here
    have unset : (consensusOf row observations).publicConsensusTp = Option.none := by
      unfold consensusOf
      rw [none, some]
      rfl
    refine { chosen := ?_, unset := fun _ => some, majority, near := ?_ }
    · intro tp set
      cases unset.symm.trans set
    · intro canonical tp _ set
      cases unset.symm.trans set
  · obtain ⟨seen, picked⟩ := select_picked within (fun seen here => (admitted seen here).1) some
    have pos : 0 < seen.ratio := lt_of_lt_of_le (by norm_num) (admitted seen picked.mem).1
    have target : (consensusOf row observations).publicConsensusTp = Option.some (row.price * seen.ratio) := by
      unfold consensusOf
      dsimp only
      rw [picked.ratio, truthy, Option.filter_some_pos (by simpa using pos.ne')]
      rfl
    have back : row.price * seen.ratio / row.price = seen.ratio := mul_div_cancel_left₀ _ priced.ne'
    refine { chosen := ?_, unset := ?_, majority, near := ?_ }
    · intro tp set
      cases target.symm.trans set
      refine ⟨seen, picked.mem, back, picked.symbol, ?_, ?_⟩
      · exact congrArg (Option.map Provider.text) picked.source
      · unfold consensusOf
        dsimp only
        rw [picked.source, picked.fetchedAt]
        rfl
    · intro unset
      cases target.symm.trans unset
    · intro canonical tp found set covered
      cases target.symm.trans set
      rw [back]
      exact picked.near canonical found covered

end Issuer

section Batch
variable {rows references rows' references' : List ShareClass} {row : ShareClass}

theorem issuerObservations_perm (sameRows : rows'.Perm rows) (sameReferences : references'.Perm references) (issuer : String) :
    (issuerObservations (rows' ++ references') issuer).Perm (issuerObservations (rows ++ references) issuer) :=
  ((sameRows.append sameReferences).filter _).flatMap_right _

theorem weightedMedian_perm {first second : List Observation} (same : first.Perm second) (distinct : (first.map Observation.ratio).Nodup) :
    weightedMedianObservation first = weightedMedianObservation second := by
  unfold weightedMedianObservation
  rw [stableSort_eq_of_perm same distinct]

theorem consensusOf_perm {first second : List Observation} (same : first.Perm second) (distinct : (first.map Observation.ratio).Nodup) :
    consensusOf row first = consensusOf row second := by
  have chosen : select row.symbol row.observations first = select row.symbol row.observations second := by
    unfold select
    rw [weightedMedian_perm same distinct]
  unfold consensusOf
  rw [chosen]
  simp only [(same.filter _).length_eq]

/-- The reconciliation gives each row a consensus that stands on its own issuer, whatever the order of the batch
and the other issuers of it. -/
theorem reconcile_founded (priced : ∀ row ∈ rows, 0 < row.price)
    (distinct : ∀ issuer, ((issuerObservations (rows ++ references) issuer).map Observation.ratio).Nodup) :
    (∀ rows' references', rows'.Perm rows → references'.Perm references →
      reconcileIssuerConsensus rows' references' = rows'.map (issuerConsensus rows references)) ∧
    ∀ row ∈ rows, Founded (issuerObservations (rows ++ references) row.issuerOf) row (issuerConsensus rows references row) ∧
      ∀ rows' references', (rows'.filter fun other => other.issuerOf = row.issuerOf) = (rows.filter fun other => other.issuerOf = row.issuerOf) →
        (references'.filter fun other => other.issuerOf = row.issuerOf) = (references.filter fun other => other.issuerOf = row.issuerOf) →
        issuerConsensus rows' references' row = issuerConsensus rows references row := by
  constructor
  · intro rows' references' sameRows sameReferences
    refine List.map_congr_left fun row _ => ?_
    have same := issuerObservations_perm sameRows sameReferences row.issuerOf
    exact (consensusOf_perm same.symm (distinct row.issuerOf)).symm
  · intro row here
    constructor
    · refine consensusOf_founded (priced row here) ?_ fun seen => mem_issuerObservations
      intro seen own
      refine List.mem_flatMap.mpr ⟨row, List.mem_filter.mpr ⟨List.mem_append_left _ here, decide_eq_true rfl⟩, own⟩
    · intro rows' references' sameRows sameReferences
      unfold issuerConsensus issuerObservations
      rw [List.filter_append, List.filter_append, sameRows, sameReferences]

end Batch

section Sample

def unanswered : Answer := ⟨none, none, none⟩

def ordinary : ShareClass where
  symbol := "PETR3"
  issuer := "PETR"
  price := 40
  answers := fun
    | .brapi => ⟨some 50, some 5, some 1⟩
    | .eodhd => unanswered

def preferred : ShareClass where
  symbol := "PETR4"
  issuer := "PETR"
  price := 36
  answers := fun
    | .brapi => ⟨some 54, some 12, some 2⟩
    | .eodhd => ⟨some 48, some 3, some 3⟩

theorem reconcile_founded_petr : reconcileIssuerConsensus [preferred, ordinary] [] =
    [preferred, ordinary].map (issuerConsensus [ordinary, preferred] []) := by
  have priced : ∀ row ∈ [ordinary, preferred], 0 < row.price := by
    intro row here
    obtain rfl | rfl := List.mem_pair.mp here
    · norm_num [ordinary]
    · norm_num [preferred]
  have distinct : ∀ issuer, ((issuerObservations ([ordinary, preferred] ++ []) issuer).map Observation.ratio).Nodup := by
    intro issuer
    by_cases own : "PETR" = issuer
    · subst own
      decide +kernel
    · have first : ordinary.issuerOf = "PETR" := rfl
      have second : preferred.issuerOf = "PETR" := rfl
      simp [issuerObservations, first, second, own]
  exact (reconcile_founded priced distinct).1 _ _ (List.Perm.swap _ _ _) (List.Perm.refl _)

end Sample

end C3po.Producers
