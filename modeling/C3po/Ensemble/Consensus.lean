import C3po.Ensemble.Targets

/-! The two readers agree: the grid's mean is of the targets behind the frozen reader's median.

What they make of the rows does not depend on their order, where no house has two eligible
rows of one instant, nor on the rows outside of the window.
-/

set_option autoImplicit false

namespace C3po.Ensemble
open C3po.Library

variable {reading : Reading} {cut floor : Int} {currency : String} {rows others : Rows}

section Statistics
variable {targets more : List Target}

theorem targetMedian_perm (same : targets.Perm more) : targetMedian targets = targetMedian more := by
  unfold targetMedian
  rw [insertionSort_congr (same.map _)]

theorem max?_perm {clocks more : List Int} (same : clocks.Perm more) : clocks.max? = more.max? := by
  cases found : clocks.max? with
  | none =>
    rw [List.max?_eq_none_iff] at found
    rw [found] at same
    rw [List.nil_perm.mp same]
    rfl
  | some newest =>
    obtain ⟨member, above⟩ := List.max?_eq_some_iff.mp found
    exact (List.max?_eq_some_iff.mpr ⟨same.subset member, fun clock listed => above clock (same.symm.subset listed)⟩).symm

theorem latestOf_perm (same : targets.Perm more) : latestOf targets = latestOf more := max?_perm (same.map _)

theorem meanOf_perm {values more : List ℚ} (same : values.Perm more) : meanOf values = meanOf more := by
  unfold meanOf
  rw [same.length_eq]
  exact (same.map _).sum_eq

end Statistics

section Grid

def members (reading : Reading) (latest : Dict String Pinned) : Except GridError (List HouseMember) :=
  (byHouse latest).mapM fun entry => memberOf reading entry.1 entry.2

/-- The grid's result, of what it selected and its members. -/
def evaluation (snapshotId currency : String) (cut : Int) (latest : Dict String Pinned) (refused : List Refusal)
    (members : List HouseMember) : Option ℚ × ConsensusReceipt :=
  let targets := latest.entries.map fun entry => entry.2.toTarget
  let receipt : ConsensusReceipt :=
    { snapshotId := some snapshotId, currency, asOf := cut, analystCount := latest.size, members, reason := none }
  if latest.size < minConsensusHouses then
    (none, { receipt with reason := some "houses_below_minimum", refused := counted (refused ++ [.housesBelowMinimum]) })
  else
    let value := meanOf (targets.map Target.target)
    (some value, { receipt with
      refused := counted refused, evaluated := true, value := some value, publicConsensusTp := some (targetMedian targets)
      consensusPublishedAt := some ((latestOf targets).getD 0) })

theorem utc_again {asOf : Clock} (zoned : asOf.offset ≠ none) (isCut : asOf.utc = .ok cut) :
    (⟨cut, some 0⟩ : Clock).utc = .ok cut := by
  unfold Clock.utc at isCut ⊢
  cases isOffset : asOf.offset with
  | none => exact absurd isOffset zoned
  | some offset =>
    simp only [isOffset] at isCut
    unfold instantOf at isCut ⊢
    split at isCut
    · rename_i inside
      cases isCut
      simp only [sub_zero]
      exact if_pos inside
    · cases isCut

theorem selected_size : (reading.selected cut floor currency rows).size = (reading.chosen cut floor currency rows).size := by
  have same := (@targets_perm reading cut floor currency rows).length_eq
  simpa [Dict.size] using same

theorem same_targets : ((reading.selected cut floor currency rows).entries.map fun entry => entry.2.toTarget).Perm
    ((reading.chosen cut floor currency rows).entries.map Prod.snd) := by
  have same := (@targets_perm reading cut floor currency rows).map Prod.snd
  rw [List.map_map] at same
  exact same

theorem latestOf_some {targets : List Target} (found : targets ≠ []) :
    latestOf targets = some ((latestOf targets).getD 0) := by
  unfold latestOf
  cases newest : (targets.map Target.published).max? with
  | none =>
    rw [List.max?_eq_none_iff, List.map_eq_nil_iff] at newest
    exact absurd newest found
  | some clock => rfl

/-- A reading of the grid's own rows, past its guards. -/
structure Pinning (reading : Reading) (asOf : Clock) (snapshotId market : String) : Prop where
  zoned : asOf.offset ≠ none
  market : market = "NASDAQ" ∨ market = "NYSE"
  snapshot : reading.strip snapshotId ≠ ""

theorem gridConsensusAt_eq {asOf : Clock} {snapshotId market : String} (pinning : Pinning reading asOf snapshotId market)
    (isCut : asOf.utc = .ok cut) (isFloor : instantOf (cut - consensusWindow) = .ok floor) :
    gridConsensusAt reading (some rows) asOf "USD" (some snapshotId) market =
      if rows.any reading.overflows then .error .overflow else
        (members reading (reading.selected cut floor "USD" rows)).map
          (evaluation snapshotId "USD" cut (reading.selected cut floor "USD" rows)
            (rows.filterMap (reading.refusal cut floor "USD"))) := by
  obtain ⟨offset, isOffset⟩ := Option.ne_none_iff_exists'.mp pinning.zoned
  have listed : market ∈ ["NASDAQ", "NYSE", "B3"] := by
    rcases pinning.market with rfl | rfl <;> decide
  have covered : market ≠ "B3" := by
    rcases pinning.market with rfl | rfl <;> decide
  have frozen := @consensusAt_eq reading cut floor "USD" rows _ (utc_again pinning.zoned isCut) isFloor
  have loop := @grid_loop reading cut floor "USD" rows
  unfold gridConsensusAt
  simp only [isOffset, isCut, listed, covered, pinning.snapshot, frozen, loop, isFloor, bind, Except.bind, overflowed,
    Option.isNone_some, Bool.false_eq_true, if_false, not_true_eq_false, ne_eq, Option.filter_some, decide_true,
    if_true, not_false_eq_true, pure, Except.pure]
  cases rows.any reading.overflows with
  | true => rfl
  | false =>
    simp only [Bool.false_eq_true, if_false]
    unfold members
    cases (byHouse (reading.selected cut floor "USD" rows)).mapM fun entry => memberOf reading entry.1 entry.2 with
    | error raised => rfl
    | ok members =>
      simp only [Except.map]
      unfold evaluation summary
      simp only [selected_size]
      by_cases few : (reading.chosen cut floor "USD" rows).size < minConsensusHouses
      · simp only [if_pos few, if_neg (not_le.mpr few)]
      · have nonempty : (reading.chosen cut floor "USD" rows).entries.map Prod.snd ≠ [] := by
          intro none
          have empty : (reading.chosen cut floor "USD" rows).size = 0 := by
            unfold Dict.size
            rw [List.map_eq_nil_iff.mp none]
            rfl
          rw [empty] at few
          exact few (by decide)
        have agreed := @same_targets reading cut floor "USD" rows
        simp only [if_neg few, targetMedian_perm agreed, latestOf_perm agreed, ← latestOf_some nonempty,
          not_true_eq_false, or_self, if_false]

end Grid

section Told

def Pinned.unindexed (pinned : Pinned) : Pinned := { pinned with rowIndex := 0 }

def ConsensusReceipt.unindexed (receipt : ConsensusReceipt) : ConsensusReceipt :=
  { receipt with members := receipt.members.map fun member => { member with rowIndex := 0 } }

/-- A grid's result, apart from the places of its rows. -/
def unindexed (result : Except GridError (Option ℚ × ConsensusReceipt)) : Except GridError (Option ℚ × ConsensusReceipt) :=
  result.map (Prod.map id ConsensusReceipt.unindexed)

/-- The same rows of the same houses, wherever they stood. -/
def Alike (first second : Dict String Pinned) : Prop :=
  ∀ house, (first.get? house).map Pinned.unindexed = (second.get? house).map Pinned.unindexed

variable {first second : Dict String Pinned}

theorem Alike.entries (alike : Alike first second) :
    (first.entries.map fun entry => (entry.1, entry.2.unindexed)).Perm
      (second.entries.map fun entry => (entry.1, entry.2.unindexed)) := by
  have left := @Dict.entries_perm String Pinned _ Pinned (first.mapValues Pinned.unindexed) first Pinned.unindexed
    fun house => Dict.get?_mapValues _ _ _
  have right := @Dict.entries_perm String Pinned _ Pinned (first.mapValues Pinned.unindexed) second Pinned.unindexed
    fun house => (Dict.get?_mapValues _ _ _).trans (alike house)
  exact left.trans right.symm

theorem Alike.targets (alike : Alike first second) :
    (first.entries.map fun entry => entry.2.toTarget).Perm (second.entries.map fun entry => entry.2.toTarget) := by
  have same := alike.entries.map fun entry => entry.2.toTarget
  rw [List.map_map, List.map_map] at same
  exact same

theorem Alike.byHouse (alike : Alike first second) :
    (byHouse first).map (fun entry => (entry.1, entry.2.unindexed)) =
      (byHouse second).map fun entry => (entry.1, entry.2.unindexed) := by
  have sorted : ∀ latest : Dict String Pinned, (Ensemble.byHouse latest).map (fun entry => (entry.1, entry.2.unindexed)) =
      stableSort Prod.fst (latest.entries.map fun entry => (entry.1, entry.2.unindexed)) := by
    intro latest
    exact (stableSort_map Prod.fst (fun entry : String × Pinned => (entry.1, entry.2.unindexed)) latest.entries).symm
  rw [sorted, sorted]
  apply stableSort_eq_of_perm alike.entries
  rw [List.map_map]
  exact first.distinct

theorem memberOf_unindexed (house : String) (pinned : Pinned) : memberOf reading house pinned.unindexed =
    (memberOf reading house pinned).map fun member => { member with rowIndex := 0 } := by
  unfold memberOf Pinned.unindexed
  simp only
  cases reading.canonicalHash pinned.row with
  | none => rfl
  | some hash => rfl

theorem members_unindexed (entries : List (String × Pinned)) :
    (entries.mapM fun entry => memberOf reading entry.1 entry.2).map
        (List.map fun member : HouseMember => { member with rowIndex := 0 }) =
      (entries.map fun entry => (entry.1, entry.2.unindexed)).mapM fun entry => memberOf reading entry.1 entry.2 := by
  induction entries with
  | nil => rfl
  | cons entry rest ih =>
    obtain ⟨house, pinned⟩ := entry
    rw [List.map_cons, List.mapM_cons, List.mapM_cons, ← ih]
    simp only [memberOf_unindexed]
    cases memberOf reading house pinned with
    | error raised => rfl
    | ok member =>
      cases rest.mapM fun entry => memberOf reading entry.1 entry.2 with
      | error raised => rfl
      | ok members => rfl

theorem evaluation_unindexed (alike : Alike first second) (snapshotId : String) {refused more : List Refusal}
    (counts : ∀ extra, counted (refused ++ extra) = counted (more ++ extra)) :
    unindexed ((members reading first).map (evaluation snapshotId currency cut first refused)) =
      unindexed ((members reading second).map (evaluation snapshotId currency cut second more)) := by
  have size : first.size = second.size := by
    have same := alike.targets.length_eq
    simpa [Dict.size] using same
  have none := counts []
  simp only [List.append_nil] at none
  have told : ∀ list, Prod.map id ConsensusReceipt.unindexed (evaluation snapshotId currency cut first refused list) =
      evaluation snapshotId currency cut second more (list.map fun member => { member with rowIndex := 0 }) := by
    intro list
    unfold evaluation
    simp only [size, targetMedian_perm alike.targets, latestOf_perm alike.targets, meanOf_perm (alike.targets.map _), none,
      counts]
    split <;> rfl
  have untold : ∀ list, Prod.map id ConsensusReceipt.unindexed (evaluation snapshotId currency cut second more list) =
      evaluation snapshotId currency cut second more (list.map fun member => { member with rowIndex := 0 }) := by
    intro list
    unfold evaluation
    split <;> rfl
  have same : (members reading first).map (List.map fun member : HouseMember => { member with rowIndex := 0 }) =
      (members reading second).map (List.map fun member : HouseMember => { member with rowIndex := 0 }) := by
    unfold members
    rw [members_unindexed, members_unindexed, alike.byHouse]
  unfold unindexed
  cases left : members reading first with
  | error raised =>
    cases right : members reading second with
    | error other =>
      rw [left, right] at same
      exact congrArg Except.error (Except.error.inj same)
    | ok list =>
      rw [left, right] at same
      cases same
  | ok list =>
    cases right : members reading second with
    | error other =>
      rw [left, right] at same
      cases same
    | ok more =>
      rw [left, right] at same
      simp only [Except.map, Except.ok.injEq] at same ⊢
      rw [told, untold, same]

end Told
end C3po.Ensemble
