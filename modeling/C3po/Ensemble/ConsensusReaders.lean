import C3po.Ensemble.Consensus

/-! The two readers over every list of rows. -/

set_option autoImplicit false

namespace C3po.Ensemble
open C3po.Library

section Statements
variable (reading : Reading)

/-- The instants that a T reads rows by. -/
def Clocks (asOf : Clock) (cut floor : Int) : Prop :=
  asOf.utc = .ok cut ∧ instantOf (cut - consensusWindow) = .ok floor

/-- A row published after T, or before the window. -/
def Reading.outside (cut floor : Int) (row : Option Row) : Bool :=
  match row with
  | none => false
  | some row => match reading.instant (row.read "publishedDate") with
      | .ok published => cut < published ∨ published ≤ floor
      | .error _ => false

/-- No house has two eligible rows of one instant. -/
def Reading.Untied (asOf : Clock) (rows : Rows) : Prop :=
  ∀ cut floor, Clocks asOf cut floor →
    Library.Untied Target.published (rows.filterMap (reading.eligible cut floor "USD"))

/-- The same rows, apart from those outside of the window. -/
def Reading.SameWindow (asOf : Clock) (rows others : Rows) : Prop :=
  ∀ cut floor, Clocks asOf cut floor →
    rows.filter (fun row => !reading.outside cut floor row) = others.filter fun row => !reading.outside cut floor row

def HouseMember.told (member : HouseMember) : String × Target := (member.house, ⟨member.publishedAt, member.target⟩)

/-- The members are the targets behind a block: of each house, its newest eligible one. -/
structure Behind (rows : Rows) (asOf : Clock) (block : Block) (members : List HouseMember) : Prop where
  chosen : ∃ cut floor, Clocks asOf cut floor ∧
    (members.map HouseMember.told).Perm (reading.chosen cut floor "USD" rows).entries
  count : block.analystCount = members.length
  median : block.consensusTp = medianOf ((members.map HouseMember.target).insertionSort (· ≤ ·))
  newest : (members.map HouseMember.publishedAt).max? = some block.publishedAt

/-- The grid evaluates where the frozen reader gives a block, on the targets behind it. -/
def Agree (rows : Rows) (asOf : Clock) (snapshotId market : String) : Prop :=
  let grid := gridConsensusAt reading (some rows) asOf "USD" (some snapshotId) market
  match consensusAt reading rows asOf "USD" with
  | .error _ => grid = .error .overflow
  | .ok (none, refused) => ∃ receipt, grid = .ok (none, receipt) ∧ receipt.evaluated = false ∧ receipt.refused = refused
  | .ok (some block, refused) => ∃ value receipt,
      grid = .ok (some value, receipt) ∧ value = meanOf (receipt.members.map HouseMember.target) ∧
        receipt.evaluated = true ∧ receipt.refused = refused ∧ Behind reading rows asOf block receipt.members ∧
        receipt.publicConsensusTp = some block.consensusTp ∧ receipt.consensusPublishedAt = some block.publishedAt

/-- A grid's result, apart from the places of its rows and the counts of those it refused. -/
def unreported (result : Except GridError (Option ℚ × ConsensusReceipt)) : Except GridError (Option ℚ × ConsensusReceipt) :=
  (unindexed result).map (Prod.map id fun receipt => { receipt with refused := [] })

end Statements

variable {reading : Reading} {cut floor : Int} {currency : String} {rows others : Rows} {asOf : Clock}

section Raises

theorem consensusAt_error (none : ∀ cut floor, ¬Clocks asOf cut floor) :
    ∃ unread, consensusAt reading rows asOf currency = .error unread := by
  unfold consensusAt
  cases isCut : asOf.utc with
  | error unread => exact ⟨unread, rfl⟩
  | ok cut =>
    cases isFloor : instantOf (cut - consensusWindow) with
    | error unread =>
      refine ⟨unread, ?_⟩
      simp only [bind, Except.bind, isFloor]
    | ok floor => exact absurd ⟨isCut, isFloor⟩ (none cut floor)

theorem consensusAt_unread (none : ∀ cut floor, ¬Clocks asOf cut floor) :
    consensusAt reading rows asOf currency = consensusAt reading others asOf currency := by
  unfold consensusAt
  cases isCut : asOf.utc with
  | error unread => rfl
  | ok cut =>
    cases isFloor : instantOf (cut - consensusWindow) with
    | error unread => simp only [bind, Except.bind, isFloor]
    | ok floor => exact absurd ⟨isCut, isFloor⟩ (none cut floor)

theorem gridConsensusAt_error {snapshotId market : String} (pinning : Pinning reading asOf snapshotId market)
    (none : ∀ cut floor, ¬Clocks asOf cut floor) :
    gridConsensusAt reading (some rows) asOf "USD" (some snapshotId) market = .error .overflow := by
  obtain ⟨offset, isOffset⟩ := Option.ne_none_iff_exists'.mp pinning.zoned
  have listed : market ∈ ["NASDAQ", "NYSE", "B3"] := by
    rcases pinning.market with rfl | rfl <;> decide
  have covered : market ≠ "B3" := by
    rcases pinning.market with rfl | rfl <;> decide
  unfold gridConsensusAt
  cases isCut : asOf.utc with
  | error unread => simp only [isOffset, bind, Except.bind, overflowed, Option.isNone_some, Bool.false_eq_true, if_false]
  | ok cut =>
    have again := utc_again pinning.zoned isCut
    obtain ⟨unread, frozen⟩ := @consensusAt_error reading "USD" rows ⟨cut, some 0⟩ fun other floor clocks => by
      obtain ⟨isOther, isFloor⟩ := clocks
      rw [again] at isOther
      cases isOther
      exact none cut floor ⟨isCut, isFloor⟩
    simp only [isOffset, listed, covered, pinning.snapshot, frozen, bind, Except.bind, overflowed,
      Option.isNone_some, Bool.false_eq_true, if_false, not_true_eq_false, ne_eq, Option.filter_some, decide_true,
      if_true, not_false_eq_true]

theorem memberOf_error {house : String} {pinned : Pinned} {error : GridError}
    (raised : memberOf reading house pinned = .error error) : error = .unencodable := by
  unfold memberOf at raised
  split at raised
  · cases raised
    rfl
  · cases raised

theorem members_error {entries : List (String × Pinned)} {error : GridError}
    (raised : (entries.mapM fun entry => memberOf reading entry.1 entry.2) = .error error) : error = .unencodable := by
  induction entries with
  | nil => cases raised
  | cons entry rest ih =>
    rw [List.mapM_cons] at raised
    rcases bind_error raised with here | ⟨member, _, later⟩
    · exact memberOf_error here
    · rcases bind_error later with there | ⟨members, _, never⟩
      · exact ih there
      · cases never

theorem members_ok {entries : List (String × Pinned)} {members : List HouseMember}
    (made : (entries.mapM fun entry => memberOf reading entry.1 entry.2) = .ok members) :
    members.map HouseMember.told = entries.map fun entry => (entry.1, entry.2.toTarget) := by
  induction entries generalizing members with
  | nil =>
    cases made
    rfl
  | cons entry rest ih =>
    rw [List.mapM_cons] at made
    obtain ⟨member, isMember, made⟩ := bind_ok made
    obtain ⟨others, areOthers, made⟩ := bind_ok made
    cases made
    rw [List.map_cons, List.map_cons, ih areOthers]
    congr 1
    unfold memberOf at isMember
    split at isMember
    · cases isMember
    · cases isMember
      rfl

theorem members_made {entries : List (String × Pinned)}
    (hashed : ∀ entry ∈ entries, reading.canonicalHash entry.2.row ≠ none) :
    ∃ members, (entries.mapM fun entry => memberOf reading entry.1 entry.2) = .ok members := by
  cases made : entries.mapM fun entry => memberOf reading entry.1 entry.2 with
  | ok members => exact ⟨members, rfl⟩
  | error error =>
    exfalso
    induction entries with
    | nil => cases made
    | cons entry rest ih =>
      rw [List.mapM_cons] at made
      rcases bind_error made with here | ⟨member, _, later⟩
      · unfold memberOf at here
        split at here
        · rename_i unhashed
          exact hashed entry List.mem_cons_self unhashed
        · cases here
      · rcases bind_error later with there | ⟨members, _, never⟩
        · exact ih (fun other member => hashed other (List.mem_cons_of_mem _ member)) there
        · cases never

theorem never_mismatched (read : Option Rows) (asOf : Clock) (currency : String) (snapshotId : Option String)
    (market : String) : gridConsensusAt reading read asOf currency snapshotId market ≠
      .error (.notEvaluable .consensusReaderContractMismatch) := by
  intro mismatch
  have whole := mismatch
  unfold gridConsensusAt at mismatch
  cases isOffset : asOf.offset with
  | none => simp [isOffset, throw, throwThe, MonadExceptOf.throw, bind, Except.bind] at mismatch
  | some offset =>
    cases isCut : asOf.utc with
    | error unread => simp [isOffset, isCut, overflowed, bind, Except.bind] at mismatch
    | ok cut =>
      by_cases listed : market ∈ ["NASDAQ", "NYSE", "B3"]
      · by_cases paired : currency = if market = "B3" then "BRL" else "USD"
        · by_cases covered : market = "B3"
          · simp [isOffset, isCut, overflowed, paired, covered, bind, Except.bind, pure, Except.pure] at mismatch
          · have isDollar : currency = "USD" := by simpa [covered] using paired
            have isMarket : market = "NASDAQ" ∨ market = "NYSE" := by simpa [covered] using listed
            cases read with
            | none => simp [isOffset, isCut, overflowed, isDollar, covered, listed, bind, Except.bind, pure,
                Except.pure] at mismatch
            | some rows =>
              cases snapshotId with
              | none => simp [isOffset, isCut, overflowed, isDollar, covered, listed, bind, Except.bind, pure,
                  Except.pure] at mismatch
              | some id =>
                by_cases blank : reading.strip id = ""
                · simp [isOffset, isCut, overflowed, isDollar, covered, listed, blank, Option.filter, bind, Except.bind,
                    pure, Except.pure] at mismatch
                · subst isDollar
                  have pinning : Pinning reading asOf id market := ⟨by simp [isOffset], isMarket, blank⟩
                  cases isFloor : instantOf (cut - consensusWindow) with
                  | error unread =>
                    rw [gridConsensusAt_error pinning fun other floor clocks => by
                      obtain ⟨isOther, found⟩ := clocks
                      rw [isCut] at isOther
                      cases isOther
                      rw [isFloor] at found
                      cases found] at whole
                    cases whole
                  | ok floor =>
                    rw [gridConsensusAt_eq pinning isCut isFloor] at whole
                    split at whole
                    · cases whole
                    · unfold members at whole
                      cases made : (byHouse (reading.selected cut floor "USD" rows)).mapM fun entry =>
                          memberOf reading entry.1 entry.2 with
                      | error raised =>
                        rw [made, members_error made] at whole
                        cases whole
                      | ok list =>
                        rw [made] at whole
                        cases whole
        · simp [isOffset, isCut, overflowed, paired, listed, throw, throwThe, MonadExceptOf.throw, bind, Except.bind]
            at mismatch
      · simp [isOffset, isCut, overflowed, listed, throw, throwThe, MonadExceptOf.throw, bind, Except.bind] at mismatch

end Raises

section Agreement

theorem selected_row {entry : String × Pinned} (found : entry ∈ (reading.selected cut floor currency rows).entries) :
    some entry.2.row ∈ rows := by
  obtain ⟨house, pinned⟩ := entry
  have kept : (reading.selected cut floor currency rows).get? house = some pinned := Dict.mem_entries.mp found
  unfold Reading.selected at kept
  rw [newest_get?] at kept
  obtain ⟨member, _⟩ := latest_spec kept
  obtain ⟨item, listed, isPinned⟩ := List.mem_map.mp member
  obtain ⟨⟨row, index⟩, place, isItem⟩ := List.mem_filterMap.mp (List.mem_of_mem_filter listed)
  have inside : row ∈ rows := by
    have same := List.mem_map_of_mem (f := Prod.fst) place
    rwa [List.zipIdx_map_fst] at same
  unfold Reading.pinned at isItem
  split at isItem
  · rename_i own house target isRow eligible
    cases isItem
    cases isPinned
    simp only at isRow
    rw [← isRow]
    exact inside
  · cases isItem

theorem agree {snapshotId market : String} (pinning : Pinning reading asOf snapshotId market)
    (hashed : ∀ row, some row ∈ rows → reading.canonicalHash row ≠ none) :
    Agree reading rows asOf snapshotId market := by
  unfold Agree
  by_cases windowed : ∃ cut floor, Clocks asOf cut floor
  · obtain ⟨cut, floor, isCut, isFloor⟩ := windowed
    rw [consensusAt_eq isCut isFloor, gridConsensusAt_eq pinning isCut isFloor]
    cases rows.any reading.overflows with
    | true => rfl
    | false =>
      obtain ⟨list, made⟩ := @members_made reading (byHouse (reading.selected cut floor "USD" rows)) fun entry listed =>
        hashed _ (selected_row ((stableSort_perm _ _).subset listed))
      have told := members_ok made
      have sorted : (byHouse (reading.selected cut floor "USD" rows)).Perm (reading.selected cut floor "USD" rows).entries :=
        stableSort_perm _ _
      have chosen : (list.map HouseMember.told).Perm (reading.chosen cut floor "USD" rows).entries := by
        rw [told]
        exact (sorted.map _).trans (@targets_perm reading cut floor "USD" rows)
      have targets : (list.map HouseMember.target).Perm
          (((reading.chosen cut floor "USD" rows).entries.map Prod.snd).map Target.target) := by
        have same := (chosen.map Prod.snd).map Target.target
        rw [List.map_map, List.map_map] at same
        exact same
      have clocks : (list.map HouseMember.publishedAt).Perm
          (((reading.chosen cut floor "USD" rows).entries.map Prod.snd).map Target.published) := by
        have same := (chosen.map Prod.snd).map Target.published
        rw [List.map_map, List.map_map] at same
        exact same
      have isMembers : members reading (reading.selected cut floor "USD" rows) = .ok list := made
      simp only [Bool.false_eq_true, if_false, isMembers, Except.map]
      unfold summary evaluation
      simp only [selected_size]
      by_cases few : (reading.chosen cut floor "USD" rows).size < minConsensusHouses
      · simp only [if_pos few]
        exact ⟨_, rfl, rfl, rfl⟩
      · simp only [if_neg few]
        have agreed := @same_targets reading cut floor "USD" rows
        have mean : meanOf (((reading.selected cut floor "USD" rows).entries.map fun entry => entry.2.toTarget).map
            Target.target) = meanOf (list.map HouseMember.target) :=
          meanOf_perm ((agreed.map Target.target).trans targets.symm)
        have nonempty : (reading.chosen cut floor "USD" rows).entries.map Prod.snd ≠ [] := by
          intro none
          have empty : (reading.chosen cut floor "USD" rows).size = 0 := by
            unfold Dict.size
            rw [List.map_eq_nil_iff.mp none]
            rfl
          rw [empty] at few
          exact few (by decide)
        refine ⟨_, _, rfl, mean, rfl, rfl, ?_, ?_, ?_⟩
        · refine ⟨⟨cut, floor, ⟨isCut, isFloor⟩, chosen⟩, ?_, ?_, ?_⟩
          · simpa [Dict.size] using chosen.length_eq.symm
          · unfold targetMedian
            simp only
            rw [insertionSort_congr targets.symm]
          · simp only
            rw [← latestOf_some nonempty]
            exact max?_perm clocks
        · rw [targetMedian_perm agreed]
        · rw [latestOf_perm agreed]
  · have none : ∀ cut floor, ¬Clocks asOf cut floor := fun cut floor clocks => windowed ⟨cut, floor, clocks⟩
    obtain ⟨unread, frozen⟩ := @consensusAt_error reading "USD" rows asOf none
    rw [frozen]
    exact gridConsensusAt_error pinning none

end Agreement

section Order

/-- An eligible row, wherever it stands. -/
def Reading.bare (reading : Reading) (cut floor : Int) (currency : String) (row : Option Row) : Option (String × Pinned) :=
  reading.pinned cut floor currency (row, 0)

theorem selected_bare (rows : Rows) (house : String) :
    ((reading.selected cut floor currency rows).get? house).map Pinned.unindexed =
      (newest (fun kept : Pinned => kept.published) (rows.filterMap (reading.bare cut floor currency))).get? house := by
  have items : rows.filterMap (reading.bare cut floor currency) =
      (rows.zipIdx.filterMap (reading.pinned cut floor currency)).map (Prod.map id Pinned.unindexed) := by
    conv_lhs => rw [← List.zipIdx_map_fst 0 rows]
    rw [List.filterMap_map, List.map_filterMap]
    congr 1
    funext entry
    obtain ⟨row, index⟩ := entry
    show reading.bare cut floor currency row = _
    unfold Reading.bare Reading.pinned
    cases row with
    | none => rfl
    | some row =>
      simp only
      cases reading.eligible cut floor currency (some row) with
      | none => rfl
      | some found => rfl
  rw [items]
  exact (@newest_map String Pinned Int _ _ Pinned (fun kept => kept.published) (fun kept => kept.published)
    Pinned.unindexed (fun _ => rfl) _ house).symm

theorem bare_target (rows : Rows) : rows.filterMap (reading.eligible cut floor currency) =
    (rows.filterMap (reading.bare cut floor currency)).map (Prod.map id Pinned.toTarget) := by
  rw [List.map_filterMap]
  apply List.filterMap_congr
  intro row _
  unfold Reading.bare Reading.pinned
  cases row with
  | none => rfl
  | some row =>
    simp only
    cases reading.eligible cut floor currency (some row) with
    | none => rfl
    | some found => rfl

theorem selected_perm (same : rows.Perm others)
    (untied : Library.Untied Target.published (rows.filterMap (reading.eligible cut floor currency))) :
    Alike (reading.selected cut floor currency rows) (reading.selected cut floor currency others) := by
  intro house
  rw [selected_bare, selected_bare]
  refine newest_perm (same.filterMap _) ?_ house
  rw [bare_target] at untied
  exact List.pairwise_map.mp untied

theorem chosen_perm (same : rows.Perm others)
    (untied : Library.Untied Target.published (rows.filterMap (reading.eligible cut floor currency))) (house : String) :
    (reading.chosen cut floor currency rows).get? house = (reading.chosen cut floor currency others).get? house :=
  newest_perm (same.filterMap _) untied house

theorem counted_perm {refused more : List Refusal} (same : refused.Perm more) : counted refused = counted more := by
  unfold counted
  congr 1
  apply List.map_congr_left
  intro refusal _
  rw [same.count_eq]

theorem summary_congr {first second : Dict String Target} (same : ∀ house, first.get? house = second.get? house)
    {refused more : List Refusal} (counts : refused.Perm more) :
    summary currency first refused = summary currency second more := by
  have entries := @Dict.entries_perm String Target _ Target second first id fun house => by rw [same, Option.map_id_apply]
  simp only [id, List.map_id'] at entries
  have size : first.size = second.size := entries.length_eq
  have targets := entries.map Prod.snd
  unfold summary
  simp only [size, targetMedian_perm targets, latestOf_perm targets, counted_perm counts,
    counted_perm (counts.append_right [.housesBelowMinimum])]

theorem any_perm (same : rows.Perm others) : rows.any reading.overflows = others.any reading.overflows := by
  apply Bool.eq_iff_iff.mpr
  rw [List.any_eq_true, List.any_eq_true]
  constructor
  · rintro ⟨row, listed, raises⟩
    exact ⟨row, same.subset listed, raises⟩
  · rintro ⟨row, listed, raises⟩
    exact ⟨row, same.symm.subset listed, raises⟩

theorem reordered {snapshotId market : String} (pinning : Pinning reading asOf snapshotId market)
    (same : rows.Perm others) (untied : reading.Untied asOf rows) :
    consensusAt reading rows asOf "USD" = consensusAt reading others asOf "USD" ∧
      unindexed (gridConsensusAt reading (some rows) asOf "USD" (some snapshotId) market) =
        unindexed (gridConsensusAt reading (some others) asOf "USD" (some snapshotId) market) := by
  by_cases windowed : ∃ cut floor, Clocks asOf cut floor
  · obtain ⟨cut, floor, isCut, isFloor⟩ := windowed
    have apart := untied cut floor ⟨isCut, isFloor⟩
    have refused := same.filterMap (reading.refusal cut floor "USD")
    rw [consensusAt_eq isCut isFloor, consensusAt_eq isCut isFloor, gridConsensusAt_eq pinning isCut isFloor,
      gridConsensusAt_eq pinning isCut isFloor, any_perm same]
    cases others.any reading.overflows with
    | true => exact ⟨rfl, rfl⟩
    | false =>
      simp only [Bool.false_eq_true, if_false]
      refine ⟨?_, ?_⟩
      · rw [summary_congr (chosen_perm same apart) refused]
      · exact evaluation_unindexed (selected_perm same apart) snapshotId fun extra =>
          counted_perm (refused.append_right extra)
  · have none : ∀ cut floor, ¬Clocks asOf cut floor := fun cut floor clocks => windowed ⟨cut, floor, clocks⟩
    rw [gridConsensusAt_error pinning none, gridConsensusAt_error pinning none]
    exact ⟨consensusAt_unread none, rfl⟩

end Order

section Window

theorem outside_ineligible {row : Option Row} (out : reading.outside cut floor row = true) :
    reading.eligible cut floor currency row = none ∧ reading.overflows row = false := by
  unfold Reading.outside at out
  cases row with
  | none => cases out
  | some row =>
    unfold Reading.eligible Reading.verdict Reading.overflows
    simp only at out ⊢
    cases instant : reading.instant (row.read "publishedDate") with
    | error unread =>
      rw [instant] at out
      cases out
    | ok published =>
      rw [instant] at out
      refine ⟨?_, rfl⟩
      simp only [decide_eq_true_eq] at out
      cases reading.positive (row.read "priceTarget") with
      | none => rfl
      | some target =>
        simp only
        split_ifs with unnamed after older
        · rfl
        · rfl
        · rfl
        · exact absurd out (not_or.mpr ⟨after, older⟩)
        · exact absurd out (not_or.mpr ⟨after, older⟩)
        · exact absurd out (not_or.mpr ⟨after, older⟩)

theorem filterMap_inside {A : Type} (kept : Option Row → Option A)
    (dropped : ∀ row, reading.outside cut floor row = true → kept row = none) (rows : Rows) :
    rows.filterMap kept = (rows.filter fun row => !reading.outside cut floor row).filterMap kept := by
  rw [List.filterMap_filter]
  apply List.filterMap_congr
  intro row _
  cases out : reading.outside cut floor row with
  | false => rfl
  | true => exact dropped row out

theorem any_inside (rows : Rows) : rows.any reading.overflows =
    (rows.filter fun row => !reading.outside cut floor row).any reading.overflows := by
  rw [List.any_filter]
  congr 1
  funext row
  cases out : reading.outside cut floor row with
  | false => rfl
  | true => exact (@outside_ineligible reading cut floor "" row out).2

theorem windowed {snapshotId market : String} (pinning : Pinning reading asOf snapshotId market)
    (same : reading.SameWindow asOf rows others) :
    (consensusAt reading rows asOf "USD").map Prod.fst = (consensusAt reading others asOf "USD").map Prod.fst ∧
      unreported (gridConsensusAt reading (some rows) asOf "USD" (some snapshotId) market) =
        unreported (gridConsensusAt reading (some others) asOf "USD" (some snapshotId) market) := by
  by_cases windowed : ∃ cut floor, Clocks asOf cut floor
  · obtain ⟨cut, floor, isCut, isFloor⟩ := windowed
    have inside := same cut floor ⟨isCut, isFloor⟩
    have eligible : rows.filterMap (reading.eligible cut floor "USD") = others.filterMap (reading.eligible cut floor "USD") := by
      rw [filterMap_inside _ (fun row out => (outside_ineligible out).1) rows, inside,
        ← filterMap_inside _ (fun row out => (outside_ineligible out).1) others]
    have pinned : ∀ row, reading.outside cut floor row = true → reading.bare cut floor "USD" row = none := by
      intro row out
      unfold Reading.bare Reading.pinned
      simp only [(@outside_ineligible reading cut floor "USD" row out).1]
    have bare : rows.filterMap (reading.bare cut floor "USD") = others.filterMap (reading.bare cut floor "USD") := by
      rw [filterMap_inside _ pinned rows, inside, ← filterMap_inside _ pinned others]
    have alike : Alike (reading.selected cut floor "USD" rows) (reading.selected cut floor "USD" others) := by
      intro house
      rw [selected_bare, selected_bare, bare]
    have raises : rows.any reading.overflows = others.any reading.overflows := by
      rw [@any_inside reading cut floor rows, inside, ← any_inside]
    rw [consensusAt_eq isCut isFloor, consensusAt_eq isCut isFloor, gridConsensusAt_eq pinning isCut isFloor,
      gridConsensusAt_eq pinning isCut isFloor, raises]
    cases others.any reading.overflows with
    | true => exact ⟨rfl, rfl⟩
    | false =>
      simp only [Bool.false_eq_true, if_false]
      refine ⟨?_, ?_⟩
      · unfold Reading.chosen
        rw [eligible]
        unfold summary
        simp only [Except.map]
        split <;> rfl
      · have first := congrArg (Except.map (Prod.map id fun receipt : ConsensusReceipt => { receipt with refused := [] }))
          (@evaluation_unindexed reading cut "USD" _ _ alike snapshotId
            (rows.filterMap (reading.refusal cut floor "USD")) _ fun _ => rfl)
        refine first.trans ?_
        cases members reading (reading.selected cut floor "USD" others) with
        | error raised => rfl
        | ok list =>
          unfold evaluation
          simp only [Except.map, unindexed, unreported]
          split <;> rfl
  · have none : ∀ cut floor, ¬Clocks asOf cut floor := fun cut floor clocks => windowed ⟨cut, floor, clocks⟩
    rw [gridConsensusAt_error pinning none, gridConsensusAt_error pinning none, consensusAt_unread none]
    exact ⟨rfl, rfl⟩

end Window

/-- The readers agree on every list of rows, in any order, and on what the window holds alone. -/
theorem consensus_readers (reading : Reading) :
    (∀ read asOf currency snapshotId market, gridConsensusAt reading read asOf currency snapshotId market ≠
      .error (.notEvaluable .consensusReaderContractMismatch)) ∧
    ∀ asOf snapshotId market, Pinning reading asOf snapshotId market → ∀ rows : Rows,
      ((∀ row, some row ∈ rows → reading.canonicalHash row ≠ none) → Agree reading rows asOf snapshotId market) ∧
      (∀ others, rows.Perm others → reading.Untied asOf rows →
        consensusAt reading rows asOf "USD" = consensusAt reading others asOf "USD" ∧
          unindexed (gridConsensusAt reading (some rows) asOf "USD" (some snapshotId) market) =
            unindexed (gridConsensusAt reading (some others) asOf "USD" (some snapshotId) market)) ∧
      ∀ others, reading.SameWindow asOf rows others →
        (consensusAt reading rows asOf "USD").map Prod.fst = (consensusAt reading others asOf "USD").map Prod.fst ∧
          unreported (gridConsensusAt reading (some rows) asOf "USD" (some snapshotId) market) =
            unreported (gridConsensusAt reading (some others) asOf "USD" (some snapshotId) market) :=
  ⟨never_mismatched, fun _ _ _ pinning _ => ⟨agree pinning, fun _ => reordered pinning, fun _ => windowed pinning⟩⟩

section Example

private def july : Clock := ⟨63760708800000000, some 0⟩

private def plain : Reading where
  truthy _ := true
  str value := match value with
    | .text text => text
    | _ => "None"
  float value := match value with
    | .number number => some number
    | _ => none
  fromisoformat text :=
    if text = "2021-06-30T04:00:00+00:00" then some ⟨63760622400000000, some 0⟩
    else if text = "2021-07-02T04:00:00+00:00" then some ⟨63760795200000000, some 0⟩ else none
  strip text := text
  upper text := text
  canonicalHash _ := some "hash"

private def rowOf (house : String) (target : ℚ) (published currency : String) : Option Row :=
  some ⟨[("analystCompany", .text house), ("priceTarget", .number (.finite target)), ("publishedDate", .text published),
    ("currency", .text currency)],
    show ["analystCompany", "priceTarget", "publishedDate", "currency"].Nodup by decide⟩

private def threeRows (currency : String) : Rows :=
  [rowOf "A" 10 "2021-06-30T04:00:00+00:00" currency, rowOf "B" 20 "2021-06-30T04:00:00+00:00" currency,
    rowOf "C" 90 "2021-06-30T04:00:00+00:00" currency]

private def laterRow : Option Row := rowOf "A" 1000 "2021-07-02T04:00:00+00:00" "USD"

private theorem july_clocks {cut floor : Int} (clocks : Clocks july cut floor) :
    cut = 63760708800000000 ∧ floor = 63752932800000000 := by
  obtain ⟨isCut, isFloor⟩ := clocks
  have known : july.utc = .ok 63760708800000000 := by decide
  cases known.symm.trans isCut
  have window : instantOf (63760708800000000 - consensusWindow) = .ok 63752932800000000 := by decide
  cases window.symm.trans isFloor
  exact ⟨rfl, rfl⟩

/-- Three houses, in either order and with a row of the day after T. -/
theorem consensus_readers_three :
    Agree plain (threeRows "USD") july "snapshot" "NASDAQ" ∧
      consensusAt plain (threeRows "USD") july "USD" = consensusAt plain (threeRows "USD").reverse july "USD" ∧
      (consensusAt plain (laterRow :: threeRows "USD") july "USD").map Prod.fst =
        (consensusAt plain (threeRows "USD") july "USD").map Prod.fst := by
  have pinning : Pinning plain july "snapshot" "NASDAQ" := ⟨by decide, .inl rfl, by decide⟩
  obtain ⟨agreed, reordered, _⟩ := (consensus_readers plain).2 july "snapshot" "NASDAQ" pinning (threeRows "USD")
  have windowed := ((consensus_readers plain).2 july "snapshot" "NASDAQ" pinning (laterRow :: threeRows "USD")).2.2
  refine ⟨agreed fun row _ => nofun, (reordered _ (List.reverse_perm _).symm ?_).1, (windowed (threeRows "USD") ?_).1⟩
  · intro cut floor clocks
    obtain ⟨rfl, rfl⟩ := july_clocks clocks
    unfold Library.Untied
    decide +kernel
  · intro cut floor clocks
    obtain ⟨rfl, rfl⟩ := july_clocks clocks
    decide +kernel

/-- The B3 has a block and no evaluation, and the places of the rows stand in the receipt. -/
theorem consensus_readers_uncovered :
    consensusAt plain (threeRows "BRL") july "BRL" = .ok (some ⟨20, 3, 63760622400000000, "BRL"⟩, []) ∧
      (gridConsensusAt plain (some (threeRows "BRL")) july "BRL" (some "snapshot") "B3").map Prod.fst = .ok none ∧
      gridConsensusAt plain (some (threeRows "USD")) july "USD" (some "snapshot") "NASDAQ" ≠
        gridConsensusAt plain (some (threeRows "USD").reverse) july "USD" (some "snapshot") "NASDAQ" ∧
      consensusAt plain (laterRow :: threeRows "USD") july "USD" ≠ consensusAt plain (threeRows "USD") july "USD" := by
  decide +kernel

end Example
end C3po.Ensemble
