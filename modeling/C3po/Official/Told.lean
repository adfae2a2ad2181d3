import C3po.Official.Final

/-! The ledger tells what was served: each completed capture leaves it in agreement with
the head it read, whatever the captures before it missed.

Of the records of one generation and symbol the first is exact, since what the generation
serves is final; no later capture of that generation has anything to append, and the
unique key drops nothing.
-/

set_option autoImplicit false

namespace C3po.Official
open C3po.Library

variable {Digest : Type} {setting : Setting Digest} {store next : Store}

/-- The values of a record, before there is one. -/
def lastValues (ledger : List Change) (key : String × String) : Values :=
  ((latestValuationChange ledger key).map Change.new).getD Values.unknown

/-- A record tells what its generation serves. -/
def Exact (store : Store) (record : Change) : Prop :=
  ∃ head ∈ store.generations, ∃ item, Serves store head record.market record.symbol item ∧
    record.generationId = some head.id ∧ record.tpSource = some item.tpSource ∧ record.new = servedValues item

/-- A record that may follow a ledger: past the records of its symbol, of a generation none
of them is of or later than, and starting from the values of the latest. -/
structure Follows (store : Store) (ledger : List Change) (record : Change) : Prop where
  exact : Exact store record
  past : ∀ earlier ∈ ledger, earlier.key = record.key → earlier.changedAt < record.changedAt
  newer : ∀ earlier ∈ ledger, earlier.key = record.key → ∀ first second,
    earlier.generationId = some first → record.generationId = some second → first < second
  old : record.old = lastValues ledger record.key

/-- A legacy ledger, and after it records each of which follows those before. -/
inductive Told (store : Store) (legacy : List Change) : List Change → Prop where
  | start : Told store legacy legacy
  | append {ledger : List Change} {record : Change} (told : Told store legacy ledger)
      (follows : Follows store ledger record) : Told store legacy (ledger ++ [record])

section Latest
variable {ledger : List Change} {record : Change} {key : String × String}

theorem latest_own (past : ∀ earlier ∈ ledger, earlier.key = record.key → earlier.changedAt < record.changedAt) :
    latestValuationChange (ledger ++ [record]) record.key = some record := by
  unfold latestValuationChange
  rw [List.filter_append, List.filter_singleton, decide_eq_true rfl]
  refine latest_reverse_snoc fun earlier member => ?_
  obtain ⟨there, same⟩ := List.mem_filter.mp member
  exact (past earlier there (of_decide_eq_true same)).le

theorem latest_other (apart : record.key ≠ key) :
    latestValuationChange (ledger ++ [record]) key = latestValuationChange ledger key := by
  unfold latestValuationChange
  rw [List.filter_append, List.filter_singleton, decide_eq_false apart]
  exact congrArg _ (congrArg _ (List.append_nil _))

theorem latest_untouched {records : List Change} (apart : ∀ record ∈ records, record.key ≠ key) :
    latestValuationChange (ledger ++ records) key = latestValuationChange ledger key := by
  have none : (records.filter fun record => decide (record.key = key)) = [] :=
    List.filter_eq_nil_iff.mpr fun record member same => apart record member (of_decide_eq_true same)
  unfold latestValuationChange
  rw [List.filter_append, none, List.append_nil]

theorem latest_appended {records : List Change} (member : record ∈ records)
    (apart : records.Pairwise fun first second => first.key ≠ second.key)
    (past : ∀ earlier ∈ ledger, earlier.key = record.key → earlier.changedAt < record.changedAt) :
    latestValuationChange (ledger ++ records) record.key = some record := by
  obtain ⟨front, back, rfl⟩ := List.append_of_mem member
  rw [List.pairwise_append, List.pairwise_cons] at apart
  obtain ⟨_, ⟨behind, _⟩, before⟩ := apart
  have whole : ledger ++ (front ++ record :: back) = ledger ++ front ++ [record] ++ back := by simp
  rw [whole, latest_untouched fun other otherIn => (behind other otherIn).symm]
  refine latest_own fun earlier earlierIn same => ?_
  rcases List.mem_append.mp earlierIn with there | new
  · exact past earlier there same
  · exact absurd same (before earlier new record List.mem_cons_self)

theorem latest_mem {latest : Change} (found : latestValuationChange ledger key = some latest) :
    latest ∈ ledger ∧ latest.key = key ∧ ∀ earlier ∈ ledger, earlier.key = key → earlier.changedAt ≤ latest.changedAt := by
  obtain ⟨member, bound⟩ := latest_spec found
  obtain ⟨there, same⟩ := List.mem_filter.mp (List.mem_reverse.mp member)
  exact ⟨there, of_decide_eq_true same, fun earlier earlierIn own =>
    bound earlier (List.mem_reverse.mpr (List.mem_filter.mpr ⟨earlierIn, decide_eq_true own⟩))⟩

theorem latest_absent (none : latestValuationChange ledger key = none) : ∀ earlier ∈ ledger, earlier.key ≠ key := by
  intro earlier member same
  have empty := List.reverse_eq_nil_iff.mp (latest_none.mp none)
  exact absurd (decide_eq_true same) (List.filter_eq_nil_iff.mp empty earlier member)

end Latest

section Told
variable {legacy ledger : List Change}

theorem Exact.later {record : Change} (sound : Sound setting store) (later : (official setting).Later store next)
    (exact : Exact store record) : Exact next record := by
  obtain ⟨head, member, item, serves, facts⟩ := exact
  refine ⟨head, (later_grows later).generations.subset member, item, ?_, facts⟩
  exact ((sound.whole head member).serves_final sound later).mpr serves

theorem Told.later (sound : Sound setting store) (later : (official setting).Later store next)
    (told : Told store legacy ledger) : Told next legacy ledger := by
  induction told with
  | start => exact .start
  | append _ follows ih => exact ih.append { follows with exact := follows.exact.later sound later }

theorem Told.mem (told : Told store legacy ledger) {record : Change} (member : record ∈ ledger) :
    record ∈ legacy ∨ Exact store record := by
  induction told with
  | start => exact .inl member
  | append _ follows ih =>
    rcases List.mem_append.mp member with earlier | new
    · exact ih earlier
    · rw [List.mem_singleton.mp new]
      exact .inr follows.exact

theorem Told.latest (old : ∀ record ∈ legacy, record.legacy) (told : Told store legacy ledger) {record : Change}
    {first : ℕ} (member : record ∈ ledger) (known : record.generationId = some first) :
    ∃ latest second, latestValuationChange ledger record.key = some latest ∧ latest.generationId = some second ∧
      first ≤ second := by
  induction told with
  | start =>
    rw [(old record member).2] at known
    cases known
  | append told follows ih =>
    rename_i ledger last
    rcases List.mem_append.mp member with earlier | new
    · by_cases own : last.key = record.key
      · obtain ⟨head, _, _, _, ofHead, _⟩ := follows.exact
        have before := follows.newer record earlier own.symm first head.id known ofHead
        exact ⟨last, head.id, own ▸ latest_own follows.past, ofHead, before.le⟩
      · obtain ⟨latest, second, found, facts⟩ := ih earlier
        exact ⟨latest, second, (latest_other own).trans found, facts⟩
    · cases List.mem_singleton.mp new
      exact ⟨record, first, latest_own follows.past, known, le_rfl⟩

theorem Follows.append {record other : Change} (follows : Follows store ledger record) (apart : other.key ≠ record.key) :
    Follows store (ledger ++ [other]) record where
  exact := follows.exact
  past := by
    intro earlier member same
    rcases List.mem_append.mp member with there | new
    · exact follows.past earlier there same
    · exact absurd (List.mem_singleton.mp new ▸ same) apart
  newer := by
    intro earlier member same
    rcases List.mem_append.mp member with there | new
    · exact follows.newer earlier there same
    · exact absurd (List.mem_singleton.mp new ▸ same) apart
  old := by
    unfold lastValues
    rw [latest_other apart]
    exact follows.old

theorem Follows.inserted {record : Change} (follows : Follows store ledger record) :
    insertValuationChange ledger record = ledger ++ [record] := by
  unfold insertValuationChange
  split
  · rename_i held
    obtain ⟨other, member, same⟩ := List.any_eq_true.mp held
    obtain ⟨alike, own⟩ := of_decide_eq_true same
    obtain ⟨head, _, _, _, ofHead, _⟩ := follows.exact
    exact absurd (follows.newer other member own head.id head.id (alike.trans ofHead) ofHead) (lt_irrefl _)
  · rfl

theorem Told.stored {records : List Change} (told : Told store legacy ledger)
    (follows : ∀ record ∈ records, Follows store ledger record)
    (apart : records.Pairwise fun first second => first.key ≠ second.key) :
    storeValuationChanges ledger records = ledger ++ records ∧ Told store legacy (ledger ++ records) := by
  induction records generalizing ledger with
  | nil =>
    rw [List.append_nil]
    exact ⟨rfl, told⟩
  | cons record rest ih =>
    rw [List.pairwise_cons] at apart
    have first := follows record List.mem_cons_self
    obtain ⟨stored, after⟩ := ih (told.append first)
      (fun other member => (follows other (List.mem_cons_of_mem _ member)).append (apart.1 other member)) apart.2
    rw [List.append_assoc, List.singleton_append] at stored after
    unfold storeValuationChanges at stored ⊢
    rw [List.foldl_cons, first.inserted]
    exact ⟨stored, after⟩

section Whole
variable (old : ∀ record ∈ legacy, record.legacy) (told : Told store legacy ledger)
include told

theorem Told.grown : ∃ appended, ledger = legacy ++ appended ∧
    ∀ record ∈ appended, record.tpSource.isSome ∧ record.generationId.isSome := by
  induction told with
  | start => exact ⟨[], (List.append_nil legacy).symm, fun _ member => nomatch member⟩
  | @append _ record _ follows ih =>
    obtain ⟨appended, rfl, served⟩ := ih
    refine ⟨appended ++ [record], List.append_assoc .., fun other member => ?_⟩
    rcases List.mem_append.mp member with there | new
    · exact served other there
    · obtain ⟨_, _, _, _, ofHead, ofSource, _⟩ := follows.exact
      rw [List.mem_singleton.mp new, ofHead, ofSource]
      exact ⟨rfl, rfl⟩

include old

theorem Told.clocks : ledger.Pairwise fun earlier record =>
    record.tpSource ≠ none → earlier.key = record.key → earlier.changedAt < record.changedAt := by
  induction told with
  | start => exact List.pairwise_of_forall_mem_list fun _ _ record member served => absurd (old record member).1 served
  | append _ follows ih =>
    refine List.pairwise_append.mpr ⟨ih, List.pairwise_singleton .., fun earlier member record new _ => ?_⟩
    rw [List.mem_singleton.mp new]
    exact follows.past earlier member

theorem Told.once : ledger.Pairwise fun earlier record =>
    record.generationId ≠ none → earlier.key = record.key → earlier.generationId ≠ record.generationId := by
  induction told with
  | start => exact List.pairwise_of_forall_mem_list fun _ _ record member served => absurd (old record member).2 served
  | append _ follows ih =>
    refine List.pairwise_append.mpr ⟨ih, List.pairwise_singleton .., fun earlier member record new _ own same => ?_⟩
    rw [List.mem_singleton.mp new] at own same
    obtain ⟨head, _, _, _, ofHead, _⟩ := follows.exact
    exact absurd (follows.newer earlier member own head.id head.id (same.trans ofHead) ofHead) (lt_irrefl _)

theorem Told.chained (before : List Change) (record : Change) (after : List Change)
    (split : ledger = before ++ record :: after) (served : record.tpSource ≠ none) :
    record.old = lastValues before record.key := by
  induction told generalizing after with
  | start => exact absurd (old record (by rw [split]; simp)).1 served
  | append _ follows ih =>
    rcases List.eq_nil_or_concat after with rfl | ⟨front, last, rfl⟩
    · obtain ⟨rfl, same⟩ := List.append_inj' split rfl
      cases List.singleton_inj.mp same
      exact follows.old
    · rw [List.concat_eq_append, ← List.cons_append, ← List.append_assoc] at split
      exact ih front (List.append_inj' split rfl).1

end Whole
end Told

section Shown

/-- The numbers show alike: two decimals, one for the confidence. -/
structure ShownAlike (shown served : Values) : Prop where
  tp : shown.tp.map (roundTo 2) = served.tp.map (roundTo 2)
  buyIn : shown.buyIn.map (roundTo 2) = served.buyIn.map (roundTo 2)
  consensusTp : shown.consensusTp.map (roundTo 2) = served.consensusTp.map (roundTo 2)
  confidence : shown.confidence.map (roundTo 1) = served.confidence.map (roundTo 1)

theorem ShownAlike.refl (values : Values) : ShownAlike values values := ⟨rfl, rfl, rfl, rfl⟩

theorem moved_iff {decimals : ℕ} {old new : Option ℚ} :
    moved decimals old new = false ↔ old.map (roundTo decimals) = new.map (roundTo decimals) := by
  cases old <;> cases new <;> simp [moved]

theorem servedChangedFields_nil {previous : Change} {values : Values} {source : Source} :
    servedChangedFields (some previous) values source = [] ↔
      ShownAlike previous.new values ∧ previous.tpSource = some source := by
  unfold servedChangedFields
  simp only [List.append_eq_nil_iff, List.map_eq_nil_iff, List.filter_eq_nil_iff, servedFields, List.forall_mem_cons,
    Bool.not_eq_true, moved_iff, ite_eq_right_iff, List.cons_ne_nil, imp_false, not_not]
  exact ⟨fun ⟨⟨tp, buyIn, consensusTp, confidence, _⟩, source⟩ => ⟨⟨tp, buyIn, consensusTp, confidence⟩, source⟩,
    fun ⟨alike, source⟩ => ⟨⟨alike.tp, alike.buyIn, alike.consensusTp, alike.confidence, fun _ member => nomatch member⟩,
      source⟩⟩

def Tells (store : Store) (ledger : List Change) (head : Generation) : Prop :=
  ∀ market symbol item, Serves store head market symbol item → ∀ tp, item.ourTp = some tp → 0 < tp →
    ∃ record, latestValuationChange ledger (market, symbol) = some record ∧ record.tpSource = some item.tpSource ∧
      ShownAlike record.new (servedValues item)

end Shown

section Capture
variable {legacy ledger : List Change} {head : Generation} {events : IrEvents}

theorem changeOf_some {key : String × String} {item : ServedRow} {record : Change}
    (found : changeOf events head ledger (key, item) = some record) : (positive item.ourTp).isSome ∧ ∃ fields,
      record = servedChange head key item (latestValuationChange ledger key) fields (events (irMarket key.1) key.2) ∧
        ∀ previous, latestValuationChange ledger key = some previous →
          servedChangedFields (some previous) (servedValues item) item.tpSource ≠ [] := by
  unfold changeOf at found
  simp only at found
  split at found
  · cases found
  · rename_i priced
    split at found
    · rename_i changed
      cases found
      refine ⟨Option.isSome_iff_ne_none.mpr fun none => priced (Option.isNone_iff_eq_none.mpr none), _, rfl,
        fun previous held empty => ?_⟩
      rw [held, empty] at changed
      simp at changed
    · cases found

theorem changeOf_none {key : String × String} {item : ServedRow} (served : (positive item.ourTp).isSome)
    (none : changeOf events head ledger (key, item) = none) : ∃ previous,
      latestValuationChange ledger key = some previous ∧ ShownAlike previous.new (servedValues item) ∧
        previous.tpSource = some item.tpSource := by
  unfold changeOf at none
  simp only at none
  split at none
  · rename_i absent
    change (positive item.ourTp).isNone = true at absent
    rw [Option.isNone_iff_eq_none] at absent
    rw [absent] at served
    cases served
  · split at none
    · cases none
    · rename_i same
      cases held : latestValuationChange ledger key with
      | none => simp [held] at same
      | some previous =>
        rw [held] at same
        have empty : servedChangedFields (some previous) (servedValues item) item.tpSource = [] := by simpa using same
        exact ⟨previous, rfl, servedChangedFields_nil.mp empty⟩

theorem recordAt_past {previous : Change} : previous.changedAt < recordAt head (some previous) := by
  change previous.changedAt < if head.activatedAt ≤ previous.changedAt then previous.changedAt + 1 else head.activatedAt
  split
  · exact lt_add_one previous.changedAt
  · rename_i before
    exact not_le.mp before

variable (sound : Sound setting store) (old : ∀ record ∈ legacy, record.legacy) (told : Told store legacy ledger)
  (member : head ∈ store.generations)
  (bound : ∀ record ∈ ledger, ∀ first, record.generationId = some first → first ≤ head.id)
include sound old told member bound

theorem changeOf_follows {key : String × String} {item : ServedRow} {record : Change}
    (serves : Serves store head key.1 key.2 item)
    (found : changeOf events head ledger (key, item) = some record) : Follows store ledger record := by
  obtain ⟨_, fields, rfl, changed⟩ := changeOf_some found
  exact
    { exact := ⟨head, member, item, serves, rfl, rfl, rfl⟩
      past := by
        intro earlier earlierIn same
        cases held : latestValuationChange ledger key with
        | none => exact absurd same (latest_absent held earlier earlierIn)
        | some previous => exact ((latest_mem held).2.2 earlier earlierIn same).trans_lt recordAt_past
      newer := by
        intro earlier earlierIn same first second known own
        cases own
        refine lt_of_le_of_ne (bound earlier earlierIn first known) fun same' => ?_
        subst same'
        -- a record of this generation would be the latest, and exact
        obtain ⟨latest, second, latestFound, ofSecond, above⟩ := told.latest old earlierIn known
        obtain ⟨latestIn, latestOwn, _⟩ := latest_mem latestFound
        have here : second = head.id := le_antisymm (bound latest latestIn second ofSecond) above
        subst here
        rcases told.mem latestIn with legacyIn | exact'
        · rw [(old latest legacyIn).2] at ofSecond
          cases ofSecond
        · obtain ⟨other, otherIn, otherItem, otherServes, ofOther, otherSource, otherNew⟩ := exact'
          have same' : other = head := List.inj_on_of_nodup_map sound.ids_nodup otherIn member
            (Option.some_inj.mp (ofOther.symm.trans ofSecond))
          subst same'
          have latestKey : (latest.market, latest.symbol) = key := latestOwn.trans same
          have whole := sound.whole other member
          have one := (whole.servedRows_iff sound).mpr otherServes
          rw [latestKey, (whole.servedRows_iff sound).mpr serves, Option.some_inj] at one
          subst one
          rw [same] at latestFound
          refine changed latest latestFound (servedChangedFields_nil.mpr ⟨?_, otherSource⟩)
          rw [otherNew]
          exact ShownAlike.refl _
      old := rfl }

omit sound old told member bound in
theorem servedChanges_apart (served : ServedRows) :
    (servedChanges events head served ledger).Pairwise fun first second => first.key ≠ second.key := by
  have distinct : (stableSort (fun entry : (String × String) × ServedRow => toLex entry.1) served.entries).Pairwise
      fun first second => first.1 ≠ second.1 := by
    exact List.pairwise_map.mp (((stableSort_perm _ served.entries).map Prod.fst).nodup_iff.mpr served.distinct)
  refine distinct.filterMap _ fun first second apart record found other otherFound => ?_
  obtain ⟨key, item⟩ := first
  obtain ⟨otherKey, otherItem⟩ := second
  obtain ⟨_, _, rfl, _⟩ := changeOf_some found
  obtain ⟨_, _, rfl, _⟩ := changeOf_some otherFound
  exact apart

variable {served : ServedRows}
  (reads : ∀ market symbol item, served.get? (market, symbol) = some item ↔ Serves store head market symbol item)
include reads

theorem Told.captured : ∃ records, captureServedValuationChanges events (some (head, served)) ledger = ledger ++ records ∧
    Told store legacy (ledger ++ records) ∧ Tells store (ledger ++ records) head := by
  have follows : ∀ record ∈ servedChanges events head served ledger, Follows store ledger record := by
    intro record recordIn
    obtain ⟨⟨⟨market, symbol⟩, item⟩, entryIn, found⟩ := List.mem_filterMap.mp recordIn
    have serves := (reads market symbol item).mp (Dict.mem_entries.mp (mem_stableSort.mp entryIn))
    exact changeOf_follows sound old told member bound serves found
  have apart : (servedChanges events head served ledger).Pairwise fun first second => first.key ≠ second.key :=
    servedChanges_apart served
  obtain ⟨stored, after⟩ := told.stored follows apart
  refine ⟨_, stored, after, fun market symbol item serves tp shown positive' => ?_⟩
  have entryIn : ((market, symbol), item) ∈ stableSort (fun entry => toLex entry.1) served.entries :=
    mem_stableSort.mpr (Dict.mem_entries.mpr ((reads market symbol item).mpr serves))
  have priced : (positive item.ourTp).isSome := by
    rw [shown]
    simp [positive, positive']
  cases found : changeOf events head ledger ((market, symbol), item) with
  | some record =>
    have recordIn : record ∈ servedChanges events head served ledger := List.mem_filterMap.mpr ⟨_, entryIn, found⟩
    obtain ⟨_, fields, rfl, _⟩ := changeOf_some found
    exact ⟨_, latest_appended recordIn apart (follows _ recordIn).past, rfl, ShownAlike.refl _⟩
  | none =>
    obtain ⟨previous, held, alike, source⟩ := changeOf_none priced found
    refine ⟨previous, (latest_untouched fun record recordIn same => ?_).trans held, source, alike⟩
    -- a record of this symbol would be of this very row
    obtain ⟨⟨key, other⟩, otherIn, otherFound⟩ := List.mem_filterMap.mp recordIn
    obtain ⟨_, _, rfl, _⟩ := changeOf_some otherFound
    have own : key = (market, symbol) := same
    subst own
    have one := Dict.mem_entries.mp (mem_stableSort.mp otherIn)
    rw [Dict.mem_entries.mp (mem_stableSort.mp entryIn), Option.some_inj] at one
    subst one
    rw [found] at otherFound
    cases otherFound

omit sound old told member bound in
theorem Tells.again (tells : Tells store ledger head) :
    captureServedValuationChanges events (some (head, served)) ledger = ledger := by
  have none : servedChanges events head served ledger = [] := by
    refine List.filterMap_eq_nil_iff.mpr fun ⟨⟨market, symbol⟩, item⟩ entryIn => ?_
    have serves := (reads market symbol item).mp (Dict.mem_entries.mp (mem_stableSort.mp entryIn))
    cases found : changeOf events head ledger ((market, symbol), item) with
    | none => rfl
    | some record =>
      obtain ⟨priced, _, _, changed⟩ := changeOf_some found
      obtain ⟨tp, shown⟩ := Option.isSome_iff_exists.mp priced
      obtain ⟨shown, above⟩ := Option.filter_eq_some_iff.mp shown
      obtain ⟨previous, held, source, alike⟩ := tells market symbol item serves tp shown (of_decide_eq_true above)
      exact absurd (servedChangedFields_nil.mpr ⟨alike, source⟩) (changed previous held)
  unfold captureServedValuationChanges storeValuationChanges
  simp only [none, List.foldl_nil]

end Capture

section Reading
variable (sound : Sound setting store)
include sound

def ReadRows (setting : Setting Digest) (begun : Store) (captured : Option (Generation × ServedRows)) (store : Store) :
    Prop :=
  (∃ seen, (official setting).Later begun seen ∧ (official setting).Later seen store ∧
    seen.latestSelection = captured.map Prod.fst) ∧
  ∀ head served, captured = some (head, served) → head ∈ store.generations ∧
    ∀ market symbol item, served.get? (market, symbol) = some item ↔ Serves store head market symbol item

theorem captureReads_spec : (official setting).Holds captureReads [] store fun captured _ next =>
    ReadRows setting store captured next := by
  refine Protocol.Holds.read fun seen later => ?_
  cases found : seen.latestSelection with
  | none => exact fun next after => ⟨⟨seen, later, after, found⟩, fun _ _ same => nomatch same⟩
  | some head =>
    have soundSeen : Sound setting seen := later.keeps sound
    have member : head ∈ seen.generations := tip_mem (soundSeen.head ▸ found)
    have whole := soundSeen.whole head member
    refine Protocol.Holds.bind (Protocol.Holds.mono (settled_spec (settled_servedRows soundSeen whole))
      fun served log middle reached facts => ?_)
    intro next after
    have laterNext := reached.trans after
    have evaluated := (Protocol.Settled.later (settled_servedRows soundSeen whole) reached).2
    rw [facts.2, evaluate_servedRows soundSeen whole, Option.some_inj] at evaluated
    refine ⟨⟨seen, later, laterNext, found⟩, fun other rows same => ?_⟩
    cases same
    refine ⟨(later_grows laterNext).generations.subset member, fun market symbol item => ?_⟩
    rw [evaluated, whole.servedRows_iff soundSeen]
    exact (whole.serves_final soundSeen laterNext).symm

end Reading
end C3po.Official

/-! The ledger over whole runs: calls of the selection and captures, in any order. -/

namespace C3po.Official
open C3po.Library

variable {Digest : Type} {setting : Setting Digest} {store next : Store} {legacy ledger : List Change}

/-- What is known of a capture that holds the lock. -/
structure Underway (setting : Setting Digest) (store : Store) (ledger : List Change) (capturing : Capturing) : Prop where
  sound : Sound setting capturing.begun
  since : (official setting).Later capturing.begun store
  bound : ∀ record ∈ ledger, ∀ first, record.generationId = some first → first < capturing.begun.generations.length
  holds : (official setting).Holds capturing.program capturing.log store fun captured _ next =>
    ReadRows setting capturing.begun captured next

structure Captured (setting : Setting Digest) (store : Store) (ledger : List Change) (completed : Completed) : Prop where
  seen : ∃ seen, (official setting).Later completed.begun seen ∧ (official setting).Later seen store ∧
    seen.latestSelection = completed.head
  tells : ∀ head, completed.head = some head → head ∈ store.generations ∧ Tells store ledger head

section Stores

theorem Tells.later {head : Generation} (sound : Sound setting store) (later : (official setting).Later store next)
    (member : head ∈ store.generations) (tells : Tells store ledger head) : Tells next ledger head :=
  fun market symbol item serves => tells market symbol item (((sound.whole head member).serves_final sound later).mp serves)

theorem Captured.later {completed : Completed} (sound : Sound setting store)
    (later : (official setting).Later store next) (captured : Captured setting store ledger completed) :
    Captured setting next ledger completed where
  seen := by
    obtain ⟨seen, before, after, found⟩ := captured.seen
    exact ⟨seen, before, after.trans later, found⟩
  tells := fun head known =>
    ⟨(later_grows later).generations.subset (captured.tells head known).1,
      (captured.tells head known).2.later sound later (captured.tells head known).1⟩

theorem Underway.later {capturing : Capturing} (later : (official setting).Later store next)
    (underway : Underway setting store ledger capturing) : Underway setting next ledger capturing :=
  { underway with since := underway.since.trans later, holds := underway.holds.later later }

theorem Told.bound (old : ∀ record ∈ legacy, record.legacy) (sound : Sound setting store)
    (told : Told store legacy ledger) : ∀ record ∈ ledger, ∀ first, record.generationId = some first →
      first < store.generations.length := by
  intro record member first known
  rcases told.mem member with legacyIn | ⟨head, headIn, _, _, ofHead, _⟩
  · rw [(old record legacyIn).2] at known
    cases known
  · obtain ⟨place, found⟩ := List.mem_iff_getElem?.mp headIn
    rw [ofHead, Option.some_inj, sound.id_of_place found] at known
    exact known ▸ (List.getElem?_eq_some_iff.mp found).1

theorem head_bound {begun seen : Store} {head : Generation} (sound : Sound setting begun)
    (later : (official setting).Later begun seen) (found : seen.latestSelection = some head) {first : ℕ}
    (before : first < begun.generations.length) : first ≤ head.id := by
  have soundSeen : Sound setting seen := later.keeps sound
  have tip : seen.tip = some head := soundSeen.head ▸ found
  rw [soundSeen.id_of_place (tip_of_length tip)]
  have grown := (later_grows later).generations.length_le
  omega

end Stores

/-- What every step keeps. -/
structure LedgerKept (legacy : List Change) (desk : Desk setting) : Prop where
  sound : Sound setting desk.store
  verified : Verified desk.calls
  told : Told desk.store legacy desk.ledger
  underway : ∀ capturing, desk.capturing = some capturing → Underway setting desk.store desk.ledger capturing
  captured : ∀ completed, desk.completed.getLast? = some completed →
    Captured setting desk.store desk.ledger completed

namespace LedgerKept
variable {desk : Desk setting}

theorem moved {calls : Calls setting} (kept : LedgerKept legacy desk)
    (later : (official setting).Later desk.store calls.store) (verified : Verified calls) :
    LedgerKept legacy { desk with calls } where
  sound := later.keeps kept.sound
  verified
  told := kept.told.later kept.sound later
  underway := fun capturing held => (kept.underway capturing held).later later
  captured := fun completed last => (kept.captured completed last).later kept.sound later

theorem write (old : ∀ record ∈ legacy, record.legacy) (kept : LedgerKept legacy desk) (events : IrEvents) {begun : Store}
    {captured : Option (Generation × ServedRows)} {log : List (Event Store Reading)}
    (held : desk.capturing = some ⟨begun, .done captured, log⟩) :
    LedgerKept legacy { desk with
      ledger := captureServedValuationChanges events captured desk.ledger
      capturing := none
      completed := desk.completed ++ [⟨begun, captured.map Prod.fst⟩] } := by
  have underway := kept.underway _ held
  obtain ⟨⟨seen, before, after, found⟩, reads⟩ := underway.holds desk.store (Protocol.Later.refl _)
  cases captured with
  | none =>
    exact
      { kept with
        underway := fun _ none => nomatch none
        captured := fun completed last => by
          rw [List.getLast?_concat, Option.some_inj] at last
          subst last
          exact ⟨⟨seen, before, after, found⟩, fun _ none => nomatch none⟩ }
  | some pair =>
    obtain ⟨head, served⟩ := pair
    obtain ⟨member, rows⟩ := reads head served rfl
    obtain ⟨records, appended, told, tells⟩ := kept.told.captured kept.sound old member
      (fun record recordIn first known => head_bound underway.sound before found (underway.bound record recordIn first known))
      rows
    rw [appended]
    exact
      { sound := kept.sound
        verified := kept.verified
        told
        underway := fun _ none => nomatch none
        captured := fun completed last => by
          rw [List.getLast?_concat, Option.some_inj] at last
          subst last
          exact ⟨⟨seen, before, after, found⟩, fun other same => by cases same; exact ⟨member, tells⟩⟩ }

theorem step [DecidableEq Digest] {desk' : Desk setting} (old : ∀ record ∈ legacy, record.legacy) (kept : LedgerKept legacy desk)
    (step : Desk.Step desk desk') : LedgerKept legacy desk' := by
  cases step with
  | call call =>
    obtain ⟨later, verified⟩ := calls_verified (Relation.ReflTransGen.single call) kept.sound kept.verified
    exact kept.moved later verified
  | lock free =>
    refine { kept with underway := fun capturing held => ?_ }
    cases held
    exact
      { sound := kept.sound
        since := Protocol.Later.refl _
        bound := kept.told.bound old kept.sound
        holds := captureReads_spec kept.sound }
  | @read _ effect _ _ held =>
    have underway := kept.underway _ held
    obtain ⟨later, after⟩ := underway.holds desk.store (Protocol.Later.refl _)
    have verified : Verified { desk.calls with store := effect desk.store } := fun process member =>
      (kept.verified process member).later later
    have moved := kept.moved later verified
    refine { moved with underway := fun capturing same => ?_ }
    cases same
    exact { underway with since := underway.since.trans later, holds := after }
  | fail => exact { kept with underway := fun _ none => nomatch none }
  | write events held => exact kept.write old events held

end LedgerKept

theorem Captured.current {completed : Completed} (captured : Captured setting store ledger completed)
    (same : completed.begun.generations = store.generations) : completed.head = store.latestSelection := by
  obtain ⟨seen, before, after, found⟩ := captured.seen
  have first := (later_grows before).generations
  have second := (later_grows after).generations
  have between : seen.generations = store.generations :=
    second.eq_of_length (le_antisymm second.length_le (same ▸ first.length_le))
  unfold Store.latestSelection at found ⊢
  rw [← found, between]

variable [DecidableEq Digest]

/-- What calls and captures reach from an empty selection over a legacy ledger. -/
structure Ledgered (setting : Setting Digest) where
  legacy : List Change
  old : ∀ record ∈ legacy, record.legacy
  desk : Desk setting
  run : Relation.ReflTransGen Desk.Step ⟨⟨Store.empty, []⟩, legacy, none, []⟩ desk

theorem Ledgered.kept (reached : Ledgered setting) : LedgerKept reached.legacy reached.desk := by
  obtain ⟨legacy, old, desk, run⟩ := reached
  change LedgerKept legacy desk
  induction run with
  | refl =>
    exact
      { sound := sound_empty setting
        verified := fun _ member => nomatch member
        told := .start
        underway := fun _ none => nomatch none
        captured := fun _ none => nomatch none }
  | tail _ step ih => exact ih.step old step

structure LedgerTells (reached : Ledgered setting) : Prop where
  grown : ∃ appended, reached.desk.ledger = reached.legacy ++ appended ∧
    ∀ record ∈ appended, record.tpSource.isSome ∧ record.generationId.isSome
  tells : ∀ completed head, reached.desk.completed.getLast? = some completed → completed.head = some head →
    Tells reached.desk.store reached.desk.ledger head
  current : ∀ completed, reached.desk.completed.getLast? = some completed →
    completed.begun.generations = reached.desk.store.generations → completed.head = reached.desk.store.latestSelection
  again : ∀ next, Desk.Step reached.desk next → ∀ first second head, reached.desk.completed.getLast? = some first →
    next.completed = reached.desk.completed ++ [second] → first.head = some head → second.head = some head →
    next.ledger = reached.desk.ledger
  clocks : reached.desk.ledger.Pairwise fun earlier record =>
    record.tpSource ≠ none → earlier.key = record.key → earlier.changedAt < record.changedAt
  chained : ∀ before record after, reached.desk.ledger = before ++ record :: after → record.tpSource ≠ none →
    record.old = lastValues before record.key
  once : reached.desk.ledger.Pairwise fun earlier record =>
    record.generationId ≠ none → earlier.key = record.key → earlier.generationId ≠ record.generationId

/-- The ledger tells exactly what was served. -/
theorem ledger_tells (reached : Ledgered setting) : LedgerTells reached where
  grown := reached.kept.told.grown
  tells := fun completed head last known => ((reached.kept.captured completed last).tells head known).2
  current := fun completed last same => (reached.kept.captured completed last).current same
  again := by
    intro next step first second head last appended ofFirst ofSecond
    cases step with
    | write events held =>
      rename_i begun captured log
      obtain ⟨_, rows⟩ := (reached.kept.underway _ held).holds reached.desk.store (Protocol.Later.refl _)
      have own := List.singleton_inj.mp (List.append_cancel_left appended)
      subst own
      obtain ⟨⟨other, served⟩, rfl, same⟩ := Option.map_eq_some_iff.mp ofSecond
      cases same
      exact ((reached.kept.captured first last).tells _ ofFirst).2.again (rows _ served rfl).2
    | call => exact absurd appended (by simp)
    | lock => exact absurd appended (by simp)
    | read => exact absurd appended (by simp)
    | fail => exact absurd appended (by simp)
  clocks := reached.kept.told.clocks reached.old
  chained := reached.kept.told.chained reached.old
  once := reached.kept.told.once reached.old

section Alone

end Alone
end C3po.Official
