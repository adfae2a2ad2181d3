import C3po.Official.Soundness

/-! The automatic writers keep the rules, whatever the others do between their steps.

What a writer read stays true until its insert succeeds: the rows it read are immutable,
and an insert succeeds only on the tip the writer read as the head.
-/

set_option autoImplicit false

namespace C3po.Official
open C3po.Library
open C3po.Prices (normalise)

variable {Digest : Type} {setting : Setting Digest}

/-- Nothing was inserted into the selection. -/
def Silent (log : List (Event Store Reading)) : Prop :=
  ∀ before after, .stepped before after ∈ log → after.generations = before.generations

/-- The log went on without an insert into the selection. -/
def Quiet (log later : List (Event Store Reading)) : Prop := ∃ more, later = log ++ more ∧ Silent more

def Inserted (generation : Generation) (log later : List (Event Store Reading)) : Prop :=
  ∃ middle before after, Quiet log middle ∧ later = middle ++ [.stepped before after] ∧
    after.generations = before.generations ++ [generation]

section Logs
variable {log middle later : List (Event Store Reading)}

theorem silent_append {first second : List (Event Store Reading)} (before : Silent first) (after : Silent second) :
    Silent (first ++ second) := fun _ _ member =>
  (List.mem_append.mp member).elim (before _ _) (after _ _)

theorem silent_step {before after : Store} (same : after.generations = before.generations) :
    Silent [.stepped before after] := by
  intro first last member
  cases List.mem_singleton.mp member
  exact same

theorem Quiet.refl (log : List (Event Store Reading)) : Quiet log log :=
  ⟨[], (List.append_nil log).symm, fun _ _ member => nomatch member⟩

theorem Quiet.trans (first : Quiet log middle) (second : Quiet middle later) : Quiet log later := by
  obtain ⟨more, rfl, silent⟩ := first
  obtain ⟨rest, rfl, also⟩ := second
  exact ⟨more ++ rest, List.append_assoc .., silent_append silent also⟩

theorem Quiet.step {before after : Store} (same : after.generations = before.generations) :
    Quiet log (log ++ [.stepped before after]) := ⟨_, rfl, silent_step same⟩

theorem Quiet.answered (answer : Reading) : Quiet log (log ++ [.answered answer]) := by
  refine ⟨_, rfl, fun _ _ member => ?_⟩
  cases List.mem_singleton.mp member

theorem Quiet.mem {event : Event Store Reading} (quiet : Quiet log later) (member : event ∈ log) :
    event ∈ later := by
  obtain ⟨more, rfl, _⟩ := quiet
  exact List.mem_append_left _ member

theorem Quiet.inserted {generation : Generation} (quiet : Quiet log middle)
    (inserted : Inserted generation middle later) : Inserted generation log later := by
  obtain ⟨last, before, after, also, whole, new⟩ := inserted
  exact ⟨last, before, after, quiet.trans also, whole, new⟩

end Logs

/-- A part of a writer that inserts nothing, and what it found. -/
def Spec {A : Type} (setting : Setting Digest) (program : Process A) (log : List (Event Store Reading))
    (store : Store) (facts : A → Store → Prop) : Prop :=
  (official setting).Holds program log store fun value later next => Quiet log later ∧ facts value next

section Rules
variable {A B : Type} {store : Store} {log : List (Event Store Reading)}
  {post : B → List (Event Store Reading) → Store → Prop}

theorem Spec.then {program : Process A} {rest : A → Process B} {facts : A → Store → Prop}
    (spec : Spec setting program log store facts)
    (after : ∀ value later next, (official setting).Later store next → Quiet log later → facts value next →
      (official setting).Holds (rest value) later next post) :
    (official setting).Holds (program >>= rest) log store post :=
  Protocol.Holds.bind (Protocol.Holds.mono spec fun value later next reached found =>
    after value later next reached found.1 found.2)

theorem read_then {query : Store → A} {rest : A → Process B}
    (after : ∀ next later, (official setting).Later store next → Quiet log later →
      (official setting).Holds (rest (query next)) later next post) :
    (official setting).Holds (Program.read query >>= rest) log store post :=
  Protocol.Holds.read fun next reached => after next _ reached (Quiet.step rfl)

theorem answer_then {rest : Reading → Process B}
    (after : ∀ answer later, setting.allowed log answer → .answered answer ∈ later → Quiet log later →
      (official setting).Holds (rest answer) later store post) :
    (official setting).Holds (Program.answer >>= rest) log store post :=
  Protocol.Holds.answer fun answer allowed =>
    after answer _ allowed (List.mem_append_right _ (List.mem_singleton.mpr rfl)) (Quiet.answered answer)

theorem Spec.pure {value : A} {facts : A → Store → Prop}
    (found : ∀ next, (official setting).Later store next → facts value next) :
    Spec setting (Pure.pure value) log store facts :=
  fun next later => ⟨Quiet.refl log, found next later⟩

theorem Spec.read {query : Store → A} {facts : A → Store → Prop}
    (found : ∀ next last, (official setting).Later store next → (official setting).Later next last →
      facts (query next) last) :
    Spec setting (Program.read query) log store facts := by
  intro next later
  refine ⟨Protocol.Later.refl next, fun last after => ⟨Quiet.step rfl, found next last later after⟩⟩

theorem Spec.mono {program : Process A} {facts weaker : A → Store → Prop}
    (spec : Spec setting program log store facts)
    (implied : ∀ value next, (official setting).Later store next → facts value next → weaker value next) :
    Spec setting program log store weaker :=
  Protocol.Holds.mono spec fun value _ next later found => ⟨found.1, implied value next later found.2⟩

theorem Spec.since {program : Process A} {earlier : List (Event Store Reading)} {facts : A → Store → Prop}
    (quiet : Quiet earlier log) (spec : Spec setting program log store facts) :
    (official setting).Holds program log store fun value later next => Quiet earlier later ∧ facts value next :=
  Protocol.Holds.mono spec fun _ _ _ _ found => ⟨quiet.trans found.1, found.2⟩

end Rules

section Validation
variable {store : Store}

theorem universeKey_market (market : Market) : marketOfEntity .universe (universeKey market) = some market := by
  cases market <;> decide

theorem snapshot_id {cycleId : ℕ} {cycle : Cycle} (found : store.analysisSnapshotById cycleId = some cycle) :
    cycle.id = cycleId := by
  unfold Store.analysisSnapshotById at found
  exact of_decide_eq_true (List.find?_some found :)

theorem validation_valid {cycle : Cycle} {recorded : List String} {source : Source} {session : Option Int}
    (valid : (cycleValidation cycle recorded source session).valid = true) :
    cycle.cycleRows ≠ [] ∧ (∀ row ∈ cycle.cycleRows, usable row source = true) ∧
      (∀ row ∈ cycle.cycleRows, normalise row.symbol ∈ recorded) ∧
      (cycle.market.isSome → (cycleValidation cycle recorded source session).sessionDate.isSome) := by
  simp only [cycleValidation, Bool.and_eq_true, Bool.not_eq_true', Bool.or_eq_true, List.isEmpty_eq_false_iff,
    List.isEmpty_iff, List.filter_eq_nil_iff, Bool.not_eq_false, Bool.and_eq_true, decide_eq_true_eq,
    not_and, not_not, Option.isNone_iff_eq_none] at valid ⊢
  obtain ⟨⟨⟨rows, usable⟩, recorded⟩, session⟩ := valid
  refine ⟨rows, usable, fun row member => recorded row member (usable row member), fun known => ?_⟩
  rcases session with none | known
  · rw [none] at known
    cases known
  · exact known

theorem validation_session {cycle : Cycle} {recorded : List String} {source : Source} {session : Option Int}
    (valid : (cycleValidation cycle recorded source session).valid = true) (ofMarket : cycle.market.isSome) :
    (cycleValidation cycle recorded source session).sessionDate = session ∧ session.isSome ∧ cycle.clocks.isSome := by
  have known := (validation_valid valid).2.2.2 ofMarket
  simp only [cycleValidation, ofMarket, Bool.true_and] at known ⊢
  split at known
  · rename_i clocked
    rw [if_pos clocked]
    exact ⟨rfl, known, clocked⟩
  · cases known

theorem validation_complete {cycle : Cycle} {recorded : List String} {source : Source} {session : Option Int}
    (valid : (cycleValidation cycle recorded source session).valid = true)
    (stored : ∀ symbol ∈ recorded, symbol ∈ store.recordedSymbols cycle.id source) :
    Complete store source cycle := by
  obtain ⟨rows, usable, found, _⟩ := validation_valid valid
  exact ⟨rows, usable, fun row member => stored _ (found row member)⟩

end Validation

section Reads
variable {store : Store} {log : List (Event Store Reading)}

def Answered (calendars : Calendars) (cycle : Cycle) (session : Option Int) : Prop :=
  ∀ day, session = some day → ∃ market clocks, cycle.market = some market ∧ cycle.clocks = some clocks ∧
    calendars.sessions market clocks.1 = some day

theorem sessionOf_spec (cycle : Cycle) :
    Spec setting (sessionOf setting.calendars cycle) log store
      fun session _ => Answered setting.calendars cycle session := by
  unfold sessionOf
  split
  · rename_i market clocks ofMarket clocked
    apply answer_then
    intro answer later _ _ quiet
    refine Spec.since quiet (Spec.pure fun next _ day found => ?_)
    split at found
    · exact ⟨market, clocks, ofMarket, clocked, found⟩
    · cases found
  · exact Spec.pure fun next _ day found => by cases found

def HasRecord (store : Store) (cycleId : ℕ) : Prop := ∃ record ∈ store.predictions, record.cycleId = cycleId

theorem HasRecord.grows {next : Store} {cycleId : ℕ} (grows : Grows store next) (known : HasRecord store cycleId) :
    HasRecord next cycleId := by
  obtain ⟨record, member, ofCycle⟩ := known
  exact ⟨record, grows.predictions.subset member, ofCycle⟩

theorem hasRecord_inserted {cycle : Cycle} {market : Market} {clocks : Int × Int × Option String} {session : Int}
    (some : cyclePredictions cycle market clocks session ≠ []) :
    HasRecord (store.insertPredictions (cyclePredictions cycle market clocks session)) cycle.id := by
  obtain ⟨record, member⟩ := List.exists_mem_of_ne_nil _ some
  have keyed : record.key ∈ (store.insertPredictions _).predictions.map Prediction.key := insertPredictions_key member
  obtain ⟨other, stored, same⟩ := List.mem_map.mp keyed
  obtain ⟨_, row, _, made⟩ := mem_cyclePredictions.mp member
  refine ⟨other, stored, ?_⟩
  rw [← (predictionFromRow_some made).1]
  exact congrArg (fun key => key.2.2.2.2) same

theorem insertPredictions_spec {cycle : Cycle} {market : Market} {clocks : Int × Int × Option String} {session : Int}
    (stored : store.analysisSnapshotById cycle.id = some cycle) (ofMarket : cycle.market = some market)
    (clocked : cycle.clocks = some clocks) (known : setting.calendars.sessions market clocks.1 = some session)
    (some : cyclePredictions cycle market clocks session ≠ []) :
    Spec setting (insertPredictions (cyclePredictions cycle market clocks session)) log store
      fun _ next => HasRecord next cycle.id := by
  intro next later
  have move : Move setting next _ :=
    .recorded next ((later_grows later).snapshot stored) ofMarket clocked known
  exact ⟨Relation.ReflTransGen.single move, fun last after =>
    ⟨Quiet.step (insertPredictions_keeps _ _).2, (hasRecord_inserted some).grows (later_grows after)⟩⟩

theorem recordCyclePredictions_spec {cycle : Cycle} (stored : store.analysisSnapshotById cycle.id = some cycle) :
    Spec setting (recordCyclePredictions setting.calendars cycle) log store
      fun added next => 0 < added → HasRecord next cycle.id := by
  unfold recordCyclePredictions
  split
  · rename_i market clocks ofMarket clocked
    refine (sessionOf_spec cycle).then fun session later next reached quiet answered => ?_
    split
    · exact Spec.since quiet (Spec.pure fun _ _ some => absurd some (lt_irrefl 0))
    · rename_i day
      obtain ⟨sameMarket, sameClocks, same, alike, known⟩ := answered day rfl
      cases ofMarket.symm.trans same
      cases clocked.symm.trans alike
      simp only
      split
      · exact Spec.since quiet (Spec.pure fun _ _ some => absurd some (lt_irrefl 0))
      · rename_i nonempty
        have some : cyclePredictions cycle market clocks day ≠ [] := fun none => nonempty (by rw [none]; rfl)
        exact Spec.since quiet (Spec.mono
          (insertPredictions_spec ((later_grows reached).snapshot stored) ofMarket clocked known some)
          fun _ _ _ recorded _ => recorded)
  · exact Spec.pure fun _ _ some => absurd some (lt_irrefl 0)

/-- What the selection may take of a candidate: a valid one is selectable, and dated. -/
def Candidate (setting : Setting Digest) (source : Source) (market : Market)
    (item : Option (Validation × String)) (store : Store) : Prop :=
  ∀ validation version, item = some (validation, version) → validation.valid = true →
    Selectable setting.calendars store source validation.cycleId market validation.sessionDate ∧
      validation.predictionInstant = store.instantOf validation.cycleId ∧
      (store.instantOf validation.cycleId).isSome

theorem selectable_of_valid {cycle : Cycle} {market : Market} {recorded : List String} {source : Source}
    {session : Option Int} (stored : store.analysisSnapshotById cycle.id = some cycle)
    (kind : cycle.analysisType = .universe) (ofMarket : cycle.market = some market)
    (answered : Answered setting.calendars cycle session)
    (known : ∀ symbol ∈ recorded, symbol ∈ store.recordedSymbols cycle.id source)
    (valid : (cycleValidation cycle recorded source session).valid = true) :
    Selectable setting.calendars store source cycle.id market
      (cycleValidation cycle recorded source session).sessionDate := by
  obtain ⟨same, answeredSome, clockedSome⟩ := validation_session valid (by rw [ofMarket]; rfl)
  obtain ⟨day, dayFound⟩ := Option.isSome_iff_exists.mp answeredSome
  obtain ⟨otherMarket, clocks, sameMarket, clocked, dated⟩ := answered day dayFound
  cases ofMarket.symm.trans sameMarket
  refine ⟨cycle, clocks, stored, kind, ofMarket, clocked, ?_, ?_, validation_complete valid known⟩
  · rw [same, dayFound, dated]
  · rw [same]
    exact answeredSome

theorem candidate_of_snapshot {cycle : Cycle} {market : Market} {recorded : List String} {source : Source}
    {session : Option Int} (stored : store.analysisSnapshotById cycle.id = some cycle)
    (kind : cycle.analysisType = .universe) (ofMarket : cycle.market = some market)
    (answered : Answered setting.calendars cycle session)
    (known : ∀ symbol ∈ recorded, symbol ∈ store.recordedSymbols cycle.id source) :
    Candidate setting source market
      (some (cycleValidation cycle recorded source session, cycle.sourceVersion)) store := by
  intro validation version same valid
  cases same
  have selectable := selectable_of_valid stored kind ofMarket answered known valid
  have instant : (cycleValidation cycle recorded source session).predictionInstant = store.instantOf cycle.id := by
    unfold Store.instantOf
    rw [stored]
    rfl
  refine ⟨selectable, instant, ?_⟩
  obtain ⟨_, _, clocked⟩ := validation_session valid (by rw [ofMarket]; rfl)
  obtain ⟨clocks, found⟩ := Option.isSome_iff_exists.mp clocked
  unfold Store.instantOf
  rw [show (cycleValidation cycle recorded source session).cycleId = cycle.id from rfl, stored,
    Option.bind_some, found]
  rfl

theorem Candidate.grows {source : Source} {market : Market} {item : Option (Validation × String)} {next : Store}
    (grows : Grows store next) (candidate : Candidate setting source market item store) :
    Candidate setting source market item next := by
  intro validation version same valid
  obtain ⟨selectable, instant, some⟩ := candidate validation version same valid
  obtain ⟨value, found⟩ := Option.isSome_iff_exists.mp some
  rw [found] at instant
  rw [grows.instant found]
  exact ⟨grows.selectable selectable, instant, rfl⟩

theorem latestSnapshot_spec {analysisType : AnalysisType} {entityKey : String} {cycle : Cycle}
    (sound : Sound setting store) (found : store.latestAnalysisSnapshot analysisType entityKey = some cycle) :
    store.analysisSnapshotById cycle.id = some cycle ∧ cycle.analysisType = analysisType ∧
      cycle.entityKey = entityKey := by
  have member := List.mem_filter.mp (latest_spec found).1
  have matched := of_decide_eq_true member.2
  refine ⟨?_, matched⟩
  obtain ⟨place, stored⟩ := List.mem_iff_getElem?.mp member.1
  have id := sound.ids place cycle stored
  unfold Store.analysisSnapshotById
  -- ids are places, so no earlier row has this one
  cases other : store.snapshots.find? fun found => decide (found.id = cycle.id) with
  | none => simpa using List.find?_eq_none.mp other cycle member.1
  | some first =>
    obtain ⟨placeFirst, storedFirst⟩ := List.mem_iff_getElem?.mp (List.mem_of_find?_eq_some other)
    have sameId : first.id = cycle.id := of_decide_eq_true (List.find?_some other :)
    have samePlace : placeFirst = place := by
      rw [← sound.ids placeFirst first storedFirst, ← id, sameId]
    rw [samePlace, stored] at storedFirst
    exact storedFirst.symm

end Reads

end C3po.Official

/-! What an activation pass composes: the candidates, the choice for each market and the
recovery of targeted cycles. Every part is new and validated, or carried from the head.
-/

namespace C3po.Official
open C3po.Library
open C3po.Prices (normalise)

variable {Digest : Type} {setting : Setting Digest} {store : Store} {log : List (Event Store Reading)}

theorem selectableCycle_spec {source : Source} {market : Market} (sound : Sound setting store) :
    Spec setting (selectableCycle setting.calendars source market) log store
      fun result next => ∀ item, result = .ok item → Candidate setting source market item next := by
  unfold selectableCycle
  apply read_then
  intro first later reached quiet
  split
  · refine Spec.since quiet (Spec.pure fun _ _ item same => ?_)
    cases same
    exact fun _ _ same => nomatch same
  · rename_i cycle found
    obtain ⟨stored, kind, key⟩ := latestSnapshot_spec (reached.keeps sound) found
    have ofMarket : cycle.market = some market := by
      unfold Cycle.market
      rw [kind, key, universeKey_market]
    apply read_then
    intro second later' reached' quiet'
    -- the validation, from any store in which the recorded symbols are stored
    have validated : ∀ recorded last third, (official setting).Later second third → Quiet later' last →
        (∀ symbol ∈ recorded, symbol ∈ third.recordedSymbols cycle.id source) →
        (official setting).Holds (do
            let session ← sessionOf setting.calendars cycle
            pure (Except.ok (some (cycleValidation cycle recorded source session, cycle.sourceVersion))))
          last third fun result end' next => Quiet log end' ∧
            ∀ item, (result : Except Unit _) = .ok item → Candidate setting source market item next := by
      intro recorded last third reached'' quiet'' known
      have grows := later_grows (reached'.trans reached'')
      refine (sessionOf_spec cycle).then fun session last' next after quiet''' answered => ?_
      refine Spec.since (quiet.trans (quiet'.trans (quiet''.trans quiet'''))) (Spec.pure fun final final' item same => ?_)
      cases same
      have rest := later_grows (after.trans final')
      exact candidate_of_snapshot ((grows.trans rest).snapshot stored) kind ofMarket answered
        fun symbol member => rest.recordedSymbols (known symbol member)
    simp only
    split
    · refine (recordCyclePredictions_spec ((later_grows reached').snapshot stored)).then
        fun added last third reached'' quiet'' _ => ?_
      split
      · apply read_then
        intro fourth last' reached''' quiet'''
        exact validated _ last' fourth (reached''.trans reached''') (quiet''.trans quiet''') fun _ member => member
      · exact validated _ last third reached'' quiet'' fun symbol member =>
          (later_grows reached'').recordedSymbols member
    · exact validated _ later' second (Protocol.Later.refl second) (Quiet.refl later') fun _ member => member

theorem forMarkets_spec {E A : Type} {choose : Market → Process (Except E A)} (facts : Market → A → Store → Prop)
    (each : ∀ market later next, (official setting).Later store next →
      Spec setting (choose market) later next fun result last => ∀ value, result = .ok value → facts market value last)
    (lasting : ∀ market value first second, (official setting).Later first second →
      facts market value first → facts market value second) :
    Spec setting (forMarkets choose) log store
      fun result last => ∀ values, result = .ok values → ∀ market, facts market (values market) last := by
  unfold forMarkets
  refine (each .b3 log store (Protocol.Later.refl store)).then fun b3 later first reached quiet found => ?_
  split
  · exact Spec.since quiet (Spec.pure fun _ _ _ same => nomatch same)
  · rename_i b3
    refine (each .nasdaq later first reached).then fun nasdaq later' second reached' quiet' found' => ?_
    split
    · exact Spec.since (quiet.trans quiet') (Spec.pure fun _ _ _ same => nomatch same)
    · rename_i nasdaq
      refine (each .nyse later' second (reached.trans reached')).then
        fun nyse later'' third reached'' quiet'' found'' => ?_
      split
      · exact Spec.since (quiet.trans (quiet'.trans quiet'')) (Spec.pure fun _ _ _ same => nomatch same)
      · rename_i nyse
        refine Spec.since (quiet.trans (quiet'.trans quiet'')) (Spec.pure fun last after values same market => ?_)
        cases same
        cases market with
        | b3 => exact lasting _ _ _ _ (reached'.trans (reached''.trans after)) (found b3 rfl)
        | nasdaq => exact lasting _ _ _ _ (reached''.trans after) (found' nasdaq rfl)
        | nyse => exact lasting _ _ _ _ after (found'' nyse rfl)

def AfterClock (order : Option Generation) (store : Store) (cycleId : ℕ) : Prop :=
  ∀ authority, order = some authority →
    ∃ instant, store.instantOf cycleId = some instant ∧ authority.activatedAt < instant

theorem AfterClock.grows {order : Option Generation} {cycleId : ℕ} {next : Store} (grows : Grows store next)
    (after : AfterClock order store cycleId) : AfterClock order next cycleId := by
  intro authority same
  obtain ⟨instant, found, later⟩ := after authority same
  exact ⟨instant, grows.instant found, later⟩

/-- The cycle in force, or a new selectable one the order did not decide over. -/
def Chosen (setting : Setting Digest) (current order : Option Generation) (market : Market) (choice : MarketChoice)
    (store : Store) : Prop :=
  (∃ head, current = some head ∧ choice.cycle = head.cycles market ∧ choice.session = head.sessionDates market) ∨
    (Selectable setting.calendars store (selectedSource current) choice.cycle market choice.session ∧
      ∀ head, current = some head → choice.cycle ≠ head.cycles market → AfterClock order store choice.cycle)

theorem Chosen.grows {current order : Option Generation} {market : Market} {choice : MarketChoice} {next : Store}
    (grows : Grows store next) (chosen : Chosen setting current order market choice store) :
    Chosen setting current order market choice next := by
  rcases chosen with carried | ⟨selectable, after⟩
  · exact .inl carried
  · exact .inr ⟨grows.selectable selectable, fun head same apart => (after head same apart).grows grows⟩

theorem chooseMarket_spec {current order : Option Generation}
    {candidates : Market → Option (Validation × String)} {market : Market}
    (candidate : Candidate setting (selectedSource current) market (candidates market) store) :
    Spec setting (chooseMarket current order candidates market) log store
      fun result next => ∀ choice, result = .ok choice → Chosen setting current order market choice next := by
  unfold chooseMarket
  simp only
  split
  · rename_i validation version kept
    obtain ⟨item, accepted⟩ := Option.filter_eq_some_iff.mp kept
    simp only [Bool.and_eq_true, Bool.not_eq_true', item, Option.any_some] at accepted
    obtain ⟨selectable, instant, known⟩ := candidate validation version item accepted.1
    refine Spec.pure fun next reached choice same => ?_
    cases same
    refine Chosen.grows (later_grows reached) (.inr ⟨selectable, fun head inForce apart authority ordered => ?_⟩)
    obtain ⟨value, found⟩ := Option.isSome_iff_exists.mp known
    refine ⟨value, found, ?_⟩
    -- a valid candidate that is not held was predicted after the order
    have notHeld := accepted.2
    unfold heldByOrder at notHeld
    rw [inForce, ordered, instant, found] at notHeld
    simp only [Option.map_some, accepted.1, Bool.true_and, Bool.and_eq_false_iff, decide_eq_false_iff_not,
      not_le, ne_eq, decide_not, Bool.not_eq_false', decide_eq_true_eq] at notHeld
    exact notHeld.resolve_left apart
  · split
    · exact Spec.pure fun _ _ _ same => nomatch same
    · rename_i head _
      apply read_then
      intro next later _ quiet
      refine Spec.since quiet (Spec.pure fun last _ choice same => ?_)
      cases same
      exact .inl ⟨head, rfl, rfl, rfl⟩

theorem admissible_of_valid {cycle : Cycle} {recorded : List String} {source : Source} {session : Option Int}
    {symbol : String} (stored : store.analysisSnapshotById cycle.id = some cycle)
    (kind : cycle.analysisType = .targeted) (answered : Answered setting.calendars cycle session)
    (known : ∀ symbol ∈ recorded, symbol ∈ store.recordedSymbols cycle.id source)
    (valid : (cycleValidation cycle recorded source session).valid = true) (own : symbol ∈ recorded) :
    Admissible setting.calendars store source symbol cycle.id := by
  have ofMarket : cycle.market = some .b3 := by
    unfold Cycle.market
    rw [kind]
    rfl
  obtain ⟨_, answeredSome, _⟩ := validation_session valid (by rw [ofMarket]; rfl)
  obtain ⟨day, dayFound⟩ := Option.isSome_iff_exists.mp answeredSome
  obtain ⟨market, clocks, sameMarket, clocked, dated⟩ := answered day dayFound
  cases ofMarket.symm.trans sameMarket
  exact ⟨cycle, clocks, stored, kind, clocked, by rw [dated]; rfl, validation_complete valid known, known symbol own⟩

theorem admissibleTargeted_spec {symbol : String} {cycleId : ℕ} {source : Source} :
    Spec setting (admissibleTargeted setting.calendars symbol cycleId source) log store
      fun result next => ∀ validation, result = some validation →
        Admissible setting.calendars next source symbol cycleId ∧ validation.source = source := by
  unfold admissibleTargeted
  apply read_then
  intro first later reached quiet
  split
  · exact Spec.since quiet (Spec.pure fun _ _ _ same => nomatch same)
  · rename_i cycle stored
    split
    · exact Spec.since quiet (Spec.pure fun _ _ _ same => nomatch same)
    · rename_i kind
      have id := snapshot_id stored
      subst id
      apply read_then
      intro second later' reached' quiet'
      refine (sessionOf_spec cycle).then fun session later'' third reached'' quiet'' answered => ?_
      simp only
      refine Spec.since (quiet.trans (quiet'.trans quiet'')) ?_
      split
      · exact Spec.pure fun _ _ _ same => nomatch same
      · rename_i accepted
        obtain ⟨valid, own⟩ := not_or.mp accepted
        refine Spec.pure fun last after validation same => ?_
        cases same
        have rest := later_grows (reached''.trans after)
        exact ⟨admissible_of_valid (((later_grows reached').trans rest).snapshot stored) (not_not.mp kind) answered
          (fun _ member => rest.recordedSymbols member) (Bool.not_eq_false _ ▸ valid) (not_not.mp own), rfl⟩

section Recovery

theorem foldlM_spec {A B : Type} {step : B → A → Process B} (facts : B → Store → Prop)
    (lasting : ∀ value first second, (official setting).Later first second → facts value first → facts value second)
    {items : List A} {value : B} (start : facts value store)
    (each : ∀ item ∈ items, ∀ value later next, (official setting).Later store next → facts value next →
      Spec setting (step value item) later next facts) :
    Spec setting (items.foldlM step value) log store facts := by
  induction items generalizing value store log with
  | nil => exact Spec.pure fun next reached => lasting value store next reached start
  | cons item rest ih =>
    rw [List.foldlM_cons]
    refine (each item List.mem_cons_self value log store (Protocol.Later.refl store) start).then
      fun value later next reached quiet found => ?_
    exact Spec.since quiet (ih found fun item member value later last reached' =>
      each item (List.mem_cons_of_mem _ member) value later last (reached.trans reached'))

theorem predictionRecord_spec {cycleId : ℕ} {symbol : String} {source : Source} {record : Prediction}
    (found : store.predictionRecord cycleId symbol source = some record) :
    record ∈ store.predictions ∧ record.cycleId = cycleId ∧ record.source = source ∧ record.symbol = symbol := by
  have member := List.mem_filter.mp (List.mem_of_find?_eq_some found)
  obtain ⟨ofCycle, ofSource⟩ := of_decide_eq_true member.2
  exact ⟨member.1, ofCycle, ofSource, of_decide_eq_true (List.find?_some found :)⟩

theorem predictionRecord_isSome {cycleId : ℕ} {symbol : String} {source : Source}
    (recorded : symbol ∈ store.recordedSymbols cycleId source) :
    (store.predictionRecord cycleId symbol source).isSome := by
  obtain ⟨record, member, same⟩ := List.mem_map.mp recorded
  exact List.find?_isSome.mpr ⟨record, member, decide_eq_true same⟩

theorem Newer.trans {first second third : ℕ} (before : Newer store first second) (after : Newer store second third) :
    Newer store first third := by
  obtain ⟨start, middle, startAt, middleAt, earlier⟩ := before
  obtain ⟨also, last, alsoAt, lastAt, later⟩ := after
  cases middleAt.symm.trans alsoAt
  exact ⟨start, last, startAt, lastAt, earlier.trans later⟩

/-- The recovery so far: what it admitted, and the carried rest. -/
structure Recovering (setting : Setting Digest) (carried : Dict String ℕ) (order : Option Generation)
    (source : Source) (found : Recovery) (store : Store) : Prop where
  targeted : ∀ symbol, found.targeted.get? symbol = (found.recovered.get? symbol).or (carried.get? symbol)
  recovered : ∀ symbol cycleId, found.recovered.get? symbol = some cycleId →
    Admissible setting.calendars store source symbol cycleId ∧ AfterClock order store cycleId ∧
      ∀ held, carried.get? symbol = some held → Newer store held cycleId

variable {carried : Dict String ℕ} {order : Option Generation} {source : Source} {found : Recovery}

theorem Recovering.grows {next : Store} (grows : Grows store next)
    (recovering : Recovering setting carried order source found store) :
    Recovering setting carried order source found next :=
  { targeted := recovering.targeted
    recovered := fun symbol cycleId same => by
      obtain ⟨admissible, after, newer⟩ := recovering.recovered symbol cycleId same
      exact ⟨grows.admissible admissible, after.grows grows, fun held same => grows.newer (newer held same)⟩ }

theorem Recovering.insert {symbol : String} {cycleId : ℕ}
    (recovering : Recovering setting carried order source found store)
    (admissible : Admissible setting.calendars store source symbol cycleId) (after : AfterClock order store cycleId)
    (newer : ∀ held, found.targeted.get? symbol = some held → Newer store held cycleId) :
    Recovering setting carried order source
      { found with targeted := found.targeted.insert symbol cycleId, recovered := found.recovered.insert symbol cycleId }
      store where
  targeted := by
    intro other
    rw [Dict.get?_insert, Dict.get?_insert]
    split
    · rfl
    · exact recovering.targeted other
  recovered := by
    intro other id same
    rw [Dict.get?_insert] at same
    split at same
    · rename_i here
      cases same
      subst here
      refine ⟨admissible, after, fun held carriedHeld => ?_⟩
      have current := recovering.targeted other
      cases before : found.recovered.get? other with
      | none =>
        rw [before, carriedHeld] at current
        exact newer held current
      | some earlier =>
        rw [before] at current
        exact ((recovering.recovered other earlier before).2.2 held carriedHeld).trans (newer earlier current)
    · exact recovering.recovered other id same

theorem readRecord_spec {cycleId : Option ℕ} {symbol : String} :
    Spec setting (readRecord cycleId symbol source) log store fun record next =>
      ∀ held, cycleId = some held → (symbol ∈ store.recordedSymbols held source) →
        ∃ kept, record = some kept ∧ next.predictionRecord held symbol source = some kept := by
  unfold readRecord
  split
  · exact Spec.pure fun _ _ _ same => nomatch same
  · refine Spec.read fun next last reached after held same recorded => ?_
    cases same
    obtain ⟨kept, found⟩ := Option.isSome_iff_exists.mp
      (predictionRecord_isSome ((later_grows reached).recordedSymbols recorded))
    exact ⟨kept, found, (later_grows after).record found⟩

theorem newer_of_records {symbol : String} {held : ℕ} {kept record : Prediction} (sound : Sound setting store)
    (keptFound : store.predictionRecord held symbol source = some kept) (member : record ∈ store.predictions)
    (later : kept.predictionInstant < record.predictionInstant) : Newer store held record.cycleId := by
  obtain ⟨keptIn, ofCycle, _⟩ := predictionRecord_spec keptFound
  exact ⟨_, _, ofCycle ▸ sound.record_instant keptIn, sound.record_instant member, later⟩

theorem recoverSymbol_spec {served : List String} {entry : String × Prediction} (sound : Sound setting store)
    (member : entry.2 ∈ store.predictions)
    (held : ∀ symbol cycleId, carried.get? symbol = some cycleId →
      Admissible setting.calendars store source symbol cycleId)
    (recovering : Recovering setting carried order source found store) :
    Spec setting (recoverSymbol setting.calendars served order source found entry) log store
      (Recovering setting carried order source) := by
  unfold recoverSymbol
  simp only
  split
  · exact Spec.pure fun next reached => recovering.grows (later_grows reached)
  split
  · exact Spec.pure fun next reached => recovering.grows (later_grows reached)
  rename_i notDecided
  refine readRecord_spec.then fun admitted later next reached quiet kept => ?_
  have grows := later_grows reached
  split
  · exact Spec.since quiet (Spec.pure fun last after => recovering.grows (grows.trans (later_grows after)))
  rename_i notOlder
  refine admissibleTargeted_spec.then fun validation later' last reached' quiet' admissible => ?_
  refine Spec.since (quiet.trans quiet') ?_
  split
  · refine Spec.pure fun final after => ?_
    have rest := grows.trans ((later_grows reached').trans (later_grows after))
    exact { recovering.grows rest with }
  refine Spec.pure fun final after => ?_
  have rest := grows.trans ((later_grows reached').trans (later_grows after))
  refine Recovering.insert (recovering.grows rest) ((later_grows after).admissible (admissible _ rfl).1) ?_ ?_
  · intro authority same
    rw [same, Option.any_some, decide_eq_true_eq, not_le] at notDecided
    exact ⟨_, rest.instant (sound.record_instant member), notDecided⟩
  · intro cycleId same
    have own : Admissible setting.calendars store source (normalise entry.1) cycleId := by
      rw [recovering.targeted] at same
      rcases Option.or_eq_some_iff.mp same with recovered | ⟨_, carriedHeld⟩
      · exact (recovering.recovered _ _ recovered).1
      · exact held _ _ carriedHeld
    obtain ⟨_, _, _, _, _, _, _, recorded⟩ := own
    obtain ⟨kept, keptSame, keptFound⟩ := kept cycleId same recorded
    rw [keptSame, Option.any_some, decide_eq_true_eq, not_le] at notOlder
    refine ((later_grows reached').trans (later_grows after)).newer ?_
    exact newer_of_records (reached.keeps sound) keptFound (grows.predictions.subset member) notOlder

theorem mem_latestTargetedPredictions {entry : String × Prediction}
    (member : entry ∈ store.latestTargetedPredictions source) :
    store.latestTargetedPrediction source entry.1 = some entry.2 := by
  obtain ⟨symbol, _, same⟩ := List.mem_filterMap.mp member
  obtain ⟨record, found, rfl⟩ := Option.map_eq_some_iff.mp same
  exact found

theorem latestTargetedPrediction_spec {symbol : String} {record : Prediction}
    (found : store.latestTargetedPrediction source symbol = some record) :
    record ∈ store.predictions ∧ record.market = .b3 ∧ record.source = source ∧ record.scope = .targeted ∧
      record.symbol = symbol := by
  have member := List.mem_filter.mp (List.mem_reverse.mp (latest_spec found).1)
  have targeted := List.mem_filter.mp member.1
  obtain ⟨market, ofSource, scope⟩ := of_decide_eq_true targeted.2
  exact ⟨targeted.1, market, ofSource, scope, of_decide_eq_true member.2⟩

theorem recoveredTargeted_spec {universeCycle : ℕ} (sound : Sound setting store)
    (held : ∀ symbol cycleId, carried.get? symbol = some cycleId →
      Admissible setting.calendars store source symbol cycleId) :
    Spec setting (recoveredTargeted setting.calendars carried universeCycle order source) log store
      (Recovering setting carried order source) := by
  unfold recoveredTargeted
  apply read_then
  intro first later reached quiet
  apply read_then
  intro second later' reached' quiet'
  have grows := later_grows (reached.trans reached')
  have start : Recovering setting carried order source ⟨carried, .empty, .empty⟩ second :=
    ⟨fun _ => rfl, fun _ _ same => nomatch same⟩
  refine Spec.since (quiet.trans quiet') (foldlM_spec (Recovering setting carried order source)
    (fun _ _ _ after => Recovering.grows (later_grows after)) start
    fun entry member found later next after recovering => ?_)
  refine recoverSymbol_spec ((reached.trans (reached'.trans after)).keeps sound) ?_ ?_ recovering
  · exact (later_grows after).predictions.subset
      (latestTargetedPrediction_spec (mem_latestTargetedPredictions member)).1
  · exact fun symbol cycleId same => (grows.trans (later_grows after)).admissible (held symbol cycleId same)

end Recovery

end C3po.Official
