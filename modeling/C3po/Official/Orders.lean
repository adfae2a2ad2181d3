import C3po.Official.Automatic

/-! The before/after report is settled: over complete cycles no later store changes what it
reads, so it says the same whenever it is computed.
-/

set_option autoImplicit false

namespace C3po.Official
open C3po.Library

variable {Digest : Type} {setting : Setting Digest} {store : Store} {log : List (Event Store Reading)}

theorem settled_spec {A : Type} {program : Process A} (settled : (official setting).Settled program store) :
    Spec setting program log store fun value next => program.evaluate next = some value := by
  induction program generalizing store log with
  | done value => exact Spec.pure fun _ _ => rfl
  | act effect rest ih =>
    obtain ⟨rfl, same, after⟩ := settled
    intro next reached
    refine ⟨Protocol.Later.refl next, ?_⟩
    rw [same next reached]
    refine Protocol.Holds.mono (ih store (after.later reached).1) fun value later last reached' found => ?_
    refine ⟨(Quiet.step rfl).trans found.1, ?_⟩
    change (rest last).evaluate last = some value
    rw [same last (reached.trans reached')]
    exact found.2
  | ask rest _ => exact settled.elim

structure AllRecorded (store : Store) (cycles : Market → ℕ) (targeted : Dict String ℕ) : Prop where
  markets : ∀ market, HasRecord store (cycles market)
  targeted : ∀ entry ∈ targeted.entries, HasRecord store entry.2

theorem AllRecorded.grows {cycles : Market → ℕ} {targeted : Dict String ℕ} {next : Store} (grows : Grows store next)
    (recorded : AllRecorded store cycles targeted) : AllRecorded next cycles targeted :=
  ⟨fun market => (recorded.markets market).grows grows, fun entry member => (recorded.targeted entry member).grows grows⟩

theorem hasRecord_of_complete {source : Source} {cycle : Cycle} (complete : Complete store source cycle) :
    HasRecord store cycle.id := by
  obtain ⟨row, member⟩ := List.exists_mem_of_ne_nil _ complete.rows
  obtain ⟨record, stored, _⟩ := List.mem_map.mp (complete.recorded row member)
  obtain ⟨there, matched⟩ := List.mem_filter.mp stored
  exact ⟨record, there, (of_decide_eq_true matched).1⟩

section Reads
variable (sound : Sound setting store)
include sound

theorem settled_snapshot {record : Prediction} (member : record ∈ store.predictions) :
    (official setting).Settled
      (Program.read fun store : Store => store.analysisSnapshotById record.cycleId) store := by
  obtain ⟨cycle, _, _, _, stored, _⟩ := sound.recorded record member
  exact Protocol.Settled.read fun next reached => by rw [stored, (later_grows reached).snapshot stored]

theorem records_settled {cycleId : ℕ} (known : HasRecord store cycleId) (source : Source) {next : Store}
    (reached : (official setting).Later store next) :
    next.predictionsForCycle cycleId source = store.predictionsForCycle cycleId source := by
  obtain ⟨record, member, rfl⟩ := known
  exact sound.records_final (reached.keeps sound) (later_grows reached) member source

theorem settled_records {cycleId : ℕ} (known : HasRecord store cycleId) (source : Source) :
    (official setting).Settled (Program.read fun store : Store => store.predictionsForCycle cycleId source) store :=
  Protocol.Settled.read fun _ reached => records_settled sound known source reached

theorem settled_record {cycleId : ℕ} (known : HasRecord store cycleId) (symbol : String) (source : Source) :
    (official setting).Settled
      (Program.read fun store : Store => store.predictionRecord cycleId symbol source) store := by
  refine Protocol.Settled.read fun next reached => ?_
  unfold Store.predictionRecord
  rw [records_settled sound known source reached]

section Composition
variable {cycles : Market → ℕ} {targeted : Dict String ℕ} (recorded : AllRecorded store cycles targeted)
include recorded

theorem settled_addTargeted (market : Market) (source : Source) {results : List Prediction} {entry : String × ℕ}
    (member : entry ∈ sortedEntries targeted) (stored : ∀ record ∈ results, record ∈ store.predictions) :
    (official setting).Settled (addTargeted market source results entry) store ∧
      ∀ next, (addTargeted market source results entry).evaluate store = some next →
        ∀ record ∈ next, record ∈ store.predictions := by
  have read := settled_record sound (recorded.targeted entry (mem_stableSort.mp member)) entry.1 source
  unfold addTargeted
  split
  · exact ⟨trivial, fun next same => by cases same; exact stored⟩
  · refine ⟨read.bind fun record _ => ?_, fun next same => ?_⟩
    · cases record with
      | none => exact Protocol.Settled.pure _
      | some record => exact Protocol.Settled.pure _
    · obtain ⟨record, found, rest⟩ := read.evaluate_bind same
      cases found
      beta_reduce at rest
      cases own : store.predictionRecord entry.2 entry.1 source with
      | none => rw [own] at rest; cases rest; exact stored
      | some record =>
        rw [own] at rest
        cases rest
        intro other otherIn
        rcases List.mem_append.mp otherIn with earlier | new
        · exact stored other earlier
        · rw [List.mem_singleton.mp new]
          exact (predictionRecord_spec own).1

theorem settled_generationRecords (market : Market) (source : Source) :
    (official setting).Settled (generationRecords cycles targeted market source) store ∧
      ∀ results, (generationRecords cycles targeted market source).evaluate store = some results →
        ∀ record ∈ results, record ∈ store.predictions := by
  have cycleRead := settled_records sound (recorded.markets market) source
  have stored : ∀ record ∈ store.predictionsForCycle (cycles market) source, record ∈ store.predictions :=
    fun record member => (List.mem_filter.mp member).1
  have loop := Protocol.Settled.foldlM (fun results : List Prediction => ∀ record ∈ results, record ∈ store.predictions)
    (fun results entry member held => settled_addTargeted sound recorded market source member held) stored
  unfold generationRecords
  refine ⟨cycleRead.bind fun results same => ?_, fun results same => ?_⟩
  · cases same
    exact loop.1
  · obtain ⟨first, found, rest⟩ := cycleRead.evaluate_bind same
    cases found
    exact loop.2 results rest

end Composition

theorem settled_reportView {record : Prediction} (member : record ∈ store.predictions) (generation : Generation)
    (market : Market) : (official setting).Settled (reportView generation market record) store :=
  (settled_snapshot sound member).bind fun _ _ => Protocol.Settled.pure _

theorem settled_compareSymbol {generation : Generation} {market : Market} {blend internal : List Prediction}
    (before : ∀ record ∈ blend, record ∈ store.predictions) (after : ∀ record ∈ internal, record ∈ store.predictions)
    (found : List Pair × List String) (symbol : String) :
    (official setting).Settled (compareSymbol generation market blend internal found symbol) store := by
  unfold compareSymbol
  split
  · rename_i first second firstFound secondFound
    exact (settled_reportView sound (before first (List.mem_of_find?_eq_some firstFound)) generation market).bind
      fun _ _ => (settled_reportView sound (after second (List.mem_of_find?_eq_some secondFound)) generation market).bind
        fun _ _ => Protocol.Settled.pure _
  · exact Protocol.Settled.pure _

variable {generation : Generation} {proposal : Proposal}
  (current : AllRecorded store generation.cycles generation.targeted)
  (proposed : AllRecorded store proposal.cycles proposal.targeted)
include current proposed

theorem settled_compareMarket (market : Market) :
    (official setting).Settled (compareMarket generation proposal market) store := by
  obtain ⟨first, blendStored⟩ := settled_generationRecords sound current market .blend
  obtain ⟨second, internalStored⟩ := settled_generationRecords sound proposed market .internal
  unfold compareMarket
  refine first.bind fun blend blendFound => second.bind fun internal internalFound => ?_
  refine Protocol.Settled.bind (Protocol.Settled.foldlM (fun _ => True) (fun found symbol _ _ =>
    ⟨settled_compareSymbol sound (blendStored blend blendFound) (internalStored internal internalFound) found symbol,
      fun _ _ => trivial⟩) trivial).1 fun _ _ => Protocol.Settled.pure _

theorem settled_report (receipts : Receipts Digest) :
    (official setting).Settled (beforeAfterReport receipts generation proposal) store := by
  unfold beforeAfterReport
  refine Protocol.Settled.bind (Protocol.Settled.foldlM (fun _ => True) (fun found market _ _ => ?_) trivial).1
    fun _ _ => Protocol.Settled.pure _
  refine ⟨?_, fun _ _ => trivial⟩
  exact (settled_compareMarket sound current proposed market).bind fun _ _ => Protocol.Settled.pure _

end Reads

section Sorted

theorem sortedEntries_sortedTargeted (targeted : Dict String ℕ) :
    sortedEntries (sortedTargeted targeted) = sortedEntries targeted :=
  congrArg Dict.entries (sortedTargeted_sortedTargeted targeted)

theorem report_sortedTargeted (receipts : Receipts Digest) (generation : Generation) (cycles : Market → ℕ)
    (targeted : Dict String ℕ) (version : String) :
    beforeAfterReport receipts generation ⟨cycles, sortedTargeted targeted, version⟩ =
      beforeAfterReport receipts generation ⟨cycles, targeted, version⟩ := by
  have records : generationRecords cycles (sortedTargeted targeted) = generationRecords cycles targeted := by
    funext market source
    unfold generationRecords
    rw [sortedEntries_sortedTargeted]
  have turn : addMarket generation ⟨cycles, sortedTargeted targeted, version⟩ =
      addMarket generation ⟨cycles, targeted, version⟩ := by
    funext found market
    unfold addMarket compareMarket
    rw [records]
  have size : (sortedTargeted targeted).size = targeted.size := (stableSort_perm Prod.fst targeted.entries).length_eq
  unfold beforeAfterReport aggregateOf
  rw [turn, sortedEntries_sortedTargeted, size]

end Sorted

theorem hasRecord_of_selectable {calendars : Calendars} {source : Source} {cycleId : ℕ} {market : Market}
    {session : Option Int} (selectable : Selectable calendars store source cycleId market session) :
    HasRecord store cycleId := by
  obtain ⟨cycle, clocks, stored, _, _, _, _, _, complete⟩ := selectable
  exact snapshot_id stored ▸ hasRecord_of_complete complete

theorem hasRecord_of_admissible {calendars : Calendars} {source : Source} {symbol : String} {cycleId : ℕ}
    (admissible : Admissible calendars store source symbol cycleId) : HasRecord store cycleId := by
  obtain ⟨cycle, clocks, stored, _, _, _, complete, _⟩ := admissible
  exact snapshot_id stored ▸ hasRecord_of_complete complete

theorem Whole.recorded {calendars : Calendars} {generation : Generation} (whole : Whole calendars store generation) :
    AllRecorded store generation.cycles generation.targeted where
  markets := fun market => hasRecord_of_selectable (whole.markets market)
  targeted := fun entry member =>
    hasRecord_of_admissible (whole.targeted entry.1 entry.2 (Dict.mem_entries.mp member))

end C3po.Official

/-! The orders of the mesa: the freeze, and the selection of a composition.

An order takes over the composition of the head or validates every cycle of its own; the
receipt of a switch is that of the report on the head it chains on.
-/

namespace C3po.Official
open C3po.Library
open C3po.Prices (normalise)

variable {Digest : Type} {setting : Setting Digest} {store : Store} {log : List (Event Store Reading)}

section Composition

theorem assemble_order {draft : Draft} {head : Option Generation} {activatedAt : Int}
    (clean : CleanKeys draft.targeted) :
    assemble draft head activatedAt true = .ok
      { id := 0
        source := draft.source
        sourceVersion := draft.sourceVersion
        cycles := draft.cycles
        targeted := sortedTargeted draft.targeted
        sessionDates := draft.sessionDates
        activatedAt
        previous := head.map Generation.id
        receipt := draft.receipt } := by
  unfold assemble
  rw [normalizedTargeted_clean clean]
  rfl

theorem activationClock_order {head : Option Generation} {now clock activatedAt : Int}
    (activated : activationClock head (some now) clock = .ok activatedAt) :
    activatedAt = clock ∧ ∀ tip, head = some tip → tip.activatedAt ≤ clock := by
  cases head with
  | none =>
    cases activated
    exact ⟨rfl, fun _ same => nomatch same⟩
  | some tip =>
    simp only [activationClock] at activated
    split at activated
    · cases activated
    · rename_i notBefore
      cases activated
      refine ⟨rfl, fun other same => ?_⟩
      cases same
      exact not_lt.mp notBefore

end Composition

theorem freezeSelection_spec {now until' : Int} {reason : String} (sound : Sound setting store) :
    (official setting).Holds (freezeSelection setting.calendars now until' reason) log store
      fun result later _ => Outcome log result later := by
  unfold freezeSelection
  apply readClock_then
  intro wall first _ _ quiet
  split
  · exact fun _ _ => quiet
  split
  · exact fun _ _ => quiet
  split
  · exact fun _ _ => quiet
  apply read_then
  intro origin second reached quiet'
  have soundOrigin : Sound setting origin := reached.keeps sound
  rw [soundOrigin.head]
  cases tip : origin.tip with
  | none => exact fun _ _ => quiet.trans quiet'
  | some head =>
    have whole := soundOrigin.whole head (tip_mem tip)
    have firstOf : firstTargeted head.targeted.entries = head.targeted := by
      have own := soundOrigin.tip_first
      rwa [tip] at own
    have clean : CleanKeys head.targeted := by
      have own := soundOrigin.tip_clean
      rwa [tip] at own
    simp only [firstOf]
    refine Protocol.Holds.mono (newGeneration_spec soundOrigin (Protocol.Later.refl origin) (by rw [tip]; rfl) ?_)
      fun _ _ _ _ outcome => Outcome.since (quiet.trans quiet') outcome
    intro next middle last clock activatedAt generation after same _ _ _ activated assembled
    obtain ⟨rfl, notBehind⟩ := activationClock_order activated
    have tipNext : next.tip = some head := (tip_congr same).trans tip
    cases (assemble_order clean).symm.trans assembled
    exact .ordered next
      { id := rfl
        previous := by rw [tipNext, ← tip]; rfl
        marked := rfl
        clock := fun other found => notBehind other (by rw [tip, ← tipNext, found])
        content := .inl ⟨head, tipNext, rfl, whole.tidy, rfl, rfl, rfl⟩ }

section Validation

theorem validateMarket_spec {cycles : Market → ℕ} {source : Source} {market : Market} :
    Spec setting (validateMarket setting.calendars cycles source market) log store fun result next =>
      ∀ value, result = .ok value → Selectable setting.calendars next source (cycles market) market value.1 := by
  unfold validateMarket
  apply read_then
  intro first later reached quiet
  split
  · exact Spec.since quiet (Spec.pure fun _ _ _ same => nomatch same)
  rename_i cycle stored
  split
  · exact Spec.since quiet (Spec.pure fun _ _ _ same => nomatch same)
  rename_i matched
  obtain ⟨kind, ofMarket⟩ := not_or.mp matched
  have id := snapshot_id stored
  rw [← id] at stored ⊢
  apply read_then
  intro second later' reached' quiet'
  refine (sessionOf_spec cycle).then fun session later'' third reached'' quiet'' answered => ?_
  simp only
  refine Spec.since (quiet.trans (quiet'.trans quiet'')) ?_
  split
  · exact Spec.pure fun _ _ _ same => nomatch same
  · rename_i valid
    refine Spec.pure fun last after value same => ?_
    cases same
    have rest := later_grows (reached''.trans after)
    exact selectable_of_valid (((later_grows reached').trans rest).snapshot stored) (not_not.mp kind)
      (not_not.mp ofMarket) answered (fun _ member => rest.recordedSymbols member) (Bool.not_eq_false _ ▸ valid)

theorem validateTargeted_spec {source : Source} {entry : String × ℕ} :
    Spec setting (validateTargeted setting.calendars source entry) log store fun result next =>
      result = .ok () → Admissible setting.calendars next source entry.1 entry.2 := by
  unfold validateTargeted
  apply read_then
  intro first later reached quiet
  split
  · exact Spec.since quiet (Spec.pure fun _ _ same => nomatch same)
  rename_i cycle stored
  split
  · exact Spec.since quiet (Spec.pure fun _ _ same => nomatch same)
  rename_i matched
  obtain ⟨kind, _⟩ := not_or.mp matched
  have id := snapshot_id stored
  rw [← id] at stored ⊢
  apply read_then
  intro second later' reached' quiet'
  refine (sessionOf_spec cycle).then fun session later'' third reached'' quiet'' answered => ?_
  simp only
  refine Spec.since (quiet.trans (quiet'.trans quiet'')) ?_
  split
  · exact Spec.pure fun _ _ same => nomatch same
  · rename_i accepted
    obtain ⟨valid, own⟩ := not_or.mp accepted
    refine Spec.pure fun last after _ => ?_
    have rest := later_grows (reached''.trans after)
    exact admissible_of_valid (((later_grows reached').trans rest).snapshot stored) (not_not.mp kind) answered
      (fun _ member => rest.recordedSymbols member) (Bool.not_eq_false _ ▸ valid) (not_not.mp own)

theorem forEach_spec {E A : Type} {call : A → Process (Except E Unit)} (facts : A → Store → Prop)
    (lasting : ∀ item first second, (official setting).Later first second → facts item first → facts item second)
    (each : ∀ item later next, (official setting).Later store next →
      Spec setting (call item) later next fun result last => result = .ok () → facts item last)
    (items : List A) :
    Spec setting (forEach call items) log store
      fun result last => result = .ok () → ∀ item ∈ items, facts item last := by
  induction items generalizing store log with
  | nil => exact Spec.pure fun _ _ _ _ member => nomatch member
  | cons item rest ih =>
    unfold forEach
    refine (each item log store (Protocol.Later.refl store)).then fun result later next reached quiet found => ?_
    split
    · exact Spec.since quiet (Spec.pure fun _ _ same => nomatch same)
    refine Spec.since quiet (Spec.mono (ih fun item later last reached' => each item later last (reached.trans reached'))
      fun result last after others same other member => ?_)
    rcases List.mem_cons.mp member with rfl | earlier
    · exact lasting other next last after (found rfl)
    · exact others same other earlier

end Validation

section Receipts

def AcceptedFor (receipts : Receipts Digest) (store : Store) (head : Generation) (proposal : Proposal) : Prop :=
  ∃ report, (beforeAfterReport receipts head proposal).evaluate store = some report ∧
    reportSha256 receipts report = receipts.accepted

theorem AcceptedFor.later {head : Generation} {proposal : Proposal} {next : Store} (sound : Sound setting store)
    (current : AllRecorded store head.cycles head.targeted)
    (proposed : AllRecorded store proposal.cycles proposal.targeted)
    (reached : (official setting).Later store next) (accepted : AcceptedFor setting.receipts store head proposal) :
    AcceptedFor setting.receipts next head proposal := by
  obtain ⟨report, evaluated, hash⟩ := accepted
  have same := ((settled_report sound current proposed setting.receipts).later reached).2
  exact ⟨report, same.trans evaluated, hash⟩

theorem checkReceipt_spec [DecidableEq Digest] {order : Order Digest} {current : Option Generation} {proposal : Proposal}
    (sound : Sound setting store)
    (recorded : ∀ head, current = some head → AllRecorded store head.cycles head.targeted)
    (proposed : AllRecorded store proposal.cycles proposal.targeted) :
    Spec setting (checkReceipt setting.receipts order current proposal) log store fun result next =>
      result = .ok () → ∀ head, current = some head → order.source = .internal →
        AcceptedFor setting.receipts next head proposal := by
  unfold checkReceipt
  split
  · rename_i head internal
    refine Spec.then (settled_spec (settled_report sound (recorded head rfl) proposed setting.receipts))
      fun report later next reached quiet evaluated => Spec.since quiet ?_
    split
    · exact Spec.pure fun _ _ same => nomatch same
    split
    · exact Spec.pure fun _ _ same => nomatch same
    rename_i own agreed
    refine Spec.pure fun last after _ other same _ => ?_
    cases same
    have hash : reportSha256 setting.receipts report = setting.receipts.accepted :=
      Option.some_inj.mp ((not_not.mp own).symm.trans (not_not.mp agreed))
    have settled := (settled_report sound (recorded _ rfl) proposed setting.receipts).later reached
    exact ⟨report, (settled.1.later after).2.trans evaluated, hash⟩
  · rename_i apart
    exact Spec.pure fun _ _ _ head same internal => (apart head same internal).elim

theorem ordered_of_selected {origin next : Store} {order : Order Digest} {cycles : Market → ℕ}
    {admissions : Dict String ℕ} {validated : Market → Option Int × String} {version : String}
    {clock activatedAt : Int} {generation : Generation} (sound : Sound setting next)
    (same : next.generations = origin.generations)
    (selectable : ∀ market, Selectable setting.calendars next order.source (cycles market) market (validated market).1)
    (admissible : ∀ entry ∈ admissions.entries, Admissible setting.calendars next order.source entry.1 entry.2)
    (inForce : order.source = .internal → origin.tip.isSome)
    (accepted : ∀ head, origin.tip = some head → order.source = .internal →
      AcceptedFor setting.receipts next head ⟨cycles, admissions, version⟩)
    (activated : activationClock origin.tip (some order.now) clock = .ok activatedAt)
    (assembled : assemble
      { expectedPrevious := origin.tip.map Generation.id
        cycles
        targeted := admissions
        source := order.source
        sourceVersion := version
        sessionDates := fun market => (validated market).1
        receipt := orderReceipt order origin.tip } origin.tip activatedAt true = .ok generation) :
    Ordered setting next (next.stored generation) := by
  have tip : next.tip = origin.tip := tip_congr same
  have clean : CleanKeys admissions := fun symbol cycleId held =>
    sound.clean_of_admissible (admissible (symbol, cycleId) (Dict.mem_entries.mpr held))
  obtain ⟨rfl, notBehind⟩ := activationClock_order activated
  cases (assemble_order clean).symm.trans assembled
  exact
    { id := rfl
      previous := by rw [tip]; rfl
      marked := rfl
      clock := fun head found => notBehind head (tip ▸ found)
      content := .inr
        ⟨{ markets := selectable
           targeted := fun symbol cycleId held =>
             admissible (symbol, cycleId) (Dict.mem_entries.mpr ((get?_sortedTargeted _ _).symm.trans held))
           tidy := sortedTargeted_sortedTargeted _ }, fun internal => by
          obtain ⟨head, found⟩ := Option.isSome_iff_exists.mp (inForce internal)
          obtain ⟨report, evaluated, hash⟩ := accepted head found internal
          refine ⟨head, tip.trans found, report, ?_, hash⟩
          rw [← evaluated]
          exact congrArg (fun report : Process _ => report.evaluate next) (report_sortedTargeted ..)⟩ }

theorem selectGeneration_spec [DecidableEq Digest] {order : Order Digest} (sound : Sound setting store) :
    (official setting).Holds (selectGeneration setting.calendars setting.receipts order) log store
      fun result later _ => Outcome log result later := by
  unfold selectGeneration
  split
  · exact fun _ _ => Quiet.refl log
  apply readClock_then
  intro wall first _ _ quiet
  split
  · exact fun _ _ => quiet
  split
  · exact fun _ _ => quiet
  split
  · exact fun _ _ => quiet
  rename_i admissions _
  apply read_then
  intro origin second reached quiet'
  have soundOrigin : Sound setting origin := reached.keeps sound
  rw [soundOrigin.head]
  have soFar := quiet.trans quiet'
  split
  · exact fun _ _ => soFar
  rename_i known
  have inForce : order.source = .internal → origin.tip.isSome := fun internal => by
    cases found : origin.tip with
    | none => exact absurd ⟨internal, by rw [found]; rfl⟩ known
    | some head => rfl
  refine (forMarkets_spec (fun market (value : Option Int × String) store =>
      Selectable setting.calendars store order.source ((order.cycles market).getD 0) market value.1)
    (fun market later next _ => validateMarket_spec)
    fun market value first second after => (later_grows after).selectable).then
      fun validated third store₁ reached₁ quiet₁ selectable => ?_
  split
  · exact fun _ _ => soFar.trans quiet₁
  rename_i validated
  refine (forEach_spec (fun entry store => Admissible setting.calendars store order.source entry.1 entry.2)
    (fun entry first second after => (later_grows after).admissible)
    (fun entry later next _ => validateTargeted_spec) admissions.entries).then
      fun checked fourth store₂ reached₂ quiet₂ admissible => ?_
  split
  · exact fun _ _ => soFar.trans (quiet₁.trans quiet₂)
  have sound₂ : Sound setting store₂ := (reached₁.trans reached₂).keeps soundOrigin
  have markets₂ := fun market => (later_grows reached₂).selectable (selectable validated rfl market)
  have proposed : AllRecorded store₂ (fun market => (order.cycles market).getD 0) admissions :=
    ⟨fun market => hasRecord_of_selectable (markets₂ market),
      fun entry member => hasRecord_of_admissible (admissible rfl entry member)⟩
  have recorded : ∀ head, origin.tip = some head → AllRecorded store₂ head.cycles head.targeted := fun head found =>
    ((later_grows (reached₁.trans reached₂)).whole (soundOrigin.whole head (tip_mem found))).recorded
  refine (checkReceipt_spec sound₂ recorded proposed).then fun agreed fifth store₃ reached₃ quiet₃ accepted => ?_
  split
  · exact fun _ _ => soFar.trans (quiet₁.trans (quiet₂.trans quiet₃))
  have toStore₃ := reached₁.trans (reached₂.trans reached₃)
  refine Protocol.Holds.mono (newGeneration_spec soundOrigin toStore₃ rfl ?_)
    fun _ _ _ _ outcome => Outcome.since (soFar.trans (quiet₁.trans (quiet₂.trans quiet₃))) outcome
  intro next middle last clock activatedAt generation after same _ _ _ activated assembled
  have toNext := later_grows (reached₃.trans after)
  refine .ordered next (ordered_of_selected ((toStore₃.trans after).keeps soundOrigin) same
    (fun market => toNext.selectable (markets₂ market))
    (fun entry member => toNext.admissible (admissible rfl entry member)) inForce ?_ activated assembled)
  intro head found internal
  exact (accepted rfl head found internal).later (reached₃.keeps sound₂)
    ((recorded head found).grows (later_grows reached₃)) (proposed.grows (later_grows reached₃)) after

end Receipts
end C3po.Official
