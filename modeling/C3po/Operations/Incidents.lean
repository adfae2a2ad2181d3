import C3po.Library.Latest
import C3po.Library.Loops
import C3po.Library.StableSort
import C3po.Library.Transaction

/-! Operational incidents: their append-only events, and what recovery may close.

The table has one incident a key, named here by that key. The payload of the evidence
is kept with each event and read by no call; its hash stands for it.
-/

set_option autoImplicit false

namespace C3po.Operations
open C3po.Library

inductive EventType where
  | opened
  | reopened
  | acknowledged
  | resolved
  | observed
  deriving DecidableEq, Repr

/-- The status shown; `opened` is the text "open". -/
inductive Status where
  | opened
  | acknowledged
  | resolved
  deriving DecidableEq, Repr

structure Event where
  eventType : EventType
  actorEmail : String
  detail : String
  evidenceSha256 : String
  occurredAt : Int
  deriving DecidableEq, Repr

/-- An incident, with its events in the order they were stored. -/
structure Incident where
  source : String
  severity : String
  title : String
  deepLink : String
  openedAt : Int
  events : List Event
  deriving DecidableEq, Repr

abbrev Incidents := Dict String Incident

/-- The newest event; of two at one instant, the one stored last. -/
def newest (events : List Event) : Option Event := latest Event.occurredAt events.reverse

def stateEvents (events : List Event) : List Event :=
  events.filter fun event => event.eventType ≠ .observed

def EventType.status : EventType → Status
  | .acknowledged => .acknowledged
  | .resolved => .resolved
  | _ => .opened

/-- The status, read from the newest event that is not an observation. -/
def status (events : List Event) : Option Status :=
  (newest (stateEvents events)).map fun event => event.eventType.status

/-- An incident as it is listed. -/
structure Row where
  incidentKey : String
  incident : Incident
  status : Status
  latest : Event
  deriving DecidableEq, Repr

def Row.lastSeenAt (row : Row) : Int := row.latest.occurredAt

def shown (entry : String × Incident) : Option Row :=
  match newest entry.2.events, status entry.2.events with
  | some latest, some status => some ⟨entry.1, entry.2, status, latest⟩
  | _, _ => none

def listOperationalIncidents (store : Incidents) (limit : ℕ) : List Row :=
  (stableSort (fun row => -row.lastSeenAt) (store.entries.filterMap shown)).take limit

def operationalIncidentByKey (store : Incidents) (key : String) : Option Row :=
  (listOperationalIncidents store 1000).find? fun row => row.incidentKey = key

structure Report where
  incidentKey : String
  source : String
  severity : String
  title : String
  detail : String
  deepLink : String
  evidenceSha256 : String
  deriving DecidableEq, Repr

def severities : List String := ["attention", "critical"]

abbrev Request (A : Type) := Transaction Incidents String A

def appendEvent (store : Incidents) (key : String) (event : Event) : Incidents :=
  match store.get? key with
  | some incident => store.insert key { incident with events := incident.events ++ [event] }
  | none => store

/-- A signal repeated: the incident is not resolved and its newest event has the same evidence. -/
def repeats (events : List Event) (evidenceSha256 : String) : Prop :=
  status events ≠ some .resolved ∧ (newest events).map Event.evidenceSha256 = some evidenceSha256

instance (events : List Event) (evidenceSha256 : String) : Decidable (repeats events evidenceSha256) := by
  unfold repeats
  infer_instance

def Report.event (report : Report) (eventType : EventType) (now : Int) : Event :=
  { eventType := eventType
    actorEmail := "system"
    detail := report.detail
    evidenceSha256 := report.evidenceSha256
    occurredAt := now }

def recordOperationalIncident (report : Report) (now : Int) : Request (Option Row) := do
  let store ← Transaction.read
  if report.severity ∉ severities then Transaction.raise "invalid incident severity"
  else
    match store.get? report.incidentKey with
    | some incident =>
        if repeats incident.events report.evidenceSha256 then
          pure (operationalIncidentByKey store report.incidentKey)
        else
          let eventType := if status incident.events = some .resolved then .reopened else .observed
          let written := appendEvent store report.incidentKey (report.event eventType now)
          Transaction.write written
          pure (operationalIncidentByKey written report.incidentKey)
    | none =>
        let written := store.insert report.incidentKey
          { source := report.source, severity := report.severity, title := report.title
            deepLink := report.deepLink, openedAt := now, events := [report.event .opened now] }
        Transaction.write written
        pure (operationalIncidentByKey written report.incidentKey)

/-- The hash of `{}`. -/
def emptyEvidence : String := "44136fa355b3678a1146ad16f7e8649e94fb4fc21fe77e8310c060f61caaff8a"

def transitionOperationalIncident (key : String) (eventType : EventType) (actorEmail detail : String)
    (now : Int) (recoveredThrough : Option Int) : Request (Option Row) := do
  let store ← Transaction.read
  if eventType ∉ [.acknowledged, .resolved] then Transaction.raise "invalid incident transition"
  else
    match operationalIncidentByKey store key with
    | none => pure none
    | some row =>
        if row.status = .resolved then pure (some row)
        else if ∃ through ∈ recoveredThrough, row.lastSeenAt > through then pure (some row)
        else if eventType = .acknowledged ∧ row.status = .acknowledged then pure (some row)
        -- under the incident's lock the newest event is read again
        else if recoveredThrough.isSome ∧ row.latest.eventType = .resolved then pure (some row)
        else
          let written := appendEvent store key
            { eventType := eventType, actorEmail := actorEmail, detail := detail
              evidenceSha256 := emptyEvidence, occurredAt := now }
          Transaction.write written
          pure (operationalIncidentByKey written key)

def setOperationalIncidentSeverity (key severity detail evidenceSha256 : String) (now : Int) :
    Request (Option Row) := do
  let store ← Transaction.read
  if severity ∉ severities then Transaction.raise "invalid incident severity"
  else
    match store.get? key with
    | none => pure none
    | some incident =>
        if incident.severity ≠ severity ∧ (status incident.events).isSome ∧
            status incident.events ≠ some .resolved then
          let written := appendEvent (store.insert key { incident with severity := severity }) key
            { eventType := .observed, actorEmail := "system", detail := detail
              evidenceSha256 := evidenceSha256, occurredAt := now }
          Transaction.write written
          pure (operationalIncidentByKey written key)
        else pure (operationalIncidentByKey store key)

def resolveKey (key detail : String) (now : Int) : Request (Option Row) := do
  let store ← Transaction.read
  match operationalIncidentByKey store key with
  | none => pure none
  | some row =>
      if row.status = .resolved then pure (some row)
      else transitionOperationalIncident row.incidentKey .resolved "system" detail now none

def startsWith (key start : String) : Bool := start.toList.isPrefixOf key.toList

/-- Whether a key is an incident's, or one of its dated siblings'. -/
def inFamily (incidentKey key : String) : Bool := key = incidentKey || startsWith key (incidentKey ++ ":")

/-- The loop of both recoveries: how many incidents it closed. -/
def resolveRecovered (covered : String → Bool) (now observedAt : Int) (detail : String) : Request ℕ := do
  let store ← Transaction.read
  (listOperationalIncidents store 1000).foldlM (fun closed row =>
    if row.status = .resolved ∨ covered row.incidentKey = false then pure closed
    else do
      let result ← transitionOperationalIncident row.incidentKey .resolved "system" detail now (some observedAt)
      pure (if result.any fun after => after.status = .resolved then closed + 1 else closed)) 0

/-- The closing event carries the instant of the evidence. -/
def resolveRecoveredFamily (incidentKey : String) (observedAt : Int) (detail : String) : Request ℕ :=
  resolveRecovered (inFamily incidentKey) observedAt observedAt detail

/-- The closing event carries the instant of the call. -/
def resolveRecoveredPrefix (start : String) (now observedAt : Int) (detail : String) : Request ℕ :=
  resolveRecovered (fun key => startsWith key start) now observedAt detail

inductive Call where
  | signal (report : Report)
  | acknowledge (key actorEmail : String)
  | resolve (key actorEmail detail : String)
  | resolveKey (key detail : String)
  | setSeverity (key severity detail evidenceSha256 : String)
  | recoverFamily (incidentKey : String) (observedAt : Int) (detail : String)
  | recoverPrefix (start : String) (observedAt : Int) (detail : String)

/-- A call, with what the clock said. -/
structure Timed where
  call : Call
  now : Int

def perform (store : Incidents) (timed : Timed) : Incidents :=
  match timed.call with
  | .signal report => (recordOperationalIncident report timed.now store).2
  | .acknowledge key actorEmail =>
      (transitionOperationalIncident key .acknowledged actorEmail "Incident acknowledged by owner"
        timed.now none store).2
  | .resolve key actorEmail detail =>
      (transitionOperationalIncident key .resolved actorEmail detail timed.now none store).2
  | .resolveKey key detail => (resolveKey key detail timed.now store).2
  | .setSeverity key severity detail evidenceSha256 =>
      (setOperationalIncidentSeverity key severity detail evidenceSha256 timed.now store).2
  | .recoverFamily incidentKey observedAt detail =>
      (resolveRecoveredFamily incidentKey observedAt detail store).2
  | .recoverPrefix start observedAt detail =>
      (resolveRecoveredPrefix start timed.now observedAt detail store).2

def performed (calls : List Timed) : Incidents := calls.foldl perform Dict.empty

/-- The events of a key; none before its first signal. -/
def eventsOf (store : Incidents) (key : String) : List Event :=
  match store.get? key with
  | some incident => incident.events
  | none => []

section Newest
variable {events : List Event} {event : Event} {bound : Int}

theorem newest_append (last : ∀ other ∈ events, other.occurredAt ≤ event.occurredAt) :
    newest (events ++ [event]) = some event := by
  unfold newest
  rw [List.reverse_append]
  change latest Event.occurredAt (event :: events.reverse) = some event
  cases found : latest Event.occurredAt events.reverse with
  | none => simp only [latest, found]
  | some best =>
    have member := List.mem_reverse.mp (latest_spec found).1
    simp only [latest, found]
    rw [if_neg (not_lt.mpr (last best member))]

theorem newest_spec (found : newest events = some event) :
    event ∈ events ∧ ∀ other ∈ events, other.occurredAt ≤ event.occurredAt := by
  obtain ⟨member, above⟩ := latest_spec found
  refine ⟨List.mem_reverse.mp member, fun other otherIn => ?_⟩
  exact above other (List.mem_reverse.mpr otherIn)

theorem newest_none : newest events = none ↔ events = [] := by
  unfold newest
  rw [latest_none, List.reverse_eq_nil_iff]

theorem status_append (last : ∀ other ∈ events, other.occurredAt ≤ event.occurredAt) :
    status (events ++ [event]) =
      if event.eventType = .observed then status events else some event.eventType.status := by
  unfold status stateEvents
  rw [List.filter_append]
  split
  · rename_i observed
    rw [List.filter_singleton]
    simp [observed]
  · rename_i telling
    have alone : [event].filter (fun event => decide (event.eventType ≠ .observed)) = [event] :=
      List.filter_eq_self.mpr fun other member => by
        rw [List.mem_singleton.mp member]
        exact decide_eq_true telling
    rw [alone, newest_append fun other member => last other (List.mem_filter.mp member).1]
    rfl

end Newest

section Steps
variable {store : Incidents} {key : String} {row : Row}

theorem eventsOf_append (store : Incidents) (key other : String) (event : Event) :
    eventsOf (appendEvent store key event) other =
      if other = key ∧ (store.get? key).isSome then eventsOf store other ++ [event] else eventsOf store other := by
  unfold appendEvent
  cases found : store.get? key with
  | none => simp
  | some incident =>
    unfold eventsOf
    by_cases same : other = key
    · subst same
      simp [found]
    · simp [same]

theorem appendEvent_present {other : String} {event : Event}
    (present : ((appendEvent store key event).get? other).isSome) : (store.get? other).isSome := by
  unfold appendEvent at present
  cases found : store.get? key with
  | none => rwa [found] at present
  | some incident =>
    rw [found] at present
    by_cases same : other = key
    · rw [same, found]
      rfl
    · simpa [same] using present

theorem mem_listed {limit : ℕ} (listed : row ∈ listOperationalIncidents store limit) :
    store.get? row.incidentKey = some row.incident ∧ newest row.incident.events = some row.latest ∧
      status row.incident.events = some row.status := by
  have sorted := mem_stableSort.mp (List.mem_of_mem_take listed)
  obtain ⟨entry, entryIn, shownAs⟩ := List.mem_filterMap.mp sorted
  unfold shown at shownAs
  split at shownAs
  · rename_i latest status newestIs statusIs
    cases shownAs
    exact ⟨Dict.mem_entries.mp entryIn, newestIs, statusIs⟩
  · cases shownAs

theorem byKey_spec (found : operationalIncidentByKey store key = some row) :
    row.incidentKey = key ∧ row ∈ listOperationalIncidents store 1000 := by
  have chosen := List.find?_some found
  exact ⟨of_decide_eq_true chosen, List.mem_of_find?_eq_some found⟩

theorem listed_events {limit : ℕ} (listed : row ∈ listOperationalIncidents store limit) :
    eventsOf store row.incidentKey = row.incident.events := by
  unfold eventsOf
  rw [(mem_listed listed).1]

/-- What a transition may do: nothing, or close or acknowledge an incident that is listed, not
resolved, and has nothing newer than the evidence. -/
theorem transition_cases (store : Incidents) (key : String) (eventType : EventType)
    (actorEmail detail : String) (now : Int) (recoveredThrough : Option Int) :
    (transitionOperationalIncident key eventType actorEmail detail now recoveredThrough store).2 = store ∨
      ∃ row ∈ listOperationalIncidents store 1000, row.incidentKey = key ∧ row.status ≠ .resolved ∧
        (∀ through ∈ recoveredThrough, row.lastSeenAt ≤ through) ∧
        ∃ event : Event, event.occurredAt = now ∧ event.eventType = eventType ∧
          (transitionOperationalIncident key eventType actorEmail detail now recoveredThrough store).2 =
            appendEvent store key event := by
  unfold transitionOperationalIncident
  simp only [Transaction.read_bind, Transaction.ite_apply]
  split
  · exact .inl rfl
  · cases found : operationalIncidentByKey store key with
    | none => exact .inl rfl
    | some row =>
      obtain ⟨own, listed⟩ := byKey_spec found
      simp only [Transaction.ite_apply, Transaction.write_bind, Transaction.pure_apply]
      split
      · exact .inl rfl
      · rename_i unresolved
        split
        · exact .inl rfl
        · rename_i nothingNewer
          split
          · exact .inl rfl
          · split
            · exact .inl rfl
            · refine .inr ⟨row, listed, own, unresolved, fun through given => ?_, _, rfl, rfl, rfl⟩
              by_contra newer
              exact nothingNewer ⟨through, given, not_le.mp newer⟩

theorem record_stores {report : Report} (store : Incidents) (now : Int) (accepted : report.severity ∈ severities)
    (new : ¬ repeats (eventsOf store report.incidentKey) report.evidenceSha256) :
    ∃ event : Event, event.occurredAt = now ∧
      (event.eventType ∈ [.opened, .reopened] ∨ event.eventType = .observed ∧
        (store.get? report.incidentKey).isSome ∧ status (eventsOf store report.incidentKey) ≠ some .resolved) ∧
      (∀ key, eventsOf (recordOperationalIncident report now store).2 key =
        if key = report.incidentKey then eventsOf store key ++ [event] else eventsOf store key) ∧
      ∀ key, ((recordOperationalIncident report now store).2.get? key).isSome →
        key = report.incidentKey ∨ (store.get? key).isSome := by
  unfold recordOperationalIncident
  simp only [Transaction.read_bind, accepted, not_true_eq_false, if_false]
  cases found : store.get? report.incidentKey with
  | none =>
    refine ⟨report.event .opened now, rfl, .inl List.mem_cons_self, fun key => ?_, fun key => ?_⟩
    · change eventsOf (store.insert report.incidentKey _) key = _
      unfold eventsOf
      by_cases same : key = report.incidentKey
      · simp [same, found]
      · simp [same]
    · change ((store.insert report.incidentKey _).get? key).isSome → _
      by_cases same : key = report.incidentKey
      · exact fun _ => .inl same
      · simp [same]
  | some incident =>
    have known : eventsOf store report.incidentKey = incident.events := by
      unfold eventsOf
      rw [found]
    rw [known] at new ⊢
    simp only [Transaction.ite_apply, new, if_false]
    refine ⟨report.event (if status incident.events = some .resolved then .reopened else .observed) now, rfl,
      ?_, fun key => ?_, fun key present => ?_⟩
    · by_cases resolved : status incident.events = some .resolved
      · rw [if_pos resolved]
        exact .inl (List.mem_cons_of_mem _ (List.mem_singleton_self _))
      · rw [if_neg resolved]
        exact .inr ⟨rfl, rfl, resolved⟩
    · refine (eventsOf_append store report.incidentKey key _).trans ?_
      rw [found]
      simp
    · exact .inr (appendEvent_present present)

theorem record_repeated {report : Report} (store : Incidents) (now : Int)
    (repeated : report.severity ∉ severities ∨ repeats (eventsOf store report.incidentKey) report.evidenceSha256) :
    (recordOperationalIncident report now store).2 = store := by
  unfold recordOperationalIncident
  simp only [Transaction.read_bind, Transaction.ite_apply]
  split
  · rfl
  · rename_i accepted
    have same := repeated.resolve_left accepted
    cases found : store.get? report.incidentKey with
    | none =>
      unfold eventsOf at same
      rw [found] at same
      cases same.2
    | some incident =>
      unfold eventsOf at same
      rw [found] at same
      simp only [Transaction.ite_apply, if_pos same]
      rfl

end Steps

/-- After a call every key has its events of before, and possibly later ones. -/
structure Extends (now : Int) (before after : Incidents) : Prop where
  added : ∀ key, ∃ added, eventsOf after key = eventsOf before key ++ added ∧
    ∀ event ∈ added, event.occurredAt ≤ now
  told : ∀ key, (after.get? key).isSome → (before.get? key).isSome ∨ stateEvents (eventsOf after key) ≠ []

section Growth
variable {now : Int} {before middle after store : Incidents} {key : String}

theorem Extends.refl (now : Int) (store : Incidents) : Extends now store store := by
  refine ⟨fun key => ⟨[], ?_, ?_⟩, fun key present => .inl present⟩
  · rw [List.append_nil]
  · intro event never
    cases never

theorem stateEvents_append {events added : List Event} (told : stateEvents events ≠ []) :
    stateEvents (events ++ added) ≠ [] := by
  unfold stateEvents at told ⊢
  rw [List.filter_append]
  intro nothing
  exact told (List.append_eq_nil_iff.mp nothing).1

theorem Extends.trans (first : Extends now before middle) (second : Extends now middle after) :
    Extends now before after := by
  refine ⟨fun key => ?_, fun key present => ?_⟩
  · obtain ⟨early, earlyIs, earlyBound⟩ := first.added key
    obtain ⟨late, lateIs, lateBound⟩ := second.added key
    refine ⟨early ++ late, ?_, fun event member => ?_⟩
    · rw [lateIs, earlyIs, List.append_assoc]
    · rcases List.mem_append.mp member with inEarly | inLate
      · exact earlyBound event inEarly
      · exact lateBound event inLate
  · rcases second.told key present with known | told
    · rcases first.told key known with older | told
      · exact .inl older
      · obtain ⟨late, lateIs, _⟩ := second.added key
        rw [lateIs]
        exact .inr (stateEvents_append told)
    · exact .inr told

theorem Extends.mem (extended : Extends now before after) {event : Event} (stored : event ∈ eventsOf before key) :
    event ∈ eventsOf after key := by
  obtain ⟨added, addedIs, _⟩ := extended.added key
  rw [addedIs]
  exact List.mem_append_left _ stored

theorem Extends.append (store : Incidents) (key : String) {event : Event} (bound : event.occurredAt ≤ now) :
    Extends now store (appendEvent store key event) := by
  refine ⟨fun other => ?_, fun other present => ?_⟩
  · rw [eventsOf_append]
    split
    · exact ⟨[event], rfl, fun new member => by rw [List.mem_singleton.mp member]; exact bound⟩
    · exact ⟨[], (List.append_nil _).symm, fun new never => by cases never⟩
  · exact .inl (appendEvent_present present)

theorem Extends.transition (store : Incidents) (key : String) (eventType : EventType)
    (actorEmail detail : String) {instant : Int} (bound : instant ≤ now) (recoveredThrough : Option Int) :
    Extends now store
      (transitionOperationalIncident key eventType actorEmail detail instant recoveredThrough store).2 := by
  rcases transition_cases store key eventType actorEmail detail instant recoveredThrough with
    same | ⟨row, _, _, _, _, event, occurred, _, written⟩
  · rw [same]
    exact .refl now store
  · rw [written]
    exact .append store key (occurred.trans_le bound)

theorem Extends.record (store : Incidents) (report : Report) (now : Int) :
    Extends now store (recordOperationalIncident report now store).2 := by
  by_cases dropped : report.severity ∉ severities ∨
      repeats (eventsOf store report.incidentKey) report.evidenceSha256
  · rw [record_repeated store now dropped]
    exact .refl now store
  · obtain ⟨accepted, new⟩ := not_or.mp dropped
    obtain ⟨event, occurred, kind, events, known⟩ := record_stores store now (not_not.mp accepted) new
    refine ⟨fun key => ?_, fun key present => ?_⟩
    · rw [events key]
      split
      · exact ⟨[event], rfl, fun stored member => by rw [List.mem_singleton.mp member, occurred]⟩
      · exact ⟨[], (List.append_nil _).symm, fun stored never => by cases never⟩
    · rcases known key present with own | older
      · rcases kind with told | ⟨_, present, _⟩
        · refine .inr ?_
          rw [events key, if_pos own]
          unfold stateEvents
          rw [List.filter_append]
          intro nothing
          have last := (List.append_eq_nil_iff.mp nothing).2
          refine List.filter_eq_nil_iff.mp last event (List.mem_singleton_self _) (decide_eq_true ?_)
          intro observed
          rw [observed] at told
          simp at told
        · rw [own]
          exact .inl present
      · exact .inl older

theorem Extends.resolveKey (store : Incidents) (key detail : String) (now : Int) :
    Extends now store (resolveKey key detail now store).2 := by
  unfold Operations.resolveKey
  simp only [Transaction.read_bind]
  cases operationalIncidentByKey store key with
  | none => exact .refl now store
  | some row =>
    simp only [Transaction.ite_apply]
    split
    · exact .refl now store
    · exact .transition store _ _ _ _ le_rfl _

theorem Extends.setSeverity (store : Incidents) (key severity detail evidenceSha256 : String) (now : Int) :
    Extends now store (setOperationalIncidentSeverity key severity detail evidenceSha256 now store).2 := by
  unfold setOperationalIncidentSeverity
  simp only [Transaction.read_bind, Transaction.ite_apply]
  split
  · exact .refl now store
  · cases found : store.get? key with
    | none => exact .refl now store
    | some incident =>
      simp only [Transaction.ite_apply, Transaction.write_bind, Transaction.pure_apply]
      split
      · refine .trans ?_ (.append _ key le_rfl)
        have same : eventsOf (store.insert key { incident with severity := severity }) = eventsOf store := by
          funext other
          unfold eventsOf
          by_cases own : other = key
          · simp [own, found]
          · simp [own]
        refine ⟨fun other => ⟨[], ?_, ?_⟩, fun other present => .inl ?_⟩
        · rw [same, List.append_nil]
        · intro event never
          cases never
        · by_cases own : other = key
          · rw [own, found]
            rfl
          · simpa [own] using present
      · exact .refl now store

end Growth

section Recovery
variable {store : Incidents} {covered : String → Bool} {now observedAt : Int} {key : String}

/-- An incident that a recovery would close: listed, covered, not resolved, nothing newer than its evidence. -/
def Recoverable (store : Incidents) (covered : String → Bool) (through : Int) (key : String) : Prop :=
  ∃ row ∈ listOperationalIncidents store 1000, row.incidentKey = key ∧ covered key = true ∧
    row.status ≠ .resolved ∧ row.lastSeenAt ≤ through

theorem resolveRecovered_spec (store : Incidents) (covered : String → Bool) (now observedAt : Int)
    (detail : String) : Extends now store (resolveRecovered covered now observedAt detail store).2 ∧
      ∀ key, ¬ Recoverable store covered observedAt key →
        eventsOf (resolveRecovered covered now observedAt detail store).2 key = eventsOf store key := by
  unfold resolveRecovered
  simp only [Transaction.read_bind]
  refine Transaction.foldlM_keeps (fun middle => Extends now store middle ∧
    ∀ key, ¬ Recoverable store covered observedAt key → eventsOf middle key = eventsOf store key)
    (fun row listed closed middle before => ?_) ⟨.refl now store, fun key _ => rfl⟩
  obtain ⟨grown, untouched⟩ := before
  simp only [Transaction.ite_apply]
  split
  · exact ⟨grown, untouched⟩
  · rename_i chosen
    rw [not_or] at chosen
    rw [Transaction.bind_pure_snd]
    refine ⟨grown.trans (.transition middle _ _ _ _ le_rfl _), fun key kept => ?_⟩
    rcases transition_cases middle row.incidentKey .resolved "system" detail now (some observedAt) with
      same | ⟨again, againListed, own, _, nothingNewer, event, _, _, written⟩
    · rw [same]
      exact untouched key kept
    · have apart : key ≠ row.incidentKey := by
        rintro rfl
        refine kept ⟨row, listed, rfl, eq_true_of_ne_false chosen.2, chosen.1, ?_⟩
        -- what the first listing showed is still stored, so the second shows nothing older
        have shownFirst := (newest_spec (mem_listed listed).2.1).1
        rw [← listed_events listed] at shownFirst
        have still := grown.mem shownFirst
        rw [← own, listed_events againListed] at still
        exact ((newest_spec (mem_listed againListed).2.1).2 row.latest still).trans
          (nothingNewer observedAt rfl)
      rw [written, eventsOf_append, if_neg fun both => apart both.1]
      exact untouched key kept

end Recovery

/-- What a recovery covers, and the instant of its evidence. -/
def Call.recovery : Call → Option ((String → Bool) × Int)
  | .recoverFamily incidentKey observedAt _ => some (inFamily incidentKey, observedAt)
  | .recoverPrefix start observedAt _ => some (fun key => startsWith key start, observedAt)
  | _ => none

/-- One clock that never goes back stamps the calls, and earlier the evidence they bring. -/
structure Clocked (calls : List Timed) : Prop where
  ordered : calls.Pairwise fun first second => first.now ≤ second.now
  evidence : ∀ timed ∈ calls, ∀ recovery ∈ timed.call.recovery, recovery.2 ≤ timed.now

def Signalled (calls : List Timed) (key : String) (instant : Int) : Prop :=
  ∃ report, ⟨.signal report, instant⟩ ∈ calls ∧ report.incidentKey = key ∧ report.severity ∈ severities

/-- A signal of the key was dropped at the instant: it repeated the newest event of an incident not resolved. -/
def Dropped (calls : List Timed) (key : String) (instant : Int) : Prop :=
  ∃ front report back, calls = front ++ ⟨.signal report, instant⟩ :: back ∧ report.incidentKey = key ∧
    report.severity ∈ severities ∧ repeats (eventsOf (performed front) key) report.evidenceSha256

def statusOf (store : Incidents) (key : String) : Option Status := status (eventsOf store key)

/-- A recovery that resolves an incident has evidence of every signal of it, and a signal leaves
its incident unresolved. -/
def RecoveryHidesNothing (calls : List Timed) : Prop :=
  ∀ before timed after, calls = before ++ timed :: after →
    (∀ covered through, timed.call.recovery = some (covered, through) → ∀ key,
      statusOf (performed before) key ≠ some .resolved →
      statusOf (perform (performed before) timed) key = some .resolved →
        ∀ instant, Signalled before key instant → instant ≤ through) ∧
    (∀ report, timed.call = .signal report → report.severity ∈ severities →
      ∃ status, statusOf (perform (performed before) timed) report.incidentKey = some status ∧ status ≠ .resolved)

section Runs
variable {calls before after : List Timed} {timed : Timed} {key : String} {now : Int}

theorem perform_extends (store : Incidents) (timed : Timed)
    (evidence : ∀ recovery ∈ timed.call.recovery, recovery.2 ≤ timed.now) :
    Extends timed.now store (perform store timed) := by
  obtain ⟨call, now⟩ := timed
  cases call with
  | signal report => exact .record store report now
  | acknowledge key actorEmail => exact .transition store _ _ _ _ le_rfl _
  | resolve key actorEmail detail => exact .transition store _ _ _ _ le_rfl _
  | resolveKey key detail => exact .resolveKey store key detail now
  | setSeverity key severity detail evidenceSha256 => exact .setSeverity store key severity detail evidenceSha256 now
  | recoverFamily incidentKey observedAt detail =>
    have grown := (resolveRecovered_spec store (inFamily incidentKey) observedAt observedAt detail).1
    have earlier : observedAt ≤ now := evidence _ rfl
    refine ⟨fun key => ?_, grown.told⟩
    obtain ⟨added, addedIs, bound⟩ := grown.added key
    exact ⟨added, addedIs, fun event member => (bound event member).trans earlier⟩
  | recoverPrefix start observedAt detail => exact (resolveRecovered_spec store _ now observedAt detail).1

theorem Clocked.front (clocked : Clocked (before ++ after)) : Clocked before :=
  ⟨(List.pairwise_append.mp clocked.ordered).1,
    fun timed member => clocked.evidence timed (List.mem_append_left _ member)⟩

theorem performed_append (before : List Timed) (timed : Timed) :
    performed (before ++ [timed]) = perform (performed before) timed := by
  unfold performed
  rw [List.foldl_append]
  rfl

theorem performed_grows (clocked : Clocked (before ++ after)) {event : Event}
    (stored : event ∈ eventsOf (performed before) key) : event ∈ eventsOf (performed (before ++ after)) key := by
  unfold performed
  rw [List.foldl_append]
  refine foldl_keeps (fun store => event ∈ eventsOf store key) after (fun timed member store stored => ?_) stored
  exact (perform_extends store timed (clocked.evidence timed (List.mem_append_right _ member))).mem stored

/-- What holds of a store that a clocked run has reached by an instant. -/
structure Kept (now : Int) (store : Incidents) : Prop where
  bound : ∀ key, ∀ event ∈ eventsOf store key, event.occurredAt ≤ now
  told : ∀ key, (store.get? key).isSome → stateEvents (eventsOf store key) ≠ []

theorem Kept.perform {store : Incidents} (kept : Kept now store) (later : now ≤ timed.now)
    (evidence : ∀ recovery ∈ timed.call.recovery, recovery.2 ≤ timed.now) :
    Kept timed.now (perform store timed) := by
  have grown := perform_extends store timed evidence
  refine ⟨fun key event member => ?_, fun key present => ?_⟩
  · obtain ⟨added, addedIs, bound⟩ := grown.added key
    rw [addedIs] at member
    rcases List.mem_append.mp member with old | new
    · exact (kept.bound key event old).trans later
    · exact bound event new
  · rcases grown.told key present with known | told
    · obtain ⟨added, addedIs, _⟩ := grown.added key
      rw [addedIs]
      exact stateEvents_append (kept.told key known)
    · exact told

theorem Clocked.kept (clocked : Clocked (before ++ timed :: after)) : Kept timed.now (performed before) := by
  induction before using List.reverseRec generalizing timed after with
  | nil =>
    refine ⟨fun key event never => ?_, fun key never => ?_⟩
    · cases never
    · cases never
  | append_singleton front last ih =>
    rw [List.append_assoc] at clocked
    have inner := ih clocked
    have ordered := (List.pairwise_append.mp clocked.ordered).2.1
    have later : last.now ≤ timed.now := (List.pairwise_cons.mp ordered).1 timed (by simp)
    rw [performed_append]
    have reached := inner.perform le_rfl (clocked.evidence last (by simp))
    exact ⟨fun key event member => (reached.bound key event member).trans later, reached.told⟩

theorem signal_stored (clocked : Clocked calls) {instant : Int} (signalled : Signalled calls key instant) :
    Dropped calls key instant ∨ ∃ event ∈ eventsOf (performed calls) key, event.occurredAt = instant := by
  obtain ⟨report, member, rfl, accepted⟩ := signalled
  obtain ⟨front, back, split⟩ := List.append_of_mem member
  by_cases dropped : repeats (eventsOf (performed front) report.incidentKey) report.evidenceSha256
  · exact .inl ⟨front, report, back, split, rfl, accepted, dropped⟩
  · refine .inr ?_
    obtain ⟨event, occurred, _, events, _⟩ := record_stores (performed front) instant accepted dropped
    refine ⟨event, ?_, occurred⟩
    have whole : calls = (front ++ [⟨.signal report, instant⟩]) ++ back := by
      rw [split, List.append_assoc]
      rfl
    rw [whole] at clocked ⊢
    refine performed_grows clocked ?_
    rw [performed_append]
    change event ∈ eventsOf (recordOperationalIncident report instant (performed front)).2 report.incidentKey
    rw [events, if_pos rfl]
    exact List.mem_append_right _ (List.mem_singleton_self event)

theorem recovery_closes {store : Incidents} {covered : String → Bool} {through : Int}
    (recovery : timed.call.recovery = some (covered, through)) (changed : eventsOf (perform store timed) key ≠
      eventsOf store key) : Recoverable store covered through key := by
  by_contra kept
  refine changed ?_
  obtain ⟨call, now⟩ := timed
  cases call with
  | recoverFamily incidentKey observedAt detail =>
    cases recovery
    exact (resolveRecovered_spec store _ through through detail).2 key kept
  | recoverPrefix start observedAt detail =>
    cases recovery
    exact (resolveRecovered_spec store _ now through detail).2 key kept
  | _ => cases recovery

theorem Kept.signal {store : Incidents} (kept : Kept now store) {report : Report}
    (accepted : report.severity ∈ severities) :
    ∃ status, statusOf (recordOperationalIncident report now store).2 report.incidentKey = some status ∧
      status ≠ .resolved := by
  have told : ∀ key, (store.get? key).isSome → status (eventsOf store key) ≠ some .resolved →
      ∃ found, status (eventsOf store key) = some found ∧ found ≠ .resolved := by
    intro key present unresolved
    cases found : status (eventsOf store key) with
    | some shown => exact ⟨shown, rfl, fun resolved => unresolved (found.trans (congrArg some resolved))⟩
    | none =>
      unfold status at found
      exact absurd (newest_none.mp (Option.map_eq_none_iff.mp found)) (kept.told key present)
  by_cases dropped : repeats (eventsOf store report.incidentKey) report.evidenceSha256
  · rw [record_repeated store now (.inr dropped)]
    refine told _ ?_ dropped.1
    unfold eventsOf at dropped
    split at dropped
    · rename_i found
      rw [found]
      rfl
    · cases dropped.2
  · obtain ⟨event, occurred, kind, events, _⟩ := record_stores store now accepted dropped
    unfold statusOf
    rw [events, if_pos rfl, status_append fun other member => (kept.bound _ other member).trans occurred.ge]
    rcases kind with opens | ⟨observed, present, unresolved⟩
    · have telling : event.eventType ≠ .observed := by
        intro observed
        rw [observed] at opens
        simp at opens
      rw [if_neg telling]
      refine ⟨_, rfl, ?_⟩
      rcases List.mem_cons.mp opens with opened | reopened
      · rw [opened]
        decide
      · rw [List.mem_singleton.mp reopened]
        decide
    · rw [if_pos observed]
      exact told _ present unresolved

end Runs

/-- No recovery closes an incident whose signal was dropped as a repeat later than its evidence. -/
def RepeatsCovered (calls : List Timed) : Prop :=
  ∀ before timed after, calls = before ++ timed :: after →
    ∀ covered through, timed.call.recovery = some (covered, through) →
      ∀ key, Recoverable (performed before) covered through key →
        ∀ instant, Dropped before key instant → instant ≤ through

/-- The dropped repeats are all that a recovery can miss. -/
theorem recovery_hides_nothing (calls : List Timed) (clocked : Clocked calls) (repeats : RepeatsCovered calls) :
    RecoveryHidesNothing calls := by
  intro before timed after split
  have whole := clocked
  rw [split] at whole
  refine ⟨fun covered through recovery key unresolved resolved instant signalled => ?_,
    fun report signal accepted => ?_⟩
  · have changed : eventsOf (perform (performed before) timed) key ≠ eventsOf (performed before) key := by
      intro same
      unfold statusOf at unresolved resolved
      rw [same] at resolved
      exact unresolved resolved
    have closes := recovery_closes recovery changed
    rcases signal_stored whole.front signalled with dropped | ⟨event, stored, rfl⟩
    · exact repeats before timed after split covered through recovery key closes instant dropped
    · obtain ⟨row, listed, rfl, _, _, nothingNewer⟩ := closes
      rw [listed_events listed] at stored
      exact ((newest_spec (mem_listed listed).2.1).2 event stored).trans nothingNewer
  · obtain ⟨call, now⟩ := timed
    cases signal
    exact whole.kept.signal accepted

section Cases

def workerFailed : Report :=
  { incidentKey := "valuation-phase:prices", source := "valuation", severity := "critical"
    title := "prices failed", detail := "TimeoutError", deepLink := "/?view=health", evidenceSha256 := "a1" }

/-- A failure at 10, again at 12, and a recovery, at 13, that saw things up to an instant. -/
def failedTwice (observedAt : Int) : List Timed :=
  [⟨.signal workerFailed, 10⟩, ⟨.signal workerFailed, 12⟩,
    ⟨.recoverFamily "valuation-phase:prices" observedAt "prices succeeded again", 13⟩]

theorem failedTwice_clocked {observedAt : Int} (earlier : observedAt ≤ 13) : Clocked (failedTwice observedAt) := by
  refine ⟨by simp [failedTwice], fun timed member => ?_⟩
  simp only [failedTwice, List.mem_cons, List.not_mem_nil, or_false] at member
  rcases member with rfl | rfl | rfl
  · intro recovery never
    cases never
  · intro recovery never
    cases never
  · intro recovery own
    cases own
    exact earlier

/-- A recovery that saw the last failure meets the condition. -/
theorem recovery_hides_nothing_seen : RecoveryHidesNothing (failedTwice 13) := by
  refine recovery_hides_nothing _ (failedTwice_clocked le_rfl) ?_
  intro before timed after split covered through recovery key _ instant dropped
  have timedIn : timed ∈ failedTwice 13 := by
    rw [split]
    exact List.mem_append_right _ List.mem_cons_self
  have throughIs : through = 13 := by
    simp only [failedTwice, List.mem_cons, List.not_mem_nil, or_false] at timedIn
    rcases timedIn with rfl | rfl | rfl <;> cases recovery
    rfl
  obtain ⟨front, report, back, beforeIs, _⟩ := dropped
  have signalIn : (⟨.signal report, instant⟩ : Timed) ∈ failedTwice 13 := by
    rw [split, beforeIs]
    simp
  rw [throughIs]
  simp only [failedTwice, List.mem_cons, List.not_mem_nil, or_false, Timed.mk.injEq] at signalIn
  rcases signalIn with ⟨_, rfl⟩ | ⟨_, rfl⟩ | ⟨_, rfl⟩ <;> decide

/-- A recovery that saw things up to 11 closes the incident whose failure of 12 was dropped. -/
theorem repeat_hidden : Clocked (failedTwice 11) ∧ ¬ RecoveryHidesNothing (failedTwice 11) := by
  refine ⟨failedTwice_clocked (by decide), fun hides => ?_⟩
  have covered := (hides [⟨.signal workerFailed, 10⟩, ⟨.signal workerFailed, 12⟩] _ [] rfl).1
    _ 11 rfl "valuation-phase:prices" (by decide) (by decide) 12 ⟨workerFailed, by simp, rfl, by decide⟩
  exact absurd covered (by decide)

end Cases

end C3po.Operations
