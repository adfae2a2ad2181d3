import C3po.Operations.Incidents

/-! The episodes of an incident: opened once, then resolved and reopened in turn. -/

set_option autoImplicit false

namespace C3po.Operations
open C3po.Library

/-- What may be stored next on an incident of a status, or on none. -/
def EventType.follows : Option Status → EventType → Bool
  | none, .opened => true
  | some .opened, .observed => true
  | some .opened, .acknowledged => true
  | some .opened, .resolved => true
  | some .acknowledged, .observed => true
  | some .acknowledged, .resolved => true
  | some .resolved, .reopened => true
  | _, _ => false

def EventType.begins (eventType : EventType) : Bool := eventType = .opened ∨ eventType = .reopened

def operationalIncidentOpenSince (store : Incidents) (key : String) : Option Int :=
  match operationalIncidentByKey store key with
  | none => none
  | some row =>
      if row.status = .resolved then none
      else (newest (row.incident.events.filter fun event => event.eventType.begins)).map Event.occurredAt

/-- Every event may follow those before it, and is no older than any of them. -/
def Told (events : List Event) : Prop :=
  ∀ before event after, events = before ++ event :: after →
    event.eventType.follows (status before) = true ∧ ∀ other ∈ before, other.occurredAt ≤ event.occurredAt

section
variable {events : List Event} {event : Event} {store : Incidents} {key : String}

theorem Told.append (told : Told events) (event : Event) (follows : event.eventType.follows (status events) = true)
    (last : ∀ other ∈ events, other.occurredAt ≤ event.occurredAt) : Told (events ++ [event]) := by
  intro before other after same
  rcases snoc_split same with ⟨rfl, rfl, rfl⟩ | ⟨rest, whole, rfl⟩
  · exact ⟨follows, last⟩
  · exact told before other rest whole

theorem told_appendEvent (told : ∀ key, Told (eventsOf store key))
    (follows : event.eventType.follows (status (eventsOf store key)) = true)
    (last : ∀ other ∈ eventsOf store key, other.occurredAt ≤ event.occurredAt) :
    ∀ other, Told (eventsOf (appendEvent store key event) other) := by
  intro other
  rw [eventsOf_append]
  split
  · rename_i own
    rw [own.1]
    exact (told key).append event follows last
  · exact told other

theorem transition_follows {eventType : EventType} {actorEmail detail : String} {now : Int} {through : Option Int}
    (changed : (transitionOperationalIncident key eventType actorEmail detail now through store).2 ≠ store) :
    ∃ row, operationalIncidentByKey store key = some row ∧ eventType.follows (some row.status) = true := by
  unfold transitionOperationalIncident at changed
  simp only [Transaction.read_bind, Transaction.ite_apply] at changed
  split at changed
  · exact absurd rfl changed
  rename_i kind
  cases found : operationalIncidentByKey store key with
  | none =>
    rw [found] at changed
    exact absurd rfl changed
  | some row =>
    rw [found] at changed
    simp only [Transaction.ite_apply] at changed
    refine ⟨row, rfl, ?_⟩
    split at changed
    · exact absurd rfl changed
    rename_i unresolved
    split at changed
    · exact absurd rfl changed
    split at changed
    · exact absurd rfl changed
    rename_i unacknowledged
    revert kind unresolved unacknowledged
    generalize row.status = status
    cases eventType <;> cases status <;> decide

theorem told_transition (told : ∀ key, Told (eventsOf store key)) (eventType : EventType) (actorEmail detail : String)
    {now : Int} {through : Option Int} (late : (∀ event ∈ eventsOf store key, event.occurredAt ≤ now) ∨ through = some now) :
    ∀ other, Told (eventsOf (transitionOperationalIncident key eventType actorEmail detail now through store).2 other) := by
  rcases transition_cases store key eventType actorEmail detail now through with
    same | ⟨row, listed, own, _, nothingNewer, event, occurred, kind, written⟩
  · rw [same]
    exact told
  by_cases changed : (transitionOperationalIncident key eventType actorEmail detail now through store).2 = store
  · rw [changed]
    exact told
  obtain ⟨found, byKey, follows⟩ := transition_follows changed
  have shown := mem_listed (byKey_spec byKey).2
  have known : eventsOf store key = found.incident.events := (byKey_spec byKey).1 ▸ listed_events (byKey_spec byKey).2
  rw [written]
  refine told_appendEvent told ?_ fun other member => ?_
  · rw [kind, known, shown.2.2]
    exact follows
  · rw [occurred]
    rcases late with all | evidence
    · exact all other member
    · -- the evidence of a recovery is no older than the newest event
      rw [← own, listed_events listed] at member
      exact ((newest_spec (mem_listed listed).2.1).2 other member).trans (nothingNewer now evidence)

theorem told_record (told : ∀ key, Told (eventsOf store key)) {now : Int} (kept : Kept now store) (report : Report) :
    ∀ other, Told (eventsOf (recordOperationalIncident report now store).2 other) := by
  unfold recordOperationalIncident
  simp only [Transaction.read_bind, Transaction.ite_apply]
  split
  · exact told
  cases found : store.get? report.incidentKey with
  | none =>
    intro other
    change Told (eventsOf (store.insert report.incidentKey _) other)
    have nothing : Told [] := fun before _ _ same => by cases before <;> cases same
    unfold eventsOf
    rw [Dict.get?_insert]
    by_cases own : other = report.incidentKey
    · rw [if_pos own]
      exact nothing.append (report.event .opened now) rfl fun other member => absurd member List.not_mem_nil
    · rw [if_neg own]
      exact told other
  | some incident =>
    have known : eventsOf store report.incidentKey = incident.events := by
      unfold eventsOf
      rw [found]
    simp only [Transaction.ite_apply]
    split
    · exact told
    refine told_appendEvent told ?_ fun other member => kept.bound _ other member
    have telling := kept.told report.incidentKey (by rw [found]; rfl)
    rw [known] at telling ⊢
    -- what was resolved is reopened, and anything else observed
    change (if status incident.events = some .resolved then EventType.reopened else .observed).follows (status incident.events) = true
    cases shown : status incident.events with
    | none => exact absurd (newest_none.mp (Option.map_eq_none_iff.mp shown)) telling
    | some status => cases status <;> rfl

theorem told_setSeverity (told : ∀ key, Told (eventsOf store key)) {now : Int} (kept : Kept now store)
    (severity detail evidenceSha256 : String) :
    ∀ other, Told (eventsOf (setOperationalIncidentSeverity key severity detail evidenceSha256 now store).2 other) := by
  unfold setOperationalIncidentSeverity
  simp only [Transaction.read_bind, Transaction.ite_apply]
  split
  · exact told
  cases found : store.get? key with
  | none => exact told
  | some incident =>
    simp only [Transaction.ite_apply]
    split
    · rename_i changes
      have same : eventsOf (store.insert key { incident with severity := severity }) = eventsOf store := by
        funext other
        unfold eventsOf
        by_cases own : other = key
        · simp [own, found]
        · simp [own]
      have known : eventsOf store key = incident.events := by
        unfold eventsOf
        rw [found]
      refine told_appendEvent (fun other => same ▸ told other) ?_ fun other member => kept.bound key other (same ▸ member)
      rw [same, known]
      obtain ⟨-, shown, unresolved⟩ := changes
      change EventType.observed.follows (status incident.events) = true
      revert shown unresolved
      generalize status incident.events = shown
      rintro there unresolved
      cases shown with
      | none => cases there
      | some status => cases status <;> first | rfl | exact absurd rfl unresolved
    · exact told

theorem told_resolveKey (told : ∀ key, Told (eventsOf store key)) {now : Int} (kept : Kept now store) (detail : String) :
    ∀ other, Told (eventsOf (resolveKey key detail now store).2 other) := by
  unfold resolveKey
  simp only [Transaction.read_bind]
  cases operationalIncidentByKey store key with
  | none => exact told
  | some row =>
    simp only [Transaction.ite_apply]
    split
    · exact told
    · exact told_transition told .resolved "system" detail (.inl fun event member => kept.bound _ event member)

theorem told_resolveRecovered (told : ∀ key, Told (eventsOf store key)) (covered : String → Bool) {now observedAt : Int}
    (detail : String) (late : (∀ key, ∀ event ∈ eventsOf store key, event.occurredAt ≤ now) ∨ observedAt = now) :
    ∀ other, Told (eventsOf (resolveRecovered covered now observedAt detail store).2 other) := by
  unfold resolveRecovered
  simp only [Transaction.read_bind]
  refine (Transaction.foldlM_keeps (fun middle => (∀ key, Told (eventsOf middle key)) ∧
    ((∀ key, ∀ event ∈ eventsOf middle key, event.occurredAt ≤ now) ∨ observedAt = now))
    (fun row listed closed middle before => ?_) ⟨told, late⟩).1
  simp only [Transaction.ite_apply]
  split
  · exact before
  rw [Transaction.bind_pure_snd]
  refine ⟨told_transition before.1 .resolved "system" detail (before.2.imp (fun all => all row.incidentKey) (congrArg some)), ?_⟩
  refine before.2.imp (fun all key event member => ?_) id
  obtain ⟨added, whole, bound⟩ := (Extends.transition middle row.incidentKey .resolved "system" detail (le_refl now) (some observedAt)).added key
  rw [whole] at member
  exact (List.mem_append.mp member).elim (all key event) (bound event)

theorem told_perform (told : ∀ key, Told (eventsOf store key)) {timed : Timed} (kept : Kept timed.now store) :
    ∀ other, Told (eventsOf (perform store timed) other) := by
  obtain ⟨call, now⟩ := timed
  cases call with
  | signal report => exact told_record told kept report
  | acknowledge key actorEmail => exact told_transition told _ _ _ (.inl fun event member => kept.bound key event member)
  | resolve key actorEmail detail => exact told_transition told _ _ _ (.inl fun event member => kept.bound key event member)
  | resolveKey key detail => exact told_resolveKey told kept detail
  | setSeverity key severity detail evidenceSha256 => exact told_setSeverity told kept severity detail evidenceSha256
  | recoverFamily incidentKey observedAt detail => exact told_resolveRecovered told _ detail (.inr rfl)
  | recoverPrefix start observedAt detail => exact told_resolveRecovered told _ detail (.inl kept.bound)

theorem told_performed {calls : List Timed} (clocked : Clocked calls) : ∀ key, Told (eventsOf (performed calls) key) := by
  induction calls using List.reverseRec with
  | nil => exact fun key before _ _ same => by cases before <;> cases same
  | append_singleton before timed ih =>
    rw [performed_append]
    exact told_perform (ih clocked.front) (Clocked.kept clocked)

theorem last_start (some : (events.filter fun event => event.eventType.begins) ≠ []) : ∃ before start after,
    events = before ++ start :: after ∧ start.eventType.begins = true ∧ ∀ event ∈ after, event.eventType.begins = false := by
  induction events using List.reverseRec with
  | nil => exact absurd rfl some
  | append_singleton front last ih =>
    by_cases begins : last.eventType.begins = true
    · exact ⟨front, last, [], rfl, begins, fun event member => absurd member List.not_mem_nil⟩
    · have alone : [last].filter (fun event => event.eventType.begins) = [] := by simp [begins]
      rw [List.filter_append, alone, List.append_nil] at some
      obtain ⟨before, start, after, rfl, starts, others⟩ := ih some
      refine ⟨before, start, after ++ [last], by simp, starts, fun event member => ?_⟩
      rcases List.mem_append.mp member with inside | own
      · exact others event inside
      · rw [List.mem_singleton.mp own]
        exact eq_false_of_ne_true begins

theorem unresolved_since {before after : List Event} {start : Event} (told : Told (before ++ start :: after))
    (others : ∀ event ∈ after, event.eventType.begins = false) (unresolved : status (before ++ start :: after) ≠ some .resolved) :
    ∀ event ∈ after, event.eventType ∈ [.observed, .acknowledged] := by
  intro event member
  obtain ⟨inner, rest, rfl⟩ := List.append_of_mem member
  have resolved : event.eventType = .resolved → False := by
    intro resolves
    have whole : before ++ start :: (inner ++ event :: rest) = (before ++ start :: inner) ++ event :: rest := by simp
    rw [whole] at told unresolved
    have shown : status ((before ++ start :: inner) ++ [event]) = some .resolved := by
      rw [status_append (told _ _ _ rfl).2, resolves]
      rfl
    cases rest with
    | nil => exact unresolved shown
    | cons next rest =>
      have follows := (told ((before ++ start :: inner) ++ [event]) next rest (by simp)).1
      have plain := others next (by simp)
      rw [shown] at follows
      revert follows plain
      generalize next.eventType = eventType
      cases eventType <;> decide
  have plain := others event member
  revert resolved plain
  generalize event.eventType = eventType
  cases eventType <;> simp [EventType.begins]

/-- Under one clock that never goes back every incident goes through episodes: opened once, observed and acknowledged while it is
not resolved, resolved, and then stored upon again only to be reopened; and what is told as the beginning of the episode in course
is the instant of the last opening, after which the incident was only observed and acknowledged. -/
theorem incident_episodes (calls : List Timed) (clocked : Clocked calls) (key : String) :
    Told (eventsOf (performed calls) key) ∧
      ∀ instant, operationalIncidentOpenSince (performed calls) key = some instant → ∃ before start after,
        eventsOf (performed calls) key = before ++ start :: after ∧ start.eventType.begins = true ∧ start.occurredAt = instant ∧
          ∀ event ∈ after, event.eventType ∈ [.observed, .acknowledged] := by
  have told := told_performed clocked key
  refine ⟨told, fun instant since => ?_⟩
  unfold operationalIncidentOpenSince at since
  cases found : operationalIncidentByKey (performed calls) key with
  | none =>
    rw [found] at since
    cases since
  | some row =>
    rw [found] at since
    dsimp only at since
    split at since
    · cases since
    rename_i unresolved
    obtain ⟨own, listed⟩ := byKey_spec found
    have known : eventsOf (performed calls) key = row.incident.events := own ▸ listed_events listed
    rw [known] at told ⊢
    obtain ⟨opening, latest, rfl⟩ := Option.map_eq_some_iff.mp since
    obtain ⟨among, above⟩ := newest_spec latest
    obtain ⟨before, start, after, whole, begins, others⟩ := last_start (List.ne_nil_of_mem among)
    rw [whole] at told
    refine ⟨before, start, after, whole, begins, le_antisymm (above start ?_) ?_, ?_⟩
    · exact List.mem_filter.mpr ⟨whole ▸ List.mem_append_right _ List.mem_cons_self, begins⟩
    · obtain ⟨inside, opens⟩ := List.mem_filter.mp among
      rw [whole] at inside
      rcases List.mem_append.mp inside with earlier | later
      · exact (told before start after rfl).2 opening earlier
      · rcases List.mem_cons.mp later with rfl | past
        · exact le_rfl
        · exact absurd opens (Bool.eq_false_iff.mp (others opening past))
    · have shown := (mem_listed listed).2.2
      rw [whole] at shown
      exact unresolved_since told others fun resolved => unresolved (Option.some.inj (shown.symm.trans resolved))

/-- Two failures in one episode: it is told to have begun at the first. -/
theorem incident_episodes_failing : ∃ before start after,
    eventsOf (performed [⟨.signal workerFailed, 10⟩, ⟨.signal workerFailed, 12⟩]) "valuation-phase:prices" = before ++ start :: after ∧
      start.eventType.begins = true ∧ start.occurredAt = 10 ∧ ∀ event ∈ after, event.eventType ∈ [.observed, .acknowledged] := by
  have clocked : Clocked ([⟨.signal workerFailed, 10⟩, ⟨.signal workerFailed, 12⟩] ++ [_]) := failedTwice_clocked le_rfl
  exact (incident_episodes _ clocked.front _).2 10 (by decide)

end

end C3po.Operations
