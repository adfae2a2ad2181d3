import C3po.CashYield.Runs

/-! What a call has of a session, and what a run of it owes the session.

A sound call has every input a run asks for. Where the rate of a session can be encoded the
run then posts it, waits or is at fault, and the session's own data alone say which.
-/

set_option autoImplicit false

namespace C3po.CashYield
open C3po.Library Calendar

variable (setting : Setting) (calendar : ExchangeCalendar)

section Inputs

/-- The sessions a run answers for. -/
def accruable (call : Call) : List Int :=
  if !calendar.isSession call.target then []
  else match call.experiment with
    | none => []
    | some experiment =>
        if experiment.inactive then []
        else match (call.eligible experiment).keys with
          | [] => []
          | first :: _ => match calendar.nextSession first with
              | none => []
              | some firstTarget => calendar.sessionsInRange firstTarget call.target

def missing (call : Call) (books : Books) : List Int :=
  (accruable calendar call).filter fun session => (books.entry session).isNone

def Call.accruedOn (call : Call) : Dict Int ℚ := call.experiment.elim Dict.empty call.eligible

/-- What a call has of a session: its prior session, that session's cash, and a feed of its year. -/
def Call.Has (call : Call) (session prior : Int) (cash : ℚ) (feed : Feed) : Prop :=
  calendar.previousSession session = some prior ∧ call.accruedOn.get? prior = some cash ∧
    call.fetch (yearOf prior) = some feed

def Call.Offers (call : Call) (session : Int) : Prop :=
  ∃ prior cash feed rate, call.Has calendar session prior cash feed ∧
    parseTreasuryBillXml setting feed prior (call.clock session) = .ok rate

def Call.Faulty (call : Call) (session : Int) : Prop :=
  ∃ prior cash feed fault, call.Has calendar session prior cash feed ∧
    parseTreasuryBillXml setting feed prior (call.clock session) = .error (.fault fault)

/-- A feed whose one rate of a day is causal and not finite. -/
def Unencodable (feed : Feed) (observation fetchedAt : Int) : Prop :=
  ∃ scan rate, scanFeed setting observation feed = .ok scan ∧ scan.rates = [rate] ∧ rate.finite? = none ∧
    availableAfterDay observation ≤ fetchedAt

/-- A call whose inputs a run can ask for: an experiment, snapshots of sessions, an answer for each of
their years, and no session past the years whose next one a date can have. -/
structure Call.Sound (call : Call) : Prop where
  experiment : call.experiment ≠ none
  sessions : ∀ day ∈ call.snapshots.keys, calendar.isSession day = true
  answered : ∀ day ∈ call.snapshots.keys, call.fetch (yearOf day) ≠ none
  begun : ∀ day ∈ call.snapshots.keys, 1 ≤ day
  dated : call.target ≤ newYear 9999

/-- No rate that a run reads is anything but a finite number. -/
def Call.Encodable (call : Call) (books : Books) : Prop :=
  ∀ session ∈ missing calendar call books, ∀ prior cash feed, call.Has calendar session prior cash feed →
    ¬Unencodable setting feed prior (call.clock session)

end Inputs

namespace RunRecord

def postedSessions : RunRecord → List Int
  | .partialRun sessions _ _ => sessions
  | .pendingData _ sessions _ _ => sessions
  | .posted _ _ _ sessions => sessions
  | _ => []

def pendingSessions : RunRecord → List Int
  | .partialRun _ pending _ => pending.map PendingSession.session
  | .pendingData _ _ pending _ => pending.map PendingSession.session
  | _ => []

def faultSessions : RunRecord → List Int
  | .partialRun _ _ faults => faults.map FaultSession.session
  | _ => []

end RunRecord

def ExactlyOne (first second third : Prop) : Prop :=
  first ∧ ¬second ∧ ¬third ∨ ¬first ∧ second ∧ ¬third ∨ ¬first ∧ ¬second ∧ third

/-- What a run of a call does with the sessions it found missing. -/
structure Settled (call : Call) (books : Books) (record : RunRecord) : Prop where
  recorded : (runThrough setting calendar call books).1.runs = books.runs ++ [record]
  partition : ∀ session ∈ missing calendar call books, ExactlyOne (session ∈ record.postedSessions)
    (session ∈ record.pendingSessions) (session ∈ record.faultSessions)
  only : ∀ session, session ∈ record.postedSessions ∨ session ∈ record.pendingSessions ∨
    session ∈ record.faultSessions → session ∈ missing calendar call books
  /-- A session is posted on its own data, whatever the others come to. -/
  posted : ∀ session ∈ missing calendar call books,
    session ∈ record.postedSessions ↔ call.Offers setting calendar session
  faulty : ∀ session ∈ missing calendar call books,
    session ∈ record.faultSessions ↔ call.Faulty setting calendar session
  entered : ∀ session ∈ missing calendar call books,
    ((runThrough setting calendar call books).1.entry session).isSome ↔ session ∈ record.postedSessions
  raised : (∃ error, (runThrough setting calendar call books).2 = .error error) ↔
    ∃ session ∈ missing calendar call books, call.Faulty setting calendar session

variable {setting calendar} {call : Call} {books : Books}

section Calendars

theorem nextSession_least {day next session : Int} (found : calendar.nextSession day = some next)
    (listed : session ∈ calendar.sessions) (after : day < session) : next ≤ session := by
  unfold ExchangeCalendar.nextSession at found
  split at found
  · obtain ⟨_, front, back, same, before⟩ := List.find?_eq_some_iff_append.mp found
    have ordered := calendar.increasing
    rw [same] at listed ordered
    rcases List.mem_append.mp listed with early | late
    · have not_after := before session early
      simp [after] at not_after
    · rcases List.mem_cons.mp late with rfl | later
      · exact le_rfl
      · have tail := (List.pairwise_append.mp ordered).2.1
        exact ((List.pairwise_cons.mp tail).1 session later).le
  · cases found

theorem nextSession_after {day next : Int} (found : calendar.nextSession day = some next) :
    next ∈ calendar.sessions ∧ day < next := by
  unfold ExchangeCalendar.nextSession at found
  split at found
  · exact ⟨List.mem_of_find?_eq_some found, by simpa using List.find?_some found⟩
  · cases found

theorem nextSession_some {day session : Int} (isSession : calendar.isSession day = true)
    (listed : session ∈ calendar.sessions) (after : day < session) :
    ∃ next, calendar.nextSession day = some next := by
  unfold ExchangeCalendar.nextSession
  rw [if_pos isSession]
  apply Option.isSome_iff_exists.mp
  exact List.find?_isSome.mpr ⟨session, listed, by simpa using after⟩

theorem previousSession_some {day session : Int} (isSession : calendar.isSession day = true)
    (listed : session ∈ calendar.sessions) (before : session < day) :
    ∃ prior, calendar.previousSession day = some prior := by
  unfold ExchangeCalendar.previousSession
  rw [if_pos isSession]
  apply Option.isSome_iff_exists.mp
  exact List.find?_isSome.mpr ⟨session, List.mem_reverse.mpr listed, by simpa using before⟩

theorem previousSession_before {day prior : Int} (found : calendar.previousSession day = some prior) :
    prior < day := by
  unfold ExchangeCalendar.previousSession at found
  split at found
  · simpa using List.find?_some found
  · cases found

end Calendars

section Reads

theorem accruedOn_mem {day : Int} {cash : ℚ} (found : call.accruedOn.get? day = some cash) :
    ∃ experiment, call.experiment = some experiment ∧ (call.snapshots.get? day = some cash) ∧
      experiment.startDate ≤ day ∧ day < call.target := by
  unfold Call.accruedOn at found
  cases isExperiment : call.experiment with
  | none =>
    rw [isExperiment] at found
    cases found
  | some experiment =>
    rw [isExperiment] at found
    have member := Dict.mem_entries.mpr found
    obtain ⟨listed, within⟩ := List.mem_filter.mp member
    refine ⟨experiment, rfl, Dict.mem_entries.mp listed, by simpa using within⟩

/-- A scanned rate is not negative. -/
theorem scan_nonneg {observation : Int} {feed : Feed} {scan : Scan}
    (scanned : scanFeed setting observation feed = .ok scan) : ∀ rate ∈ scan.rates, rate.negative = false := by
  unfold scanFeed at scanned
  split at scanned
  · cases scanned
  · rename_i rows
    refine foldlM_keeps (fun scan : Scan => ∀ rate ∈ scan.rates, rate.negative = false) ?_ (by simp) scanned
    intro row _ before after kept moved
    unfold scanRow at moved
    split at moved
    · cases moved
      exact kept
    · simp only at moved
      split at moved
      · cases moved
        exact kept
      · split at moved
        · cases moved
        · split at moved
          · cases moved
          · rename_i positive
            cases moved
            intro rate member
            rcases List.mem_append.mp member with old | new
            · exact kept rate old
            · rw [List.mem_singleton.mp new]
              simpa using positive

theorem parse_ok {feed : Feed} {observation fetchedAt : Int} {rate : RatePackage}
    (parsed : parseTreasuryBillXml setting feed observation fetchedAt = .ok rate) : 0 ≤ rate.annualRate := by
  unfold parseTreasuryBillXml at parsed
  split at parsed
  · cases parsed
  · rename_i scan scanned
    simp only at parsed
    split at parsed
    · cases parsed
    · split at parsed
      · split_ifs at parsed
      · rename_i only isOnly
        split at parsed
        · cases parsed
        · split at parsed
          · cases parsed
          · rename_i annualRate finite
            cases parsed
            have nonneg := scan_nonneg scanned only (by simp [isOnly])
            cases only with
            | finite value =>
              cases finite
              simpa [Number.negative] using nonneg
            | infinite below => cases finite
            | nan => cases finite
      · cases parsed

theorem scan_dated {observation : Int} {feed : Feed} {scan : Scan}
    (scanned : scanFeed setting observation feed = .ok scan) : scan.rates.length ≤ scan.datedRows := by
  unfold scanFeed at scanned
  split at scanned
  · cases scanned
  · rename_i rows
    refine foldlM_keeps (fun scan : Scan => scan.rates.length ≤ scan.datedRows) ?_ le_rfl scanned
    intro row _ before after kept moved
    unfold scanRow at moved
    split at moved
    · cases moved
      exact kept
    · simp only at moved
      split at moved
      · cases moved
        exact kept.trans (Nat.le_succ _)
      · split at moved
        · cases moved
        · split at moved
          · cases moved
          · cases moved
            simpa using kept

theorem parse_unencodable {feed : Feed} {observation fetchedAt : Int} :
    parseTreasuryBillXml setting feed observation fetchedAt = .error .unencodable ↔
      Unencodable setting feed observation fetchedAt := by
  constructor
  · intro parsed
    unfold parseTreasuryBillXml at parsed
    split at parsed
    · cases parsed
    · rename_i scan scanned
      simp only at parsed
      split at parsed
      · cases parsed
      · split at parsed
        · split_ifs at parsed <;> cases parsed
        · rename_i only isOnly
          split at parsed
          · cases parsed
          · rename_i causal
            split at parsed
            · rename_i infinite
              exact ⟨scan, only, scanned, isOnly, infinite, not_lt.mp causal⟩
            · cases parsed
        · cases parsed
  · rintro ⟨scan, rate, scanned, isOnly, infinite, causal⟩
    have dated := scan_dated scanned
    rw [isOnly] at dated
    have positive : scan.datedRows ≠ 0 := Nat.one_le_iff_ne_zero.mp dated
    unfold parseTreasuryBillXml
    simp only [scanned, positive, false_and, if_false, isOnly, if_neg (not_lt.mpr causal), infinite]

end Reads

section Verdicts
variable {session : Int}

theorem verdict_cases (call : Call) (session : Int) :
    (calendar.previousSession session = none ∧
      sessionVerdict setting calendar call call.accruedOn session = .aborts .noSession) ∨
    (∃ prior, calendar.previousSession session = some prior ∧ call.accruedOn.get? prior = none ∧
      sessionVerdict setting calendar call call.accruedOn session =
        .waits ⟨session, prior, .priorSnapshotMissing, none⟩) ∨
    (∃ prior cash, calendar.previousSession session = some prior ∧ call.accruedOn.get? prior = some cash ∧
      call.fetch (yearOf prior) = none ∧
      sessionVerdict setting calendar call call.accruedOn session = .aborts .request) ∨
    ∃ prior cash feed, call.Has calendar session prior cash feed ∧
      sessionVerdict setting calendar call call.accruedOn session =
        rateVerdict setting call session prior cash feed := by
  unfold sessionVerdict
  cases isPrior : calendar.previousSession session with
  | none => exact .inl ⟨rfl, rfl⟩
  | some prior =>
    simp only
    cases isCash : call.accruedOn.get? prior with
    | none => exact .inr (.inl ⟨prior, rfl, isCash, rfl⟩)
    | some cash =>
      simp only
      cases fetched : call.fetch (yearOf prior) with
      | none => exact .inr (.inr (.inl ⟨prior, cash, rfl, isCash, fetched, rfl⟩))
      | some feed => exact .inr (.inr (.inr ⟨prior, cash, feed, ⟨isPrior, isCash, fetched⟩, rfl⟩))

theorem Call.Has.unique {prior other : Int} {cash amount : ℚ} {feed text : Feed}
    (has : call.Has calendar session prior cash feed) (also : call.Has calendar session other amount text) :
    other = prior ∧ amount = cash ∧ text = feed := by
  obtain ⟨isPrior, isCash, fetched⟩ := has
  obtain ⟨isOther, isAmount, answered⟩ := also
  rw [isPrior] at isOther
  cases isOther
  rw [isCash] at isAmount
  cases isAmount
  rw [fetched] at answered
  cases answered
  exact ⟨rfl, rfl, rfl⟩

/-- What a sound call comes to for a session it answers for: it posts, waits or is at fault, each on
the session's own data. -/
inductive Comes (setting : Setting) (calendar : ExchangeCalendar) (call : Call) (session : Int) : Verdict → Prop where
  | posts (entry : Entry) : entry.sessionDate = session → call.Offers setting calendar session →
      ¬call.Faulty setting calendar session → Comes setting calendar call session (.posts entry)
  | waits (pending : PendingSession) : pending.session = session → ¬call.Offers setting calendar session →
      ¬call.Faulty setting calendar session → Comes setting calendar call session (.waits pending)
  | fails (fault : FaultSession) : fault.session = session → ¬call.Offers setting calendar session →
      call.Faulty setting calendar session → Comes setting calendar call session (.fails fault)

theorem accruable_cases (within : session ∈ accruable calendar call) :
    ∃ experiment first firstTarget, call.experiment = some experiment ∧ experiment.inactive = false ∧
      calendar.isSession call.target = true ∧ first ∈ call.snapshots.keys ∧
      calendar.nextSession first = some firstTarget ∧ session ∈ calendar.sessions ∧
      firstTarget ≤ session ∧ session ≤ call.target := by
  unfold accruable at within
  split at within
  · cases within
  · rename_i isSession
    split at within
    · cases within
    · rename_i experiment isExperiment
      split at within
      · cases within
      · rename_i active
        split at within
        · cases within
        · rename_i first rest keys
          split at within
          · cases within
          · rename_i firstTarget next
            obtain ⟨listed, range⟩ := List.mem_filter.mp within
            simp only [decide_eq_true_eq] at range
            refine ⟨experiment, first, firstTarget, isExperiment, by simpa using active, by simpa using isSession,
              ?_, next, listed, range.1, range.2⟩
            have member : first ∈ (call.eligible experiment).keys := by
              rw [keys]
              exact List.mem_cons_self
            exact (List.filter_sublist.map Prod.fst).subset member

theorem comes_of_sound (sound : call.Sound calendar) (within : session ∈ accruable calendar call)
    (encodable : ∀ prior cash feed, call.Has calendar session prior cash feed →
      ¬Unencodable setting feed prior (call.clock session)) :
    Comes setting calendar call session (sessionVerdict setting calendar call call.accruedOn session) := by
  obtain ⟨experiment, first, firstTarget, isExperiment, active, isTarget, listed, next, isSession, onward, upTo⟩ :=
    accruable_cases within
  obtain ⟨nextListed, after⟩ := nextSession_after next
  have firstSession : first ∈ calendar.sessions := by
    have := sound.sessions first listed
    simpa [ExchangeCalendar.isSession] using this
  obtain ⟨prior, isPrior⟩ := @previousSession_some calendar session first
    (by simpa [ExchangeCalendar.isSession] using isSession) firstSession (after.trans_le onward)
  have keyed : ∀ {cash}, call.accruedOn.get? prior = some cash → prior ∈ call.snapshots.keys := by
    intro cash found
    obtain ⟨_, _, stored, _, _⟩ := accruedOn_mem found
    rw [Dict.mem_keys, stored]
    rfl
  rcases @verdict_cases setting calendar call session with
    ⟨none, _⟩ | ⟨other, isOther, none, verdict⟩ | ⟨other, cash, isOther, isCash, none, _⟩ |
      ⟨other, cash, feed, has, verdict⟩
  · rw [isPrior] at none
    cases none
  · rw [verdict]
    refine .waits _ rfl ?_ ?_
    · rintro ⟨found, cash, feed, rate, ⟨same, stored, _⟩, _⟩
      rw [isOther] at same
      cases same
      rw [none] at stored
      cases stored
    · rintro ⟨found, cash, feed, fault, ⟨same, stored, _⟩, _⟩
      rw [isOther] at same
      cases same
      rw [none] at stored
      cases stored
  · rw [isPrior] at isOther
    cases isOther
    exact absurd none (sound.answered prior (keyed isCash))
  · rw [verdict]
    have same := has.1
    rw [isPrior] at same
    cases same
    unfold rateVerdict
    have offers : call.Offers setting calendar session →
        ∃ rate, parseTreasuryBillXml setting feed prior (call.clock session) = .ok rate := by
      rintro ⟨_, _, _, rate, also, parsed⟩
      obtain ⟨rfl, rfl, rfl⟩ := has.unique also
      exact ⟨rate, parsed⟩
    have faulty : call.Faulty setting calendar session →
        ∃ fault, parseTreasuryBillXml setting feed prior (call.clock session) = .error (.fault fault) := by
      rintro ⟨_, _, _, fault, also, parsed⟩
      obtain ⟨rfl, rfl, rfl⟩ := has.unique also
      exact ⟨fault, parsed⟩
    cases parsed : parseTreasuryBillXml setting feed prior (call.clock session) with
    | error refusal =>
      rw [parsed] at offers faulty
      have refused : ¬call.Offers setting calendar session := fun offered => by
        obtain ⟨_, never⟩ := offers offered
        cases never
      cases refusal with
      | pending reason detail =>
        refine .waits _ rfl refused fun fails => ?_
        obtain ⟨_, never⟩ := faulty fails
        cases never
      | fault fault => exact .fails _ rfl refused ⟨prior, cash, feed, fault, has, parsed⟩
      | unencodable => exact absurd (parse_unencodable.mp parsed) (encodable prior cash feed has)
    | ok rate =>
      rw [parsed] at faulty
      have listedPrior := keyed has.2.1
      have accrued := couponEquivalentFactor_ok (parse_ok parsed) (sound.begun prior listedPrior)
        (previousSession_before isPrior) (upTo.trans sound.dated)
      simp only [accrued]
      refine .posts _ rfl ⟨prior, cash, feed, rate, has, parsed⟩ fun fails => ?_
      obtain ⟨_, never⟩ := faulty fails
      cases never

end Verdicts
end C3po.CashYield
