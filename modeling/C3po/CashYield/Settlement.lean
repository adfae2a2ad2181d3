import C3po.CashYield.Verdicts

/-! A run settles every session it found missing, exactly where it can encode their rates.

The lists it records are those of the pass over the missing sessions, whatever way it
ends; a rate it cannot encode ends it with no record.
-/

set_option autoImplicit false

namespace C3po.CashYield
open C3po.Library Calendar

variable {setting : Setting} {calendar : ExchangeCalendar} {call : Call} {books : Books}

section Run

theorem accruable_nodup (calendar : ExchangeCalendar) (call : Call) : (accruable calendar call).Nodup := by
  have sessions : calendar.sessions.Nodup := calendar.increasing.imp fun before => before.ne
  unfold accruable
  split
  · exact List.nodup_nil
  · split
    · exact List.nodup_nil
    · split
      · exact List.nodup_nil
      · split
        · exact List.nodup_nil
        · split
          · exact List.nodup_nil
          · exact sessions.filter _

theorem runThrough_missing (found : missing calendar call books ≠ []) :
    ∃ experiment latest, call.experiment = some experiment ∧ latest ∈ accruable calendar call ∧
      runThrough setting calendar call books =
        match Pass.sessions setting calendar call call.accruedOn (missing calendar call books)
          { books := books } with
        | (pass, some raised) => (pass.books, .error raised)
        | (pass, none) => pass.finish call experiment latest := by
  unfold missing accruable at found
  unfold runThrough missing accruable Call.accruedOn
  cases isSession : calendar.isSession call.target with
  | false => simp [isSession] at found
  | true =>
    cases isExperiment : call.experiment with
    | none => simp [isExperiment] at found
    | some experiment =>
      cases inactive : experiment.inactive with
      | true => simp [isExperiment, inactive] at found
      | false =>
        cases keys : (call.eligible experiment).keys with
        | nil => simp [isExperiment, keys] at found
        | cons first rest =>
          cases next : calendar.nextSession first with
          | none => simp [isExperiment, keys, next] at found
          | some firstTarget =>
            simp only [isSession, isExperiment, inactive, keys, next, Bool.not_true, Bool.false_eq_true,
              if_false] at found ⊢
            obtain ⟨head, tail, same⟩ := List.exists_cons_of_ne_nil found
            have member : head ∈ calendar.sessionsInRange firstTarget call.target := by
              have kept : head ∈ (calendar.sessionsInRange firstTarget call.target).filter
                  fun session => (books.entry session).isNone := by
                rw [same]
                exact List.mem_cons_self
              exact List.mem_of_mem_filter kept
            have last : ∃ latest, (calendar.sessionsInRange firstTarget call.target).getLast? = some latest ∧
                latest ∈ calendar.sessionsInRange firstTarget call.target := by
              have nonempty := List.ne_nil_of_mem member
              exact ⟨_, List.getLast?_eq_some_getLast nonempty, List.getLast_mem nonempty⟩
            obtain ⟨latest, isLast, listed⟩ := last
            refine ⟨experiment, latest, rfl, listed, ?_⟩
            rw [same]
            dsimp only
            rw [isLast]
            cases passed : Pass.sessions setting calendar call (call.eligible experiment) (head :: tail) { books := books } with
            | mk pass raised => cases raised <;> simp [passed]

theorem runThrough_none (whole : missing calendar call books = []) :
    (∃ record : RunRecord, runThrough setting calendar call books = (books.record record, .ok record) ∧
      record.postedSessions = [] ∧ record.pendingSessions = [] ∧ record.faultSessions = []) ∨
    (¬call.Sound calendar ∧ ∃ error, runThrough setting calendar call books = (books, .error error)) := by
  unfold missing accruable at whole
  unfold runThrough
  cases isSession : calendar.isSession call.target with
  | false => exact .inl ⟨.skipped call.target, by simp, rfl, rfl, rfl⟩
  | true =>
    cases isExperiment : call.experiment with
    | none =>
      refine .inr ⟨fun sound => sound.experiment isExperiment, .uninitialized, by simp⟩
    | some experiment =>
      cases inactive : experiment.inactive with
      | true => exact .inl ⟨.idle experiment.status, by simp [inactive], rfl, rfl, rfl⟩
      | false =>
        cases keys : (call.eligible experiment).keys with
        | nil => exact .inl ⟨.noPriorSession, by simp [inactive, keys], rfl, rfl, rfl⟩
        | cons first rest =>
          have listed : first ∈ (call.eligible experiment).keys := by
            rw [keys]
            exact List.mem_cons_self
          have stored : first ∈ call.snapshots.keys := (List.filter_sublist.map Prod.fst).subset listed
          have target : call.target ∈ calendar.sessions := by
            simpa [ExchangeCalendar.isSession] using isSession
          have before : first < call.target := by
            obtain ⟨row, rowIn, rfl⟩ := List.mem_map.mp listed
            have within := (List.mem_filter.mp rowIn).2
            simp only [decide_eq_true_eq] at within
            exact within.2
          cases next : calendar.nextSession first with
          | none =>
            refine .inr ⟨fun sound => ?_, .noSession, by simp [inactive, keys, next]⟩
            obtain ⟨other, isOther⟩ := nextSession_some (sound.sessions first stored) target before
            rw [next] at isOther
            cases isOther
          | some firstTarget =>
            simp only [isSession, isExperiment, inactive, keys, next, Bool.not_true, Bool.false_eq_true,
              if_false] at whole ⊢
            have reached : call.target ∈ calendar.sessionsInRange firstTarget call.target := by
              apply List.mem_filter.mpr
              refine ⟨target, ?_⟩
              simpa using nextSession_least next target before
            have nonempty := List.ne_nil_of_mem reached
            have last : ∃ latest, (calendar.sessionsInRange firstTarget call.target).getLast? = some latest ∧
                latest ∈ calendar.sessionsInRange firstTarget call.target :=
              ⟨_, List.getLast?_eq_some_getLast nonempty, List.getLast_mem nonempty⟩
            obtain ⟨latest, isLast, latestIn⟩ := last
            have entered : books.entry latest ≠ none := by
              intro absent
              have kept : latest ∈ (calendar.sessionsInRange firstTarget call.target).filter
                  fun session => (books.entry session).isNone :=
                List.mem_filter.mpr ⟨latestIn, by rw [absent]; rfl⟩
              rw [whole] at kept
              cases kept
            obtain ⟨existing, isEntry⟩ := Option.ne_none_iff_exists'.mp entered
            exact .inl ⟨.idempotent latest existing.entrySha256, by simp only [whole, isLast, isEntry], rfl, rfl, rfl⟩

theorem dates_mem {α : Type} {listed : List Int} {verdict : Int → Verdict} (part : Verdict → Option α)
    (date : α → Int) (own : ∀ session ∈ listed, ∀ found, part (verdict session) = some found → date found = session)
    (session : Int) :
    session ∈ ((listed.map verdict).filterMap part).map date ↔
      session ∈ listed ∧ (part (verdict session)).isSome = true := by
  simp only [List.mem_map, List.mem_filterMap]
  constructor
  · rintro ⟨found, ⟨_, ⟨day, member, rfl⟩, isFound⟩, rfl⟩
    rw [own day member found isFound]
    exact ⟨member, by rw [isFound]; rfl⟩
  · rintro ⟨member, found⟩
    obtain ⟨value, isValue⟩ := Option.isSome_iff_exists.mp found
    exact ⟨value, ⟨_, ⟨session, member, rfl⟩, isValue⟩, own session member value isValue⟩

namespace Comes
variable {session : Int} {verdict : Verdict}

theorem entry (comes : Comes setting calendar call session verdict) (found : Entry)
    (isFound : verdict.entry? = some found) : found.sessionDate = session := by
  cases comes with
  | posts entry own =>
    cases isFound
    exact own
  | waits => cases isFound
  | fails => cases isFound

theorem pending (comes : Comes setting calendar call session verdict) (found : PendingSession)
    (isFound : verdict.pending? = some found) : found.session = session := by
  cases comes with
  | posts => cases isFound
  | waits pending own =>
    cases isFound
    exact own
  | fails => cases isFound

theorem fault (comes : Comes setting calendar call session verdict) (found : FaultSession)
    (isFound : verdict.fault? = some found) : found.session = session := by
  cases comes with
  | posts => cases isFound
  | waits => cases isFound
  | fails fault own =>
    cases isFound
    exact own

theorem posted (comes : Comes setting calendar call session verdict) :
    verdict.entry?.isSome = true ↔ call.Offers setting calendar session := by
  cases comes with
  | posts _ _ offers _ => simp [Verdict.entry?, offers]
  | waits _ _ offers _ => simp [Verdict.entry?, offers]
  | fails _ _ offers _ => simp [Verdict.entry?, offers]

theorem waited (comes : Comes setting calendar call session verdict) :
    verdict.pending?.isSome = true ↔
      ¬call.Offers setting calendar session ∧ ¬call.Faulty setting calendar session := by
  cases comes with
  | posts _ _ offers faulty => simp [Verdict.pending?, offers]
  | waits _ _ offers faulty => simp [Verdict.pending?, offers, faulty]
  | fails _ _ offers faulty => simp [Verdict.pending?, faulty]

theorem failed (comes : Comes setting calendar call session verdict) :
    verdict.fault?.isSome = true ↔ call.Faulty setting calendar session := by
  cases comes with
  | posts _ _ _ faulty => simp [Verdict.fault?, faulty]
  | waits _ _ _ faulty => simp [Verdict.fault?, faulty]
  | fails _ _ _ faulty => simp [Verdict.fault?, faulty]

end Comes

/-- What a pass through all the missing sessions of a call leaves. -/
structure Answered (setting : Setting) (calendar : ExchangeCalendar) (call : Call) (books : Books) (pass : Pass) :
    Prop where
  runs : pass.books.runs = books.runs
  posted : ∀ session, session ∈ pass.posted.map (fun entry => entry.sessionDate) ↔
    session ∈ missing calendar call books ∧ call.Offers setting calendar session
  pending : ∀ session, session ∈ pass.pending.map PendingSession.session ↔
    session ∈ missing calendar call books ∧ ¬call.Offers setting calendar session ∧
      ¬call.Faulty setting calendar session
  faults : ∀ session, session ∈ pass.faults.map FaultSession.session ↔
    session ∈ missing calendar call books ∧ call.Faulty setting calendar session
  entered : ∀ session, (pass.books.entry session).isSome = true ↔
    (books.entry session).isSome = true ∨ session ∈ pass.posted.map fun entry => entry.sessionDate

theorem not_offers_faulty (session : Int) (offers : call.Offers setting calendar session) :
    ¬call.Faulty setting calendar session := by
  obtain ⟨prior, cash, feed, rate, has, parsed⟩ := offers
  rintro ⟨other, amount, text, fault, also, fails⟩
  obtain ⟨rfl, rfl, rfl⟩ := has.unique also
  rw [parsed] at fails
  cases fails

theorem missing_accruable {session : Int} (within : session ∈ missing calendar call books) :
    session ∈ accruable calendar call := List.mem_of_mem_filter within

theorem entry_isSome_append {books : Books} {entries : List Entry} {session : Int} {next : Books}
    (same : next.ledger = books.ledger ++ entries) :
    (next.entry session).isSome = true ↔
      (books.entry session).isSome = true ∨ session ∈ entries.map fun entry => entry.sessionDate := by
  unfold Books.entry
  rw [same, List.find?_append, Option.isSome_or, Bool.or_eq_true]
  apply or_congr_right
  rw [List.find?_isSome, List.mem_map]
  simp only [decide_eq_true_eq]

theorem sessions_of_encodable (sound : call.Sound calendar) (encodable : call.Encodable setting calendar books) :
    ∃ pass, Pass.sessions setting calendar call call.accruedOn (missing calendar call books) { books := books } =
        (pass, none) ∧ Answered setting calendar call books pass := by
  have comes : ∀ session ∈ missing calendar call books, Comes setting calendar call session
      (sessionVerdict setting calendar call call.accruedOn session) :=
    fun session within => comes_of_sound sound (missing_accruable within) (encodable session within)
  have fresh : ∀ session ∈ missing calendar call books, books.entry session = none := by
    intro session within
    simpa using (List.mem_filter.mp within).2
  obtain ⟨done, _, moved, ended⟩ := @sessions_moved setting calendar call call.accruedOn { books := books }
    (missing calendar call books) (fun _ _ never => nomatch never)
    ((accruable_nodup calendar call).filter _) fresh
  rcases ended with ⟨rfl, quiet, _⟩ | ⟨session, within, error, aborts, _⟩
  · cases outcome : Pass.sessions setting calendar call call.accruedOn (missing calendar call books)
      { books := books } with
    | mk pass raised =>
      rw [outcome] at moved quiet
      cases quiet
      have posted := moved.posted
      have pending := moved.pending
      have faults := moved.faults
      simp only [List.nil_append] at posted pending faults
      refine ⟨pass, rfl, moved.runs, ?_, ?_, ?_, ?_⟩
      · intro session
        rw [posted, dates_mem _ _ fun session within => (comes session within).entry]
        exact and_congr_right fun within => (comes session within).posted
      · intro session
        rw [pending, dates_mem _ _ fun session within => (comes session within).pending]
        exact and_congr_right fun within => (comes session within).waited
      · intro session
        rw [faults, dates_mem _ _ fun session within => (comes session within).fault]
        exact and_congr_right fun within => (comes session within).failed
      · intro session
        rw [posted]
        exact entry_isSome_append moved.ledger
  · have never := comes session within
    rw [aborts] at never
    cases never

theorem settled_of_lists {pass : Pass} {record : RunRecord} (answered : Answered setting calendar call books pass)
    (posted : record.postedSessions = pass.posted.map fun entry => entry.sessionDate)
    (pending : record.pendingSessions = pass.pending.map PendingSession.session)
    (faults : record.faultSessions = pass.faults.map FaultSession.session)
    (left : (runThrough setting calendar call books).1 = pass.books.record record)
    (raises : (∃ error, (runThrough setting calendar call books).2 = .error error) ↔ pass.faults ≠ []) :
    Settled setting calendar call books record where
  recorded := by
    rw [left]
    simp only [Books.record, answered.runs]
  partition := by
    intro session within
    rw [posted, pending, faults, answered.posted, answered.pending, answered.faults]
    unfold ExactlyOne
    by_cases offers : call.Offers setting calendar session
    · simp [within, offers, not_offers_faulty session offers]
    · by_cases faulty : call.Faulty setting calendar session
      · simp [within, offers, faulty]
      · simp [within, offers, faulty]
  only := by
    intro session listed
    rw [posted, pending, faults, answered.posted, answered.pending, answered.faults] at listed
    rcases listed with ⟨within, _⟩ | ⟨within, _⟩ | ⟨within, _⟩
    · exact within
    · exact within
    · exact within
  posted := by
    intro session within
    rw [posted, answered.posted]
    exact and_iff_right within
  faulty := by
    intro session within
    rw [faults, answered.faults]
    exact and_iff_right within
  entered := by
    intro session within
    have absent : books.entry session = none := by simpa using (List.mem_filter.mp within).2
    rw [left, posted]
    have entered := answered.entered session
    rw [absent] at entered
    simpa [Books.record, Books.entry] using entered
  raised := by
    rw [raises]
    constructor
    · intro faulty
      obtain ⟨fault, member⟩ := List.exists_mem_of_ne_nil _ faulty
      obtain ⟨within, faulty⟩ := (answered.faults fault.session).mp (List.mem_map_of_mem member)
      exact ⟨_, within, faulty⟩
    · rintro ⟨session, within, faulty⟩
      obtain ⟨fault, member, _⟩ := List.mem_map.mp ((answered.faults session).mpr ⟨within, faulty⟩)
      exact List.ne_nil_of_mem member

/-- The last session has its entry where none of the missing ones waits or is at fault. -/
theorem latest_entered {pass : Pass} (answered : Answered setting calendar call books pass) {latest : Int}
    (within : latest ∈ accruable calendar call) (pending : pass.pending = []) (faults : pass.faults = []) :
    pass.books.entry latest ≠ none := by
  rw [Option.ne_none_iff_isSome, answered.entered, answered.posted]
  cases stored : books.entry latest with
  | some entry => exact .inl rfl
  | none =>
    have isMissing : latest ∈ missing calendar call books := List.mem_filter.mpr ⟨within, by rw [stored]; rfl⟩
    have quiet := answered.faults latest
    have ready := answered.pending latest
    rw [faults] at quiet
    rw [pending] at ready
    have notFaulty : ¬call.Faulty setting calendar latest := fun faulty => by simpa using quiet.mpr ⟨isMissing, faulty⟩
    refine .inr ⟨isMissing, ?_⟩
    by_contra refused
    simpa using ready.mpr ⟨isMissing, refused, notFaulty⟩

theorem settled_of_encodable (sound : call.Sound calendar) (encodable : call.Encodable setting calendar books) :
    ∃ record, Settled setting calendar call books record := by
  by_cases found : missing calendar call books = []
  · rcases @runThrough_none setting calendar call books found with ⟨record, outcome, posted, pending, faults⟩ | ⟨never, _⟩
    · refine ⟨record, ?_, ?_, ?_, ?_, ?_, ?_, ?_⟩
      · rw [outcome]
        rfl
      · rw [found]
        exact fun _ never => nomatch never
      · rw [posted, pending, faults]
        simp
      · rw [found]
        exact fun _ never => nomatch never
      · rw [found]
        exact fun _ never => nomatch never
      · rw [found]
        exact fun _ never => nomatch never
      · rw [found, outcome]
        simp
    · exact absurd sound never
  · obtain ⟨experiment, latest, _, within, outcome⟩ := @runThrough_missing setting calendar call books found
    obtain ⟨pass, ran, answered⟩ := @sessions_of_encodable setting calendar call books sound encodable
    rw [ran] at outcome
    unfold Pass.finish at outcome
    simp only at outcome
    split at outcome
    · rename_i faulty
      exact ⟨_, settled_of_lists answered rfl rfl rfl (by rw [outcome]) (by simp [outcome, faulty])⟩
    · rename_i quiet
      have faults : pass.faults = [] := by simpa using quiet
      split at outcome
      · refine ⟨.pendingData call.target _ pass.pending experiment.entriesPaused,
          settled_of_lists answered rfl rfl ?_ (by rw [outcome]) (by simp [outcome, faults])⟩
        rw [faults]
        rfl
      · rename_i ready
        have pending : pass.pending = [] := by simpa using ready
        obtain ⟨entry, isEntry⟩ := Option.ne_none_iff_exists'.mp (latest_entered answered within pending faults)
        rw [isEntry] at outcome
        refine ⟨.posted latest entry.interestIncomeUsd entry.entrySha256 _,
          settled_of_lists answered rfl ?_ ?_ (by rw [outcome]) (by simp [outcome, faults])⟩
        · rw [pending]
          rfl
        · rw [faults]
          rfl

theorem unencodable_unrecorded {session prior : Int} {cash : ℚ} {feed : Feed}
    (within : session ∈ missing calendar call books) (has : call.Has calendar session prior cash feed)
    (unencodable : Unencodable setting feed prior (call.clock session)) :
    (runThrough setting calendar call books).1.runs = books.runs := by
  have aborts : sessionVerdict setting calendar call call.accruedOn session = .aborts .unencodable := by
    have parsed := parse_unencodable.mpr unencodable
    obtain ⟨isPrior, isCash, fetched⟩ := has
    unfold sessionVerdict rateVerdict
    simp only [isPrior, isCash, fetched, parsed]
  obtain ⟨experiment, latest, _, _, outcome⟩ := @runThrough_missing setting calendar call books (List.ne_nil_of_mem within)
  have fresh : ∀ day ∈ missing calendar call books, books.entry day = none := by
    intro day listed
    simpa using (List.mem_filter.mp listed).2
  obtain ⟨done, _, moved, ended⟩ := @sessions_moved setting calendar call call.accruedOn { books := books }
    (missing calendar call books) (fun _ _ never => by cases never)
    ((accruable_nodup calendar call).filter _) fresh
  cases ran : Pass.sessions setting calendar call call.accruedOn (missing calendar call books) { books := books } with
  | mk pass raised =>
    rw [ran] at outcome moved ended
    rcases ended with ⟨_, _, quiet⟩ | ⟨_, _, error, _, isRaised⟩
    · have never := quiet session within
      rw [aborts] at never
      cases never
    · cases isRaised
      rw [outcome]
      exact moved.runs

theorem settled_iff (sound : call.Sound calendar) (books : Books) :
    (∃ record, Settled setting calendar call books record) ↔ call.Encodable setting calendar books := by
  constructor
  · rintro ⟨record, settled⟩ session within prior cash feed has unencodable
    have unchanged := unencodable_unrecorded within has unencodable
    have recorded := settled.recorded
    rw [unchanged] at recorded
    simp at recorded
  · exact settled_of_encodable sound

end Run
end C3po.CashYield
