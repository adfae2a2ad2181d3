import C3po.CashYield.Feed
import C3po.Library.Dict
import C3po.Library.Loops
import C3po.Library.Rounding

/-! A run of the interest: every session up to a target that has no entry, oldest first.

What a run reads is its `Call`: the final snapshots, a year's feed, and the clock at each
session. The ledger holds what a run posted even where the run then raises.
-/

set_option autoImplicit false

namespace C3po.CashYield
open C3po.Library Calendar

structure ExchangeCalendar where
  sessions : List Int
  increasing : sessions.Pairwise (· < ·)

namespace ExchangeCalendar

def isSession (calendar : ExchangeCalendar) (day : Int) : Bool := day ∈ calendar.sessions

def nextSession (calendar : ExchangeCalendar) (day : Int) : Option Int :=
  if calendar.isSession day then calendar.sessions.find? fun session => day < session else none

def previousSession (calendar : ExchangeCalendar) (day : Int) : Option Int :=
  if calendar.isSession day then calendar.sessions.reverse.find? fun session => session < day else none

def sessionsInRange (calendar : ExchangeCalendar) (first last : Int) : List Int :=
  calendar.sessions.filter fun session => first ≤ session ∧ session ≤ last

end ExchangeCalendar

structure Experiment where
  startDate : Int
  status : String
  entriesPaused : Bool
  deriving DecidableEq, Repr

def inactiveExperimentStatuses : List String := ["paused", "completed"]

def Experiment.inactive (experiment : Experiment) : Bool :=
  (if experiment.status = "" then "running" else experiment.status) ∈ inactiveExperimentStatuses

structure Call where
  target : Int
  /-- None while the experiment is not initialized. -/
  experiment : Option Experiment
  /-- Each finished session's closing cash. -/
  snapshots : Dict Int ℚ
  ordered : snapshots.keys.Pairwise (· < ·)
  /-- None where the request raises. -/
  fetch : Int → Option Feed
  /-- When a session's rate is read. -/
  clock : Int → Int

structure PendingSession where
  session : Int
  source : Int
  reason : PendingReason
  detail : Option String
  deriving DecidableEq, Repr

structure FaultSession where
  session : Int
  source : Int
  fault : Fault
  deriving DecidableEq, Repr

/-- What a run records of itself. -/
inductive RunRecord where
  | skipped (target : Int)
  | idle (status : String)
  | noPriorSession
  | idempotent (session : Int) (entrySha256 : String)
  | partialRun (posted : List Int) (pending : List PendingSession) (faults : List FaultSession)
  | pendingData (target : Int) (posted : List Int) (pending : List PendingSession) (entriesPaused : Bool)
  | posted (session : Int) (interest : ℚ) (entrySha256 : String) (posted : List Int)
  deriving DecidableEq, Repr

inductive RunError where
  | uninitialized
  /-- The calendar is asked about a day that is no session, or has no neighbour. -/
  | noSession
  | request
  | unencodable
  | interval
  | mismatch
  | unpersisted
  | faulty (faults : List FaultSession)
  deriving DecidableEq, Repr

structure Books where
  ledger : List Entry := []
  rates : List RatePackage := []
  runs : List RunRecord := []
  deriving DecidableEq, Repr

def Books.entry (books : Books) (session : Int) : Option Entry :=
  books.ledger.find? fun entry => entry.sessionDate = session

def Books.record (books : Books) (record : RunRecord) : Books := { books with runs := books.runs ++ [record] }

/-- A session's own entry is never replaced; one that differs is an error. -/
def Books.insertEntry (books : Books) (entry : Entry) : Option Books :=
  match books.entry entry.sessionDate with
  | none => some { books with ledger := books.ledger ++ [entry] }
  | some existing => if existing.entrySha256 = entry.entrySha256 then some books else none

section Runs
variable (setting : Setting) (calendar : ExchangeCalendar)

/-- The entry of a session on its prior session's cash, at the rate of that day. -/
def entryOf (current prior : Int) (cash : ℚ) (rate : RatePackage) (fetchedAt : Int) (factor : ℚ) : Entry :=
  let baseCash := max cash 0
  let body : EntryBody :=
    { sessionDate := current, priorSessionDate := prior, baseCashUsd := roundTo 6 baseCash
      annualCouponEquivalentRate := rate.annualRate, calendarDays := current - prior, dailyFactor := factor
      interestIncomeUsd := roundTo 6 (baseCash * factor), sourceAvailableAt := rate.availableAt
      sourceFetchedAt := rate.fetchedAt, sourcePayloadSha256 := rate.payloadSha256
      backfilledAt := if current < dayOf fetchedAt then some fetchedAt else none }
  { toEntryBody := body, entrySha256 := setting.sealEntry body }

/-- A run under way: its books, what each session came to, and the feeds by year. -/
structure Pass where
  books : Books
  posted : List Entry := []
  pending : List PendingSession := []
  faults : List FaultSession := []
  xmlByYear : Dict Int Feed := Dict.empty

/-- One session with the feed of its prior session's year. -/
def Pass.rated (pass : Pass) (call : Call) (current prior : Int) (cash : ℚ) (feed : Feed) : Pass × Option RunError :=
  let fetchedAt := call.clock current
  match parseTreasuryBillXml setting feed prior fetchedAt with
  | .error (.pending reason detail) =>
      ({ pass with pending := pass.pending ++ [⟨current, prior, reason, some detail⟩] }, none)
  | .error (.fault fault) => ({ pass with faults := pass.faults ++ [⟨current, prior, fault⟩] }, none)
  | .error .unencodable => (pass, some .unencodable)
  | .ok rate =>
      let pass := { pass with books := { pass.books with rates := pass.books.rates ++ [rate] } }
      match couponEquivalentFactor rate.annualRate prior current with
      | .error _ => (pass, some .interval)
      | .ok factor =>
          let entry := entryOf setting current prior cash rate fetchedAt factor
          match pass.books.insertEntry entry with
          | none => (pass, some .mismatch)
          | some books => ({ pass with books := books, posted := pass.posted ++ [entry] }, none)

/-- The snapshots a call may accrue on. -/
def Call.eligible (call : Call) (experiment : Experiment) : Dict Int ℚ :=
  ⟨call.snapshots.entries.filter fun row => experiment.startDate ≤ row.1 ∧ row.1 < call.target,
    (call.snapshots.distinct.sublist (List.filter_sublist.map Prod.fst))⟩

def Pass.session (pass : Pass) (call : Call) (snapshots : Dict Int ℚ) (current : Int) : Pass × Option RunError :=
  match calendar.previousSession current with
  | none => (pass, some .noSession)
  | some prior =>
      match snapshots.get? prior with
      | none => ({ pass with pending := pass.pending ++ [⟨current, prior, .priorSnapshotMissing, none⟩] }, none)
      | some cash =>
          match pass.xmlByYear.get? (yearOf prior) with
          | some feed => pass.rated setting call current prior cash feed
          | none =>
              match call.fetch (yearOf prior) with
              | none => (pass, some .request)
              | some feed =>
                  { pass with xmlByYear := pass.xmlByYear.insert (yearOf prior) feed }.rated setting call current
                    prior cash feed

/-- An error of no kind the loop handles ends it there. -/
def Pass.sessions (call : Call) (snapshots : Dict Int ℚ) : List Int → Pass → Pass × Option RunError
  | [], pass => (pass, none)
  | current :: rest, pass =>
      match pass.session setting calendar call snapshots current with
      | (pass, some raised) => (pass, some raised)
      | (pass, none) => Pass.sessions call snapshots rest pass

def Pass.finish (pass : Pass) (call : Call) (experiment : Experiment) (latestSession : Int) :
    Books × Except RunError RunRecord :=
  let postedDates := pass.posted.map fun entry => entry.sessionDate
  if pass.faults ≠ [] then
    (pass.books.record (.partialRun postedDates pass.pending pass.faults), .error (.faulty pass.faults))
  else if pass.pending ≠ [] then
    let record := .pendingData call.target postedDates pass.pending experiment.entriesPaused
    (pass.books.record record, .ok record)
  else match pass.books.entry latestSession with
    | none => (pass.books, .error .unpersisted)
    | some latest =>
        let record := .posted latestSession latest.interestIncomeUsd latest.entrySha256 postedDates
        (pass.books.record record, .ok record)

def runThrough (call : Call) (books : Books) : Books × Except RunError RunRecord :=
  let recorded (record : RunRecord) : Books × Except RunError RunRecord := (books.record record, .ok record)
  if !calendar.isSession call.target then recorded (.skipped call.target)
  else match call.experiment with
    | none => (books, .error .uninitialized)
    | some experiment =>
        if experiment.inactive then recorded (.idle experiment.status)
        else
          let snapshots := call.eligible experiment
          match snapshots.keys with
          | [] => recorded .noPriorSession
          | first :: _ =>
              match calendar.nextSession first with
              | none => (books, .error .noSession)
              | some firstTarget =>
                  let accruable := calendar.sessionsInRange firstTarget call.target
                  let missing := accruable.filter fun session => (books.entry session).isNone
                  match missing, accruable.getLast? with
                  | [], some current => match books.entry current with
                      | some existing => recorded (.idempotent current existing.entrySha256)
                      | none => (books, .error .noSession)
                  | [], none => (books, .error .noSession)
                  | missing, latest =>
                      match Pass.sessions setting calendar call snapshots missing { books := books } with
                      | (pass, some raised) => (pass.books, .error raised)
                      | (pass, none) => pass.finish call experiment (latest.getD call.target)

def history (calls : List Call) (books : Books) : Books :=
  calls.foldl (fun books call => (runThrough setting calendar call books).1) books

end Runs

/-! What a run does to each session: a verdict on the session's own data.

The cache of feeds by year holds what the call fetches, so the verdict of a session does
not depend on the ones before it, and the loop is a map over verdicts until one aborts.
-/

inductive Verdict where
  | posts (entry : Entry)
  | waits (pending : PendingSession)
  | fails (fault : FaultSession)
  | aborts (error : RunError)

namespace Verdict

def entry? : Verdict → Option Entry
  | posts entry => some entry
  | _ => none

def pending? : Verdict → Option PendingSession
  | waits pending => some pending
  | _ => none

def fault? : Verdict → Option FaultSession
  | fails fault => some fault
  | _ => none

def error? : Verdict → Option RunError
  | aborts error => some error
  | _ => none

end Verdict

variable (setting : Setting) (calendar : ExchangeCalendar)

def rateVerdict (call : Call) (current prior : Int) (cash : ℚ) (feed : Feed) : Verdict :=
  match parseTreasuryBillXml setting feed prior (call.clock current) with
  | .error (.pending reason detail) => .waits ⟨current, prior, reason, some detail⟩
  | .error (.fault fault) => .fails ⟨current, prior, fault⟩
  | .error .unencodable => .aborts .unencodable
  | .ok rate => match couponEquivalentFactor rate.annualRate prior current with
      | .error _ => .aborts .interval
      | .ok factor => .posts (entryOf setting current prior cash rate (call.clock current) factor)

def sessionVerdict (call : Call) (snapshots : Dict Int ℚ) (current : Int) : Verdict :=
  match calendar.previousSession current with
  | none => .aborts .noSession
  | some prior => match snapshots.get? prior with
      | none => .waits ⟨current, prior, .priorSnapshotMissing, none⟩
      | some cash => match call.fetch (yearOf prior) with
          | none => .aborts .request
          | some feed => rateVerdict setting call current prior cash feed

def Pass.Cached (pass : Pass) (call : Call) : Prop :=
  ∀ year feed, pass.xmlByYear.get? year = some feed → call.fetch year = some feed

structure Moved (pass next : Pass) (verdicts : List Verdict) : Prop where
  ledger : next.books.ledger = pass.books.ledger ++ verdicts.filterMap Verdict.entry?
  posted : next.posted = pass.posted ++ verdicts.filterMap Verdict.entry?
  pending : next.pending = pass.pending ++ verdicts.filterMap Verdict.pending?
  faults : next.faults = pass.faults ++ verdicts.filterMap Verdict.fault?
  runs : next.books.runs = pass.books.runs

variable {setting calendar} {call : Call} {snapshots : Dict Int ℚ} {pass next : Pass} {current : Int}

theorem Moved.trans {last : Pass} {early late : List Verdict} (first : Moved pass next early)
    (second : Moved next last late) : Moved pass last (early ++ late) := by
  constructor
  · rw [second.ledger, first.ledger, List.filterMap_append, List.append_assoc]
  · rw [second.posted, first.posted, List.filterMap_append, List.append_assoc]
  · rw [second.pending, first.pending, List.filterMap_append, List.append_assoc]
  · rw [second.faults, first.faults, List.filterMap_append, List.append_assoc]
  · rw [second.runs, first.runs]

theorem Moved.aborts (error : RunError) (books : next.books.ledger = pass.books.ledger)
    (posted : next.posted = pass.posted) (pending : next.pending = pass.pending)
    (faults : next.faults = pass.faults) (runs : next.books.runs = pass.books.runs) :
    Moved pass next [.aborts error] :=
  ⟨by simp [books, Verdict.entry?], by simp [posted, Verdict.entry?], by simp [pending, Verdict.pending?],
    by simp [faults, Verdict.fault?], runs⟩

theorem Moved.waits (pending : PendingSession) :
    Moved pass { pass with pending := pass.pending ++ [pending] } [.waits pending] :=
  ⟨by simp [Verdict.entry?], by simp [Verdict.entry?], by simp [Verdict.pending?], by simp [Verdict.fault?], rfl⟩

theorem Moved.fails (fault : FaultSession) :
    Moved pass { pass with faults := pass.faults ++ [fault] } [.fails fault] :=
  ⟨by simp [Verdict.entry?], by simp [Verdict.entry?], by simp [Verdict.pending?], by simp [Verdict.fault?], rfl⟩

theorem rated_moved (fresh : pass.books.entry current = none) (prior : Int) (cash : ℚ) (feed : Feed) :
    Moved pass (pass.rated setting call current prior cash feed).1
        [rateVerdict setting call current prior cash feed] ∧
      (pass.rated setting call current prior cash feed).2 =
        (rateVerdict setting call current prior cash feed).error? ∧
      (pass.rated setting call current prior cash feed).1.xmlByYear = pass.xmlByYear := by
  unfold Pass.rated rateVerdict
  simp only
  cases parseTreasuryBillXml setting feed prior (call.clock current) with
  | error refusal =>
    cases refusal with
    | pending reason detail => exact ⟨.waits _, rfl, rfl⟩
    | fault fault => exact ⟨.fails _, rfl, rfl⟩
    | unencodable => exact ⟨.aborts _ rfl rfl rfl rfl rfl, rfl, rfl⟩
  | ok rate =>
    simp only
    cases couponEquivalentFactor rate.annualRate prior current with
    | error invalid => exact ⟨.aborts _ rfl rfl rfl rfl rfl, rfl, rfl⟩
    | ok factor =>
      have absent : (⟨pass.books.ledger, pass.books.rates ++ [rate], pass.books.runs⟩ : Books).entry
          (entryOf setting current prior cash rate (call.clock current) factor).sessionDate = none := fresh
      simp only [Books.insertEntry, absent]
      exact ⟨⟨by simp [Verdict.entry?], by simp [Verdict.entry?], by simp [Verdict.pending?],
        by simp [Verdict.fault?], rfl⟩, rfl, trivial⟩

theorem session_moved (cached : pass.Cached call) (fresh : pass.books.entry current = none) :
    Moved pass (pass.session setting calendar call snapshots current).1
        [sessionVerdict setting calendar call snapshots current] ∧
      (pass.session setting calendar call snapshots current).2 =
        (sessionVerdict setting calendar call snapshots current).error? ∧
      (pass.session setting calendar call snapshots current).1.Cached call := by
  unfold Pass.session sessionVerdict
  cases calendar.previousSession current with
  | none => exact ⟨.aborts _ rfl rfl rfl rfl rfl, rfl, cached⟩
  | some prior =>
    simp only
    cases snapshots.get? prior with
    | none => exact ⟨.waits _, rfl, cached⟩
    | some cash =>
      simp only
      cases stored : pass.xmlByYear.get? (yearOf prior) with
      | some feed =>
        rw [cached _ _ stored]
        obtain ⟨moved, error, same⟩ :=
          @rated_moved setting call pass current fresh prior cash feed
        exact ⟨moved, error, fun year other found => cached year other (same ▸ found)⟩
      | none =>
        simp only
        cases fetched : call.fetch (yearOf prior) with
        | none => exact ⟨.aborts _ rfl rfl rfl rfl rfl, rfl, cached⟩
        | some feed =>
          obtain ⟨moved, error, same⟩ := @rated_moved setting call
            { pass with xmlByYear := pass.xmlByYear.insert (yearOf prior) feed } current fresh prior cash feed
          refine ⟨⟨moved.ledger, moved.posted, moved.pending, moved.faults, moved.runs⟩, error, ?_⟩
          intro year other found
          rw [same] at found
          simp only [Dict.get?_insert] at found
          split at found
          · rename_i here
            cases found
            rw [here]
            exact fetched
          · exact cached year other found

theorem verdict_posted {entry : Entry}
    (posts : sessionVerdict setting calendar call snapshots current = .posts entry) :
    ∃ prior cash feed rate factor, calendar.previousSession current = some prior ∧
      snapshots.get? prior = some cash ∧ call.fetch (yearOf prior) = some feed ∧
      parseTreasuryBillXml setting feed prior (call.clock current) = .ok rate ∧
      couponEquivalentFactor rate.annualRate prior current = .ok factor ∧
      entry = entryOf setting current prior cash rate (call.clock current) factor := by
  unfold sessionVerdict at posts
  split at posts
  · cases posts
  · rename_i prior isPrior
    split at posts
    · cases posts
    · rename_i cash isCash
      split at posts
      · cases posts
      · rename_i feed fetched
        unfold rateVerdict at posts
        split at posts
        · cases posts
        · cases posts
        · cases posts
        · rename_i rate parsed
          split at posts
          · cases posts
          · rename_i factor accrued
            cases posts
            exact ⟨prior, cash, feed, rate, factor, isPrior, isCash, fetched, parsed, accrued, rfl⟩

theorem entry_none_append {books : Books} {entries : List Entry} {session : Int}
    (absent : books.entry session = none) (apart : ∀ entry ∈ entries, entry.sessionDate ≠ session)
    {ledger : List Entry} (same : ledger = books.ledger ++ entries) :
    ledger.find? (fun entry => entry.sessionDate = session) = none := by
  rw [same, List.find?_append]
  unfold Books.entry at absent
  rw [absent, Option.none_or]
  exact List.find?_eq_none.mpr fun entry member => by simpa using apart entry member

theorem sessions_moved {missing : List Int} (cached : pass.Cached call) (distinct : missing.Nodup)
    (fresh : ∀ session ∈ missing, pass.books.entry session = none) :
    ∃ done, done <+: missing ∧
      Moved pass (Pass.sessions setting calendar call snapshots missing pass).1
        (done.map (sessionVerdict setting calendar call snapshots)) ∧
      ((done = missing ∧ (Pass.sessions setting calendar call snapshots missing pass).2 = none ∧
          ∀ session ∈ missing, (sessionVerdict setting calendar call snapshots session).error? = none) ∨
        ∃ session ∈ missing, ∃ error, sessionVerdict setting calendar call snapshots session = .aborts error ∧
          (Pass.sessions setting calendar call snapshots missing pass).2 = some error) := by
  induction missing generalizing pass with
  | nil => exact ⟨[], List.prefix_rfl, ⟨by simp [Pass.sessions], by simp [Pass.sessions], by simp [Pass.sessions],
      by simp [Pass.sessions], rfl⟩, .inl ⟨rfl, rfl, fun _ never => nomatch never⟩⟩
  | cons current rest ih =>
    obtain ⟨moved, error, stillCached⟩ := @session_moved setting calendar call snapshots pass current cached
      (fresh current List.mem_cons_self)
    unfold Pass.sessions
    cases outcome : pass.session setting calendar call snapshots current with
    | mk next raised =>
      rw [outcome] at moved error stillCached
      cases raised with
      | some raised =>
        refine ⟨[current], by simp, moved, .inr ⟨current, List.mem_cons_self, raised, ?_, rfl⟩⟩
        cases verdict : sessionVerdict setting calendar call snapshots current with
        | aborts other =>
          rw [verdict] at error
          simp only [Verdict.error?, Option.some.injEq] at error
          rw [error]
        | posts entry => rw [verdict] at error; cases error
        | waits pending => rw [verdict] at error; cases error
        | fails fault => rw [verdict] at error; cases error
      | none =>
        simp only at moved error stillCached ⊢
        have laterFresh : ∀ session ∈ rest, next.books.entry session = none := by
          intro session member
          refine entry_none_append (fresh session (List.mem_cons_of_mem _ member)) ?_ moved.ledger
          intro entry here same
          simp only [List.filterMap_cons, List.filterMap_nil] at here
          cases verdict : sessionVerdict setting calendar call snapshots current with
          | posts posted =>
            simp only [verdict, Verdict.entry?, List.mem_singleton] at here
            obtain ⟨_, _, _, _, _, _, _, _, _, _, isEntry⟩ := verdict_posted verdict
            have own : posted.sessionDate = current := by rw [isEntry]; rfl
            rw [here, own] at same
            exact (List.nodup_cons.mp distinct).1 (same ▸ member)
          | waits pending => simp [verdict, Verdict.entry?] at here
          | fails fault => simp [verdict, Verdict.entry?] at here
          | aborts error => simp [verdict, Verdict.entry?] at here
        obtain ⟨done, within, later, ended⟩ := ih stillCached (List.nodup_cons.mp distinct).2 laterFresh
        refine ⟨current :: done, (List.prefix_cons_inj current).mpr within, ?_, ?_⟩
        · exact moved.trans later
        · rcases ended with ⟨rfl, quiet, none⟩ | ⟨session, member, raised, aborts, isRaised⟩
          · refine .inl ⟨rfl, quiet, ?_⟩
            intro session member
            rcases List.mem_cons.mp member with rfl | later
            · exact error.symm
            · exact none session later
          · exact .inr ⟨session, List.mem_cons_of_mem _ member, raised, aborts, isRaised⟩

end C3po.CashYield
