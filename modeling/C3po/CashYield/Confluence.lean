import C3po.CashYield.Settlement

/-! Runs of the interest in any order.

The ledger only grows, by the entries of missing sessions, and an entry is what its prior
session's cash and rate make it. So what it has of a session does not depend on the run
that posted it.
-/

set_option autoImplicit false

namespace C3po.CashYield
open C3po.Library Calendar

/-- Snapshots and rates that do not change once available. -/
structure World where
  cash : Int → ℚ
  rate : Int → ℚ

variable (setting : Setting) (calendar : ExchangeCalendar)

structure Call.Agrees (call : Call) (world : World) : Prop where
  cash : ∀ day cash, call.snapshots.get? day = some cash → cash = world.cash day
  rate : ∀ session prior cash feed rate, call.Has calendar session prior cash feed →
    parseTreasuryBillXml setting feed prior (call.clock session) = .ok rate → rate.annualRate = world.rate prior

structure Call.Ready (call : Call) (session : Int) : Prop where
  target : calendar.isSession call.target = true
  active : ∃ experiment, call.experiment = some experiment ∧ experiment.inactive = false
  listed : session ∈ calendar.sessions
  reached : session ≤ call.target
  offers : call.Offers setting calendar session

/-- What an entry comes to: its sessions, its base, its rate and factor, and its interest. -/
def Entry.outcome (entry : Entry) : Int × Int × ℚ × ℚ × ℚ × ℚ :=
  (entry.sessionDate, entry.priorSessionDate, entry.baseCashUsd, entry.annualCouponEquivalentRate,
    entry.dailyFactor, entry.interestIncomeUsd)

def Books.OnePerSession (books : Books) : Prop := (books.ledger.map fun entry => entry.sessionDate).Nodup

def Call.Posts (call : Call) (entry : Entry) : Prop :=
  entry.sessionDate ∈ accruable calendar call ∧
    sessionVerdict setting calendar call call.accruedOn entry.sessionDate = .posts entry

variable {setting calendar} {call : Call} {calls : List Call} {books : Books} {world : World}

section Step

theorem runThrough_ledger (call : Call) (books : Books) : ∃ done, done <+: missing calendar call books ∧
    (runThrough setting calendar call books).1.ledger = books.ledger ++
      (done.map (sessionVerdict setting calendar call call.accruedOn)).filterMap Verdict.entry? := by
  by_cases found : missing calendar call books = []
  · refine ⟨[], List.nil_prefix, ?_⟩
    rcases @runThrough_none setting calendar call books found with ⟨record, outcome, _⟩ | ⟨_, error, outcome⟩
    · rw [outcome]
      simp [Books.record]
    · rw [outcome]
      simp
  · obtain ⟨experiment, latest, _, _, outcome⟩ := @runThrough_missing setting calendar call books found
    have fresh : ∀ session ∈ missing calendar call books, books.entry session = none := by
      intro session within
      simpa using (List.mem_filter.mp within).2
    obtain ⟨done, within, moved, _⟩ := @sessions_moved setting calendar call call.accruedOn { books := books }
      (missing calendar call books) (fun _ _ never => by cases never)
      ((accruable_nodup calendar call).filter _) fresh
    refine ⟨done, within, ?_⟩
    rw [← moved.ledger, outcome]
    rcases Pass.sessions setting calendar call call.accruedOn (missing calendar call books) { books := books }
      with ⟨pass, _ | raised⟩
    · unfold Pass.finish
      simp only
      split
      · rfl
      · split
        · rfl
        · split
          · rfl
          · rfl
    · rfl

theorem posted_date {session : Int} {entry : Entry}
    (posts : sessionVerdict setting calendar call call.accruedOn session = .posts entry) :
    entry.sessionDate = session := by
  obtain ⟨_, _, _, _, _, _, _, _, _, _, isEntry⟩ := verdict_posted posts
  rw [isEntry]
  rfl

theorem posted_dates (done : List Int) :
    List.Sublist (((done.map (sessionVerdict setting calendar call call.accruedOn)).filterMap Verdict.entry?).map
      fun entry => entry.sessionDate) done := by
  induction done with
  | nil => exact List.Sublist.slnil
  | cons session rest ih =>
    simp only [List.map_cons, List.filterMap_cons]
    cases verdict : sessionVerdict setting calendar call call.accruedOn session with
    | posts entry =>
      simp only [Verdict.entry?, List.map_cons]
      rw [posted_date verdict]
      exact ih.cons_cons session
    | waits pending => exact ih.cons session
    | fails fault => exact ih.cons session
    | aborts error => exact ih.cons session

theorem runThrough_onePerSession (unique : books.OnePerSession) :
    (runThrough setting calendar call books).1.OnePerSession := by
  obtain ⟨done, within, same⟩ := @runThrough_ledger setting calendar call books
  unfold Books.OnePerSession at unique ⊢
  rw [same, List.map_append]
  have new := (@posted_dates setting calendar call done).trans within.sublist
  refine List.nodup_append.mpr ⟨unique, ((accruable_nodup calendar call).filter _).sublist new, ?_⟩
  intro date old _ fresh equal
  subst equal
  have absent : books.entry date = none := by simpa using (List.mem_filter.mp (new.subset fresh)).2
  obtain ⟨entry, listed, isDate⟩ := List.mem_map.mp old
  have never := List.find?_eq_none.mp absent entry listed
  simp [isDate] at never

theorem runThrough_posts (call : Call) (books : Books) {entry : Entry}
    (listed : entry ∈ (runThrough setting calendar call books).1.ledger) :
    entry ∈ books.ledger ∨ call.Posts setting calendar entry := by
  obtain ⟨done, within, same⟩ := @runThrough_ledger setting calendar call books
  rw [same] at listed
  rcases List.mem_append.mp listed with old | new
  · exact .inl old
  · simp only [List.mem_filterMap, List.mem_map] at new
    obtain ⟨verdict, ⟨session, member, rfl⟩, isEntry⟩ := new
    have posts : sessionVerdict setting calendar call call.accruedOn session = .posts entry := by
      cases verdict : sessionVerdict setting calendar call call.accruedOn session with
      | posts posted =>
        rw [verdict] at isEntry
        cases isEntry
        rfl
      | waits pending => rw [verdict] at isEntry; cases isEntry
      | fails fault => rw [verdict] at isEntry; cases isEntry
      | aborts error => rw [verdict] at isEntry; cases isEntry
    have own := posted_date posts
    refine .inr ⟨?_, ?_⟩
    · rw [own]
      exact missing_accruable (within.subset member)
    · rw [own]
      exact posts

end Step

section History

theorem history_append (front back : List Call) (books : Books) :
    history setting calendar (front ++ back) books =
      history setting calendar back (history setting calendar front books) := List.foldl_append

theorem history_grows (calls : List Call) (books : Books) :
    books.ledger <+: (history setting calendar calls books).ledger := by
  induction calls generalizing books with
  | nil => exact List.prefix_rfl
  | cons call rest ih =>
    obtain ⟨done, _, same⟩ := @runThrough_ledger setting calendar call books
    have first : books.ledger <+: (runThrough setting calendar call books).1.ledger := by
      rw [same]
      exact List.prefix_append _ _
    exact first.trans (ih _)

theorem history_onePerSession (calls : List Call) (unique : books.OnePerSession) :
    (history setting calendar calls books).OnePerSession := by
  induction calls generalizing books with
  | nil => exact unique
  | cons call rest ih => exact ih (runThrough_onePerSession unique)

theorem history_posts (calls : List Call) {entry : Entry}
    (listed : entry ∈ (history setting calendar calls books).ledger) :
    entry ∈ books.ledger ∨ ∃ call ∈ calls, call.Posts setting calendar entry := by
  induction calls generalizing books with
  | nil => exact .inl listed
  | cons call rest ih =>
    rcases ih listed with old | ⟨later, member, posts⟩
    · rcases runThrough_posts call books old with older | posts
      · exact .inl older
      · exact .inr ⟨call, List.mem_cons_self, posts⟩
    · exact .inr ⟨later, List.mem_cons_of_mem _ member, posts⟩

theorem history_entry {session : Int} {entry : Entry} (calls : List Call) (found : books.entry session = some entry) :
    (history setting calendar calls books).entry session = some entry := by
  obtain ⟨later, same⟩ := @history_grows setting calendar calls books
  unfold Books.entry at found ⊢
  rw [← same, List.find?_append, found, Option.some_or]

end History

section World

theorem Call.Ready.accruable {session : Int} (sound : call.Sound calendar)
    (ready : call.Ready setting calendar session) : session ∈ accruable calendar call := by
  obtain ⟨isTarget, ⟨experiment, isExperiment, active⟩, listed, reached, prior, cash, feed, rate, has, _⟩ := ready
  obtain ⟨isPrior, isCash, _⟩ := has
  have stored : (call.eligible experiment).get? prior = some cash := by
    unfold Call.accruedOn at isCash
    rw [isExperiment] at isCash
    exact isCash
  have keyed : prior ∈ (call.eligible experiment).keys := by
    rw [Dict.mem_keys, stored]
    rfl
  have ordered : (call.eligible experiment).keys.Pairwise (· < ·) :=
    call.ordered.sublist (List.filter_sublist.map Prod.fst)
  unfold CashYield.accruable
  rw [if_neg (by simp [isTarget]), isExperiment]
  simp only [active, Bool.false_eq_true, if_false]
  cases keys : (call.eligible experiment).keys with
  | nil =>
    rw [keys] at keyed
    cases keyed
  | cons first rest =>
    rw [keys] at keyed ordered
    have onward : first ≤ prior := by
      rcases List.mem_cons.mp keyed with rfl | later
      · exact le_rfl
      · exact ((List.pairwise_cons.mp ordered).1 prior later).le
    have after : first < session := onward.trans_lt (previousSession_before isPrior)
    have kept : first ∈ call.snapshots.keys := by
      have member : first ∈ (call.eligible experiment).keys := by
        rw [keys]
        exact List.mem_cons_self
      exact (List.filter_sublist.map Prod.fst).subset member
    obtain ⟨firstTarget, next⟩ := nextSession_some (sound.sessions first kept) listed after
    simp only [next]
    apply List.mem_filter.mpr
    refine ⟨listed, ?_⟩
    simp only [decide_eq_true_eq]
    exact ⟨nextSession_least next listed after, reached⟩

theorem Call.Posts.ready {entry : Entry} (posts : call.Posts setting calendar entry) :
    call.Ready setting calendar entry.sessionDate := by
  obtain ⟨within, verdict⟩ := posts
  obtain ⟨experiment, _, _, isExperiment, active, isTarget, _, _, listed, _, reached⟩ := accruable_cases within
  obtain ⟨prior, cash, feed, rate, _, isPrior, isCash, fetched, parsed, _⟩ := verdict_posted verdict
  exact ⟨isTarget, ⟨experiment, isExperiment, active⟩, listed, reached, prior, cash, feed, rate,
    ⟨isPrior, isCash, fetched⟩, parsed⟩

theorem Call.Posts.outcome {entry : Entry} (posts : call.Posts setting calendar entry)
    (agrees : call.Agrees setting calendar world) :
    ∃ prior factor, calendar.previousSession entry.sessionDate = some prior ∧
      couponEquivalentFactor (world.rate prior) prior entry.sessionDate = .ok factor ∧
      entry.outcome = (entry.sessionDate, prior, roundTo 6 (max (world.cash prior) 0), world.rate prior, factor,
        roundTo 6 (max (world.cash prior) 0 * factor)) := by
  obtain ⟨prior, cash, feed, rate, factor, isPrior, isCash, fetched, parsed, accrued, isEntry⟩ :=
    verdict_posted posts.2
  obtain ⟨_, _, stored, _, _⟩ := accruedOn_mem isCash
  have sameCash := agrees.cash prior cash stored
  have sameRate := agrees.rate _ prior cash feed rate ⟨isPrior, isCash, fetched⟩ parsed
  rw [sameRate] at accrued
  refine ⟨prior, factor, isPrior, accrued, ?_⟩
  have form : ∀ session, entry = entryOf setting session prior cash rate (call.clock session) factor →
      entry.outcome = (entry.sessionDate, prior, roundTo 6 (max (world.cash prior) 0), world.rate prior, factor,
        roundTo 6 (max (world.cash prior) 0 * factor)) := by
    intro session same
    rw [same, ← sameCash, ← sameRate]
    rfl
  exact form _ isEntry

theorem outcome_eq {others : List Call} {session : Int} {first second : Entry}
    (agrees : ∀ call ∈ calls, call.Agrees setting calendar world)
    (agree : ∀ call ∈ others, call.Agrees setting calendar world)
    (found : (history setting calendar calls {}).entry session = some first)
    (also : (history setting calendar others {}).entry session = some second) : first.outcome = second.outcome := by
  have dated : ∀ {books : Books} {entry : Entry}, books.entry session = some entry →
      entry.sessionDate = session ∧ entry ∈ books.ledger := by
    intro books entry isEntry
    exact ⟨by simpa using List.find?_some isEntry, List.mem_of_find?_eq_some isEntry⟩
  obtain ⟨firstDate, firstListed⟩ := dated found
  obtain ⟨secondDate, secondListed⟩ := dated also
  rcases history_posts calls firstListed with never | ⟨call, member, posts⟩
  · cases never
  rcases history_posts others secondListed with never | ⟨other, otherMember, otherPosts⟩
  · cases never
  obtain ⟨prior, factor, isPrior, accrued, outcome⟩ := posts.outcome (agrees call member)
  obtain ⟨otherPrior, otherFactor, isOther, otherAccrued, otherOutcome⟩ := otherPosts.outcome (agree other otherMember)
  rw [firstDate] at isPrior accrued outcome
  rw [secondDate] at isOther otherAccrued otherOutcome
  rw [isPrior] at isOther
  cases isOther
  rw [accrued] at otherAccrued
  cases otherAccrued
  rw [outcome, otherOutcome]

theorem entered_iff (sound : ∀ call ∈ calls, call.Sound calendar)
    (encodable : ∀ front call back, calls = front ++ call :: back →
      call.Encodable setting calendar (history setting calendar front {})) (session : Int) :
    ((history setting calendar calls {}).entry session).isSome = true ↔
      ∃ call ∈ calls, call.Ready setting calendar session := by
  constructor
  · intro entered
    obtain ⟨entry, isEntry⟩ := Option.isSome_iff_exists.mp entered
    have own : entry.sessionDate = session := by simpa using List.find?_some isEntry
    rcases history_posts calls (List.mem_of_find?_eq_some isEntry) with never | ⟨call, member, posts⟩
    · cases never
    · exact ⟨call, member, own ▸ posts.ready⟩
  · rintro ⟨call, member, ready⟩
    obtain ⟨front, back, same⟩ := List.append_of_mem member
    have within := ready.accruable (sound call member)
    obtain ⟨record, settled⟩ := (settled_iff (sound call member) _).mpr (encodable front call back same)
    have after : ((runThrough setting calendar call (history setting calendar front {})).1.entry session).isSome
        = true := by
      cases stored : (history setting calendar front {}).entry session with
      | some entry => exact Option.isSome_iff_exists.mpr ⟨entry, @history_entry setting calendar _ session entry [call] stored⟩
      | none =>
        have isMissing : session ∈ missing calendar call (history setting calendar front {}) :=
          List.mem_filter.mpr ⟨within, by rw [stored]; rfl⟩
        exact (settled.entered session isMissing).mpr ((settled.posted session isMissing).mpr ready.offers)
    obtain ⟨entry, isEntry⟩ := Option.isSome_iff_exists.mp after
    rw [same, history_append]
    exact Option.isSome_iff_exists.mpr ⟨entry, history_entry back isEntry⟩

end World
end C3po.CashYield

/-! The interest runs, over every sequence of calls. -/

namespace C3po.CashYield
open C3po.Library Calendar

section Example

private def threeSessions : ExchangeCalendar := ⟨[739768, 739769, 739770], by decide⟩

private def readings : Setting where
  fromisoformat text :=
    if text = "2026-06-01" then some 739768 else if text = "2026-06-02" then some 739769 else none
  float text := if text = "NaN" then some .nan else if text = "4.5" then some (.finite (9 / 2)) else none
  sealRate _ := "rate"
  sealEntry _ := "entry"

private def rowOf (day rate : String) : Properties := [("INDEX_DATE", day), ("ROUND_B1_YIELD_13WK_2", rate)]

private def callOf (first : String) : Call where
  target := 739770
  experiment := some ⟨739768, "running", false⟩
  snapshots := ⟨[(739768, 1000), (739769, 2000)], by decide⟩
  ordered := by decide
  fetch _ := some (some [rowOf "2026-06-01" first, rowOf "2026-06-02" "4.5"])
  clock _ := 739771 * dayMicros

private theorem callOf_sound (first : String) : (callOf first).Sound threeSessions where
  experiment := nofun
  sessions := by
    intro day listed
    have cases : day = 739768 ∨ day = 739769 := by simpa [callOf, Dict.keys] using listed
    rcases cases with rfl | rfl <;> decide
  answered := fun _ _ => nofun
  begun := by
    intro day listed
    have cases : day = 739768 ∨ day = 739769 := by simpa [callOf, Dict.keys] using listed
    rcases cases with rfl | rfl <;> decide
  dated := by
    have early : (739770 : Int) ≤ newYear 9999 := by decide +kernel
    exact early

private theorem callOf_encodable : (callOf "4.5").Encodable readings threeSessions {} := by
  have found : missing threeSessions (callOf "4.5") {} = [739769, 739770] := by decide +kernel
  rintro session within prior cash feed ⟨isPrior, isCash, fetched⟩ unencodable
  have parsed := parse_unencodable.mpr unencodable
  cases fetched
  rw [found] at within
  simp only [List.mem_cons, List.not_mem_nil, or_false] at within
  rcases within with rfl | rfl
  · have previous : threeSessions.previousSession 739769 = some 739768 := by decide
    rw [previous] at isPrior
    cases isPrior
    exact absurd parsed (by decide +kernel)
  · have previous : threeSessions.previousSession 739770 = some 739769 := by decide
    rw [previous] at isPrior
    cases isPrior
    exact absurd parsed (by decide +kernel)

private def packageOf (day : Int) : RatePackage :=
  { observationDate := day, annualRate := 9 / 200, availableAt := availableAfterDay day
    fetchedAt := 739771 * dayMicros, payloadSha256 := "rate" }

private theorem parse_early : parseTreasuryBillXml readings
    (some [rowOf "2026-06-01" "4.5", rowOf "2026-06-02" "4.5"]) 739768 (739771 * dayMicros) =
      .ok (packageOf 739768) := by decide +kernel

private theorem parse_late (first : String) (isNumber : first = "4.5" ∨ first = "NaN") : parseTreasuryBillXml readings
    (some [rowOf "2026-06-01" first, rowOf "2026-06-02" "4.5"]) 739769 (739771 * dayMicros) =
      .ok (packageOf 739769) := by
  rcases isNumber with rfl | rfl <;> decide +kernel

end Example
end C3po.CashYield
