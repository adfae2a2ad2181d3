import C3po.Staleness.Marks

/-! What the marks say of the served prices after any run, and what their two readers list.

A pair gets its marks in one order: untracked, stale, cleared. So a pair is pending as
long as no pass saw it revalued.
-/

set_option autoImplicit false

namespace C3po.Staleness
open C3po.Library

section Appending
variable {store rows after : List Mark}

/-- What one append leaves in the table. -/
structure Appended (store rows after : List Mark) : Prop where
  kept : ∀ mark ∈ store, mark ∈ after
  new : ∀ mark ∈ after, mark ∈ store ∨ mark ∈ rows
  written : ∀ mark ∈ rows, mark.key ∈ after.map Mark.key
  distinct : (store.map Mark.key).Nodup → (after.map Mark.key).Nodup

theorem foldl_appended (store rows : List Mark) : Appended store rows
    (rows.foldl (fun store row => if row.key ∈ store.map Mark.key then store else store ++ [row]) store) := by
  induction rows generalizing store with
  | nil => exact ⟨fun _ here => here, fun _ here => .inl here, (fun _ here => nomatch here), id⟩
  | cons row rest ih =>
    rw [List.foldl_cons]
    by_cases known : row.key ∈ store.map Mark.key
    · rw [if_pos known]
      obtain ⟨kept, new, written, distinct⟩ := ih store
      refine ⟨kept, fun mark here => (new mark here).imp id (List.mem_cons_of_mem _), ?_, distinct⟩
      intro mark here
      obtain rfl | there := List.mem_cons.mp here
      · obtain ⟨old, inside, same⟩ := List.mem_map.mp known
        rw [← same]
        exact List.mem_map_of_mem (kept old inside)
      · exact written mark there
    · rw [if_neg known]
      obtain ⟨kept, new, written, distinct⟩ := ih (store ++ [row])
      constructor
      · intro mark here
        exact kept mark (List.mem_append_left _ here)
      · intro mark here
        obtain before | later := new mark here
        · obtain old | last := List.mem_append.mp before
          · exact .inl old
          · exact .inr (List.mem_singleton.mp last ▸ List.mem_cons_self)
        · exact .inr (List.mem_cons_of_mem _ later)
      · intro mark here
        obtain rfl | there := List.mem_cons.mp here
        · exact List.mem_map_of_mem (kept mark (by simp))
        · exact written mark there
      · intro before
        apply distinct
        rw [List.map_append]
        refine List.nodup_append'.mpr ⟨before, List.nodup_singleton _, ?_⟩
        intro key inside last
        rw [List.mem_singleton.mp last] at inside
        exact known inside

theorem append_some (wellFormed : ∀ mark ∈ rows, mark.symbol ≠ "" ∧ mark.docId ≠ "" ∧ mark.reason ≠ "") :
    ∃ after, append store rows = some after ∧ Appended store rows after := by
  refine ⟨_, if_neg ?_, foldl_appended store rows⟩
  intro malformed
  obtain ⟨mark, here, empty⟩ := List.any_eq_true.mp malformed
  obtain ⟨symbol, document, reason⟩ := wellFormed mark here
  simp [symbol, document, reason] at empty

end Appending

theorem mem_states {marks : List Mark} {pair : Pair} {state : MarkState} :
    state ∈ states marks pair ↔ ∃ mark ∈ marks, mark.pair = pair ∧ mark.state = state := by
  simp only [states, List.mem_map, List.mem_filter, decide_eq_true_eq, and_assoc]

section Evaluation
variable {zones : Zones} {filings : List Filing} {served : String → Option Official} {marks : List Mark} {now : ℤ}

theorem evaluated_cases {filing : Filing} {symbol : String} {official : Option Official} {known : List MarkState} {mark : Mark}
    (made : evaluated zones known filing symbol (statementPeriods filings filing.issuerKey) official now = some mark) :
    mark.pair = (filing.docId, symbol) ∧ mark.recordedAt = now ∧ mark.createdAt = now ∧ mark.reason ≠ "" ∧
      (mark.state = .untracked ∧ known = [] ∨ mark.state = .stale ∧ .stale ∉ known ∨
        mark.state = .cleared ∧ ∃ row, official = some row ∧ revalued zones filings filing row = true) := by
  unfold evaluated at made
  cases official with
  | none =>
    by_cases fresh : known = []
    · simp only [if_pos fresh, Option.some.injEq] at made
      subst made
      refine ⟨rfl, rfl, rfl, ?_, .inl ⟨rfl, fresh⟩⟩
      change "no_official_tp" ≠ ""
      decide
    · simp only [if_neg fresh, reduceCtorEq] at made
  | some row =>
    by_cases right : revalued zones filings filing row = true
    · have both := right
      unfold revalued at both
      simp only [both, if_true, Option.some.injEq] at made
      subst made
      refine ⟨rfl, rfl, rfl, ?_, .inr (.inr ⟨rfl, row, rfl, right⟩)⟩
      change (if _ then _ else _) ≠ ""
      split <;> decide
    · have both := right
      unfold revalued at both
      simp only [if_neg both] at made
      by_cases known : .stale ∉ known
      · simp only [if_pos known, Option.some.injEq] at made
        subst made
        refine ⟨rfl, rfl, rfl, ?_, .inr (.inl ⟨rfl, known⟩)⟩
        change (if _ then _ else _) ≠ ""
        split <;> decide
      · simp only [if_neg known, reduceCtorEq] at made

theorem evaluated_served {filing : Filing} {symbol : String} {row : Official} {known : List MarkState} :
    let made := evaluated zones known filing symbol (statementPeriods filings filing.issuerKey) (some row) now
    (revalued zones filings filing row = true → ∃ mark, made = some mark ∧ mark.state = .cleared) ∧
      (revalued zones filings filing row = false → .stale ∈ known ∨ ∃ mark, made = some mark ∧ mark.state = .stale) := by
  intro made
  constructor
  · intro right
    unfold revalued at right
    exact ⟨_, if_pos right, rfl⟩
  · intro wrong
    unfold revalued at wrong
    by_cases stale : .stale ∈ known
    · exact .inl stale
    · right
      have absent : .stale ∉ known := stale
      refine ⟨_, (if_neg (by rw [wrong]; exact Bool.false_ne_true)).trans (if_pos absent), rfl⟩

theorem mem_recent {filing : Filing} :
    filing ∈ recentFilings filings now ↔ filing ∈ filings ∧ now - triggerLookback ≤ filing.acceptedAt := by
  rw [recentFilings, mem_stableSort, List.mem_filter, decide_eq_true_eq]

theorem mem_openPairs {filing : Filing} {symbol : String} (here : (filing, symbol) ∈ openPairs filings marks now) :
    filing ∈ filings ∧ symbol ∈ filing.symbols ∧ .cleared ∉ states marks (filing.docId, symbol) := by
  obtain ⟨other, listed, inside⟩ := List.mem_flatMap.mp here
  obtain ⟨paired, opened⟩ := List.mem_filter.mp inside
  obtain ⟨_, there, same⟩ := List.mem_map.mp paired
  cases same
  refine ⟨?_, there, ?_⟩
  · obtain older | recent := List.mem_append.mp (List.mem_filter.mp listed).1
    · exact (List.mem_filter.mp (mem_stableSort.mp older)).1
    · exact (mem_recent.mp recent).1
  · simp only [isOpen, Bool.and_eq_true, decide_eq_true_eq] at opened
    exact opened.1

theorem openPairs_recent {filing : Filing} {symbol : String} (registered : filing ∈ filings)
    (trigger : isTriggerFiling filing.form filing.items = true) (within : now - triggerLookback ≤ filing.acceptedAt)
    (named : symbol ∈ filing.symbols) (uncleared : .cleared ∉ states marks (filing.docId, symbol)) :
    (filing, symbol) ∈ openPairs filings marks now := by
  have recent := mem_recent.mpr ⟨registered, within⟩
  refine List.mem_flatMap.mpr ⟨filing, List.mem_filter.mpr ⟨List.mem_append_right _ recent, trigger⟩, ?_⟩
  refine List.mem_filter.mpr ⟨List.mem_map_of_mem named, ?_⟩
  simp only [isOpen, Bool.and_eq_true, decide_eq_true_eq, Bool.or_eq_true]
  exact ⟨uncleared, .inr (List.mem_map_of_mem recent)⟩

theorem mem_passMarks {mark : Mark} : mark ∈ passMarks zones filings served marks now ↔
    ∃ filing symbol, (filing, symbol) ∈ openPairs filings marks now ∧
      evaluated zones (states marks (filing.docId, symbol)) filing symbol (statementPeriods filings filing.issuerKey)
        (served symbol) now = some mark := by
  rw [passMarks, List.mem_filterMap]
  exact ⟨fun ⟨pair, here, made⟩ => ⟨pair.1, pair.2, here, made⟩, fun ⟨filing, symbol, here, made⟩ => ⟨(filing, symbol), here, made⟩⟩

theorem evaluate_appends (world : World) : Appended world.marks (passMarks zones world.filings world.served world.marks now)
    (world.evaluate zones now).marks := by
  have wellFormed : ∀ mark ∈ passMarks zones world.filings world.served world.marks now,
      mark.symbol ≠ "" ∧ mark.docId ≠ "" ∧ mark.reason ≠ "" := by
    intro mark here
    obtain ⟨filing, symbol, opened, made⟩ := mem_passMarks.mp here
    obtain ⟨pair, -, -, reason, -⟩ := evaluated_cases made
    obtain ⟨document, name⟩ := Prod.mk.inj pair
    rw [document, name]
    exact ⟨filing.symbolsNamed symbol (mem_openPairs opened).2.1, filing.named, reason⟩
  obtain ⟨after, done, appended⟩ := append_some wellFormed
  have same : (world.evaluate zones now).marks = after := by
    rw [World.evaluate, evaluateUsFilings, done, Option.getD_some]
  rw [same]
  exact appended

end Evaluation

/-- The order in which a pair gets its states. -/
def MarkState.rank : MarkState → ℕ
  | .untracked => 0
  | .stale => 1
  | .cleared => 2

/-- What a pass saw of a pair: it was served, and revalued. -/
def Look.Revalued (zones : Zones) (look : Look) (filing : Filing) (symbol : String) : Prop :=
  filing ∈ look.filings ∧ ∃ row, look.served symbol = some row ∧ revalued zones look.filings filing row = true

/-- What holds after every step. -/
structure World.Sound (world : World) (zones : Zones) (looks : List Look) : Prop where
  documents : (world.filings.map Filing.docId).Nodup
  looked : ∀ look ∈ looks, look.now ≤ world.clock ∧ ∀ filing ∈ look.filings, filing ∈ world.filings
  distinct : (world.marks.map Mark.key).Nodup
  clocks : ∀ mark ∈ world.marks, mark.recordedAt ≤ world.clock ∧ mark.createdAt = mark.recordedAt
  order : ∀ first ∈ world.marks, ∀ second ∈ world.marks, first.pair = second.pair → first.state.rank < second.state.rank →
    first.recordedAt ≤ second.recordedAt
  seen : ∀ mark ∈ world.marks, mark.state = .cleared →
    ∃ look ∈ looks, ∃ filing, filing.docId = mark.docId ∧ look.Revalued zones filing mark.symbol
  cleared : ∀ look ∈ looks, ∀ filing symbol, look.Revalued zones filing symbol → isTriggerFiling filing.form filing.items = true →
    look.now - triggerLookback ≤ filing.acceptedAt → symbol ∈ filing.symbols →
    .cleared ∈ states world.marks (filing.docId, symbol)

section Steps
variable {zones : Zones} {looks : List Look} {world : World} {now : ℤ}

theorem World.Sound.register (sound : world.Sound zones looks) (filing : Filing) : (world.register filing).Sound zones looks := by
  unfold World.register
  split
  · exact sound
  · next fresh =>
    refine { sound with documents := ?_, looked := ?_ }
    · rw [List.map_append]
      refine List.nodup_append'.mpr ⟨sound.documents, List.nodup_singleton _, ?_⟩
      intro document here last
      rw [List.mem_singleton.mp last] at here
      exact fresh here
    · intro look here
      obtain ⟨before, kept⟩ := sound.looked look here
      exact ⟨before, fun other there => List.mem_append_left _ (kept other there)⟩

theorem states_grow {after : List Mark} (kept : ∀ mark ∈ world.marks, mark ∈ after) {pair : Pair} {state : MarkState}
    (here : state ∈ states world.marks pair) : state ∈ states after pair := by
  obtain ⟨mark, inside, same, reached⟩ := mem_states.mp here
  exact mem_states.mpr ⟨mark, kept mark inside, same, reached⟩

theorem passMarks_new {mark : Mark} (here : mark ∈ passMarks zones world.filings world.served world.marks now) :
    mark.recordedAt = now ∧ mark.createdAt = now ∧
      ∀ other ∈ world.marks, other.pair = mark.pair → ¬ mark.state.rank < other.state.rank := by
  obtain ⟨filing, symbol, opened, made⟩ := mem_passMarks.mp here
  obtain ⟨pair, recorded, created, -, stateOf⟩ := evaluated_cases made
  refine ⟨recorded, created, ?_⟩
  intro other there same above
  have known : other.state ∈ states world.marks (filing.docId, symbol) := mem_states.mpr ⟨other, there, same.trans pair, rfl⟩
  obtain ⟨-, -, uncleared⟩ := mem_openPairs opened
  rcases stateOf with ⟨-, fresh⟩ | ⟨stale, -⟩ | ⟨cleared, -⟩
  · rw [fresh] at known
    cases known
  · rw [stale] at above
    cases reached : other.state with
    | untracked => rw [reached] at above; exact absurd above (by decide)
    | stale => rw [reached] at above; exact absurd above (by decide)
    | cleared => exact uncleared (reached ▸ known)
  · rw [cleared] at above
    cases reached : other.state <;> rw [reached] at above <;> exact absurd above (by decide)

theorem World.Sound.evaluate (sound : world.Sound zones looks) (onward : world.clock ≤ now) :
    (world.evaluate zones now).Sound zones (looks ++ [world.look now]) := by
  obtain ⟨kept, new, written, distinct⟩ : Appended world.marks (passMarks zones world.filings world.served world.marks now)
      (world.evaluate zones now).marks := evaluate_appends world
  constructor
  · exact sound.documents
  · intro look here
    obtain before | last := List.mem_append.mp here
    · exact ⟨(sound.looked look before).1.trans onward, (sound.looked look before).2⟩
    · rw [List.mem_singleton.mp last]
      exact ⟨le_refl _, fun _ there => there⟩
  · exact distinct sound.distinct
  · intro mark here
    obtain old | fresh := new mark here
    · exact ⟨(sound.clocks mark old).1.trans onward, (sound.clocks mark old).2⟩
    · obtain ⟨recorded, created, -⟩ := passMarks_new fresh
      exact ⟨recorded.le, created.trans recorded.symm⟩
  · intro first firstIn second secondIn same above
    obtain firstOld | firstNew := new first firstIn <;> obtain secondOld | secondNew := new second secondIn
    · exact sound.order first firstOld second secondOld same above
    · rw [(passMarks_new secondNew).1]
      exact (sound.clocks first firstOld).1.trans onward
    · exact absurd above ((passMarks_new firstNew).2.2 second secondOld same.symm)
    · rw [(passMarks_new firstNew).1, (passMarks_new secondNew).1]
  · intro mark here isCleared
    obtain old | fresh := new mark here
    · obtain ⟨look, inside, seen⟩ := sound.seen mark old isCleared
      exact ⟨look, List.mem_append_left _ inside, seen⟩
    · obtain ⟨filing, symbol, opened, made⟩ := mem_passMarks.mp fresh
      obtain ⟨pair, -, -, -, stateOf⟩ := evaluated_cases made
      obtain ⟨document, name⟩ := Prod.mk.inj pair
      rw [isCleared] at stateOf
      rcases stateOf with ⟨impossible, -⟩ | ⟨impossible, -⟩ | ⟨-, row, served, right⟩
      · cases impossible
      · cases impossible
      · refine ⟨world.look now, by simp, filing, document.symm, (mem_openPairs opened).1, row, ?_, right⟩
        rw [name]
        exact served
  · intro look here filing symbol seen trigger within named
    obtain before | last := List.mem_append.mp here
    · exact states_grow kept (sound.cleared look before filing symbol seen trigger within named)
    · rw [List.mem_singleton.mp last] at seen within
      by_cases already : .cleared ∈ states world.marks (filing.docId, symbol)
      · exact states_grow kept already
      · obtain ⟨registered, row, served, right⟩ := seen
        have opened := openPairs_recent registered trigger within named already
        obtain ⟨mark, made, isCleared⟩ : ∃ mark, evaluated zones (states world.marks (filing.docId, symbol)) filing symbol
            (statementPeriods world.filings filing.issuerKey) (some row) now = some mark ∧ mark.state = .cleared :=
          evaluated_served.1 right
        rw [show some row = world.served symbol from served.symm] at made
        obtain ⟨pair, -⟩ := evaluated_cases made
        obtain ⟨kin, inside, same⟩ := List.mem_map.mp (written mark (mem_passMarks.mpr ⟨filing, symbol, opened, made⟩))
        obtain ⟨samePair, sameState⟩ := Prod.mk.inj same
        exact mem_states.mpr ⟨kin, inside, samePair.trans pair, sameState.trans isCleared⟩

end Steps

theorem reached_sound {zones : Zones} {looks : List Look} {world : World} (reached : Reached zones looks world) :
    world.Sound zones looks := by
  induction reached with
  | start =>
    constructor
    · exact List.nodup_nil
    · exact fun _ here => nomatch here
    · exact List.nodup_nil
    · exact fun _ here => nomatch here
    · exact fun _ here => nomatch here
    · exact fun _ here => nomatch here
    · exact fun _ here => nomatch here
  | register before filing ih => exact ih.register filing
  | serve before served ih => exact { ih with }
  | evaluate before onward ih => exact ih.evaluate onward

section Readers
variable {zones : Zones} {looks : List Look} {world : World} {symbol : String} {mark : Mark}

theorem mem_staleUsTps {marks : List Mark} : mark ∈ staleUsTps marks symbol ↔
    mark ∈ marks ∧ mark.symbol = symbol ∧ mark.state = .stale ∧ .cleared ∉ states marks mark.pair := by
  rw [staleUsTps, List.mem_filter, mem_stableSort, mem_stableSort, decide_eq_true_eq]

theorem rowsKnownAt_all (sound : world.Sound zones looks) {instant : ℤ} (later : world.clock ≤ instant) :
    rowsKnownAt world.marks instant 0 = world.marks := by
  apply List.filter_eq_self.mpr
  intro mark here
  obtain ⟨recorded, created⟩ := sound.clocks mark here
  rw [decide_eq_true_eq, created]
  omega

theorem mem_usStalenessAt (sound : world.Sound zones looks) {instant : ℤ} (later : world.clock ≤ instant) :
    mark ∈ usStalenessAt world.marks instant 0 symbol ↔
      latest Mark.latestOrder (world.marks.filter (·.pair = mark.pair)) = some mark ∧ mark.symbol = symbol ∧ mark.state = .stale := by
  rw [usStalenessAt, rowsKnownAt_all sound later, List.mem_filter, mem_stableSort, List.mem_filterMap, decide_eq_true_eq]
  constructor
  · rintro ⟨⟨pair, -, found⟩, named, isStale⟩
    have inside := (List.mem_filter.mp (latest_spec found).1).2
    rw [decide_eq_true_eq] at inside
    rw [inside]
    exact ⟨found, named, isStale⟩
  · rintro ⟨found, named, isStale⟩
    have inside := (List.mem_filter.mp (latest_spec found).1).1
    exact ⟨⟨mark.pair, List.mem_dedup.mpr (List.mem_map_of_mem inside), found⟩, named, isStale⟩

theorem key_unique (sound : world.Sound zones looks) {first second : Mark} (firstIn : first ∈ world.marks) (secondIn : second ∈ world.marks)
    (samePair : first.pair = second.pair) (sameState : first.state = second.state) : first = second :=
  List.inj_on_of_nodup_map sound.distinct firstIn secondIn (Prod.ext samePair sameState)

/-- The marks whose pair was cleared at the very instant it was marked stale. -/
def ClearedAtOnce (marks : List Mark) (mark : Mark) : Prop :=
  ∃ other ∈ marks, other.pair = mark.pair ∧ other.state = .cleared ∧ other.recordedAt = mark.recordedAt

theorem latest_stale (sound : world.Sound zones looks) (here : mark ∈ world.marks) (isStale : mark.state = .stale) :
    latest Mark.latestOrder (world.marks.filter (·.pair = mark.pair)) = some mark ↔
      .cleared ∉ states world.marks mark.pair ∨ ClearedAtOnce world.marks mark := by
  constructor
  · intro found
    by_cases cleared : .cleared ∈ states world.marks mark.pair
    · right
      obtain ⟨other, inside, same, isCleared⟩ := mem_states.mp cleared
      refine ⟨other, inside, same, isCleared, le_antisymm ?_ ?_⟩
      · have below := (latest_spec found).2 other (List.mem_filter.mpr ⟨inside, decide_eq_true same⟩)
        obtain earlier | ⟨level, -⟩ := Prod.Lex.le_iff.mp below
        · exact earlier.le
        · exact level.le
      · exact sound.order mark here other inside same.symm (by rw [isStale, isCleared]; decide)
    · exact .inl cleared
  · intro allowed
    apply latest_eq (List.mem_filter.mpr ⟨here, decide_eq_true rfl⟩)
    intro other there differs
    obtain ⟨inside, same⟩ := List.mem_filter.mp there
    rw [decide_eq_true_eq] at same
    apply Prod.Lex.lt_iff.mpr
    cases reached : other.state with
    | stale => exact absurd (key_unique sound inside here same (reached.trans isStale.symm)) differs
    | untracked =>
      have before := sound.order other inside mark here same (by rw [reached, isStale]; decide)
      obtain lower | level := before.lt_or_eq
      · exact .inl lower
      · refine .inr ⟨level, ?_⟩
        change other.state.order < mark.state.order
        rw [reached, isStale]
        decide
    | cleared =>
      obtain none | ⟨kin, kinIn, kinPair, kinState, level⟩ := allowed
      · exact absurd (mem_states.mpr ⟨other, inside, same, reached⟩) none
      · refine .inr ⟨?_, ?_⟩
        · rw [key_unique sound inside kinIn (same.trans kinPair.symm) (reached.trans kinState.symm)]
          exact level
        · change other.state.order < mark.state.order
          rw [reached, isStale]
          decide

end Readers

/-- The pair of a filing and a symbol is pending for `stale_us_tps`. -/
def Pending (marks : List Mark) (filing : Filing) (symbol : String) : Prop :=
  ∃ mark ∈ staleUsTps marks symbol, mark.docId = filing.docId

theorem pending_iff {marks : List Mark} {filing : Filing} {symbol : String} : Pending marks filing symbol ↔
    .stale ∈ states marks (filing.docId, symbol) ∧ .cleared ∉ states marks (filing.docId, symbol) := by
  constructor
  · rintro ⟨mark, here, same⟩
    obtain ⟨inside, named, isStale, uncleared⟩ := mem_staleUsTps.mp here
    have pair : mark.pair = (filing.docId, symbol) := Prod.ext same named
    rw [pair] at uncleared
    exact ⟨mem_states.mpr ⟨mark, inside, pair, isStale⟩, uncleared⟩
  · rintro ⟨stale, uncleared⟩
    obtain ⟨mark, inside, pair, isStale⟩ := mem_states.mp stale
    obtain ⟨document, named⟩ := Prod.mk.inj pair
    exact ⟨mark, mem_staleUsTps.mpr ⟨inside, named, isStale, pair ▸ uncleared⟩, document⟩

/-- The pairs a pass has to tell of: a trigger filing within the lookback and a symbol of it that is served. -/
structure Concerns (world : World) (now : ℤ) (filing : Filing) (symbol : String) (row : Official) : Prop where
  onward : world.clock ≤ now
  registered : filing ∈ world.filings
  trigger : isTriggerFiling filing.form filing.items = true
  within : now - triggerLookback ≤ filing.acceptedAt
  named : symbol ∈ filing.symbols
  served : world.served symbol = some row

section Passes
variable {zones : Zones} {looks : List Look} {world : World} {now : ℤ} {filing : Filing} {symbol : String} {row : Official}

theorem evaluated_marks (concerns : Concerns world now filing symbol row) :
    .stale ∈ states (world.evaluate zones now).marks (filing.docId, symbol) ∨
      .cleared ∈ states (world.evaluate zones now).marks (filing.docId, symbol) := by
  obtain ⟨kept, -, written, -⟩ : Appended world.marks (passMarks zones world.filings world.served world.marks now)
      (world.evaluate zones now).marks := evaluate_appends world
  by_cases already : .cleared ∈ states world.marks (filing.docId, symbol)
  · exact .inr (states_grow kept already)
  · have opened := openPairs_recent concerns.registered concerns.trigger concerns.within concerns.named already
    have reached : ∀ mark, evaluated zones (states world.marks (filing.docId, symbol)) filing symbol
        (statementPeriods world.filings filing.issuerKey) (some row) now = some mark →
        mark.state ∈ states (world.evaluate zones now).marks (filing.docId, symbol) := by
      intro mark made
      rw [show some row = world.served symbol from concerns.served.symm] at made
      obtain ⟨pair, -⟩ := evaluated_cases made
      obtain ⟨kin, inside, same⟩ := List.mem_map.mp (written mark (mem_passMarks.mpr ⟨filing, symbol, opened, made⟩))
      obtain ⟨samePair, sameState⟩ := Prod.mk.inj same
      exact mem_states.mpr ⟨kin, inside, samePair.trans pair, sameState⟩
    cases right : revalued zones world.filings filing row with
    | true =>
      obtain ⟨mark, made, isCleared⟩ := evaluated_served.1 right
      exact .inr (isCleared ▸ reached mark made)
    | false =>
      obtain stale | ⟨mark, made, isStale⟩ := evaluated_served.2 right
      · exact .inl (states_grow kept stale)
      · exact .inl (isStale ▸ reached mark made)

theorem evaluate_pending (sound : world.Sound zones looks) (concerns : Concerns world now filing symbol row) :
    Pending (world.evaluate zones now).marks filing symbol ↔
      ∀ look ∈ looks ++ [world.look now], ¬ look.Revalued zones filing symbol := by
  have after := sound.evaluate concerns.onward
  have cleared : .cleared ∈ states (world.evaluate zones now).marks (filing.docId, symbol) ↔
      ∃ look ∈ looks ++ [world.look now], look.Revalued zones filing symbol := by
    constructor
    · intro here
      obtain ⟨mark, inside, pair, isCleared⟩ := mem_states.mp here
      obtain ⟨document, named⟩ := Prod.mk.inj pair
      obtain ⟨look, looked, other, same, seen⟩ := after.seen mark inside isCleared
      have registered := (after.looked look looked).2 other seen.1
      obtain rfl : other = filing :=
        List.inj_on_of_nodup_map sound.documents registered concerns.registered (same.trans document)
      rw [named] at seen
      exact ⟨look, looked, seen⟩
    · rintro ⟨look, looked, seen⟩
      refine after.cleared look looked filing symbol seen concerns.trigger ?_ concerns.named
      have bound : look.now ≤ now := (after.looked look looked).1
      have within := concerns.within
      omega
  rw [pending_iff, cleared]
  constructor
  · rintro ⟨-, none⟩ look looked seen
    exact none ⟨look, looked, seen⟩
  · intro none
    have uncleared : ¬ ∃ look ∈ looks ++ [world.look now], look.Revalued zones filing symbol :=
      fun ⟨look, looked, seen⟩ => none look looked seen
    exact ⟨(evaluated_marks concerns).resolve_right fun here => uncleared (cleared.mp here), uncleared⟩

end Passes

/-- What the marks of a run say of the served prices. -/
structure Tracked {zones : Zones} (history : History zones) : Prop where
  pending : ∀ now filing symbol row, Concerns history.world now filing symbol row →
    (Pending (history.world.evaluate zones now).marks filing symbol ↔
      ∀ look ∈ history.looks ++ [history.world.look now], ¬ look.Revalued zones filing symbol)
  readers : ∀ instant, history.world.clock ≤ instant → ∀ symbol mark,
    mark ∈ usStalenessAt history.world.marks instant 0 symbol ↔ mark ∈ staleUsTps history.world.marks symbol ∨
      mark ∈ history.world.marks ∧ mark.symbol = symbol ∧ mark.state = .stale ∧ ClearedAtOnce history.world.marks mark

theorem staleness_tracked {zones : Zones} (history : History zones) : Tracked history := by
  have sound := reached_sound history.reached
  constructor
  · intro now filing symbol row concerns
    exact evaluate_pending sound concerns
  · intro instant later symbol mark
    rw [mem_usStalenessAt sound later, mem_staleUsTps]
    constructor
    · rintro ⟨found, named, isStale⟩
      have here := (List.mem_filter.mp (latest_spec found).1).1
      obtain uncleared | atOnce := (latest_stale sound here isStale).mp found
      · exact .inl ⟨here, named, isStale, uncleared⟩
      · exact .inr ⟨here, named, isStale, atOnce⟩
    · rintro (⟨here, named, isStale, uncleared⟩ | ⟨here, named, isStale, atOnce⟩)
      · exact ⟨(latest_stale sound here isStale).mpr (.inl uncleared), named, isStale⟩
      · exact ⟨(latest_stale sound here isStale).mpr (.inr atOnce), named, isStale⟩

section Regressions

def utcZones : Zones := ⟨(· / dayLength), (· / dayLength), (· * dayLength)⟩

def annualReport : Filing where
  docId := "0000320193-26-000018"
  issuerKey := "0000320193"
  form := "10-K"
  items := []
  symbols := ["AAPL"]
  periodOfReport := some 739616
  acceptedAt := 1000
  named := by decide
  symbolsNamed := by decide

/-- The same name in the cycle before the report and in the one after it. -/
def cycleServes (predicted : ℤ) : String → Option Official
  | "AAPL" => some ⟨"NASDAQ", "cycle", some predicted, some 739616⟩
  | _ => none

def registeredWorld : World := World.register ⟨[], fun _ => none, [], 2000⟩ annualReport

/-- The cycle that revalues the name, a pass, and a rollback to the cycle before. -/
def rolledBack : History utcZones where
  looks := _
  world := ((registeredWorld.serve (cycleServes 1500)).evaluate utcZones 2000).serve (cycleServes 500)
  reached := .serve (.evaluate (.serve (.register (.start 2000) annualReport) _) (le_refl _)) _

/-- Two passes at one instant, the cycle that revalues the name between them. -/
def atOneInstant : History utcZones where
  looks := _
  world := (((registeredWorld.serve (cycleServes 500)).evaluate utcZones 2000).serve (cycleServes 1500)).evaluate utcZones 2000
  reached := .evaluate (.serve (.evaluate (.serve (.register (.start 2000) annualReport) _) (le_refl _)) _) (le_refl _)

theorem staleness_regresses :
    (¬ ∀ (zones : Zones) (history : History zones) now filing symbol row, Concerns history.world now filing symbol row →
      (Pending (history.world.evaluate zones now).marks filing symbol ↔
        revalued zones history.world.filings filing row = false)) ∧
    ¬ ∀ (zones : Zones) (history : History zones) symbol docId,
      (∃ mark ∈ staleUsTps history.world.marks symbol, mark.docId = docId) ↔
        ∃ mark ∈ usStalenessAt history.world.marks history.world.clock 0 symbol, mark.docId = docId := by
  constructor
  · intro holds
    have concerns : Concerns rolledBack.world 3000 annualReport "AAPL" ⟨"NASDAQ", "cycle", some 500, some 739616⟩ :=
      ⟨by decide, List.mem_singleton_self _, by decide, by decide, by decide, rfl⟩
    have pending := (holds utcZones rolledBack 3000 annualReport "AAPL" _ concerns).mpr (by decide +kernel)
    have cleared : .cleared ∈ states (rolledBack.world.evaluate utcZones 3000).marks ("0000320193-26-000018", "AAPL") := by decide +kernel
    exact (pending_iff.mp pending).2 cleared
  · intro holds
    have listed := (holds utcZones atOneInstant "AAPL" "0000320193-26-000018").mpr (by decide +kernel)
    have unlisted : ¬ ∃ mark ∈ staleUsTps atOneInstant.world.marks "AAPL", mark.docId = "0000320193-26-000018" := by decide +kernel
    exact unlisted listed

end Regressions

end C3po.Staleness
