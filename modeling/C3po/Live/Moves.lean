import C3po.Live.Document

/-! What the calls of a session can do to its book.

An exit check marks a held position and may sell it at the mark; an entry buys a
name that is not held; everything else leaves the book as it was. `Steady` is what a
property needs to survive every call but the entries, and `enter_keeps` carries it
through the entries one purchase at a time.
-/

set_option autoImplicit false

namespace C3po.Live
open C3po.Library

/-- Everything but the flags, the shadows and the bands stays. -/
structure SameBook (before after : EngineState) : Prop where
  navRealized : after.navRealized = before.navRealized
  positions : after.positions = before.positions
  fills : after.fills = before.fills
  session : after.session = before.session
  lastSession : after.lastSession = before.lastSession
  navStart : after.navStart = before.navStart
  config : after.config = before.config
  candidates : after.candidates = before.candidates
  signals : before.signals ≤ after.signals

structure Frame (before after : Engine) : Prop extends SameBook before.state after.state where
  day : after.day = before.day
  members : after.members = before.members
  markedMoment : after.markedMoment = before.markedMoment
  lastEntry : after.lastEntry = before.lastEntry

namespace SameBook
variable {first second third : EngineState}

theorem refl (state : EngineState) : SameBook state state :=
  ⟨rfl, rfl, rfl, rfl, rfl, rfl, rfl, rfl, le_rfl⟩

theorem trans (early : SameBook first second) (late : SameBook second third) : SameBook first third :=
  ⟨late.navRealized.trans early.navRealized, late.positions.trans early.positions,
    late.fills.trans early.fills, late.session.trans early.session,
    late.lastSession.trans early.lastSession, late.navStart.trans early.navStart,
    late.config.trans early.config, late.candidates.trans early.candidates,
    early.signals.trans late.signals⟩

theorem foldl {A : Type} {step : EngineState → A → EngineState}
    (same : ∀ state item, SameBook state (step state item)) (items : List A) (state : EngineState) :
    SameBook state (items.foldl step state) := by
  induction items generalizing state with
  | nil => exact refl _
  | cons item rest ih => exact (same state item).trans (ih _)

end SameBook

namespace Frame
variable {first second third : Engine}

theorem of_book {engine : Engine} {state : EngineState} (book : SameBook engine.state state) :
    Frame engine { engine with state := state } := ⟨book, rfl, rfl, rfl, rfl⟩

theorem refl (engine : Engine) : Frame engine engine := of_book (.refl _)

theorem trans (early : Frame first second) (late : Frame second third) : Frame first third :=
  ⟨early.toSameBook.trans late.toSameBook, late.day.trans early.day, late.members.trans early.members,
    late.markedMoment.trans early.markedMoment, late.lastEntry.trans early.lastEntry⟩

end Frame

section Shadows

theorem shadowOpen_same (state : EngineState) (symbol : String) (ask spreadBps : ℚ) (moment : Int) :
    SameBook state (state.shadowOpen symbol ask spreadBps moment) :=
  ⟨rfl, rfl, rfl, rfl, rfl, rfl, rfl, rfl, le_rfl⟩

theorem shadowClose_same (state : EngineState) (symbol : String) (row : Shadow) (net : ℚ) :
    SameBook state (state.shadowClose symbol row net) :=
  ⟨rfl, rfl, rfl, rfl, rfl, rfl, rfl, rfl, le_rfl⟩

theorem shadowExit_same (late : Bool) (now : Int) (view : String → MarketView) (state : EngineState)
    (symbol : String) : SameBook state (state.shadowExit late now view symbol) := by
  unfold EngineState.shadowExit
  split
  · simp only
    split
    · exact .refl _
    · split
      · exact ⟨rfl, rfl, rfl, rfl, rfl, rfl, rfl, rfl, le_rfl⟩
      · exact ⟨rfl, rfl, rfl, rfl, rfl, rfl, rfl, rfl, le_rfl⟩
  · exact .refl _

theorem shadowExits_same (state : EngineState) (late : Bool) (now : Int) (view : String → MarketView)
    (fault : Option ℕ) : SameBook state (state.shadowExits late now view fault) := by
  unfold EngineState.shadowExits
  simp only
  split
  · exact SameBook.foldl (shadowExit_same late now view) _ state
  · exact (SameBook.foldl (shadowExit_same late now view) _ state).trans
      ⟨rfl, rfl, rfl, rfl, rfl, rfl, rfl, rfl, le_rfl⟩

theorem settleShadow_same (state : EngineState) (entry : String × Shadow) :
    SameBook state (state.settleShadow entry) ∧ (state.settleShadow entry).signals = state.signals := by
  unfold EngineState.settleShadow
  split
  · exact ⟨⟨rfl, rfl, rfl, rfl, rfl, rfl, rfl, rfl, le_rfl⟩, rfl⟩
  · exact ⟨shadowClose_same .., rfl⟩

end Shadows

namespace Engine
variable {zone : Zone}

section Frames

theorem shadowOpen_frame (engine : Engine) (symbol : String) (purchase : Purchase) :
    Frame engine (engine.shadowOpen symbol purchase) := .of_book (shadowOpen_same ..)

theorem stepShadows_frame (engine : Engine) (input : StepInput) :
    Frame engine (engine.stepShadows zone input) := .of_book (shadowExits_same ..)

theorem watch_frame (signal : String → Option (ℚ × ℚ)) (seen : Engine × List Cross)
    (candidate : String × ℚ) : Frame seen.1 (watch signal seen candidate).1 := by
  obtain ⟨engine, crosses⟩ := seen
  unfold watch
  simp only
  split
  · exact .refl _
  · split
    · exact .refl _
    · split_ifs
      · exact .of_book ⟨rfl, rfl, rfl, rfl, rfl, rfl, rfl, rfl, le_rfl⟩
      · exact .refl _
      · exact .of_book ⟨rfl, rfl, rfl, rfl, rfl, rfl, rfl, rfl, Nat.le_succ _⟩
      · exact .of_book ⟨rfl, rfl, rfl, rfl, rfl, rfl, rfl, rfl, Nat.le_succ _⟩

end Frames

section Crosses

/-- Crosses that may be bought: distinct names of the session, none of them held. -/
structure Free (engine : Engine) (crosses : List Cross) : Prop where
  distinct : (crosses.map Cross.symbol).Nodup
  unheld : ∀ cross ∈ crosses, engine.state.positions.get? cross.symbol = none

/-- What the signals of some candidates came to. -/
structure Watched (start : Engine) (symbols : List String) (seen : Engine × List Cross) : Prop where
  frame : Frame start seen.1
  crosses : seen.1.Free seen.2
  known : ∀ cross ∈ seen.2, cross.symbol ∈ symbols

theorem watch_watched {start : Engine} {symbols : List String} {seen : Engine × List Cross}
    (watched : Watched start symbols seen) (signal : String → Option (ℚ × ℚ)) {candidate : String × ℚ}
    (fresh : candidate.1 ∉ symbols) :
    Watched start (symbols ++ [candidate.1]) (watch signal seen candidate) := by
  have frame := watched.frame.trans (watch_frame signal seen candidate)
  obtain ⟨engine, crosses⟩ := seen
  obtain ⟨symbol, gap⟩ := candidate
  have known : ∀ cross ∈ crosses, cross.symbol ∈ symbols ++ [symbol] := fun cross member =>
    List.mem_append_left _ (watched.known cross member)
  unfold watch at frame ⊢
  simp only at frame ⊢
  split
  · rename_i listed
    simp only [listed, if_true] at frame
    exact ⟨frame, watched.crosses, known⟩
  · rename_i listed
    simp only [listed, if_false, Bool.false_eq_true] at frame
    split
    · rename_i silent
      simp only [silent] at frame
      exact ⟨frame, watched.crosses, known⟩
    · rename_i close vwap live
      simp only [live] at frame
      have same : Free engine crosses := watched.crosses
      split_ifs at frame ⊢
      · exact ⟨frame, ⟨same.distinct, same.unheld⟩, known⟩
      · exact ⟨frame, same, known⟩
      · exact ⟨frame, ⟨same.distinct, same.unheld⟩, known⟩
      · rename_i unheld
        refine ⟨frame, ⟨?_, ?_⟩, ?_⟩
        · rw [List.map_append]
          refine List.nodup_append.mpr ⟨watched.crosses.distinct, List.nodup_singleton _, ?_⟩
          rintro name member other here rfl
          obtain ⟨cross, crossIn, rfl⟩ := List.mem_map.mp member
          simp only [List.map_cons, List.map_nil, List.mem_singleton] at here
          exact fresh (here ▸ watched.known cross crossIn)
        · intro cross member
          rcases List.mem_append.mp member with old | new
          · exact watched.crosses.unheld cross old
          · rw [List.mem_singleton.mp new]
            simpa [Dict.contains] using unheld
        · intro cross member
          rcases List.mem_append.mp member with old | new
          · exact known cross old
          · rw [List.mem_singleton.mp new]
            simp

theorem watched_foldl (signal : String → Option (ℚ × ℚ)) {start : Engine}
    (candidates : List (String × ℚ)) {symbols : List String} {seen : Engine × List Cross}
    (distinct : (symbols ++ candidates.map Prod.fst).Nodup) (watched : Watched start symbols seen) :
    Watched start (symbols ++ candidates.map Prod.fst) (candidates.foldl (watch signal) seen) := by
  induction candidates generalizing symbols seen with
  | nil => simpa using watched
  | cons candidate rest ih =>
    have fresh : candidate.1 ∉ symbols := fun member =>
      (List.nodup_append.mp distinct).2.2 _ member _ (by simp) rfl
    have whole : symbols ++ (candidate :: rest).map Prod.fst =
        (symbols ++ [candidate.1]) ++ rest.map Prod.fst := by simp
    rw [whole] at distinct ⊢
    exact ih distinct (watch_watched watched signal fresh)

theorem stepSignals_spec (engine : Engine) (input : StepInput) :
    Frame engine (engine.stepSignals zone input).1 ∧
      (engine.stepSignals zone input).1.Free (engine.stepSignals zone input).2 := by
  unfold stepSignals
  have start : Watched engine [] ({ engine with state := { engine.state with
      lastSignalMinute := zone.time input.now / (60 * second) } }, []) :=
    ⟨.of_book ⟨rfl, rfl, rfl, rfl, rfl, rfl, rfl, rfl, le_rfl⟩, ⟨List.nodup_nil, by simp⟩, by simp⟩
  have watched := watched_foldl input.signal engine.state.candidates.entries
    (by simpa using engine.state.candidates.distinct) start
  exact ⟨watched.frame, watched.crosses⟩

/-- Crosses of names that are candidates and members. -/
def Known (start : Engine) (seen : Engine × List Cross) : Prop :=
  seen.1.members = start.members ∧
    ∀ cross ∈ seen.2, start.state.candidates.contains cross.symbol ∧ start.members.contains cross.symbol

theorem watch_known {start : Engine} {seen : Engine × List Cross} (known : Known start seen)
    (signal : String → Option (ℚ × ℚ)) {candidate : String × ℚ}
    (member : candidate ∈ start.state.candidates.entries) : Known start (watch signal seen candidate) := by
  refine ⟨(watch_frame signal seen candidate).members.trans known.1, ?_⟩
  obtain ⟨current, crosses⟩ := seen
  obtain ⟨symbol, gap⟩ := candidate
  unfold watch
  simp only
  split
  · exact known.2
  · rename_i listed
    split
    · exact known.2
    · split_ifs
      · exact known.2
      · exact known.2
      · exact known.2
      · intro cross crossed
        rcases List.mem_append.mp crossed with old | new
        · exact known.2 cross old
        · rw [List.mem_singleton.mp new]
          refine ⟨by simp [Dict.contains, Dict.mem_entries.mp member], ?_⟩
          rw [← known.1]
          simpa using listed

theorem stepSignals_known (zone : Zone) (engine : Engine) (input : StepInput) :
    Known engine (engine.stepSignals zone input) :=
  foldl_keeps (Known engine) engine.state.candidates.entries
    (fun _ member _ known => watch_known known input.signal member) ⟨rfl, by simp⟩

end Crosses

section Held
variable {engine : Engine} {position other : Position} {symbol : String}

theorem mark_held {moment : Int} (found : (engine.mark position moment).state.positions.get? symbol = some other) :
    symbol = position.symbol ∧ other = position ∨ engine.state.positions.get? symbol = some other := by
  simp only [Engine.mark, Dict.get?_insert] at found
  split at found
  · rename_i same
    exact .inl ⟨same, (Option.some.inj found).symm⟩
  · exact .inr found

theorem sell_held {bid net : ℚ} {reason : ExitReason} {moment : Int}
    (found : (engine.sell position bid net reason moment).state.positions.get? symbol = some other) :
    symbol ≠ position.symbol ∧ engine.state.positions.get? symbol = some other := by
  simp only [Engine.sell, Dict.get?_erase] at found
  split at found
  · cases found
  · rename_i apart
    exact ⟨apart, found⟩

theorem keyed_frame {after : Engine} (frame : Frame engine after) (keyed : engine.state.Keyed) :
    after.state.Keyed := fun symbol position held => keyed symbol position (frame.positions ▸ held)

theorem keyed_mark (keyed : engine.state.Keyed) (position : Position) (moment : Int) :
    (engine.mark position moment).state.Keyed := by
  intro symbol other found
  rcases mark_held found with ⟨rfl, rfl⟩ | old
  · rfl
  · exact keyed symbol other old

theorem keyed_sell (keyed : engine.state.Keyed) (position : Position) (bid net : ℚ) (reason : ExitReason)
    (moment : Int) : (engine.sell position bid net reason moment).state.Keyed := fun symbol other found =>
  keyed symbol other (sell_held found).2

theorem keyed_buy (keyed : engine.state.Keyed) (cross : Cross) (purchase : Purchase) :
    (engine.buy cross purchase).state.Keyed := by
  intro symbol other found
  simp only [Engine.buy, Dict.get?_insert] at found
  split at found
  · rename_i same
    cases found
    exact same.symm
  · exact keyed symbol other found

end Held

section Exits

theorem exit_cases (engine : Engine) (position : Position) (market : MarketView) (moment : Int) (bid : ℚ)
    (source : ExitSource) :
    engine.exit zone position market moment bid source = engine.mark (position.marked bid) moment ∨
      ∃ reason, engine.exit zone position market moment bid source =
        (engine.mark (position.marked bid) moment).sell (position.marked bid) bid
          ((position.marked bid).netPercent bid) reason moment := by
  unfold exit
  simp only
  split
  · exact .inl rfl
  · rename_i reason _
    exact .inr ⟨reason, rfl⟩

/-- What a property survives of an exit check: a mark and a sale. -/
structure Selling (P : Engine → Prop) : Prop where
  keyed : ∀ {engine : Engine}, P engine → engine.state.Keyed
  mark : ∀ {engine : Engine} {position : Position} {bid : ℚ}, P engine →
    engine.state.positions.get? position.symbol = some position → 0 < bid →
      ∀ moment, P (engine.mark (position.marked bid) moment)
  sell : ∀ {engine : Engine} {position : Position} {bid : ℚ}, P engine →
    engine.state.positions.get? position.symbol = some position → 0 < bid →
      ∀ reason moment, P (engine.sell position bid (position.netPercent bid) reason moment)

/-- What a property of a session survives: the frame, a mark and a sale. -/
structure Steady (P : Engine → Prop) : Prop where
  keyed : ∀ {engine : Engine}, P engine → engine.state.Keyed
  frame : ∀ {before after : Engine}, Frame before after → P before → P after
  mark : ∀ {engine : Engine} {position : Position} {bid : ℚ}, P engine →
    engine.state.positions.get? position.symbol = some position → 0 < bid →
      ∀ moment, P (engine.mark (position.marked bid) moment)
  sell : ∀ {engine : Engine} {position : Position} {bid : ℚ}, P engine →
    engine.state.positions.get? position.symbol = some position → 0 < bid →
      ∀ reason moment, P (engine.sell position bid (position.netPercent bid) reason moment)

variable {P : Engine → Prop}

theorem Selling.exit (selling : Selling P) {engine : Engine} (kept : P engine) {symbol : String}
    {position : Position} (held : engine.state.positions.get? symbol = some position) {bid : ℚ}
    (positive : 0 < bid) (market : MarketView) (moment : Int) (source : ExitSource) :
    P (engine.exit zone position market moment bid source) := by
  have named := selling.keyed kept symbol position held
  subst named
  have marked := selling.mark kept held positive moment
  rcases @exit_cases zone engine position market moment bid source with same | ⟨reason, same⟩
  · rw [same]
    exact marked
  · rw [same]
    exact selling.sell marked (by simp [Engine.mark, Position.marked]) positive reason moment

theorem Selling.passOver (selling : Selling P) (now : Int) (read : String → Reading) (symbols : List String)
    {engine : Engine} (kept : P engine) : P (passOver zone now read symbols engine) := by
  induction symbols generalizing engine with
  | nil => exact kept
  | cons symbol rest ih =>
    unfold Engine.passOver
    split
    · exact ih kept
    · rename_i position held
      simp only
      split
      · exact kept
      · split
        · exact ih kept
        · rename_i bid usable
          exact ih (selling.exit kept held (exitBid_positive usable) ..)

theorem Selling.fastExits (selling : Selling P) (pass : Pass) {engine : Engine} (kept : P engine) :
    P (engine.fastExits zone pass) := selling.passOver pass.now pass.read _ kept

theorem Selling.fastPasses (selling : Selling P) (passes : List Pass) {engine : Engine} (kept : P engine) :
    P (engine.fastPasses zone passes) := by
  induction passes generalizing engine with
  | nil => exact kept
  | cons pass rest ih => exact ih (selling.fastExits pass kept)

theorem Selling.pushedExits (selling : Selling P) (now : Int) (read : String → Reading)
    (symbols pending : List String) {engine : Engine} (kept : P engine) :
    P (pushedExits zone now read symbols engine pending).1 := by
  induction symbols generalizing engine pending with
  | nil => exact kept
  | cons symbol rest ih =>
    unfold Engine.pushedExits
    split
    · exact ih pending kept
    · rename_i position held
      simp only
      split
      · exact kept
      · split
        · exact ih _ kept
        · rename_i bid usable
          exact ih pending (selling.exit kept held (exitBid_positive usable) ..)

theorem Selling.settle (selling : Selling P) (now : Int) (answers : String → Option Quote)
    (read : String → Reading) (before : Dict String Int) (symbols : List String) {engine : Engine}
    (kept : P engine) : P (settle zone now answers read before symbols engine) := by
  induction symbols generalizing engine with
  | nil => exact kept
  | cons symbol rest ih =>
    unfold Engine.settle
    split
    · exact ih kept
    · rename_i position held
      simp only
      split
      · exact ih kept
      · split
        · exact kept
        · split
          · rename_i bid usable
            exact ih (selling.exit kept held (exitBid_positive usable) ..)
          · rename_i quote _ fresh
            exact ih (selling.exit kept held (freshQuote_positive fresh) ..)
          · exact ih kept

theorem Selling.stepExits (selling : Selling P) (input : StepInput) {engine : Engine} (kept : P engine) :
    P (engine.stepExits zone input) := by
  have pushed : P (engine.stepPushed zone input).1 := by
    unfold stepPushed
    split
    · exact kept
    · exact selling.pushedExits _ _ _ _ kept
  unfold Engine.stepExits
  simp only
  split
  · refine selling.settle _ _ _ _ _ ?_
    split
    · exact pushed
    · exact selling.fastPasses _ pushed
  · exact selling.settle _ _ _ _ _ pushed

theorem Selling.stepWait (selling : Selling P) (input : StepInput) (crosses : List Cross) {engine : Engine}
    (kept : P engine) : P (engine.stepWait zone input crosses) := by
  unfold Engine.stepWait
  split
  · split
    · exact selling.fastPasses _ kept
    · exact kept
  · exact kept

theorem Steady.selling (steady : Steady P) : Selling P := ⟨steady.keyed, steady.mark, steady.sell⟩

theorem Steady.fastExits (steady : Steady P) (pass : Pass) {engine : Engine} (kept : P engine) :
    P (engine.fastExits zone pass) := steady.selling.fastExits pass kept

theorem Steady.stepExits (steady : Steady P) (input : StepInput) {engine : Engine} (kept : P engine) :
    P (engine.stepExits zone input) := steady.selling.stepExits input kept

theorem Steady.stepWait (steady : Steady P) (input : StepInput) (crosses : List Cross) {engine : Engine}
    (kept : P engine) : P (engine.stepWait zone input crosses) := steady.selling.stepWait input crosses kept

theorem Steady.stepStart (steady : Steady P) (input : StepInput) {engine : Engine} (kept : P engine) :
    P ((engine.stepExits zone input).stepShadows zone input) :=
  steady.frame (stepShadows_frame ..) (steady.stepExits input kept)

theorem free_steady (crosses : List Cross) :
    Steady fun engine => engine.state.Keyed ∧ engine.Free crosses where
  keyed kept := kept.1
  frame frame kept := by
    refine ⟨keyed_frame frame kept.1, kept.2.distinct, fun cross member => ?_⟩
    rw [frame.positions]
    exact kept.2.unheld cross member
  mark {engine position bid} kept held _ moment := by
    refine ⟨keyed_mark kept.1 _ moment, kept.2.distinct, fun cross member => ?_⟩
    have unheld := kept.2.unheld cross member
    simp only [Engine.mark, Dict.get?_insert]
    split
    · rename_i same
      rw [same] at unheld
      exact absurd (unheld.symm.trans held) (by simp)
    · exact unheld
  sell {engine position bid} kept held _ reason moment := by
    refine ⟨keyed_sell kept.1 _ _ _ _ _, kept.2.distinct, fun cross member => ?_⟩
    simp only [Engine.sell, Dict.get?_erase]
    split
    · rfl
    · exact kept.2.unheld cross member

end Exits

section Entries
variable (zone)

/-- The purchases of the entries, each with the engine that makes it. -/
def purchases (now : Int) (asked : Option Wait) (read : String → Reading) :
    List Cross → Engine → List (Engine × Cross × Purchase)
  | [], _ => []
  | cross :: rest, engine =>
      match engine.verdict zone now asked read cross with
      | .skip => purchases now asked read rest engine
      | .stop => []
      | .shadow purchase => purchases now asked read rest
          (engine.shadowOpen cross.symbol purchase)
      | .buy purchase => (engine, cross, purchase) :: purchases now asked read rest (engine.buy cross purchase)

def stepPurchases (engine : Engine) (input : StepInput) : List (Engine × Cross × Purchase) :=
  let engine := (engine.stepExits zone input).stepShadows zone input
  if zone.time input.now ≤ engine.lastEntryNow then
    let signals := engine.stepSignals zone input
    purchases zone input.now input.entries input.bought signals.2 (signals.1.stepWait zone input signals.2)
  else []

variable {zone} {P : Engine → Prop} {now : Int} {asked : Option Wait} {read : String → Reading}

theorem verdict_buy {engine : Engine} {cross : Cross} {purchase : Purchase}
    (bought : engine.verdict zone now asked read cross = .buy purchase) :
    0 < purchase.quote.bid ∧ purchase.quote.bid ≤ purchase.quote.ask ∧
      engine.state.positions.size < rule.slots := by
  unfold verdict at bought
  split at bought
  · cases bought
  · rename_i slots
    simp only at bought
    split at bought
    · cases bought
    · rename_i quote massive found
      split_ifs at bought
      rename_i ordered _
      cases bought
      simp only [Quote.ordered, Bool.not_eq_true', decide_eq_false_iff_not, not_or, not_not] at ordered
      exact ⟨ordered.1.1, ordered.1.2, not_le.mp slots⟩

theorem Free.tail {engine : Engine} {cross : Cross} {rest : List Cross} (free : engine.Free (cross :: rest)) :
    engine.Free rest :=
  ⟨(List.nodup_cons.mp free.distinct).2, fun other member => free.unheld other (by simp [member])⟩

theorem Free.frame {before after : Engine} {crosses : List Cross} (frame : Frame before after)
    (free : before.Free crosses) : after.Free crosses :=
  ⟨free.distinct, fun cross member => by rw [frame.positions]; exact free.unheld cross member⟩

theorem Free.buy {engine : Engine} {cross : Cross} {rest : List Cross} (free : engine.Free (cross :: rest))
    (purchase : Purchase) : (engine.buy cross purchase).Free rest := by
  refine ⟨free.tail.distinct, fun other member => ?_⟩
  have apart : other.symbol ≠ cross.symbol := by
    intro same
    exact (List.nodup_cons.mp free.distinct).1 (List.mem_map.mpr ⟨other, member, same⟩)
  simp only [Engine.buy, Dict.get?_insert, apart, if_false]
  exact free.unheld other (by simp [member])

theorem enter_leaves {Q : List Cross → Engine → Prop}
    (skip : ∀ {cross rest engine}, Q (cross :: rest) engine → Q rest engine)
    (shadow : ∀ {crosses engine} symbol purchase, Q crosses engine → Q crosses (engine.shadowOpen symbol purchase))
    (buy : ∀ {cross rest engine purchase}, Q (cross :: rest) engine →
      engine.verdict zone now asked read cross = .buy purchase → Q rest (engine.buy cross purchase))
    {crosses : List Cross} {engine : Engine} (kept : Q crosses engine) :
    ∃ left, Q left (enter zone now asked read crosses engine) := by
  induction crosses generalizing engine with
  | nil => exact ⟨[], kept⟩
  | cons cross rest ih =>
    unfold enter
    split
    · exact ih (skip kept)
    · exact ⟨_, kept⟩
    · exact ih (shadow _ _ (skip kept))
    · rename_i bought
      exact ih (buy kept bought)

theorem enter_keeps (frame : ∀ {before after : Engine}, Frame before after → P before → P after)
    {crosses : List Cross} {engine : Engine} (free : engine.Free crosses)
    (bought : ∀ entry ∈ purchases zone now asked read crosses engine, P entry.1 →
      entry.1.state.positions.get? entry.2.1.symbol = none → 0 < entry.2.2.quote.bid →
        entry.2.2.quote.bid ≤ entry.2.2.quote.ask → P (entry.1.buy entry.2.1 entry.2.2))
    (kept : P engine) : P (enter zone now asked read crosses engine) := by
  induction crosses generalizing engine with
  | nil => exact kept
  | cons cross rest ih =>
    unfold purchases at bought
    unfold enter
    split <;> rename_i found <;> simp only [found] at bought
    · exact ih free.tail bought kept
    · exact kept
    · exact ih (free.tail.frame (shadowOpen_frame ..)) bought (frame (shadowOpen_frame ..) kept)
    · obtain ⟨positive, ordered, _⟩ := verdict_buy found
      refine ih (free.buy _) (fun entry member => bought entry (List.mem_cons_of_mem _ member)) ?_
      exact bought _ List.mem_cons_self kept (free.unheld cross List.mem_cons_self) positive ordered

theorem Steady.step (steady : Steady P) {engine : Engine} (input : StepInput)
    (bought : ∀ entry ∈ engine.stepPurchases zone input, P entry.1 →
      entry.1.state.positions.get? entry.2.1.symbol = none → 0 < entry.2.2.quote.bid →
        entry.2.2.quote.bid ≤ entry.2.2.quote.ask → P (entry.1.buy entry.2.1 entry.2.2))
    (kept : P engine) : P (engine.step zone input) := by
  have start : P ((engine.stepExits zone input).stepShadows zone input) := steady.stepStart input kept
  unfold stepPurchases at bought
  unfold Engine.step stepEntries
  simp only at bought ⊢
  split
  · rename_i open_
    simp only [open_, if_true] at bought
    obtain ⟨frame, free⟩ := @stepSignals_spec zone
      ((engine.stepExits zone input).stepShadows zone input) input
    have signalled := steady.frame frame start
    have waited := @Steady.stepWait zone _ steady input
      (((engine.stepExits zone input).stepShadows zone input).stepSignals zone input).2 _ signalled
    have still := @Steady.stepWait zone _ (free_steady _) input
      (((engine.stepExits zone input).stepShadows zone input).stepSignals zone input).2 _ ⟨steady.keyed signalled, free⟩
    exact enter_keeps steady.frame still.2 bought waited
  · exact start

end Entries

section Sessions

structure Still (before after : Engine) : Prop where
  session : after.state.session = before.state.session
  lastSession : after.state.lastSession = before.state.lastSession
  navStart : after.state.navStart = before.state.navStart
  config : after.state.config = before.state.config
  candidates : after.state.candidates = before.state.candidates
  day : after.day = before.day
  members : after.members = before.members
  lastEntry : after.lastEntry = before.lastEntry

theorem Still.refl (engine : Engine) : Still engine engine := ⟨rfl, rfl, rfl, rfl, rfl, rfl, rfl, rfl⟩

theorem Still.frame {first before after : Engine} (still : Still first before) (frame : Frame before after) :
    Still first after :=
  ⟨frame.session.trans still.session, frame.lastSession.trans still.lastSession,
    frame.navStart.trans still.navStart, frame.config.trans still.config,
    frame.candidates.trans still.candidates, frame.day.trans still.day, frame.members.trans still.members,
    frame.lastEntry.trans still.lastEntry⟩

theorem still_steady (first : Engine) : Steady fun engine => engine.state.Keyed ∧ Still first engine where
  keyed kept := kept.1
  frame frame kept := ⟨keyed_frame frame kept.1, kept.2.frame frame⟩
  mark kept _ _ moment := by
    obtain ⟨keyed, session, lastSession, navStart, config, candidates, day, members, lastEntry⟩ := kept
    exact ⟨keyed_mark keyed _ moment, session, lastSession, navStart, config, candidates, day, members, lastEntry⟩
  sell kept _ _ reason moment := by
    obtain ⟨keyed, session, lastSession, navStart, config, candidates, day, members, lastEntry⟩ := kept
    exact ⟨keyed_sell keyed _ _ _ _ _, session, lastSession, navStart, config, candidates, day, members, lastEntry⟩

theorem purchases_crossed {zone : Zone} {now : Int} {asked : Option Wait} {read : String → Reading}
    {crosses : List Cross} {engine : Engine} {entry : Engine × Cross × Purchase}
    (member : entry ∈ purchases zone now asked read crosses engine) : entry.2.1 ∈ crosses := by
  induction crosses generalizing engine with
  | nil => cases member
  | cons cross rest ih =>
    unfold purchases at member
    split at member
    · exact List.mem_cons_of_mem _ (ih member)
    · cases member
    · exact List.mem_cons_of_mem _ (ih member)
    · rcases List.mem_cons.mp member with rfl | later
      · exact List.mem_cons_self
      · exact List.mem_cons_of_mem _ (ih later)

theorem stepPurchases_known (zone : Zone) {engine : Engine} (keyed : engine.state.Keyed) {input : StepInput}
    {entry : Engine × Cross × Purchase} (member : entry ∈ engine.stepPurchases zone input) :
    engine.state.candidates.contains entry.2.1.symbol ∧ engine.members.contains entry.2.1.symbol := by
  unfold stepPurchases at member
  simp only at member
  split at member
  · have start : Still engine ((engine.stepExits zone input).stepShadows zone input) :=
      ((still_steady engine).stepStart input ⟨keyed, .refl engine⟩).2
    have known := (stepSignals_known zone _ input).2 _ (purchases_crossed member)
    rw [start.candidates, start.members] at known
    exact known
  · cases member

theorem step_still (zone : Zone) {engine : Engine} (keyed : engine.state.Keyed) (input : StepInput) :
    (engine.step zone input).state.Keyed ∧ Still engine (engine.step zone input) := by
  refine (still_steady engine).step input (fun entry _ kept _ _ _ => ?_) ⟨keyed, .refl engine⟩
  obtain ⟨named, session, lastSession, navStart, config, candidates, day, members, lastEntry⟩ := kept
  exact ⟨keyed_buy named _ _, session, lastSession, navStart, config, candidates, day, members, lastEntry⟩

end Sessions
end Engine
end C3po.Live
