import C3po.Live.Twins

/-! A restart of the session in progress from its checkpoint.

The universe may be rebuilt between two processes of one session. A carried name
stays a member for its exit, and a candidate no longer listed that was carried is
then traded again once sold: the process that carried it buys it, the one restarted
after the sale does not know it. Nothing else depends on the process.
-/

set_option autoImplicit false

namespace C3po.Live
open C3po.Library

/-- An act of the session at instants after the restart. -/
def Act.Continues (restart : Int) : Act → Prop
  | .step input => input.After restart
  | .fast pass => pass.After restart
  | _ => False

namespace Engine

/-- The engine a new process builds from the checkpoint. -/
def restarted (names : List Member) (engine : Engine) : Engine :=
  Engine.start (EngineState.fromJson engine.state.toJson) engine.day names

/-- The engines of a session in progress, since the process that runs them started on a checkpoint. -/
inductive InProgress (zone : Zone) (day : Int) (names : List Member) : Engine → Prop where
  | started {state : EngineState} : state.Keyed → InProgress zone day names (Engine.start state day names)
  | selected {engine : Engine} (opening : String → Option ℚ) : InProgress zone day names engine →
      InProgress zone day names (engine.setCandidates opening)
  | adopted {engine : Engine} (tapes : String → Option Tape) : InProgress zone day names engine →
      InProgress zone day names (engine.adoptOpening zone tapes)
  | stepped {engine : Engine} (input : StepInput) : InProgress zone day names engine →
      InProgress zone day names (engine.step zone input)
  | passed {engine : Engine} (pass : Pass) : InProgress zone day names engine →
      InProgress zone day names (engine.fastExits zone pass)

/-- Every mark of the exits was made by an instant. -/
def MarkedBy (restart : Int) (engine : Engine) : Prop :=
  ∀ symbol moment, engine.markedMoment.get? symbol = some moment → moment ≤ restart

/-- What the session publishes and decides on. -/
structure Same (kept resumed : Engine) : Prop where
  fills : resumed.state.fills = kept.state.fills
  candidates : resumed.state.candidates = kept.state.candidates
  below : resumed.state.below = kept.state.below
  positions : resumed.state.positions = kept.state.positions
  navStart : resumed.state.navStart = kept.state.navStart
  navRealized : resumed.state.navRealized = kept.state.navRealized
  document : ∀ now config, resumed.document now config = kept.document now config

/-- No continuation of the session tells the restarted engine from the one that never stopped. -/
def Transparent (zone : Zone) (names : List Member) (restart : Int) (engine : Engine) : Prop :=
  ∀ acts : List Act, (∀ act ∈ acts, act.Continues restart) →
    Same (engine.run zone acts) ((engine.restarted names).run zone acts)

/-- Every candidate the engine trades is listed by the universe or held. -/
def Restorable (names : List Member) (engine : Engine) : Prop :=
  ∀ symbol, engine.state.candidates.contains symbol → engine.members.contains symbol →
    (universeMembers names).contains symbol ∨ engine.state.positions.contains symbol

/-- No later instant is within the hours of the entries. -/
def EntriesOver (zone : Zone) (restart : Int) (engine : Engine) : Prop :=
  ∀ moment, restart < moment → engine.lastEntryNow < zone.time moment

section Members

theorem carried_get? (entries : List (String × Position)) (members : Dict String Member)
    (distinct : (entries.map Prod.fst).Nodup) (symbol : String) :
    (entries.foldl (fun members entry => if members.contains entry.1 then members
      else members.insert entry.1 ⟨entry.1, entry.2.market, 0⟩) members).get? symbol =
    (members.get? symbol).or ((Dict.find symbol entries).map fun position => ⟨symbol, position.market, 0⟩) := by
  induction entries generalizing members with
  | nil => simp [Dict.find]
  | cons entry rest ih =>
    obtain ⟨key, position⟩ := entry
    rw [List.foldl_cons, ih _ (List.nodup_cons.mp distinct).2]
    have absent : Dict.find key rest = none := by
      have unseen := mt Dict.find_isSome.mp (List.nodup_cons.mp distinct).1
      simpa using unseen
    by_cases here : key = symbol
    · subst here
      cases listed : members.get? key with
      | none => simp [Dict.contains, listed, Dict.find]
      | some member => simp [Dict.contains, listed]
    · cases listed : members.get? key with
      | none => simp [Dict.contains, listed, Dict.find, here, Ne.symm here]
      | some member => simp [Dict.contains, listed, Dict.find, here]

theorem sessionMembers_get? (names : List Member) (positions : Dict String Position) (symbol : String) :
    (sessionMembers names positions).get? symbol = ((universeMembers names).get? symbol).or
      ((positions.get? symbol).map fun position => ⟨symbol, position.market, 0⟩) :=
  carried_get? positions.entries (universeMembers names) positions.distinct symbol

end Members

section Sessions
variable {zone : Zone} {day : Int} {names : List Member}

structure InSession (names : List Member) (engine : Engine) : Prop where
  keyed : engine.state.Keyed
  session : engine.state.session = some engine.day
  lastEntry : engine.lastEntry = lastEntryOf engine.state.config
  listed : ∀ symbol member, (universeMembers names).get? symbol = some member →
    engine.members.get? symbol = some member
  carried : ∀ symbol member, (universeMembers names).get? symbol = none →
    engine.members.get? symbol = some member → member = ⟨symbol, member.market, 0⟩
  held : ∀ symbol position, engine.state.positions.get? symbol = some position →
    (universeMembers names).get? symbol = none →
      engine.members.get? symbol = some ⟨symbol, position.market, 0⟩

theorem start_inSession {state : EngineState} (keyed : state.Keyed) (day : Int) (names : List Member) :
    InSession names (Engine.start state day names) := by
  have opened : (Engine.start state day names).state.positions = state.positions := by
    unfold Engine.start
    simp only
    split <;> rfl
  have members : (Engine.start state day names).members = sessionMembers names state.positions := rfl
  refine ⟨fun symbol position held => keyed symbol position (opened ▸ held), ?_, rfl,
    fun symbol member listed => ?_, fun symbol member unlisted found => ?_,
    fun symbol position held unlisted => ?_⟩
  · unfold Engine.start
    simp only
    split
    · assumption
    · rfl
  · rw [members, sessionMembers_get?, listed]
    rfl
  · rw [members, sessionMembers_get?, unlisted, Option.none_or] at found
    obtain ⟨position, _, rfl⟩ := Option.map_eq_some_iff.mp found
    rfl
  · rw [members, sessionMembers_get?, unlisted, Option.none_or, ← opened, held]
    rfl

theorem inSession_steady (names : List Member) (first : Engine) :
    Steady fun engine => InSession names engine ∧ Still first engine where
  keyed kept := kept.1.keyed
  frame {before after} frame kept := by
    obtain ⟨inSession, still⟩ := kept
    refine ⟨⟨keyed_frame frame inSession.keyed, ?_, ?_, ?_, ?_, ?_⟩, still.frame frame⟩
    · rw [frame.session, frame.day, inSession.session]
    · rw [frame.lastEntry, frame.config, inSession.lastEntry]
    · rw [frame.members]
      exact inSession.listed
    · rw [frame.members]
      exact inSession.carried
    · rw [frame.members, frame.positions]
      exact inSession.held
  mark {engine position bid} kept held positive moment := by
    obtain ⟨inSession, still⟩ := kept
    refine ⟨⟨keyed_mark inSession.keyed _ moment, inSession.session, inSession.lastEntry,
      inSession.listed, inSession.carried, fun symbol other found unlisted => ?_⟩,
      ((still_steady first).mark ⟨inSession.keyed, still⟩ held positive moment).2⟩
    rcases mark_held found with ⟨rfl, rfl⟩ | old
    · have own := inSession.held position.symbol position held unlisted
      exact own
    · exact inSession.held symbol other old unlisted
  sell {engine position bid} kept held positive reason moment := by
    obtain ⟨inSession, still⟩ := kept
    exact ⟨⟨keyed_sell inSession.keyed _ _ _ _ _, inSession.session, inSession.lastEntry,
      inSession.listed, inSession.carried,
      fun symbol other found => inSession.held symbol other (sell_held found).2⟩,
      ((still_steady first).sell ⟨inSession.keyed, still⟩ held positive reason moment).2⟩

theorem InSession.buy {engine : Engine} (inSession : InSession names engine) {cross : Cross}
    (known : engine.members.contains cross.symbol) (purchase : Purchase) :
    InSession names (engine.buy cross purchase) := by
  refine ⟨keyed_buy inSession.keyed _ _, inSession.session, inSession.lastEntry, inSession.listed,
    inSession.carried, fun symbol position found unlisted => ?_⟩
  simp only [Engine.buy, Dict.get?_insert] at found
  split at found
  · rename_i same
    subst same
    cases found
    obtain ⟨member, listed⟩ := Option.isSome_iff_exists.mp known
    have own := inSession.carried _ member unlisted listed
    simp only [Engine.buy, listed, Option.map_some, Option.getD_some]
    exact congrArg some own
  · exact inSession.held symbol position found unlisted

theorem InSession.step {engine : Engine} (inSession : InSession names engine) (input : StepInput) :
    InSession names (engine.step zone input) := by
  refine ((inSession_steady names engine).step input (fun entry member kept unheld positive ordered => ?_)
    ⟨inSession, .refl engine⟩).1
  obtain ⟨now, still⟩ := kept
  have known := (stepPurchases_known zone inSession.keyed member).2
  refine ⟨now.buy (still.members ▸ known) entry.2.2, ?_⟩
  obtain ⟨session, lastSession, navStart, config, candidates, day, members, lastEntry⟩ := still
  exact ⟨session, lastSession, navStart, config, candidates, day, members, lastEntry⟩

theorem InSession.selected {before after : Engine} (inSession : InSession names before)
    (selected : Selected before after) : InSession names after := by
  refine ⟨fun symbol position held => inSession.keyed symbol position (selected.positions ▸ held),
    ?_, ?_, ?_, ?_, ?_⟩
  · rw [selected.session, selected.day, inSession.session]
  · rw [selected.lastEntry, selected.config, inSession.lastEntry]
  · rw [selected.members]
    exact inSession.listed
  · rw [selected.members]
    exact inSession.carried
  · rw [selected.members, selected.positions]
    exact inSession.held

theorem InProgress.inSession {engine : Engine} (running : InProgress zone day names engine) :
    InSession names engine := by
  induction running with
  | started keyed => exact start_inSession keyed day names
  | selected opening _ ih => exact ih.selected (setCandidates_selected _ opening)
  | adopted tapes _ ih => exact ih.selected (adoptOpening_selected zone _ tapes)
  | stepped input _ ih => exact ih.step input
  | passed pass _ ih =>
    exact ((inSession_steady names _).fastExits pass ⟨ih, .refl _⟩).1

end Sessions

section Restarts
variable {zone : Zone} {names : List Member} {restart : Int} {engine : Engine}

theorem restarted_eq (inSession : InSession names engine) : engine.restarted names =
    { state := engine.state, day := engine.day, members := sessionMembers names engine.state.positions
      markedMoment := Dict.empty, lastEntry := engine.lastEntry } := by
  unfold restarted Engine.start
  rw [fromJson_toJson inSession.keyed]
  simp only [inSession.session, if_true, inSession.lastEntry]

theorem restarted_members (inSession : InSession names engine) (restorable : Restorable names engine)
    {symbol : String} (candidate : engine.state.candidates.contains symbol) :
    (engine.restarted names).members.get? symbol = engine.members.get? symbol := by
  rw [restarted_eq inSession]
  simp only [sessionMembers_get?]
  cases listed : (universeMembers names).get? symbol with
  | some member =>
    rw [inSession.listed symbol member listed]
    rfl
  | none =>
    rw [Option.none_or]
    cases held : engine.state.positions.get? symbol with
    | some position =>
      rw [inSession.held symbol position held listed]
      rfl
    | none =>
      cases found : engine.members.get? symbol with
      | none => rfl
      | some member =>
        exfalso
        rcases restorable symbol candidate (by simp [Dict.contains, found]) with inNames | isHeld
        · simp [Dict.contains, listed] at inNames
        · simp [Dict.contains, held] at isHeld

theorem restarted_paired (inSession : InSession names engine)
    (known : EntriesOver zone restart engine ∨ Restorable names engine) :
    Paired zone restart engine (engine.restarted names) := by
  refine ⟨?_, ?_, ?_, fun entryHours symbol candidate => ?_⟩
  · rw [restarted_eq inSession]
  · rw [restarted_eq inSession]
  · rw [restarted_eq inSession]
  · rcases known with ended | restorable
    · obtain ⟨moment, later, open_⟩ := entryHours
      exact absurd open_ (not_le.mpr (ended moment later))
    · exact restarted_members inSession restorable candidate

theorem restarted_recalls (inSession : InSession names engine) (marked : engine.MarkedBy restart) :
    Recalls restart engine.markedMoment (engine.restarted names).markedMoment := by
  intro symbol
  rw [restarted_eq inSession]
  cases was : engine.markedMoment.get? symbol with
  | none => exact .inl rfl
  | some moment => exact .inr ⟨rfl, moment, marked symbol moment was, rfl⟩

theorem Paired.same {kept resumed : Engine} (paired : Paired zone restart kept resumed) :
    Same kept resumed := by
  obtain ⟨state, day, _, _⟩ := paired
  refine ⟨by rw [state], by rw [state], by rw [state], by rw [state], by rw [state], by rw [state],
    fun now config => ?_⟩
  unfold Engine.document
  rw [state, day]

theorem Paired.act {kept resumed : Engine} {act : Act} (later : act.Continues restart)
    (paired : Paired zone restart kept resumed) (keyed : kept.state.Keyed)
    (recalled : Recalls restart kept.markedMoment resumed.markedMoment) :
    Paired zone restart (kept.act zone act) (resumed.act zone act) ∧ (kept.act zone act).state.Keyed ∧
      Recalls restart (kept.act zone act).markedMoment (resumed.act zone act).markedMoment := by
  cases act with
  | start day names => exact later.elim
  | candidates opening => exact later.elim
  | adopt tapes => exact later.elim
  | close => exact later.elim
  | step input =>
    obtain ⟨step, recalls⟩ := paired.step later keyed recalled
    exact ⟨step, (step_still zone keyed input).1, recalls⟩
  | fast pass =>
    have twin := paired.twin.fastExits later
    exact ⟨twin.toPaired, ((still_steady kept).fastExits pass ⟨keyed, .refl kept⟩).1, twin.recalls recalled⟩

theorem Paired.run (acts : List Act) (later : ∀ act ∈ acts, act.Continues restart) {kept resumed : Engine}
    (paired : Paired zone restart kept resumed) (keyed : kept.state.Keyed)
    (recalled : Recalls restart kept.markedMoment resumed.markedMoment) :
    Paired zone restart (kept.run zone acts) (resumed.run zone acts) := by
  induction acts generalizing kept resumed with
  | nil => exact paired
  | cons act rest ih =>
    obtain ⟨next, named, recalls⟩ := paired.act (later act List.mem_cons_self) keyed recalled
    exact ih (fun other member => later other (List.mem_cons_of_mem _ member)) next named recalls

/-- A step in which one name trades, and nothing else is read. -/
def probe (moment : Int) (symbol : String) (close vwap : ℚ) : StepInput :=
  { quietStep moment with signal := signalOf symbol close vwap }

theorem settle_quiet (now : Int) (before : Dict String Int) (symbols : List String) (engine : Engine) :
    settle zone now (fun _ => none) (fun _ => {}) before symbols engine = engine := by
  induction symbols with
  | nil => rfl
  | cons symbol rest ih =>
    unfold Engine.settle
    split
    · exact ih
    · simp only
      split
      · exact ih
      · split
        · rfl
        · exact ih

theorem probe_exits (moment : Int) (symbol : String) (close vwap : ℚ) (engine : Engine) :
    engine.stepExits zone (probe moment symbol close vwap) = engine := by
  unfold Engine.stepExits Engine.stepPushed
  exact settle_quiet ..

theorem probe_shadows (moment : Int) (symbol : String) (close vwap : ℚ) (engine : Engine) :
    engine.stepShadows zone (probe moment symbol close vwap) = engine := by
  have still : ∀ (symbols : List String) (state : EngineState),
      symbols.foldl (EngineState.shadowExit (late zone moment) moment fun _ => {}) state = state := by
    intro symbols
    induction symbols with
    | nil => exact fun _ => rfl
    | cons name rest ih =>
      intro state
      have same : state.shadowExit (late zone moment) moment (fun _ => {}) name = state := by
        unfold EngineState.shadowExit
        split
        · rename_i price _
          cases price
        · rfl
      rw [List.foldl_cons, same, ih]
  have same : engine.state.shadowExits (late zone moment) moment (fun _ => {}) none = engine.state := still _ _
  unfold Engine.stepShadows
  exact congrArg (fun state => { engine with state := state }) same

theorem enter_quiet (now : Int) (crosses : List Cross) (engine : Engine) :
    enter zone now none (fun _ => {}) crosses engine = engine := by
  induction crosses with
  | nil => rfl
  | cons cross rest ih =>
    have skipped : engine.verdict zone now none (fun _ => {}) cross = .skip := by
      unfold Engine.verdict
      split
      · rfl
      · rfl
    unfold Engine.enter
    rw [skipped]
    exact ih

theorem probe_step {moment : Int} (entryHours : zone.time moment ≤ engine.lastEntryNow) (symbol : String)
    (close vwap : ℚ) : engine.step zone (probe moment symbol close vwap) =
      (engine.stepSignals zone (probe moment symbol close vwap)).1 := by
  have open_ : zone.time (probe moment symbol close vwap).now ≤ engine.lastEntryNow := entryHours
  unfold Engine.step
  rw [probe_exits, probe_shadows]
  unfold Engine.stepEntries
  rw [if_pos open_]
  exact enter_quiet ..

theorem watch_silent {signal : String → Option (ℚ × ℚ)} (candidates : List (String × ℚ))
    (silent : ∀ candidate ∈ candidates, signal candidate.1 = none) (seen : Engine × List Cross) :
    candidates.foldl (watch signal) seen = seen := by
  induction candidates with
  | nil => rfl
  | cons candidate rest ih =>
    have same : watch signal seen candidate = seen := by
      have none := silent candidate List.mem_cons_self
      obtain ⟨engine, crosses⟩ := seen
      obtain ⟨symbol, gap⟩ := candidate
      unfold watch
      simp only at none ⊢
      rw [none]
      split <;> rfl
    rw [List.foldl_cons, same]
    exact ih fun other member => silent other (List.mem_cons_of_mem _ member)

theorem probe_signals {moment : Int} {symbol : String} {gap : ℚ} (close vwap : ℚ)
    (candidate : engine.state.candidates.get? symbol = some gap) :
    engine.stepSignals zone (probe moment symbol close vwap) =
      watch (signalOf symbol close vwap) ({ engine with state := { engine.state with
        lastSignalMinute := zone.time moment / (60 * second) } }, []) (symbol, gap) := by
  obtain ⟨front, back, whole⟩ := List.append_of_mem (Dict.mem_entries.mpr candidate)
  have distinct := engine.state.candidates.distinct
  rw [whole, List.map_append, List.map_cons] at distinct
  obtain ⟨_, later, apart⟩ := List.nodup_append.mp distinct
  have other : ∀ name, name ≠ symbol → signalOf symbol close vwap name = none := fun name apart =>
    if_neg apart
  unfold stepSignals
  simp only [whole, List.foldl_append, List.foldl_cons]
  have before : front.foldl (watch (signalOf symbol close vwap)) ({ engine with state := { engine.state with
      lastSignalMinute := zone.time moment / (60 * second) } }, []) = ({ engine with
        state := { engine.state with lastSignalMinute := zone.time moment / (60 * second) } }, []) :=
    watch_silent _ (fun entry member => other _
      (apart _ (List.mem_map_of_mem member) _ List.mem_cons_self)) _
  have after : ∀ seen, back.foldl (watch (signalOf symbol close vwap)) seen = seen :=
    watch_silent _ fun entry member => other _ fun same =>
      (List.nodup_cons.mp later).1 (List.mem_map.mpr ⟨entry, member, same⟩)
  exact (after _).trans (congrArg (watch (signalOf symbol close vwap) · (symbol, gap)) before)

/-- A candidate that one engine trades and the other does not tells them apart: a dip flags it in
one alone, a cross takes the flag off in one alone. -/
theorem watch_told {kept resumed : Engine} {symbol : String} (gap : ℚ) (crosses others : List Cross)
    (state : resumed.state.below = kept.state.below) (known : kept.members.contains symbol)
    (unknown : resumed.members.contains symbol = false) : ∃ close vwap,
      (watch (signalOf symbol close vwap) (resumed, others) (symbol, gap)).1.state.below ≠
        (watch (signalOf symbol close vwap) (kept, crosses) (symbol, gap)).1.state.below := by
  have unmoved : ∀ close vwap,
      watch (signalOf symbol close vwap) (resumed, others) (symbol, gap) = (resumed, others) := by
    intro close vwap
    unfold watch
    simp [unknown]
  cases flag : kept.state.below.getD symbol false with
  | false =>
    refine ⟨1, 2, fun same => ?_⟩
    rw [unmoved, state] at same
    have dipped := congrArg (Dict.getD · symbol false) same
    simp [watch, known, signalOf, flag] at dipped
  | true =>
    refine ⟨2, 1, fun same => ?_⟩
    rw [unmoved, state] at same
    have crossed := congrArg (Dict.getD · symbol false) same
    simp [watch, known, signalOf, flag] at crossed

theorem restart_told (inSession : InSession names engine) {moment : Int}
    (entryHours : zone.time moment ≤ engine.lastEntryNow) {symbol : String}
    (candidate : engine.state.candidates.contains symbol) (known : engine.members.contains symbol)
    (unlisted : (universeMembers names).contains symbol = false)
    (unheld : engine.state.positions.contains symbol = false) : ∃ close vwap,
      ¬ Same (engine.step zone (probe moment symbol close vwap))
        ((engine.restarted names).step zone (probe moment symbol close vwap)) := by
  have unknown : (engine.restarted names).members.contains symbol = false := by
    rw [restarted_eq inSession]
    simp only [Dict.contains, Option.isSome_eq_false_iff, Option.isNone_iff_eq_none] at unlisted unheld ⊢
    rw [sessionMembers_get?, unlisted, unheld]
    rfl
  obtain ⟨gap, found⟩ := Option.isSome_iff_exists.mp candidate
  have state : (engine.restarted names).state = engine.state := by rw [restarted_eq inSession]
  have hours : zone.time moment ≤ (engine.restarted names).lastEntryNow := by
    rw [restarted_eq inSession]
    exact entryHours
  obtain ⟨close, vwap, told⟩ := @watch_told
    { engine with state := { engine.state with lastSignalMinute := zone.time moment / (60 * second) } }
    { engine.restarted names with state := { (engine.restarted names).state with
      lastSignalMinute := zone.time moment / (60 * second) } } symbol gap [] [] (by rw [state]) known unknown
  refine ⟨close, vwap, fun same => told ?_⟩
  have below := same.below
  rw [probe_step entryHours, probe_step hours, probe_signals close vwap found,
    probe_signals close vwap (state ▸ found)] at below
  exact below

end Restarts

section OneUniverse
variable {zone : Zone} {day : Int} {names : List Member} {restart : Int} {engine : Engine}

end OneUniverse

/-- A restart from the checkpoint is transparent exactly when every candidate the engine trades is
listed by the universe or held, or the hours of the entries are over. -/
theorem restart_transparent_iff (zone : Zone) (day : Int) (names : List Member) {engine : Engine}
    (running : InProgress zone day names engine) {restart : Int} (marked : engine.MarkedBy restart) :
    engine.Transparent zone names restart ↔
      EntriesOver zone restart engine ∨ Restorable names engine := by
  have inSession := running.inSession
  constructor
  · intro transparent
    by_contra neither
    obtain ⟨open_, forgotten⟩ := not_or.mp neither
    unfold EntriesOver at open_
    unfold Restorable at forgotten
    push Not at open_ forgotten
    obtain ⟨moment, later, entryHours⟩ := open_
    obtain ⟨symbol, candidate, known, unlisted, unheld⟩ := forgotten
    obtain ⟨close, vwap, told⟩ := restart_told inSession entryHours candidate known
      (by simpa using unlisted) (by simpa using unheld)
    refine told (transparent [.step (probe moment symbol close vwap)] fun act member => ?_)
    rw [List.mem_singleton.mp member]
    exact ⟨later, fun _ asked => (by cases asked), fun _ asked => (by cases asked)⟩
  · intro known acts later
    exact (Paired.run acts later (restarted_paired inSession known) inSession.keyed
      (restarted_recalls inSession marked)).same

section Examples

def cashBook : EngineState where
  navRealized := 1000
  lastSession := some (friday - 1)

def listedName (symbol : String) : List Member := [⟨symbol, "NYSE", 100⟩]

/-- The dip and the cross of Z, bought at a one-basis-point spread. -/
def dipAndCross (dip cross : Int) : List Act :=
  [.step (probe dip "Z" 97 98),
    .step { probe cross "Z" 99 98 with
      entries := some ⟨[], quoteOnly "Z" ⟨9899 / 100, 99, cross⟩⟩ }]

def firstProcess : Engine := (Engine.start cashBook friday (listedName "Z")).run eastern
  (.candidates (fun symbol => if symbol = "Z" then some 98 else none) ::
    dipAndCross (fridayAt 10 0 1) (fridayAt 10 0 2))

/-- The second, on a universe without Z, sells it by its stop. -/
def secondProcess : Engine :=
  (Engine.start (EngineState.fromJson firstProcess.state.toJson) friday (listedName "Y")).fastExits eastern
    ⟨fridayAt 10 1 0, fun symbol => { quote := quoteOnly "Z" ⟨98, 9801 / 100, fridayAt 10 1 0⟩ symbol }⟩

theorem secondProcess_running : InProgress eastern friday (listedName "Y") secondProcess := by
  have keyed : ∀ entry ∈ (EngineState.fromJson firstProcess.state.toJson).positions.entries,
      entry.2.symbol = entry.1 := by decide +kernel
  exact .passed _ (.started fun symbol position held => keyed _ (Dict.mem_entries.mpr held))

theorem secondProcess_marked : secondProcess.MarkedBy (fridayAt 10 1 0) := by
  have unmarked : secondProcess.markedMoment = Dict.empty := by decide +kernel
  intro symbol moment found
  rw [unmarked] at found
  cases found

/-- The process that carried Z buys it again; the one restarted after the sale does not. -/
theorem restart_forgets_carried : InProgress eastern friday (listedName "Y") secondProcess ∧
    secondProcess.MarkedBy (fridayAt 10 1 0) ∧
      ¬ secondProcess.Transparent eastern (listedName "Y") (fridayAt 10 1 0) := by
  refine ⟨secondProcess_running, secondProcess_marked, fun transparent => ?_⟩
  have same := transparent (dipAndCross (fridayAt 10 2 0) (fridayAt 10 2 1)) fun act member => by
    rcases List.mem_cons.mp member with rfl | member
    · exact ⟨by decide +kernel, fun _ asked => (nomatch asked), fun _ asked => (nomatch asked)⟩
    · rw [List.mem_singleton.mp member]
      refine ⟨by decide +kernel, fun _ asked => (nomatch asked), fun wait asked pass passed => ?_⟩
      cases asked
      cases passed
  have lengths := congrArg List.length same.fills
  revert lengths
  decide +kernel

theorem restart_transparent_iff_carried :
    secondProcess.Transparent eastern (listedName "Y") (fridayAt 10 1 0) ↔
      EntriesOver eastern (fridayAt 10 1 0) secondProcess ∨ Restorable (listedName "Y") secondProcess :=
  restart_transparent_iff eastern friday (listedName "Y") secondProcess_running secondProcess_marked

end Examples
end Engine
end C3po.Live
