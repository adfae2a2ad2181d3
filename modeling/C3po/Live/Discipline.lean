import Mathlib.Data.List.Induction
import C3po.Live.Conservation

/-! What licenses a purchase of a session.

A purchase stands on a check that saw its name under its VWAP since the name last
traded. The dip flag carries that check through the session: a cross takes the flag
down before the wait, a sale of any pass takes it down, and only a later check raises
it. `saw` stands for the checks of the run, each with the fills there were then.
-/

set_option autoImplicit false

namespace C3po.Live
open C3po.Library

/-- A check saw the name, and none of the fills after it are the name's. -/
def Since (saw : String → List Fill → Prop) (fills : List Fill) (symbol : String) : Prop :=
  ∃ old new, fills = old ++ new ∧ saw symbol old ∧ ∀ fill ∈ new, fill.symbol ≠ symbol

section Since
variable {saw : String → List Fill → Prop} {fills : List Fill} {symbol : String}

theorem Since.now (seen : saw symbol fills) : Since saw fills symbol :=
  ⟨fills, [], (List.append_nil fills).symm, seen, by simp⟩

theorem Since.snoc (since : Since saw fills symbol) {fill : Fill} (apart : fill.symbol ≠ symbol) :
    Since saw (fills ++ [fill]) symbol := by
  obtain ⟨old, new, rfl, seen, clear⟩ := since
  refine ⟨old, new ++ [fill], List.append_assoc .., seen, ?_⟩
  intro other member
  rcases List.mem_append.mp member with early | last
  · exact clear other early
  · rw [List.mem_singleton.mp last]
    exact apart

theorem Since.mono {more : String → List Fill → Prop} (le : ∀ symbol old, saw symbol old → more symbol old)
    (since : Since saw fills symbol) : Since more fills symbol := by
  obtain ⟨old, new, split, seen, clear⟩ := since
  exact ⟨old, new, split, le symbol old seen, clear⟩

end Since

/-- The purchases among some fills. -/
def boughtCount (fills : List Fill) : ℕ := fills.countP fun fill => fill.side = .buy

/-- What a purchase has: a fixed candidate, in time, dipped since it last traded. -/
structure Licensed (zone : Zone) (saw : String → List Fill → Prop) (engine : Engine) (front : List Fill) (fill : Fill) :
    Prop where
  candidate : engine.state.candidates.contains fill.symbol = true
  stamped : zone.time fill.executedAt ≤ engine.lastEntry
  dipped : Since saw front fill.symbol

/-- The discipline of a session, with the crosses it has still to buy. -/
structure Discipline (zone : Zone) (opening : EngineState) (saw : String → List Fill → Prop)
    (crosses : List Engine.Cross) (engine : Engine) : Prop where
  keyed : engine.state.Keyed
  free : engine.Free crosses
  replayed : Lot.replay opening.held (engine.state.fills.map Fill.lot) = some engine.state.held
  slots : engine.state.positions.size ≤ max rule.slots opening.positions.size
  counted : boughtCount engine.state.fills + crosses.length ≤ engine.state.signals
  below : ∀ symbol, engine.state.below.getD symbol false = true → Since saw engine.state.fills symbol
  crossed : ∀ cross ∈ crosses, engine.state.below.getD cross.symbol false = false ∧
    engine.state.candidates.contains cross.symbol = true ∧ Since saw engine.state.fills cross.symbol
  licensed : ∀ front fill back, engine.state.fills = front ++ fill :: back → fill.side = .buy →
    Licensed zone saw engine front fill
  fixed : ∀ symbol, engine.state.candidates.contains symbol = true → engine.state.candidatesFixed = true
  lastEntry : engine.lastEntry = lastEntryOf engine.state.config

/-- Nothing of the discipline moves. -/
structure Idle (before after : Engine) : Prop where
  positions : after.state.positions = before.state.positions
  fills : after.state.fills = before.state.fills
  signals : after.state.signals = before.state.signals
  below : after.state.below = before.state.below
  candidates : after.state.candidates = before.state.candidates
  candidatesFixed : after.state.candidatesFixed = before.state.candidatesFixed
  config : after.state.config = before.state.config
  lastEntry : after.lastEntry = before.lastEntry

section Keeps
variable {zone : Zone} {opening : EngineState} {saw : String → List Fill → Prop} {crosses rest : List Engine.Cross}
  {cross : Engine.Cross} {engine after : Engine}

theorem Licensed.idle {front : List Fill} {fill : Fill} (licensed : Licensed zone saw engine front fill)
    (candidates : after.state.candidates = engine.state.candidates)
    (lastEntry : after.lastEntry = engine.lastEntry) : Licensed zone saw after front fill :=
  ⟨candidates ▸ licensed.candidate, lastEntry ▸ licensed.stamped, licensed.dipped⟩

theorem Discipline.idle (kept : Discipline zone opening saw crosses engine) (idle : Idle engine after) :
    Discipline zone opening saw crosses after where
  keyed symbol position held := kept.keyed symbol position (idle.positions ▸ held)
  free := ⟨kept.free.distinct, fun cross member => by rw [idle.positions]; exact kept.free.unheld cross member⟩
  replayed := by
    have held : after.state.held = engine.state.held := by
      unfold EngineState.held
      rw [idle.positions]
    rw [idle.fills, held]
    exact kept.replayed
  slots := idle.positions ▸ kept.slots
  counted := by
    rw [idle.fills, idle.signals]
    exact kept.counted
  below symbol := by
    rw [idle.below, idle.fills]
    exact kept.below symbol
  crossed cross member := by
    rw [idle.below, idle.fills, idle.candidates]
    exact kept.crossed cross member
  licensed front fill back split side :=
    (kept.licensed front fill back (idle.fills ▸ split) side).idle idle.candidates idle.lastEntry
  fixed symbol := by
    rw [idle.candidates, idle.candidatesFixed]
    exact kept.fixed symbol
  lastEntry := by
    rw [idle.lastEntry, idle.config]
    exact kept.lastEntry

theorem Discipline.tail (kept : Discipline zone opening saw (cross :: rest) engine) :
    Discipline zone opening saw rest engine := by
  refine { kept with free := kept.free.tail, counted := ?_, crossed := fun other member => ?_ }
  · have counted := kept.counted
    rw [List.length_cons] at counted
    omega
  · exact kept.crossed other (List.mem_cons_of_mem _ member)

theorem Discipline.drop (kept : Discipline zone opening saw crosses engine) :
    Discipline zone opening saw [] engine := by
  induction crosses with
  | nil => exact kept
  | cons cross rest ih => exact ih kept.tail

theorem Discipline.mono {more : String → List Fill → Prop} (le : ∀ symbol old, saw symbol old → more symbol old)
    (kept : Discipline zone opening saw crosses engine) : Discipline zone opening more crosses engine where
  keyed := kept.keyed
  free := kept.free
  replayed := kept.replayed
  slots := kept.slots
  counted := kept.counted
  below symbol down := (kept.below symbol down).mono le
  crossed cross member := by
    obtain ⟨taken, candidate, since⟩ := kept.crossed cross member
    exact ⟨taken, candidate, since.mono le⟩
  licensed front fill back split side := by
    obtain ⟨candidate, stamped, dipped⟩ := kept.licensed front fill back split side
    exact ⟨candidate, stamped, dipped.mono le⟩
  fixed := kept.fixed
  lastEntry := kept.lastEntry

theorem Discipline.mark (kept : Discipline zone opening saw crosses engine) {position : Position} {bid : ℚ}
    (held : engine.state.positions.get? position.symbol = some position) (moment : Int) :
    Discipline zone opening saw crosses (engine.mark (position.marked bid) moment) := by
  refine { kept with keyed := Engine.keyed_mark kept.keyed _ moment, free := ?_, replayed := ?_, slots := ?_,
                     licensed := ?_ }
  · refine ⟨kept.free.distinct, fun cross member => ?_⟩
    have unheld := kept.free.unheld cross member
    have apart : cross.symbol ≠ position.symbol := by
      intro same
      rw [same, held] at unheld
      cases unheld
    simp only [Engine.mark, Dict.get?_insert]
    rw [if_neg (show cross.symbol ≠ (position.marked bid).symbol from apart)]
    exact unheld
  · rw [held_mark held]
    exact kept.replayed
  · have same : (engine.mark (position.marked bid) moment).state.positions.size =
        engine.state.positions.size := Dict.size_insert held
    rw [same]
    exact kept.slots
  · intro front fill back split side
    exact (kept.licensed front fill back split side).idle rfl rfl

theorem Discipline.sell (kept : Discipline zone opening saw crosses engine) {position : Position}
    (held : engine.state.positions.get? position.symbol = some position) (bid net : ℚ) (reason : ExitReason)
    (moment : Int) : Discipline zone opening saw crosses (engine.sell position bid net reason moment) := by
  have apart : ∀ cross ∈ crosses, cross.symbol ≠ position.symbol := by
    intro cross member same
    have unheld := kept.free.unheld cross member
    rw [same, held] at unheld
    cases unheld
  refine { keyed := Engine.keyed_sell kept.keyed _ _ _ _ _, free := ?_, replayed := ?_, slots := ?_,
           counted := ?_, below := ?_, crossed := ?_, licensed := ?_, fixed := kept.fixed,
           lastEntry := kept.lastEntry }
  · refine ⟨kept.free.distinct, fun cross member => ?_⟩
    simp only [Engine.sell, Dict.get?_erase]
    rw [if_neg (apart cross member)]
    exact kept.free.unheld cross member
  · simp only [Engine.sell, List.map_append, List.map_cons, List.map_nil]
    exact Lot.replay_snoc kept.replayed (held_sell held bid net reason moment)
  · exact (Dict.size_erase_le held).trans kept.slots
  · have counted := kept.counted
    simp only [Engine.sell, boughtCount, List.countP_append] at counted ⊢
    simpa using counted
  · intro symbol down
    simp only [Engine.sell, Dict.getD_insert] at down
    split at down
    · cases down
    · rename_i other
      exact (kept.below symbol down).snoc fun same => other same.symm
  · intro cross member
    obtain ⟨taken, candidate, since⟩ := kept.crossed cross member
    refine ⟨?_, candidate, since.snoc fun same => apart cross member same.symm⟩
    simp only [Engine.sell, Dict.getD_insert]
    rw [if_neg (apart cross member)]
    exact taken
  · intro front fill back split side
    rcases snoc_split split with ⟨_, rfl, _⟩ | ⟨earlier, old, _⟩
    · cases side
    · exact (kept.licensed front fill earlier old side).idle rfl rfl

theorem Discipline.buy (kept : Discipline zone opening saw (cross :: rest) engine) {purchase : Engine.Purchase}
    (slots : engine.state.positions.size < rule.slots) (stamped : zone.time purchase.moment ≤ engine.lastEntry) :
    Discipline zone opening saw rest (engine.buy cross purchase) := by
  have unheld := kept.free.unheld cross List.mem_cons_self
  obtain ⟨taken, candidate, dipped⟩ := kept.crossed cross List.mem_cons_self
  have apart : ∀ other ∈ rest, cross.symbol ≠ other.symbol := by
    intro other member same
    exact (List.nodup_cons.mp kept.free.distinct).1 (List.mem_map.mpr ⟨other, member, same.symm⟩)
  refine { keyed := Engine.keyed_buy kept.keyed _ _, free := kept.free.buy _, replayed := ?_, slots := ?_,
           counted := ?_, below := ?_, crossed := ?_, licensed := ?_, fixed := kept.fixed,
           lastEntry := kept.lastEntry }
  · simp only [Engine.buy, List.map_append, List.map_cons, List.map_nil]
    exact Lot.replay_snoc kept.replayed (held_buy unheld purchase)
  · have more : (engine.buy cross purchase).state.positions.size = engine.state.positions.size + 1 :=
      Dict.size_insert_new unheld
    rw [more]
    exact (Nat.succ_le_of_lt slots).trans (le_max_left _ _)
  · have counted := kept.counted
    simp only [Engine.buy, boughtCount, List.countP_append, List.length_cons] at counted ⊢
    simp only [List.countP_singleton, decide_true, if_true]
    omega
  · intro symbol down
    refine (kept.below symbol down).snoc fun same => ?_
    rw [← show cross.symbol = symbol from same] at down
    rw [show (engine.buy cross purchase).state.below = engine.state.below from rfl, taken] at down
    cases down
  · intro other member
    obtain ⟨free, listed, since⟩ := kept.crossed other (List.mem_cons_of_mem _ member)
    exact ⟨free, listed, since.snoc (apart other member)⟩
  · intro front fill back split side
    rcases snoc_split split with ⟨rfl, rfl, _⟩ | ⟨earlier, old, _⟩
    · exact ⟨candidate, stamped, dipped⟩
    · exact (kept.licensed front fill earlier old side).idle rfl rfl

theorem Discipline.watch (kept : Discipline zone opening saw crosses engine) (signal : String → Option (ℚ × ℚ))
    {candidate : String × ℚ} (listed : engine.state.candidates.contains candidate.1 = true)
    (fresh : ∀ cross ∈ crosses, cross.symbol ≠ candidate.1)
    (seen : ∀ close vwap, engine.members.contains candidate.1 = true →
      signal candidate.1 = some (close, vwap) → close < vwap → saw candidate.1 engine.state.fills)
    (watched : (Engine.watch signal (engine, crosses) candidate).1.Free
      (Engine.watch signal (engine, crosses) candidate).2) :
    Discipline zone opening saw (Engine.watch signal (engine, crosses) candidate).2
      (Engine.watch signal (engine, crosses) candidate).1 := by
  obtain ⟨symbol, gap⟩ := candidate
  unfold Engine.watch at watched ⊢
  simp only at listed fresh seen watched ⊢
  split
  · exact kept
  · rename_i member
    simp only [member, Bool.false_eq_true, if_false] at watched
    split
    · exact kept
    · rename_i close vwap live
      simp only [live] at watched
      split_ifs at watched ⊢ with dip flat held
      · -- the dip
        refine { kept with free := ⟨kept.free.distinct, kept.free.unheld⟩, below := fun other down => ?_,
                           crossed := fun cross member => ?_, licensed := fun front fill back split side => ?_ }
        · simp only [Dict.getD_insert] at down
          split at down
          · rename_i same
            subst same
            exact Since.now (seen close vwap (by simpa using member) live dip)
          · exact kept.below other down
        · obtain ⟨taken, rest⟩ := kept.crossed cross member
          refine ⟨?_, rest⟩
          simp only [Dict.getD_insert]
          rw [if_neg (fresh cross member)]
          exact taken
        · exact (kept.licensed front fill back split side).idle rfl rfl
      · exact kept
      · -- a held name's cross is counted
        refine { kept with free := ⟨kept.free.distinct, kept.free.unheld⟩, counted := ?_,
                           below := fun other down => ?_, crossed := fun cross member => ?_,
                           licensed := fun front fill back split side => ?_ }
        · exact kept.counted.trans (Nat.le_succ _)
        · simp only [Dict.getD_insert] at down
          split at down
          · cases down
          · exact kept.below other down
        · obtain ⟨taken, rest⟩ := kept.crossed cross member
          refine ⟨?_, rest⟩
          simp only [Dict.getD_insert]
          rw [if_neg (fresh cross member)]
          exact taken
        · exact (kept.licensed front fill back split side).idle rfl rfl
      · -- a cross to buy
        have raised : engine.state.below.getD symbol false = true := by
          simpa using fun down => flat (.inr down)
        refine { kept with free := watched, counted := ?_, below := fun other down => ?_,
                           crossed := fun cross member => ?_,
                           licensed := fun front fill back split side => ?_ }
        · have counted := kept.counted
          rw [List.length_append, List.length_singleton]
          simp only
          omega
        · simp only [Dict.getD_insert] at down
          split at down
          · cases down
          · exact kept.below other down
        · simp only [Dict.getD_insert]
          rcases List.mem_append.mp member with old | new
          · obtain ⟨taken, rest⟩ := kept.crossed cross old
            rw [if_neg (fresh cross old)]
            exact ⟨taken, rest⟩
          · rw [List.mem_singleton.mp new, if_pos rfl]
            exact ⟨rfl, listed, kept.below symbol raised⟩
        · exact (kept.licensed front fill back split side).idle rfl rfl

theorem Discipline.chosen (kept : Discipline zone opening saw crosses engine) {chosen : Dict String ℚ}
    (grows : ∀ symbol, engine.state.candidates.contains symbol = true → chosen.contains symbol = true) :
    Discipline zone opening saw crosses { engine with
      state := { engine.state with candidatesFixed := true, candidates := chosen } } := by
  refine { kept with free := ⟨kept.free.distinct, kept.free.unheld⟩, fixed := fun _ _ => rfl,
                     crossed := fun cross member => ?_, licensed := fun front fill back split side => ?_ }
  · obtain ⟨taken, listed, since⟩ := kept.crossed cross member
    exact ⟨taken, grows _ listed, since⟩
  · obtain ⟨candidate, stamped, dipped⟩ := kept.licensed front fill back split side
    exact ⟨grows _ candidate, stamped, dipped⟩

end Keeps

section Shadows

def OnlyShadows (before after : EngineState) : Prop :=
  ∃ shadow bands, after = { before with shadow := shadow, bands := bands }

variable {first second third : EngineState}

theorem OnlyShadows.trans (early : OnlyShadows first second) (late : OnlyShadows second third) :
    OnlyShadows first third := by
  obtain ⟨_, _, rfl⟩ := early
  obtain ⟨shadow, bands, rfl⟩ := late
  exact ⟨shadow, bands, rfl⟩

theorem shadowExit_only (late : Bool) (now : Int) (view : String → MarketView) (state : EngineState)
    (symbol : String) : OnlyShadows state (state.shadowExit late now view symbol) := by
  unfold EngineState.shadowExit
  split
  · simp only
    split_ifs
    · exact ⟨_, _, rfl⟩
    · exact ⟨_, _, rfl⟩
    · exact ⟨_, _, rfl⟩
  · exact ⟨_, _, rfl⟩

theorem shadowExits_only (state : EngineState) (late : Bool) (now : Int) (view : String → MarketView)
    (fault : Option ℕ) : OnlyShadows state (state.shadowExits late now view fault) := by
  have folded : ∀ (symbols : List String) (start : EngineState),
      OnlyShadows start (symbols.foldl (EngineState.shadowExit late now view) start) := by
    intro symbols
    induction symbols with
    | nil => exact fun start => ⟨_, _, rfl⟩
    | cons symbol rest ih => exact fun start => (shadowExit_only late now view start symbol).trans (ih _)
  unfold EngineState.shadowExits
  simp only
  split
  · exact folded _ state
  · exact (folded _ state).trans ⟨_, _, rfl⟩

theorem OnlyShadows.idle {engine : Engine} {state : EngineState} (only : OnlyShadows engine.state state) :
    Idle engine { engine with state := state } := by
  obtain ⟨_, _, rfl⟩ := only
  exact ⟨rfl, rfl, rfl, rfl, rfl, rfl, rfl, rfl⟩

end Shadows

section Steps
variable {zone : Zone} {opening : EngineState} {saw : String → List Fill → Prop} {engine : Engine}

theorem discipline_selling (zone : Zone) (opening : EngineState) (saw : String → List Fill → Prop)
    (crosses : List Engine.Cross) : Engine.Selling (Discipline zone opening saw crosses) where
  keyed kept := kept.keyed
  mark kept held _ moment := kept.mark held moment
  sell kept held _ reason moment := kept.sell held _ _ reason moment

theorem Discipline.watches {start : Engine} {symbols : List String} {candidates : List (String × ℚ)}
    {seen : Engine × List Engine.Cross} {signal : String → Option (ℚ × ℚ)}
    (distinct : (symbols ++ candidates.map Prod.fst).Nodup)
    (listed : ∀ candidate ∈ candidates, start.state.candidates.contains candidate.1 = true)
    (dips : ∀ symbol close vwap, start.state.candidates.contains symbol = true →
      start.members.contains symbol = true → signal symbol = some (close, vwap) → close < vwap →
      saw symbol start.state.fills)
    (watched : Engine.Watched start symbols seen) (kept : Discipline zone opening saw seen.2 seen.1) :
    Discipline zone opening saw (candidates.foldl (Engine.watch signal) seen).2
      (candidates.foldl (Engine.watch signal) seen).1 := by
  induction candidates generalizing symbols seen with
  | nil => exact kept
  | cons candidate rest ih =>
    have fresh : candidate.1 ∉ symbols := fun member =>
      (List.nodup_append.mp distinct).2.2 _ member _ (by simp) rfl
    have own := listed candidate List.mem_cons_self
    have next := Engine.watch_watched watched signal fresh
    have whole : symbols ++ (candidate :: rest).map Prod.fst =
        (symbols ++ [candidate.1]) ++ rest.map Prod.fst := by simp
    rw [whole] at distinct
    apply ih distinct (fun other member => listed other (List.mem_cons_of_mem _ member)) next
    refine kept.watch signal ?_ (fun cross member same => fresh (same ▸ watched.known cross member)) ?_
      next.crosses
    · rw [watched.frame.candidates]
      exact own
    · intro close vwap member live dip
      rw [watched.frame.fills]
      rw [watched.frame.members] at member
      exact dips candidate.1 close vwap own member live dip

theorem verdict_stamped {now : Int} {asked : Option Wait} {read : String → Reading} {cross : Engine.Cross}
    {purchase : Engine.Purchase} (bought : engine.verdict zone now asked read cross = .buy purchase) :
    zone.time purchase.moment ≤ engine.lastEntry := by
  have within : engine.lastEntryNow ≤ engine.lastEntry := by
    unfold Engine.lastEntryNow
    split
    · exact min_le_left _ _
    · exact le_rfl
  unfold Engine.verdict at bought
  split at bought
  · cases bought
  · simp only at bought
    split at bought
    · cases bought
    · split_ifs at bought
      rename_i early _ _
      cases bought
      exact (not_lt.mp early).trans within

def Engine.checking (zone : Zone) (engine : Engine) (input : StepInput) : Engine :=
  (engine.stepExits zone input).stepShadows zone input

/-- The check of a step sees a candidate's last trade strictly under its VWAP. -/
def Engine.Dips (zone : Zone) (engine : Engine) (input : StepInput) (symbol : String) : Prop :=
  let checking := engine.checking zone input
  zone.time input.now ≤ checking.lastEntryNow ∧ checking.state.candidates.contains symbol = true ∧
    checking.members.contains symbol = true ∧
    ∃ close vwap, input.signal symbol = some (close, vwap) ∧ close < vwap

theorem Discipline.step (kept : Discipline zone opening saw [] engine) {input : StepInput}
    (dips : ∀ symbol, engine.Dips zone input symbol →
      saw symbol (engine.checking zone input).state.fills) :
    Discipline zone opening saw [] (engine.step zone input) := by
  have exits : Discipline zone opening saw [] (engine.stepExits zone input) :=
    (discipline_selling zone opening saw []).stepExits input kept
  have checked : Discipline zone opening saw [] (engine.checking zone input) :=
    exits.idle (shadowExits_only ..).idle
  unfold Engine.step Engine.stepEntries
  rw [show (engine.stepExits zone input).stepShadows zone input = engine.checking zone input from rfl]
  split
  · rename_i inTime
    have minute : Discipline zone opening saw [] { engine.checking zone input with
        state := { (engine.checking zone input).state with
          lastSignalMinute := zone.time input.now / (60 * second) } } :=
      checked.idle ⟨rfl, rfl, rfl, rfl, rfl, rfl, rfl, rfl⟩
    have start : Engine.Watched (engine.checking zone input) [] ({ engine.checking zone input with
        state := { (engine.checking zone input).state with
          lastSignalMinute := zone.time input.now / (60 * second) } }, []) :=
      ⟨.of_book ⟨rfl, rfl, rfl, rfl, rfl, rfl, rfl, rfl, le_rfl⟩, ⟨List.nodup_nil, by simp⟩, by simp⟩
    have crossed : Discipline zone opening saw ((engine.checking zone input).stepSignals zone input).2
        ((engine.checking zone input).stepSignals zone input).1 := Discipline.watches
      (by simpa using (engine.checking zone input).state.candidates.distinct)
      (fun candidate member => by simp [Dict.contains, Dict.mem_entries.mp member])
      (fun symbol close vwap listed member live dip =>
        dips symbol ⟨inTime, listed, member, close, vwap, live, dip⟩) start minute
    have waited : Discipline zone opening saw ((engine.checking zone input).stepSignals zone input).2
        (((engine.checking zone input).stepSignals zone input).1.stepWait zone input
          ((engine.checking zone input).stepSignals zone input).2) :=
      (discipline_selling zone opening saw _).stepWait input _ crossed
    obtain ⟨left, entered⟩ : ∃ left, Discipline zone opening saw left (Engine.enter zone input.now
        input.entries input.bought ((engine.checking zone input).stepSignals zone input).2 _) :=
      Engine.enter_leaves (fun kept => kept.tail)
      (fun symbol purchase kept => kept.idle (OnlyShadows.idle ⟨_, _, rfl⟩))
      (fun kept bought => kept.buy (Engine.verdict_buy bought).2.2 (verdict_stamped bought)) waited
    exact entered.drop
  · exact checked

end Steps

/-! Runs of one session: what every purchase of it has behind it.

A session opens once; a process that stops resumes it from its checkpoint. The checks
of a run are its steps, each with the fills there were when its signals were read.
-/

/-- An act of the session of a day; `start` resumes it. -/
def Act.Within (day : Int) : Act → Prop
  | .start other _ => other = day
  | .close => False
  | _ => True

/-- Some step of the run read the name under its VWAP, after these fills. -/
def Saw (zone : Zone) (opened : Engine) (acts : List Act) (symbol : String) (fills : List Fill) : Prop :=
  ∃ before input, before ++ [.step input] <+: acts ∧ (opened.run zone before).Dips zone input symbol ∧
    fills = ((opened.run zone before).checking zone input).state.fills

section Acts
variable {zone : Zone} {opening : EngineState} {saw : String → List Fill → Prop} {engine : Engine}

theorem contains_insert {candidates : Dict String ℚ} {symbol : String}
    (listed : candidates.contains symbol = true) (other : String) (gap : ℚ) :
    (candidates.insert other gap).contains symbol = true := by
  unfold Dict.contains at listed ⊢
  rw [Dict.get?_insert]
  split
  · rfl
  · exact listed

theorem Discipline.setCandidates (kept : Discipline zone opening saw [] engine)
    (selection : String → Option ℚ) : Discipline zone opening saw [] (engine.setCandidates selection) := by
  unfold Engine.setCandidates
  split
  · exact kept
  · refine kept.chosen fun symbol listed => ?_
    refine foldl_keeps (fun candidates : Dict String ℚ => candidates.contains symbol = true) _ ?_ listed
    intro entry _ candidates listed
    split
    · simp only
      split
      · exact contains_insert listed _ _
      · exact listed
    · exact listed

theorem Discipline.adoptOpening (kept : Discipline zone opening saw [] engine)
    (tapes : String → Option Tape) : Discipline zone opening saw [] (engine.adoptOpening zone tapes) := by
  unfold Engine.adoptOpening Engine.setCandidates
  simp only [Bool.false_eq_true, if_false]
  refine kept.chosen fun symbol listed => ?_
  refine foldl_keeps (fun candidates : Dict String ℚ => candidates.contains symbol = true) _ ?_ listed
  intro entry _ candidates listed
  split
  · split
    · exact contains_insert listed _ _
    · exact listed
  · exact listed

theorem Discipline.act {opened : Engine} {acts : List Act} {act : Act} {day : Int} (within : act.Within day)
    (session : (opened.run zone acts).state.session = some day)
    (kept : Discipline zone opening (Saw zone opened acts) [] (opened.run zone acts)) :
    Discipline zone opening (Saw zone opened (acts ++ [act])) [] ((opened.run zone acts).act zone act) := by
  have more : ∀ symbol fills, Saw zone opened acts symbol fills → Saw zone opened (acts ++ [act]) symbol fills := by
    rintro symbol fills ⟨before, input, early, dips⟩
    exact ⟨before, input, early.trans (List.prefix_append _ _), dips⟩
  have kept := kept.mono more
  cases act with
  | start other names =>
    have same : other = day := within
    have resumed : (opened.run zone acts).act zone (.start other names) =
        { opened.run zone acts with
          day := other
          members := sessionMembers names (opened.run zone acts).state.positions
          markedMoment := Dict.empty
          lastEntry := lastEntryOf (opened.run zone acts).state.config } := by
      unfold Engine.act Engine.start
      simp [session, same]
    rw [resumed]
    exact kept.idle ⟨rfl, rfl, rfl, rfl, rfl, rfl, rfl, kept.lastEntry.symm⟩
  | candidates selection => exact kept.setCandidates selection
  | adopt tapes => exact kept.adoptOpening tapes
  | step input =>
    apply kept.step
    intro symbol dips
    exact ⟨acts, input, List.prefix_rfl, dips, rfl⟩
  | fast pass => exact (discipline_selling zone opening _ []).fastExits pass kept
  | close => exact within.elim

theorem act_session {act : Act} {day : Int} (within : act.Within day) (keyed : engine.state.Keyed)
    (session : engine.state.session = some day) : (engine.act zone act).state.session = some day := by
  cases act with
  | start other names =>
    have same : other = day := within
    unfold Engine.act Engine.start
    simp [session, same]
  | candidates selection => exact (setCandidates_selected engine selection).session.trans session
  | adopt tapes => exact (adoptOpening_selected zone engine tapes).session.trans session
  | step input => exact (Engine.step_still zone keyed input).2.session.trans session
  | fast pass =>
    exact ((Engine.still_steady engine).fastExits pass ⟨keyed, .refl engine⟩).2.session.trans session
  | close => exact within.elim

end Acts

section Runs
variable {zone : Zone} {seed : EngineState} {day : Int}

theorem discipline_opened (keyed : seed.Keyed) (fresh : seed.session ≠ some day) (names : List Member) :
    Discipline zone seed (Saw zone (Engine.start seed day names) []) [] (Engine.start seed day names) := by
  have opened : Engine.start seed day names =
      { state := seed.openSession day, day := day, members := sessionMembers names seed.positions
        markedMoment := Dict.empty, lastEntry := lastEntryOf (seed.openSession day).config } := by
    unfold Engine.start
    simp [fresh]
  rw [opened]
  refine { keyed := keyed, free := ⟨List.nodup_nil, by simp⟩, replayed := rfl, slots := le_max_right _ _,
           counted := le_rfl, below := fun symbol never => ?_, crossed := by simp,
           licensed := fun front fill back split => ?_, fixed := fun symbol never => ?_, lastEntry := rfl }
  · cases never
  · simp [EngineState.openSession] at split
  · cases never

theorem discipline_run (keyed : seed.Keyed) (fresh : seed.session ≠ some day) (names : List Member)
    {acts : List Act} (within : ∀ act ∈ acts, act.Within day) :
    Discipline zone seed (Saw zone (Engine.start seed day names) acts) []
      ((Engine.start seed day names).run zone acts) ∧
    ((Engine.start seed day names).run zone acts).state.session = some day := by
  induction acts using List.reverseRecOn with
  | nil =>
    refine ⟨discipline_opened keyed fresh names, ?_⟩
    unfold Engine.run Engine.start
    simp [fresh, EngineState.openSession]
  | append_singleton acts act ih =>
    obtain ⟨kept, session⟩ := ih fun other member => within other (List.mem_append_left _ member)
    have own : act.Within day := within act (by simp)
    rw [show (Engine.start seed day names).run zone (acts ++ [act]) =
      ((Engine.start seed day names).run zone acts).act zone act by simp [Engine.run]]
    exact ⟨kept.act own session, act_session own kept.keyed session⟩

end Runs

/-- In every run of a session opened with at most the slots of the rule, no more than those are open,
the signals counted cover the purchases, and every purchase is of a name not held, fixed as a candidate,
stamped by the last entry, and seen under its VWAP by a step after the name's last purchase or sale. -/
theorem entry_discipline (zone : Zone) {seed : EngineState} (keyed : seed.Keyed) {day : Int}
    (fresh : seed.session ≠ some day) (names : List Member) {acts : List Act}
    (within : ∀ act ∈ acts, act.Within day) :
    let opened := Engine.start seed day names
    let engine := opened.run zone acts
    (seed.positions.size ≤ rule.slots → engine.state.positions.size ≤ rule.slots) ∧
    boughtCount engine.state.fills ≤ engine.state.signals ∧
    ∀ front fill back, engine.state.fills = front ++ fill :: back → fill.side = .buy →
      (∃ held, Lot.replay seed.held (front.map Fill.lot) = some held ∧ held fill.symbol = none) ∧
      engine.state.candidatesFixed = true ∧ engine.state.candidates.contains fill.symbol = true ∧
      zone.time fill.executedAt ≤ lastEntryOf engine.state.config ∧
      ∃ before input, before ++ [.step input] <+: acts ∧
        (opened.run zone before).Dips zone input fill.symbol ∧
        ∃ after, front = ((opened.run zone before).checking zone input).state.fills ++ after ∧
          ∀ other ∈ after, other.symbol ≠ fill.symbol := by
  intro opened engine
  obtain ⟨kept, _⟩ := @discipline_run zone seed day keyed fresh names acts within
  refine ⟨fun slots => ?_, ?_, fun front fill back split side => ?_⟩
  · exact kept.slots.trans (max_le le_rfl slots)
  · simpa using kept.counted
  · obtain ⟨candidate, stamped, old, after, same, ⟨before, input, early, dips, rfl⟩, clear⟩ :=
      kept.licensed front fill back split side
    have unheld : ∃ held, Lot.replay seed.held (front.map Fill.lot) = some held ∧ held fill.symbol = none := by
      have replayed := kept.replayed
      rw [show ((Engine.start seed day names).run zone acts).state.fills = front ++ fill :: back from split,
        List.map_append, List.map_cons] at replayed
      obtain ⟨held, next, front_, bought, _⟩ := Lot.replay_split replayed
      refine ⟨held, front_, ?_⟩
      simp only [Fill.lot, side, Lot.apply] at bought
      by_contra other
      rw [if_neg other] at bought
      cases bought
    rw [kept.lastEntry] at stamped
    exact ⟨unheld, kept.fixed _ candidate, candidate, stamped, before, input, early, dips, after, same, clear⟩

/-- The name that dips after a stop frees a slot is bought on its cross. -/
theorem entry_discipline_reentry :
    let engine := (Engine.start fullBook friday [⟨"Z", "NYSE", 100⟩]).run eastern reentry
    engine.state.positions.size ≤ rule.slots ∧ boughtCount engine.state.fills = 1 ∧
      boughtCount engine.state.fills ≤ engine.state.signals := by
  intro engine
  have within : ∀ act ∈ reentry, act.Within friday := by simp [reentry, Act.Within]
  obtain ⟨slots, counted, _⟩ := entry_discipline eastern fullBook_seeded.keyed
    (show fullBook.session ≠ some friday by decide) [⟨"Z", "NYSE", 100⟩] within
  exact ⟨slots (by decide +kernel), by decide +kernel, counted⟩

end C3po.Live
