import C3po.Paper.NavClose

/-! Saves and finalizations of one experiment, in every interleaving. -/

set_option autoImplicit false

namespace C3po.Paper
open C3po.Library

variable {platform : Platform}

/-- The table is the same after every step of a process. -/
def Silent (log : List (Event SnapshotTable Track)) : Prop :=
  ∀ before after, Event.stepped before after ∈ log → after = before

/-- A save that raises changes nothing, nor one that finds a canonical close; one that stores the
close of its call stores a canonical one. -/
def SaveOutcome (platform : Platform) (call : SaveCall) (answer : SnapshotAnswer) (log : List (Event SnapshotTable Track)) : Prop :=
  match answer with
  | .raised _ => Silent log
  | .kept snapshot => snapshot.Canonical platform ∧ Silent log
  | .saved _ => (call.benchmark "nav_close").isSome → ∀ dailyPnl dailyReturn,
      (call.payload none dailyPnl dailyReturn).Canonical platform
  | .finalized => False

def outcome (platform : Platform) : SnapshotCall → SnapshotAnswer → List (Event SnapshotTable Track) → SnapshotTable → Prop
  | .save call, answer, log, _ => SaveOutcome platform call answer log
  | .finalizeBefore _, answer, _, _ => answer = .finalized

section Moves
variable {table : SnapshotTable}

theorem TableMoves.update {date : Int} {snapshot : Snapshot} (sound : SoundTable platform table)
    (dated : snapshot.sessionDate = date) (canonical : snapshot.carriesClose → snapshot.Canonical platform)
    (continues : ∀ stored, table date = some stored → stored.Continues snapshot) :
    TableMoves platform table (Function.update table date (some snapshot)) := by
  constructor
  · intro other stored found
    by_cases same : other = date
    · subst same
      exact ⟨snapshot, Function.update_self .., continues stored found⟩
    · refine ⟨stored, ?_, Snapshot.Continues.refl stored⟩
      rw [Function.update_of_ne same, found]
  · intro other stored found
    by_cases same : other = date
    · subst same
      rw [Function.update_self] at found
      cases found
      exact ⟨dated, canonical⟩
    · rw [Function.update_of_ne same] at found
      exact sound other stored found

theorem TableMoves.refl (sound : SoundTable platform table) : TableMoves platform table table :=
  ⟨fun _ snapshot found => ⟨snapshot, found, Snapshot.Continues.refl snapshot⟩, sound⟩

/-- The upsert of a payload whose close is canonical: where the row carries a close nothing is
written, and elsewhere the close of the row is that of the payload. -/
theorem upsert_moves {payload : Snapshot} (sound : SoundTable platform table)
    (canonical : payload.carriesClose → payload.Canonical platform) :
    TableMoves platform table (upsert payload table) := by
  unfold upsert
  cases found : table payload.sessionDate with
  | none =>
    refine TableMoves.update sound rfl canonical ?_
    intro stored held
    rw [found] at held
    cases held
  | some stored =>
    dsimp only
    by_cases carried : (stored.benchmark "nav_close").isSome = true
    · rw [if_pos carried]
      exact TableMoves.refl sound
    · rw [if_neg carried]
      have close : Block.merge stored.benchmark payload.benchmark "nav_close" = payload.benchmark "nav_close" := by
        unfold Block.merge
        rw [Option.not_isSome_iff_eq_none.mp carried, Option.or_none]
      refine TableMoves.update sound ?_ ?_ ?_
      · rfl
      · intro merged
        unfold Snapshot.carriesClose at merged
        dsimp only at merged
        rw [close] at merged
        obtain ⟨navClose, found⟩ := canonical merged
        refine ⟨navClose, ?_⟩
        rw [← found]
        exact canonical_congr rfl rfl rfl rfl rfl close
      · intro other held
        rw [found] at held
        cases held
        constructor
        · intro final
          simp [final]
        · exact fun held => absurd held carried

theorem finalizedBefore_moves (sessionDate : Int) (sound : SoundTable platform table) :
    TableMoves platform table (finalizedBefore sessionDate table) := by
  have row : ∀ date snapshot, table date = some snapshot → ∃ final,
      finalizedBefore sessionDate table date = some { snapshot with isFinal := final } ∧ (snapshot.isFinal = true → final = true) := by
    intro date snapshot found
    unfold finalizedBefore
    rw [found, Option.map_some]
    split
    · exact ⟨true, rfl, fun _ => rfl⟩
    · exact ⟨snapshot.isFinal, rfl, id⟩
  constructor
  · intro date snapshot found
    obtain ⟨final, written, kept⟩ := row date snapshot found
    exact ⟨_, written, kept, fun _ => rfl⟩
  · intro date later found
    cases held : table date with
    | none =>
      unfold finalizedBefore at found
      rw [held] at found
      cases found
    | some snapshot =>
      obtain ⟨final, written, _⟩ := row date snapshot held
      rw [written] at found
      cases found
      obtain ⟨dated, canonical⟩ := sound date snapshot held
      refine ⟨dated, ?_⟩
      intro carried
      obtain ⟨navClose, found⟩ := canonical carried
      refine ⟨navClose, ?_⟩
      rw [← found]
      exact canonical_congr rfl rfl rfl rfl rfl rfl

theorem later_continues {later : SnapshotTable} (sound : SoundTable platform table)
    (runs : (snapshotRules platform).Later table later) {date : Int} {snapshot : Snapshot} (found : table date = some snapshot) :
    ∃ next, later date = some next ∧ snapshot.Continues next := by
  refine @Protocol.Later.induct _ _ _ (fun later => ∃ next, later date = some next ∧ snapshot.Continues next) _ _ runs sound ?_ ?_
  · exact ⟨snapshot, found, Snapshot.Continues.refl snapshot⟩
  · intro first second _ kept moves
    obtain ⟨next, held, continues⟩ := kept
    obtain ⟨last, written, further⟩ := moves.1 date next held
    exact ⟨last, written, continues.trans further⟩

end Moves

section Saves
variable {call : SaveCall} {log : List (Event SnapshotTable Track)}

theorem Silent.snoc_answered (silent : Silent log) (answer : Track) : Silent (log ++ [.answered answer]) := by
  intro before after member
  rcases List.mem_append.mp member with earlier | new
  · exact silent before after earlier
  · cases List.mem_singleton.mp new

theorem Silent.read (table : SnapshotTable) : Silent [.stepped table table] := by
  intro before after member
  cases List.mem_singleton.mp member
  rfl

theorem saveTracked_holds (track : Track) {previous : Option Snapshot} {table : SnapshotTable}
    (bare : ∀ snapshot, previous = some snapshot → ¬ snapshot.carriesClose) (silent : Silent log)
    (sound : SoundTable platform table) :
    (snapshotRules platform).Holds (saveTracked platform call previous track) log table
      fun answer log _ => SaveOutcome platform call answer log := by
  cases track with
  | none => exact Protocol.Holds.pure fun _ _ => silent
  | some track =>
    obtain ⟨dailyPnl, dailyReturn⟩ := track
    have close : ∀ dailyPnl dailyReturn,
        (call.payload previous dailyPnl dailyReturn).benchmark "nav_close" = call.benchmark "nav_close" := by
      intro dailyPnl dailyReturn
      cases previous with
      | none => exact Option.or_none
      | some snapshot =>
        have missing : snapshot.benchmark "nav_close" = none := Option.not_isSome_iff_eq_none.mp (bare snapshot rfl)
        change (call.benchmark "nav_close").or (snapshot.benchmark "nav_close") = _
        rw [missing, Option.or_none]
    have writes : ((call.payload previous dailyPnl dailyReturn).carriesClose →
          (call.payload previous dailyPnl dailyReturn).Canonical platform) →
        (snapshotRules platform).Holds (do
          Program.write (upsert (call.payload previous dailyPnl dailyReturn)) fun _ => ()
          let stored ← Program.read fun table => table call.sessionDate
          pure (.saved (stored.getD (call.payload previous dailyPnl dailyReturn))) : SnapshotProgram) log table
          fun answer log _ => SaveOutcome platform call answer log := by
      intro canonical
      refine Protocol.Holds.write fun next later => ⟨?_, Protocol.Holds.read fun _ _ => Protocol.Holds.pure fun _ _ => ?_⟩
      · exact Relation.ReflTransGen.single (upsert_moves (later.keeps sound) canonical)
      · intro incoming otherPnl otherReturn
        have carried : (call.payload previous dailyPnl dailyReturn).carriesClose := by
          unfold Snapshot.carriesClose
          rw [close]
          exact incoming
        obtain ⟨navClose, found⟩ := canonical carried
        refine ⟨navClose, ?_⟩
        rw [← found]
        refine canonical_congr rfl rfl rfl rfl rfl ?_
        rw [close]
        exact Option.or_none
    unfold saveTracked
    dsimp only
    by_cases incoming : (call.benchmark "nav_close").isSome = true
    · rw [if_pos incoming]
      cases checked : platform.canonicalNavClose (call.payload previous dailyPnl dailyReturn) with
      | error error => exact Protocol.Holds.pure fun _ _ => silent
      | ok found =>
        cases found with
        | none => exact Protocol.Holds.pure fun _ _ => silent
        | some navClose => exact writes fun _ => ⟨navClose, checked⟩
    · rw [if_neg incoming]
      apply writes
      intro carried
      unfold Snapshot.carriesClose at carried
      rw [close] at carried
      exact absurd carried incoming

theorem saveSnapshot_holds (call : SaveCall) {table : SnapshotTable} (sound : SoundTable platform table) :
    (snapshotRules platform).Holds (saveSnapshot platform call) [] table
      fun answer log _ => SaveOutcome platform call answer log := by
  refine Protocol.Holds.read fun next later => ?_
  have soundNext : SoundTable platform next := later.keeps sound
  have silent : Silent ([] ++ [.stepped next next]) := Silent.read next
  cases found : next call.sessionDate with
  | none =>
    refine Protocol.Holds.answer fun track _ => ?_
    exact saveTracked_holds track (fun _ held => nomatch held) (silent.snoc_answered track) soundNext
  | some snapshot =>
    unfold saveOver
    dsimp only
    cases checked : platform.canonicalNavClose snapshot with
    | error error => exact Protocol.Holds.pure fun _ _ => silent
    | ok close =>
      cases close with
      | some navClose => exact Protocol.Holds.pure fun _ _ => ⟨⟨navClose, checked⟩, silent⟩
      | none =>
        refine Protocol.Holds.answer fun track _ => saveTracked_holds track ?_ (silent.snoc_answered track) soundNext
        intro stored held carried
        cases held
        obtain ⟨navClose, canonical⟩ := (soundNext call.sessionDate snapshot found).2 carried
        rw [checked] at canonical
        cases canonical

theorem serve_holds (call : SnapshotCall) {table : SnapshotTable} (sound : SoundTable platform table) :
    (snapshotRules platform).Holds (serve platform call) [] table (outcome platform call) := by
  cases call with
  | save call => exact saveSnapshot_holds call sound
  | finalizeBefore sessionDate =>
    refine Protocol.Holds.write fun next later => ⟨?_, Protocol.Holds.pure fun _ _ => rfl⟩
    exact Relation.ReflTransGen.single (finalizedBefore_moves sessionDate (later.keeps sound))

end Saves

/-- What holds of the snapshots of a run and of all that may follow it. -/
structure ClosesKept (platform : Platform) (pool : Pool SnapshotCall SnapshotTable Track SnapshotAnswer) : Prop where
  canonical : ∀ date snapshot, pool.store date = some snapshot → snapshot.carriesClose →
    snapshot.Canonical platform ∧ ∃ navClose marks, snapshot.benchmark "nav_close" = some navClose ∧
      navClose.get? "marks" = some (.items marks) ∧
        usdCent snapshot.navUsd = usdCent snapshot.cashUsd + usdCent (markedExposure platform marks)
  continues : ∀ next, Pool.Run (serve platform) (fun _ _ => True) pool next →
    ∀ date snapshot, pool.store date = some snapshot → ∃ later, next.store date = some later ∧ snapshot.Continues later
  answered : ∀ call answer log, ⟨call, .done answer, log⟩ ∈ pool.running → outcome platform call answer log pool.store

/-- A canonical close is written once and never moves, in every interleaving of saves and
finalizations. -/
theorem canonical_close_kept {pool : Pool SnapshotCall SnapshotTable Track SnapshotAnswer}
    (run : Pool.Run (serve platform) (fun _ _ => True) ⟨fun _ => none, []⟩ pool) : ClosesKept platform pool := by
  have empty : SoundTable platform fun _ => none := fun _ _ found => nomatch found
  have verified : ∀ call store, (snapshotRules platform).keeps store →
      (snapshotRules platform).Holds (serve platform call) [] store (outcome platform call) :=
    fun call _ sound => serve_holds call sound
  obtain ⟨later, running⟩ := Pool.run_verified verified run empty fun _ member => nomatch member
  have sound : SoundTable platform pool.store := later.keeps empty
  constructor
  · intro date snapshot found carried
    have canonical := (sound date snapshot found).2 carried
    exact ⟨canonical, canonical.amounts⟩
  · intro next further date snapshot found
    obtain ⟨after, _⟩ := Pool.run_verified verified further sound running
    exact later_continues sound after found
  · intro call answer log finished
    exact Pool.run_finished verified run empty finished

section Capture

/-- A calendar with one close, and a save of one position at that close. -/
private def oneClose : Platform where
  decimal := fun _ => none
  moment := fun _ => none
  date := fun _ => none
  text := fun _ => ""
  sessionClose := fun date => .ok (if date = 20000 then some 1000000000 else none)

private def closeMark : Datum :=
  .fields [("market", .text "NASDAQ"), ("symbol", .text "AAPL"), ("price_local", .number 2), ("fx_to_usd", .number 1),
    ("quantity", .number 5), ("quote_as_of", .moment 999999999 20000)]

private def closeBlock : List (String × Datum) :=
  [("source", .text xnysCloseSource), ("session_date", .date 20000), ("captured_at", .moment 1000000001 20000),
    ("session_close_at", .moment 1000000000 20000), ("position_count", .number 1), ("marks", .items [closeMark])]

private def closeCall : SaveCall where
  sessionDate := 20000
  nav := 100
  cash := 90
  exposure := 10
  positions := 1
  isFinal := true
  benchmark := fun name => if name = "nav_close" then some (.fields closeBlock) else none

private def closes : Except String (Option Datum) → Bool
  | .ok (some _) => true
  | _ => false

private theorem closeCall_canonical : (closeCall.payload none 0 0).Canonical oneClose := by
  have accepted : closes (oneClose.canonicalNavClose (closeCall.payload none 0 0)) = true := by decide +kernel
  cases checked : oneClose.canonicalNavClose (closeCall.payload none 0 0) with
  | error error =>
    rw [checked] at accepted
    cases accepted
  | ok found =>
    cases found with
    | none =>
      rw [checked] at accepted
      cases accepted
    | some navClose => exact ⟨navClose, checked⟩

private theorem closeCall_saved : ∃ running, Pool.Run (serve oneClose) (fun _ _ => True) ⟨fun _ => none, []⟩
    ⟨upsert (closeCall.payload none 0 0) fun _ => none, running⟩ := by
  obtain ⟨navClose, canonical⟩ := closeCall_canonical
  have writes : saveTracked oneClose closeCall none (some (0, 0)) = (do
      Program.write (upsert (closeCall.payload none 0 0)) fun _ => ()
      let stored ← Program.read fun table => table closeCall.sessionDate
      pure (.saved (stored.getD (closeCall.payload none 0 0)))) := by
    unfold saveTracked
    dsimp only
    rw [canonical]
    rfl
  apply Exists.intro
  -- The call starts, reads, is answered and writes.
  refine .head (.start _ (.save closeCall)) ?_
  refine .head (@Pool.Step.act _ _ _ _ _ _ _ [] [] _ _ _ _) ?_
  refine .head (@Pool.Step.ask _ _ _ _ _ _ _ [] [] _ _ _ (some (0, 0)) trivial) ?_
  change Pool.Run _ _ ⟨_, [⟨_, saveTracked oneClose closeCall none (some (0, 0)), _⟩]⟩ _
  rw [writes]
  exact .head (@Pool.Step.act _ _ _ _ _ _ _ [] [] _ _ _ _) .refl

theorem canonical_close_kept_captured : ∃ pool : Pool SnapshotCall SnapshotTable Track SnapshotAnswer,
    pool.store 20000 = some (closeCall.payload none 0 0) ∧ ClosesKept oneClose pool := by
  obtain ⟨running, run⟩ := closeCall_saved
  exact ⟨_, rfl, canonical_close_kept run⟩

end Capture

end C3po.Paper
