import C3po.Live.Runs

/-! The level an exit check sells at: the stop until the lock arms, then the floor of the peak.

A check keeps every position sound: armed only with a peak its ladder arms at. The
converse fails for a position an earlier rule carried: its stored peak may be past
this ladder's first step while its lock is not armed.
-/

set_option autoImplicit false

namespace C3po.Live
open C3po.Library

section Ladders

/-- The ladder of a label; one without its own takes the ladder in force. -/
def ladderOf (config : String) : Ladder := (lockLadders.lookup (labelOr config)).getD ladderInForce

/-- What every ladder has: the first step of the rule, and widths that climb. -/
structure Ladder.Climbs (ladder : Ladder) : Prop where
  min : ladder.min = rule.lockMinPercent
  step : 0 < ladder.step
  wideStep : 0 < ladder.wideStep
  bands : ladder.min ≤ ladder.wideFrom

theorem lookup_or {A : Type} (P : A → Prop) (label : String) {default : A} (fallback : P default) :
    ∀ {table : List (String × A)}, (∀ entry ∈ table, P entry.2) → P ((table.lookup label).getD default)
  | [], _ => fallback
  | (name, value) :: rest, all => by
    rw [List.lookup_cons]
    split
    · exact all _ List.mem_cons_self
    · exact lookup_or P label fallback fun entry member => all entry (List.mem_cons_of_mem _ member)

theorem ladderInForce_climbs : ladderInForce.Climbs := by
  refine ⟨rfl, ?_, ?_, ?_⟩ <;> norm_num [ladderInForce, rule]

theorem ladderOf_climbs (config : String) : (ladderOf config).Climbs := by
  apply lookup_or Ladder.Climbs _ ladderInForce_climbs
  intro entry member
  simp only [lockLadders, List.mem_cons, List.not_mem_nil, or_false] at member
  rcases member with rfl | rfl | rfl | rfl
  · exact ⟨rfl, by norm_num, by norm_num, by norm_num⟩
  · exact ⟨rfl, by norm_num, by norm_num, by norm_num⟩
  · exact ⟨rfl, by norm_num, by norm_num, by norm_num⟩
  · exact ladderInForce_climbs

theorem stopOf_pos (config : String) : 0 < stopOf config := by
  apply lookup_or (fun stop : ℚ => 0 < stop)
  · norm_num [rule]
  intro entry member
  simp only [stops, List.mem_cons, List.not_mem_nil, or_false] at member
  rcases member with rfl | rfl | rfl | rfl <;> norm_num [rule]

theorem lockFloor_eq (peak : ℚ) (config : String) : lockFloor peak config =
    bandFloor (ladderOf config).min (ladderOf config).step (ladderOf config).wideFrom
      (ladderOf config).wideStep (peak + 1 / 1000000000) := rfl

theorem lockFloor_le (peak : ℚ) (config : String) : lockFloor peak config ≤ peak + 1 / 1000000000 := by
  have climbs := ladderOf_climbs config
  rw [lockFloor_eq]
  exact bandFloor_le climbs.step climbs.wideStep _

theorem lockFloor_mono {low high : ℚ} (le : low ≤ high) (config : String) :
    lockFloor low config ≤ lockFloor high config := by
  have climbs := ladderOf_climbs config
  rw [lockFloor_eq, lockFloor_eq]
  apply bandFloor_mono climbs.step climbs.wideStep
  linarith

theorem lockMin_le_lockFloor {peak : ℚ} (reached : rule.lockMinPercent ≤ peak) (config : String) :
    rule.lockMinPercent ≤ lockFloor peak config := by
  have climbs := ladderOf_climbs config
  rw [lockFloor_eq, ← climbs.min]
  apply base_le_bandFloor climbs.step climbs.wideStep climbs.bands
  rw [climbs.min]
  linarith

theorem lockMin_pos : 0 < rule.lockMinPercent := by norm_num [rule]

end Ladders

namespace Position
variable {position : Position} {config : String}

/-- Armed only with a peak the ladder arms at. -/
def Sound (position : Position) : Prop :=
  position.armed = true → ∃ peak, position.peakPercent = some peak ∧ rule.lockMinPercent ≤ peak

/-- Carried from an earlier rule: a stored peak past the first step, and no lock. -/
def Carried (position : Position) : Prop :=
  position.armed = false ∧ ∃ peak, position.peakPercent = some peak ∧ rule.lockMinPercent ≤ peak

def Paid (position : Position) : Prop := 0 < position.costUsd / position.shares

def NoNewPeak (position : Position) (bid : ℚ) : Prop :=
  (position.marked bid).peakPercent = position.peakPercent

/-- What the checks of a session only raise. -/
structure Raised (config : String) (before after : Position) : Prop where
  level : before.level config ≤ after.level config
  armed : before.armed = true → after.armed = true
  peak : ∀ peak, before.peakPercent = some peak →
    ∃ later, after.peakPercent = some later ∧ peak ≤ later
  carried : after.Carried → before.Carried

theorem Raised.refl (config : String) (position : Position) : Raised config position position :=
  ⟨le_rfl, id, fun peak stored => ⟨peak, stored, le_rfl⟩, id⟩

theorem Raised.trans {first second third : Position} (early : Raised config first second)
    (late : Raised config second third) : Raised config first third where
  level := early.level.trans late.level
  armed armed := late.armed (early.armed armed)
  peak peak stored := by
    obtain ⟨middle, isMiddle, le⟩ := early.peak peak stored
    obtain ⟨last, isLast, further⟩ := late.peak middle isMiddle
    exact ⟨last, isLast, le.trans further⟩
  carried carried := early.carried (late.carried carried)

theorem level_unarmed (unarmed : position.armed = false) : position.level config = -stopOf config := by
  simp [Position.level, unarmed]

theorem level_armed {peak : ℚ} (armed : position.armed = true) (stored : position.peakPercent = some peak)
    (reached : rule.lockMinPercent ≤ peak) : position.level config = lockFloor peak config := by
  have positive : peak ≠ 0 := (lockMin_pos.trans_le reached).ne'
  simp [Position.level, armed, stored, positive]

theorem marked_peak (position : Position) (bid : ℚ) : ∃ peak, (position.marked bid).peakPercent = some peak ∧
    position.netPercent bid ≤ peak ∧ ∀ stored, position.peakPercent = some stored → stored ≤ peak := by
  cases isPeak : position.peakPercent with
  | none => exact ⟨position.netPercent bid, by simp [marked, isPeak], le_rfl, fun _ never => nomatch never⟩
  | some peak =>
    refine ⟨max peak (position.netPercent bid), by simp [marked, isPeak], le_max_right _ _, ?_⟩
    intro stored isStored
    cases isStored
    exact le_max_left _ _

theorem marked_armed (position : Position) (bid : ℚ) : (position.marked bid).armed = true ↔
    position.armed = true ∨ rule.lockMinPercent ≤ position.netPercent bid := by
  simp [marked]

theorem marked_sound (sound : position.Sound) (bid : ℚ) : (position.marked bid).Sound := by
  intro armed
  obtain ⟨peak, isPeak, net, above⟩ := position.marked_peak bid
  refine ⟨peak, isPeak, ?_⟩
  rcases (position.marked_armed bid).mp armed with already | reached
  · obtain ⟨stored, isStored, reached⟩ := sound already
    exact reached.trans (above stored isStored)
  · exact reached.trans net

theorem marked_raised (sound : position.Sound) (bid : ℚ) (config : String) :
    Raised config position (position.marked bid) := by
  obtain ⟨peak, isPeak, net, above⟩ := position.marked_peak bid
  refine ⟨?_, fun armed => (position.marked_armed bid).mpr (.inl armed),
    fun stored isStored => ⟨peak, isPeak, above stored isStored⟩, ?_⟩
  · by_cases armed : (position.marked bid).armed = true
    · obtain ⟨reached, isReached, least⟩ := position.marked_sound sound bid armed
      rw [level_armed armed isReached least]
      cases before : position.armed with
      | false =>
        rw [level_unarmed before]
        have stop := stopOf_pos config
        have floor := lockMin_le_lockFloor least config
        linarith [lockMin_pos]
      | true =>
        obtain ⟨stored, isStored, low⟩ := sound before
        rw [level_armed before isStored low]
        apply lockFloor_mono
        rw [isPeak] at isReached
        cases isReached
        exact above stored isStored
    · have unarmed : position.armed = false := by
        by_contra before
        exact armed ((position.marked_armed bid).mpr (.inl (by simpa using before)))
      rw [level_unarmed unarmed, level_unarmed (by simpa using armed)]
  · rintro ⟨unarmed, reached, isReached, least⟩
    have still : ¬ (position.armed = true ∨ rule.lockMinPercent ≤ position.netPercent bid) := by
      rw [← position.marked_armed bid, unarmed]
      simp
    rw [not_or, not_le] at still
    refine ⟨by simpa using still.1, ?_⟩
    cases stored : position.peakPercent with
    | none =>
      simp only [marked, stored, Option.elim_none, Option.some.injEq] at isReached
      linarith [still.2]
    | some peak =>
      simp only [marked, stored, Option.elim_some, Option.some.injEq] at isReached
      refine ⟨peak, rfl, ?_⟩
      rcases max_choice peak (position.netPercent bid) with left | right
      · rw [← left, isReached]
        exact least
      · rw [right] at isReached
        linarith [still.2]

theorem le_exitPrice_iff (paid : position.Paid) (bid : ℚ) (config : String) :
    bid ≤ position.exitPrice config ↔ position.netPercent bid ≤ position.level config := by
  have shares : position.shares ≠ 0 := by
    rintro none
    simp [Paid, none] at paid
  have cost : position.costUsd ≠ 0 := by
    rintro none
    simp [Paid, none] at paid
  have unit : 0 < position.costUsd / position.shares := paid
  have kept : (0 : ℚ) < 1 - feeSide := by norm_num [feeSide]
  have shown : position.exitPrice config =
      position.costUsd / position.shares * (1 + position.level config / 100) / (1 - feeSide) := by
    unfold exitPrice
    field_simp
  have net : position.netPercent bid =
      (bid * (1 - feeSide) / (position.costUsd / position.shares) - 1) * 100 := by
    unfold netPercent
    field_simp
  rw [shown, net, le_div_iff₀ kept]
  constructor
  · intro below
    have quotient : bid * (1 - feeSide) / (position.costUsd / position.shares) ≤
        1 + position.level config / 100 := by
      rw [div_le_iff₀ unit]
      linarith
    linarith
  · intro below
    have quotient : bid * (1 - feeSide) / (position.costUsd / position.shares) ≤
        1 + position.level config / 100 := by linarith
    rw [div_le_iff₀ unit] at quotient
    linarith

theorem exitReason_level {net : ℚ} {late : Bool} :
    exitReason position net late config = some .hardStop ∨ exitReason position net late config = some .lock ↔
      net ≤ -stopOf config ∨
        position.armed = true ∧ ∃ peak, position.peakPercent = some peak ∧ net ≤ lockFloor peak config := by
  have lock : (position.armed = true ∧ (position.peakPercent.any fun peak => net ≤ lockFloor peak config) = true) ↔
      position.armed = true ∧ ∃ peak, position.peakPercent = some peak ∧ net ≤ lockFloor peak config := by
    cases position.peakPercent <;> simp
  unfold exitReason
  rw [← lock]
  by_cases stop : net ≤ -stopOf config
  · simp [stop]
  by_cases floor : position.armed = true ∧
      (position.peakPercent.any fun peak => net ≤ lockFloor peak config) = true
  · simp [stop, floor]
  · simp only [stop, floor, if_false]
    split_ifs <;> simp

end Position

/-- One exit check: the name, what was read of it, and the bid. -/
structure Check where
  symbol : String
  market : MarketView := {}
  moment : Int
  bid : ℚ
  source : ExitSource := .massive

namespace Engine
variable (zone : Zone)

def saleOf (engine : Engine) (position : Position) (check : Check) : Option ExitReason :=
  sale zone (position.marked check.bid) check.market check.moment (position.netPercent check.bid)
    check.source engine.state.config

def check (engine : Engine) (check : Check) : Engine :=
  match engine.state.positions.get? check.symbol with
  | none => engine
  | some position => engine.exit zone position check.market check.moment check.bid check.source

def checks (engine : Engine) (checks : List Check) : Engine := checks.foldl (check zone) engine

variable {zone} {engine : Engine}

theorem saleOf_level {position : Position} {check : Check} (massive : check.source ≠ .stream) :
    engine.saleOf zone position check = some .hardStop ∨ engine.saleOf zone position check = some .lock ↔
      position.netPercent check.bid ≤ -stopOf engine.state.config ∨
        (position.marked check.bid).armed = true ∧
          ∃ peak, (position.marked check.bid).peakPercent = some peak ∧
            position.netPercent check.bid ≤ lockFloor peak engine.state.config := by
  have same : engine.saleOf zone position check = exitReason (position.marked check.bid)
      (position.netPercent check.bid) (late zone check.moment) engine.state.config := by
    unfold saleOf sale
    split
    · rename_i held
      exact held.symm
    · rename_i reason sold
      rw [if_neg (fun stream => massive stream.1), sold]
  rw [same]
  exact Position.exitReason_level

/-- A bid that makes no new peak sells by the stop or the lock at the price shown and under it;
a carried position is also sold between the first step and its stored floor. -/
theorem saleOf_iff {position : Position} (sound : position.Sound) (paid : position.Paid) {check : Check}
    (massive : check.source ≠ .stream) (peak : position.NoNewPeak check.bid) :
    engine.saleOf zone position check = some .hardStop ∨ engine.saleOf zone position check = some .lock ↔
      check.bid ≤ position.exitPrice engine.state.config ∨
        position.Carried ∧ rule.lockMinPercent ≤ position.netPercent check.bid ∧
          ∃ peak, position.peakPercent = some peak ∧
            position.netPercent check.bid ≤ lockFloor peak engine.state.config := by
  rw [saleOf_level massive, Position.le_exitPrice_iff paid, position.marked_armed]
  rw [Position.NoNewPeak] at peak
  rw [peak]
  obtain ⟨made, isMade, under, _⟩ := position.marked_peak check.bid
  rw [peak] at isMade
  have stop := stopOf_pos engine.state.config
  cases armed : position.armed with
  | true =>
    obtain ⟨stored, isStored, least⟩ := sound armed
    rw [Position.level_armed armed isStored least]
    have floor := lockMin_le_lockFloor least engine.state.config
    have free : ¬ position.Carried := fun carried => by simp [carried.1] at armed
    constructor
    · rintro (stopped | ⟨_, other, isOther, locked⟩)
      · left
        linarith [lockMin_pos]
      · rw [isStored] at isOther
        cases isOther
        exact .inl locked
    · rintro (locked | ⟨carried, _⟩)
      · exact .inr ⟨.inl rfl, stored, isStored, locked⟩
      · exact absurd carried free
  | false =>
    rw [Position.level_unarmed armed]
    constructor
    · rintro (stopped | ⟨arming, other, isOther, locked⟩)
      · exact .inl stopped
      · have reached : rule.lockMinPercent ≤ position.netPercent check.bid := by
          rcases arming with never | reached
          · cases never
          · exact reached
        refine .inr ⟨⟨armed, made, isMade, reached.trans under⟩, reached, other, isOther, locked⟩
    · rintro (stopped | ⟨_, reached, other, isOther, locked⟩)
      · exact .inl stopped
      · exact .inr ⟨.inr reached, other, isOther, locked⟩

theorem check_held (keyed : engine.state.Keyed) {check : Check} {symbol : String} {position : Position}
    (held : (engine.check zone check).state.positions.get? symbol = some position) :
    ∃ before, engine.state.positions.get? symbol = some before ∧
      (position = before ∨ position = before.marked check.bid) := by
  unfold Engine.check at held
  split at held
  · exact ⟨position, held, .inl rfl⟩
  · rename_i judged found
    have named := keyed check.symbol judged found
    have marked : ∀ {other : Position}, (engine.mark (judged.marked check.bid) check.moment).state.positions.get?
        symbol = some other → ∃ before, engine.state.positions.get? symbol = some before ∧
          (other = before ∨ other = before.marked check.bid) := by
      intro other kept
      rcases mark_held kept with ⟨rfl, rfl⟩ | old
      · exact ⟨judged, by rw [← found, ← named]; rfl, .inr rfl⟩
      · exact ⟨other, old, .inl rfl⟩
    rcases @exit_cases zone engine judged check.market check.moment check.bid check.source
      with same | ⟨reason, same⟩
    · rw [same] at held
      exact marked held
    · rw [same] at held
      exact marked (sell_held held).2

theorem check_keyed (keyed : engine.state.Keyed) (check : Check) : (engine.check zone check).state.Keyed := by
  intro symbol position held
  obtain ⟨before, found, rfl | rfl⟩ := check_held keyed held
  · exact keyed symbol position found
  · exact keyed symbol before found

theorem check_config (engine : Engine) (check : Check) :
    (engine.check zone check).state.config = engine.state.config := by
  unfold Engine.check
  split
  · rfl
  · rename_i position _
    rcases @exit_cases zone engine position check.market check.moment check.bid check.source
      with same | ⟨reason, same⟩ <;> rw [same] <;> rfl

/-- Every held position is sound, and a carried one was carried at the start. -/
structure Locked (seed : EngineState) (engine : Engine) : Prop where
  keyed : engine.state.Keyed
  sound : ∀ symbol position, engine.state.positions.get? symbol = some position → position.Sound
  carried : ∀ symbol position, engine.state.positions.get? symbol = some position → position.Carried →
    ∃ stored, seed.positions.get? symbol = some stored ∧ stored.Carried

variable {seed : EngineState}

theorem checks_raised (locked : Locked seed engine) (checks : List Check) :
    Locked seed (engine.checks zone checks) ∧
      (engine.checks zone checks).state.config = engine.state.config ∧
      ∀ symbol position, (engine.checks zone checks).state.positions.get? symbol = some position →
        ∃ before, engine.state.positions.get? symbol = some before ∧
          before.Raised engine.state.config position := by
  induction checks generalizing engine with
  | nil => exact ⟨locked, rfl, fun symbol position held => ⟨position, held, .refl _ _⟩⟩
  | cons check rest ih =>
    have first : ∀ symbol position, (engine.check zone check).state.positions.get? symbol = some position →
        ∃ before, engine.state.positions.get? symbol = some before ∧ before.Sound ∧
          position.Sound ∧ before.Raised engine.state.config position := by
      intro symbol position held
      obtain ⟨before, found, moved⟩ := check_held locked.keyed held
      have sound := locked.sound symbol before found
      rcases moved with rfl | rfl
      · exact ⟨position, found, sound, sound, .refl _ _⟩
      · exact ⟨before, found, sound, Position.marked_sound sound _, Position.marked_raised sound _ _⟩
    have kept : Locked seed (engine.check zone check) := by
      refine ⟨check_keyed locked.keyed check, fun symbol position held => ?_,
        fun symbol position held carried => ?_⟩
      · obtain ⟨_, _, _, sound, _⟩ := first symbol position held
        exact sound
      · obtain ⟨before, found, _, _, raised⟩ := first symbol position held
        exact locked.carried symbol before found (raised.carried carried)
    obtain ⟨later, config, raised⟩ := ih kept
    rw [check_config] at config raised
    refine ⟨later, config, fun symbol position held => ?_⟩
    obtain ⟨middle, isMiddle, late⟩ := raised symbol position held
    obtain ⟨before, found, _, _, early⟩ := first symbol middle isMiddle
    exact ⟨before, found, early.trans late⟩

section Runs

theorem Locked.positions {after : Engine} (locked : Locked seed engine)
    (positions : after.state.positions = engine.state.positions) : Locked seed after := by
  refine ⟨fun symbol position held => ?_, fun symbol position held => ?_, fun symbol position held => ?_⟩
  · exact locked.keyed symbol position (positions ▸ held)
  · exact locked.sound symbol position (positions ▸ held)
  · exact locked.carried symbol position (positions ▸ held)

theorem locked_steady (seed : EngineState) : Steady (Locked seed) where
  keyed locked := locked.keyed
  frame frame locked := locked.positions frame.positions
  mark locked held _ moment := by
    rename_i engine position bid _
    have sound := locked.sound _ position held
    refine ⟨keyed_mark locked.keyed _ _, fun symbol other found => ?_, fun symbol other found carried => ?_⟩
    · rcases mark_held found with ⟨rfl, rfl⟩ | old
      · exact Position.marked_sound sound bid
      · exact locked.sound symbol other old
    · rcases mark_held found with ⟨rfl, rfl⟩ | old
      · exact locked.carried _ position held ((Position.marked_raised sound bid "").carried carried)
      · exact locked.carried symbol other old carried
  sell locked _ _ reason moment := by
    refine ⟨keyed_sell locked.keyed _ _ _ _ _, fun symbol other found => ?_, fun symbol other found => ?_⟩
    · exact locked.sound symbol other (sell_held found).2
    · exact locked.carried symbol other (sell_held found).2

theorem Locked.buy (locked : Locked seed engine) (cross : Cross) (purchase : Purchase) :
    Locked seed (engine.buy cross purchase) := by
  refine ⟨keyed_buy locked.keyed _ _, fun symbol position held => ?_, fun symbol position held => ?_⟩
  · simp only [Engine.buy, Dict.get?_insert] at held
    split at held
    · cases held
      exact fun never => by cases never
    · exact locked.sound symbol position held
  · simp only [Engine.buy, Dict.get?_insert] at held
    split at held
    · cases held
      rintro ⟨_, peak, never, _⟩
      cases never
    · exact locked.carried symbol position held

theorem Locked.act (locked : Locked seed engine) (act : Act) : Locked seed (engine.act zone act) := by
  cases act with
  | start day names =>
    apply locked.positions
    unfold Engine.act Engine.start
    simp only
    split <;> rfl
  | candidates opening => exact locked.positions (setCandidates_selected engine opening).positions
  | adopt tapes => exact locked.positions (adoptOpening_selected zone engine tapes).positions
  | step input => exact (locked_steady seed).step input (fun entry _ kept _ _ _ => kept.buy _ _) locked
  | fast pass => exact (locked_steady seed).fastExits pass locked
  | close =>
    have closed := closeSession_closed zone engine
    have young : ∀ symbol position, (engine.closeSession zone).state.positions.get? symbol = some position →
        ∃ younger, engine.state.positions.get? symbol = some younger ∧ position = younger.older := by
      intro symbol position held
      rw [closed.positions, Dict.get?_mapValues, Option.map_eq_some_iff] at held
      obtain ⟨younger, found, rfl⟩ := held
      exact ⟨younger, found, rfl⟩
    refine ⟨keyed_older locked.keyed closed.positions, fun symbol position held => ?_,
      fun symbol position held => ?_⟩
    · obtain ⟨younger, found, rfl⟩ := young symbol position held
      exact locked.sound symbol younger found
    · obtain ⟨younger, found, rfl⟩ := young symbol position held
      exact locked.carried symbol younger found

theorem Locked.run (locked : Locked seed engine) (acts : List Act) : Locked seed (engine.run zone acts) := by
  induction acts generalizing engine with
  | nil => exact locked
  | cons act rest ih => exact ih (locked.act act)

end Runs
end Engine

/-- A state whose positions lie under their symbols, armed only with a peak the ladder arms at. -/
structure EngineState.Locked (seed : EngineState) : Prop where
  keyed : seed.Keyed
  sound : ∀ symbol position, seed.positions.get? symbol = some position → position.Sound

theorem locked_of_entries {seed : EngineState} (entries : ∀ entry ∈ seed.positions.entries,
    entry.2.symbol = entry.1 ∧ entry.2.armed = false) : seed.Locked := by
  refine ⟨fun symbol position held => (entries _ (Dict.mem_entries.mpr held)).1,
    fun symbol position held armed => ?_⟩
  have unarmed := (entries _ (Dict.mem_entries.mpr held)).2
  simp [armed] at unarmed

section Examples

/-- A position carried from an earlier rule, whose lock armed only at 0.15%. -/
def carriedPosition : Position where
  symbol := "S2"
  market := "NYSE"
  shares := 500
  entryPrice := 100
  costUsd := 100005 / 2
  openedAt := fridayAt 9 35 0
  peakPercent := some (12 / 100)
  daysHeld := 1
  lastMark := some 100

def carriedBook : EngineState where
  navRealized := 60000
  positions := Dict.empty.insert "S2" carriedPosition
  lastSession := some (friday - 1)

/-- A check of the carried position on the bid of a net. -/
def checkAt (net : ℚ) : Check where
  symbol := "S2"
  moment := fridayAt 10 0 0
  bid := 100005 / 2 * (1 + net / 100) / (500 * (1 - feeSide))

theorem carriedBook_locked : carriedBook.Locked := locked_of_entries (by decide +kernel)

end Examples

/-- In every run from a locked state, a sequence of checks keeps the held positions sound and raises
their level, their lock and their peak, whose floor lies between the first step and the peak. A bid
that makes no new peak then sells by the stop or the lock exactly at the price shown and under it,
but for a position carried unarmed with its peak past the first step, which was so from the start. -/
theorem exit_level (zone : Zone) {seed : EngineState} (locked : seed.Locked) (day : Int)
    (names : List Member) (acts : List Act) (first rest : List Check) :
    (∀ config peak, rule.lockMinPercent ≤ peak →
      rule.lockMinPercent ≤ lockFloor peak config ∧ lockFloor peak config ≤ peak + 1 / 1000000000) ∧
    ∀ symbol position,
      let engine := (Engine.start seed day names).run zone acts
      let shown := (engine.checks zone first).checks zone rest
      shown.state.positions.get? symbol = some position →
        shown.state.config = engine.state.config ∧ position.Sound ∧
        (∃ before, (engine.checks zone first).state.positions.get? symbol = some before ∧
          before.Raised engine.state.config position) ∧
        (position.Carried → ∃ stored, seed.positions.get? symbol = some stored ∧ stored.Carried) ∧
        ∀ check : Check, check.symbol = symbol → check.source ≠ .stream → position.Paid →
          position.NoNewPeak check.bid →
          (shown.saleOf zone position check = some .hardStop ∨ shown.saleOf zone position check = some .lock ↔
            check.bid ≤ position.exitPrice shown.state.config ∨
              position.Carried ∧ rule.lockMinPercent ≤ position.netPercent check.bid ∧
                ∃ peak, position.peakPercent = some peak ∧
                  position.netPercent check.bid ≤ lockFloor peak shown.state.config) := by
  refine ⟨fun config peak reached => ⟨lockMin_le_lockFloor reached config, lockFloor_le peak config⟩, ?_⟩
  intro symbol position engine shown held
  have start : Engine.Locked seed (Engine.start seed day names) := by
    have positions : (Engine.start seed day names).state.positions = seed.positions := by
      unfold Engine.start
      simp only
      split <;> rfl
    refine ⟨?_, ?_, ?_⟩
    · intro symbol position held
      exact locked.keyed symbol position (positions ▸ held)
    · intro symbol position held
      exact locked.sound symbol position (positions ▸ held)
    · intro symbol position held carried
      exact ⟨position, positions ▸ held, carried⟩
  obtain ⟨kept, config, _⟩ := Engine.checks_raised (start.run acts) first
  obtain ⟨last, same, raised⟩ := Engine.checks_raised kept rest
  rw [config] at same raised
  have sound := last.sound symbol position held
  exact ⟨same, sound, raised symbol position held, last.carried symbol position held,
    fun check _ massive paid peak => Engine.saleOf_iff sound paid massive peak⟩

/-- A position that rose to 0.17% is sold at the step it reached. -/
theorem exit_level_step :
    let shown := ((Engine.start carriedBook friday []).checks eastern [checkAt (17 / 100)]).checks eastern []
    let position := carriedPosition.marked (checkAt (17 / 100)).bid
    shown.saleOf eastern position (checkAt (15 / 100)) = some .hardStop ∨
      shown.saleOf eastern position (checkAt (15 / 100)) = some .lock := by
  intro shown position
  have held : shown.state.positions.get? "S2" = some position := by decide +kernel
  obtain ⟨_, _, _, _, sold⟩ := (exit_level eastern carriedBook_locked friday [] [] [checkAt (17 / 100)] []).2
    "S2" position held
  have paid : position.Paid := by
    unfold Position.Paid
    decide +kernel
  have still : position.NoNewPeak (checkAt (15 / 100)).bid := by
    unfold Position.NoNewPeak
    decide +kernel
  exact (sold (checkAt (15 / 100)) rfl (by decide) paid still).mpr (.inl (by decide +kernel))

/-- The check that arms a carried position sells it above the price shown. -/
theorem carried_sold_above : ¬ ∀ (zone : Zone) (seed : EngineState), seed.Locked → ∀ (day : Int)
    (names : List Member) (checks : List Check) (symbol : String) (position : Position),
    let shown := (Engine.start seed day names).checks zone checks
    shown.state.positions.get? symbol = some position → ∀ check : Check, check.symbol = symbol →
      check.source ≠ .stream → position.Paid → position.NoNewPeak check.bid →
      (shown.saleOf zone position check = some .hardStop ∨ shown.saleOf zone position check = some .lock ↔
        check.bid ≤ position.exitPrice shown.state.config) := by
  intro claimed
  have shown := claimed eastern carriedBook carriedBook_locked friday [] [] "S2" carriedPosition
    (by decide +kernel) (checkAt (1 / 10)) rfl
    (by decide) (by unfold Position.Paid; decide +kernel) (by unfold Position.NoNewPeak; decide +kernel)
  exact absurd (shown.mp (.inr (by decide +kernel))) (by decide +kernel)

end C3po.Live
