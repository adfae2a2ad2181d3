import Mathlib.Data.Prod.Lex
import Mathlib.Data.String.Basic
import C3po.Library.Loops
import C3po.Library.Rounding
import C3po.Library.Spans
import C3po.Library.StableSort
import C3po.Paper.Stores

/-! The summary of the closed episodes of a session, read off the recorded trades.

The summary replays the legs with a tolerance of its own, and both stores hand it the trades of
the experiment: the dictionaries all of them, the tables those of the symbols sold that day.
-/

set_option autoImplicit false

namespace C3po.Paper
open C3po.Library

/-- An episode that is open in the replay. -/
structure Episode where
  quantity : ℚ := 0
  realizedPnlUsd : ℚ := 0
  strategyExcluded : Bool := false
  firstTradeId : String
  deriving DecidableEq

structure EpisodeDetail where
  episodeId : String
  market : String
  symbol : String
  netRealizedPnlUsd : ℚ
  closedAt : Int
  deriving DecidableEq

/-- The replay after some legs. -/
structure Replay where
  episodes : Dict (String × String) Episode
  positive : ℕ
  negative : ℕ
  flat : ℕ
  details : List EpisodeDetail

structure EpisodeSummary where
  sessionDate : Int
  closedEpisodes : ℕ
  decidedEpisodes : ℕ
  positiveEpisodes : ℕ
  negativeEpisodes : ℕ
  flatEpisodes : ℕ
  winRatePercent : ℚ
  closedEpisodeDetails : List EpisodeDetail
  deriving DecidableEq

/-- By how much a replayed sale may exceed its episode, and what it may leave of it. -/
def tolerance : ℚ := 1 / 10 ^ 6

def Replay.initial : Replay := ⟨.empty, 0, 0, 0, []⟩

def episodeId (key : String × String) (episode : Episode) : String := key.1 ++ ":" ++ key.2 ++ ":" ++ episode.firstTradeId

/-- A closed episode of the session is counted by its sign and listed. -/
def Replay.close (replay : Replay) (key : String × String) (episode : Episode) (closedAt : Int) : Replay :=
  let pnl := episode.realizedPnlUsd
  { replay with
    positive := if 0 < pnl then replay.positive + 1 else replay.positive
    negative := if 0 < pnl then replay.negative else if pnl < 0 then replay.negative + 1 else replay.negative
    flat := if 0 < pnl then replay.flat else if pnl < 0 then replay.flat else replay.flat + 1
    details := replay.details ++ [⟨episodeId key episode, key.1, key.2, roundTo 6 pnl, closedAt⟩] }

section Summary
variable (session : Int → Int) (date : Int)

def idText (fill : Fill) : String := toString fill.id

def buyLeg (replay : Replay) (fill : Fill) : Replay :=
  let episode := (replay.episodes.get? fill.key).getD { firstTradeId := idText fill }
  { replay with
    episodes := replay.episodes.insert fill.key
      { episode with
        quantity := episode.quantity + fill.quantity
        strategyExcluded := episode.strategyExcluded || (fill.corrected || fill.windDown) } }

def Episode.sold (episode : Episode) (fill : Fill) : Episode :=
  { episode with
    quantity := max 0 (episode.quantity - fill.quantity)
    realizedPnlUsd := if fill.corrected then episode.realizedPnlUsd else episode.realizedPnlUsd + fill.realized.getD 0
    strategyExcluded := episode.strategyExcluded || (fill.corrected || fill.windDown) }

def sellLeg (replay : Replay) (fill : Fill) : Except String Replay :=
  match replay.episodes.get? fill.key with
  | none =>
    if fill.corrected then .ok replay
    else .error ("R2D2 SELL begins an episode from flat at " ++ idText fill)
  | some episode =>
    if episode.quantity + tolerance < fill.quantity then .error ("R2D2 SELL exceeds episode quantity at " ++ idText fill)
    else
      let sold := episode.sold fill
      if tolerance < sold.quantity then .ok { replay with episodes := replay.episodes.insert fill.key sold }
      else
        let listed := if ¬ sold.strategyExcluded ∧ session fill.executedAt = date then replay.close fill.key sold fill.executedAt
          else replay
        .ok { listed with episodes := replay.episodes.erase fill.key }

def upperCase (side : String) : String := String.ofList (side.toList.map Char.toUpper)

def replayLeg (replay : Replay) (fill : Fill) : Except String Replay :=
  let side := upperCase fill.side
  if side ≠ "BUY" ∧ side ≠ "SELL" then .ok replay
  else if fill.quantity ≤ 0 then .error ("R2D2 episode ledger has non-positive quantity at " ++ idText fill)
  else if side = "BUY" then .ok (buyLeg replay fill)
  else sellLeg session date replay fill

/-- The order of the replay: by instant, then by id. -/
def legOrder (fill : Fill) : Int ×ₗ String := toLex (fill.executedAt, idText fill)

def Replay.summary (replay : Replay) : EpisodeSummary :=
  let decided := replay.positive + replay.negative
  { sessionDate := date
    closedEpisodes := decided + replay.flat
    decidedEpisodes := decided
    positiveEpisodes := replay.positive
    negativeEpisodes := replay.negative
    flatEpisodes := replay.flat
    winRatePercent := if decided = 0 then 0 else roundTo 2 (replay.positive / decided * 100)
    closedEpisodeDetails := replay.details }

/-- `_episode_summary_from_trades`. -/
def episodeSummaryFromTrades (trades : List Fill) : Except String EpisodeSummary := do
  let replay ← (stableSort legOrder trades).foldlM (replayLeg session date) .initial
  pure (replay.summary date)

end Summary

inductive Store where
  | tables
  | dictionaries
  deriving DecidableEq

namespace Store
variable (session : Int → Int) (date : Int)

def call : Store → Operation → Rows → Except Refusal Answer × Rows
  | tables => Sql.call
  | dictionaries => Memory.call

/-- The symbols sold on a day. -/
def targets (trades : List Fill) : List (String × String) :=
  (trades.filter fun fill => fill.side = "SELL" ∧ session fill.executedAt = date).map fun fill => fill.key

local instance lawfulPair : LawfulBEq (String × String) := inferInstance

/-- The trades a summary of a day is given. -/
def episodeTrades (trades : List Fill) : Store → List Fill
  | dictionaries => trades
  | tables => stableSort legOrder
      (trades.filter fun fill => fill.key ∈ targets session date trades ∧ session fill.executedAt ≤ date)

def episodeSummary (store : Store) (rows : Rows) : Except String EpisodeSummary :=
  episodeSummaryFromTrades session date (store.episodeTrades session date rows.trades)

end Store

/-! The flat-to-flat intervals of a book, and the replay of its trades.

An entry is a recorded trade with what the store holds of its symbol after it; an interval ends
where the store holds none. As long as no sale leaves less than the replay tolerates and more than
the store drops, the replay holds what the store holds.
-/

structure Entry where
  fill : Fill
  left : Option ℚ

namespace Entry

def key (entry : Entry) : String × String := entry.fill.key

/-- The store holds none of the symbol any more. -/
def flat (entry : Entry) : Bool := entry.left.isNone

end Entry

/-- What the store holds of a symbol after some trades. -/
def heldAfter (key : String × String) (entries : List Entry) : Option ℚ :=
  entries.foldl (fun held entry => if entry.key = key then entry.left else held) none

/-- The legs of the position that is held, and the closed intervals. -/
abbrev openLegs (key : String × String) (entries : List Entry) : List Entry := standing Entry.key Entry.flat key entries

abbrev closedIntervals (entries : List Entry) : List (Span Entry) := spans Entry.key Entry.flat entries

def realizedOf (legs : List Entry) : ℚ :=
  ((legs.filter fun entry => entry.fill.side = "SELL").map fun entry => entry.fill.realized.getD 0).sum

def listed (interval : Span Entry) : EpisodeDetail :=
  { episodeId := episodeId interval.last.key { firstTradeId := ((interval.events.head?.map Entry.fill).map idText).getD "" }
    market := interval.last.fill.market
    symbol := interval.last.fill.symbol
    netRealizedPnlUsd := roundTo 6 (realizedOf interval.events)
    closedAt := interval.last.fill.executedAt }

/-- What an accepted trade does to the holding of its symbol. -/
inductive Booked (before : Option ℚ) (entry : Entry) : Prop where
  | bought (side : entry.fill.side = "BUY") (left : entry.left = some (before.getD 0 + entry.fill.quantity))
  | sold {held : ℚ} (side : entry.fill.side = "SELL") (before : before = some held)
      (covered : entry.fill.quantity ≤ held + dust)
      (left : entry.left = if held - entry.fill.quantity ≤ dust then none else some (held - entry.fill.quantity))

/-- The trades of a store, in the order it accepted them. -/
inductive Ledgered : List Entry → Prop where
  | nil : Ledgered []
  | snoc {entries : List Entry} {entry : Entry} (before : Ledgered entries) (booked : Booked (heldAfter entry.key entries) entry) :
      Ledgered (entries ++ [entry])

/-- No sale leaves a residue that the store keeps and the replay drops. -/
def NoResidue (entries : List Entry) : Prop :=
  ∀ entry ∈ entries, entry.fill.side = "SELL" → ∀ left ∈ entry.left, tolerance < left

def Positive (entries : List Entry) : Prop := ∀ entry ∈ entries, 0 < entry.fill.quantity

def PlainLegs (entries : List Entry) : Prop := ∀ entry ∈ entries, entry.fill.corrected = false ∧ entry.fill.windDown = false

section Holdings
variable {key : String × String} {entries : List Entry} {entry : Entry}

theorem heldAfter_snoc : heldAfter key (entries ++ [entry]) = if entry.key = key then entry.left else heldAfter key entries := by
  unfold heldAfter
  rw [List.foldl_append]
  rfl

theorem heldAfter_filter {chosen : String × String → Bool} (kept : chosen key = true) :
    heldAfter key (entries.filter fun entry => chosen entry.key) = heldAfter key entries := by
  induction entries using List.reverseRecOn with
  | nil => rfl
  | append_singleton entries entry ih =>
    rw [List.filter_append, heldAfter_snoc, ← ih]
    by_cases here : chosen entry.key = true
    · rw [@filter_one _ entry (fun entry => chosen entry.key) here, heldAfter_snoc]
    · have apart : entry.key ≠ key := fun own => here (own ▸ kept)
      rw [@filter_none _ entry (fun entry => chosen entry.key) here, List.append_nil, if_neg apart]

theorem ledgered_snoc (ledgered : Ledgered (entries ++ [entry])) : Ledgered entries ∧ Booked (heldAfter entry.key entries) entry := by
  generalize whole : entries ++ [entry] = log at ledgered
  cases ledgered with
  | nil => exact absurd (congrArg List.length whole) (by simp)
  | snoc before booked =>
    obtain ⟨rfl, same⟩ := List.append_inj' whole rfl
    cases same
    exact ⟨before, booked⟩

theorem Ledgered.filter (ledgered : Ledgered entries) (chosen : String × String → Bool) :
    Ledgered (entries.filter fun entry => chosen entry.key) := by
  induction ledgered with
  | nil => exact .nil
  | @snoc entries entry before booked ih =>
    rw [List.filter_append]
    by_cases here : chosen entry.key = true
    · rw [@filter_one _ entry (fun entry => chosen entry.key) here]
      refine .snoc ih ?_
      rw [heldAfter_filter here]
      exact booked
    · rw [@filter_none _ entry (fun entry => chosen entry.key) here, List.append_nil]
      exact ih

theorem Ledgered.before {first rest : List Entry} (ledgered : Ledgered (first ++ rest)) : Ledgered first := by
  induction rest using List.reverseRecOn with
  | nil => rwa [List.append_nil] at ledgered
  | append_singleton rest entry ih =>
    rw [← List.append_assoc] at ledgered
    exact ih (ledgered_snoc ledgered).1

theorem openLegs_nil_iff (ledgered : Ledgered entries) : openLegs key entries = [] ↔ heldAfter key entries = none := by
  induction ledgered with
  | nil => exact ⟨fun _ => rfl, fun _ => rfl⟩
  | @snoc entries entry before booked ih =>
    rw [openLegs, standing_snoc, heldAfter_snoc]
    split
    · cases left : entry.left with
      | none =>
        rw [if_pos (by rw [Entry.flat, left]; rfl)]
        exact ⟨fun _ => rfl, fun _ => rfl⟩
      | some quantity =>
        rw [if_neg (by rw [Entry.flat, left]; exact Bool.false_ne_true)]
        exact ⟨fun empty => absurd empty (List.append_ne_nil_of_right_ne_nil _ (List.cons_ne_nil _ _)), fun none => by cases none⟩
    · exact ih

theorem realizedOf_snoc : realizedOf (entries ++ [entry]) =
    realizedOf entries + if entry.fill.side = "SELL" then entry.fill.realized.getD 0 else 0 := by
  unfold realizedOf
  by_cases sell : entry.fill.side = "SELL" <;> simp [sell]

end Holdings

section Following
variable (session : Int → Int) (date : Int)

/-- The intervals that ended on a day. -/
def closedOn (entries : List Entry) : List (Span Entry) :=
  (closedIntervals entries).filter fun interval => session interval.last.fill.executedAt = date

/-- The episode the replay has open for a symbol. -/
def episodeOf (legs : List Entry) (quantity : ℚ) : Episode :=
  ⟨quantity, realizedOf legs, false, ((legs.head?.map Entry.fill).map idText).getD ""⟩

/-- The replay holds what the store holds, and has counted and listed the intervals of the day. -/
structure Follows (entries : List Entry) (replay : Replay) : Prop where
  episodes : ∀ key, replay.episodes.get? key = (heldAfter key entries).map (episodeOf (openLegs key entries))
  details : replay.details = (closedOn session date entries).map listed
  positive : replay.positive = (closedOn session date entries).countP fun interval => 0 < realizedOf interval.events
  negative : replay.negative = (closedOn session date entries).countP fun interval => realizedOf interval.events < 0
  flat : replay.flat = (closedOn session date entries).countP fun interval => realizedOf interval.events = 0

variable {session date} {entries : List Entry} {entry : Entry} {replay : Replay}

theorem Follows.initial : Follows session date [] .initial := ⟨fun _ => rfl, rfl, rfl, rfl, rfl⟩

theorem closedOn_snoc_open (stays : entry.left ≠ none) : closedOn session date (entries ++ [entry]) = closedOn session date entries := by
  unfold closedOn closedIntervals
  rw [spans_snoc, if_neg]
  intro flat
  exact stays (Option.isNone_iff_eq_none.mp flat)

theorem closedOn_snoc_flat (gone : entry.left = none) : closedOn session date (entries ++ [entry]) =
    closedOn session date entries ++
      if session entry.fill.executedAt = date then [⟨entry, openLegs entry.key entries ++ [entry]⟩] else [] := by
  unfold closedOn closedIntervals
  rw [spans_snoc, if_pos (by rw [Entry.flat, gone]; rfl), List.filter_append]
  by_cases today : session entry.fill.executedAt = date
  · simp only [List.filter_cons, today, decide_true, if_true, List.filter_nil]
  · simp only [List.filter_cons, today, decide_false, Bool.false_eq_true, if_false, List.filter_nil]

theorem openLegs_snoc (stays : entry.left ≠ none) : openLegs entry.key (entries ++ [entry]) = openLegs entry.key entries ++ [entry] := by
  rw [openLegs, standing_snoc, if_pos rfl, if_neg]
  intro flat
  exact stays (Option.isNone_iff_eq_none.mp flat)

theorem other_episodes {key : String × String} (apart : ¬ entry.key = key) :
    (heldAfter key (entries ++ [entry])).map (episodeOf (openLegs key (entries ++ [entry]))) =
      (heldAfter key entries).map (episodeOf (openLegs key entries)) := by
  rw [heldAfter_snoc, if_neg apart, openLegs, standing_snoc, if_neg apart]

theorem Follows.stays (follows : Follows session date entries replay) (stays : entry.left ≠ none) {next : Replay} {episode : Episode}
    (episodes : next.episodes = replay.episodes.insert entry.key episode)
    (same : next.positive = replay.positive ∧ next.negative = replay.negative ∧ next.flat = replay.flat ∧ next.details = replay.details)
    (is : some episode = entry.left.map (episodeOf (openLegs entry.key entries ++ [entry]))) :
    Follows session date (entries ++ [entry]) next := by
  have none := @closedOn_snoc_open session date entries entry stays
  constructor
  · intro key
    rw [episodes, Dict.get?_insert]
    split
    · rename_i own
      rw [own, heldAfter_snoc, if_pos rfl, openLegs_snoc stays]
      exact is
    · rename_i apart
      rw [other_episodes (Ne.symm apart)]
      exact follows.episodes key
  · rw [none, same.2.2.2]
    exact follows.details
  · rw [none, same.1]
    exact follows.positive
  · rw [none, same.2.1]
    exact follows.negative
  · rw [none, same.2.2.1]
    exact follows.flat

end Following

/-! The replay of the trades of a book lists its intervals. -/

section Steps
variable {session : Int → Int} {date : Int} {entries : List Entry} {entry : Entry} {replay : Replay}

theorem upper_buy : upperCase "BUY" = "BUY" := by decide +kernel

theorem upper_sell : upperCase "SELL" = "SELL" := by decide +kernel

theorem replay_buy (side : entry.fill.side = "BUY") (positive : 0 < entry.fill.quantity) :
    replayLeg session date replay entry.fill = .ok (buyLeg replay entry.fill) := by
  unfold replayLeg
  rw [side, upper_buy]
  simp [not_le.mpr positive]

theorem replay_sell (side : entry.fill.side = "SELL") (positive : 0 < entry.fill.quantity) :
    replayLeg session date replay entry.fill = sellLeg session date replay entry.fill := by
  unfold replayLeg
  rw [side, upper_sell]
  simp [not_le.mpr positive]

theorem Follows.bought (follows : Follows session date entries replay) (ledgered : Ledgered entries)
    (plain : entry.fill.corrected = false ∧ entry.fill.windDown = false) (side : entry.fill.side = "BUY")
    (left : entry.left = some ((heldAfter entry.key entries).getD 0 + entry.fill.quantity)) :
    Follows session date (entries ++ [entry]) (buyLeg replay entry.fill) := by
  have before : replay.episodes.get? entry.fill.key = _ := follows.episodes entry.key
  have stays : entry.left ≠ none := by
    rw [left]
    exact Option.some_ne_none _
  refine follows.stays stays rfl ⟨rfl, rfl, rfl, rfl⟩ ?_
  have realized : realizedOf (openLegs entry.key entries ++ [entry]) = realizedOf (openLegs entry.key entries) := by
    rw [realizedOf_snoc, side, if_neg (by decide), add_zero]
  rw [left, before, Option.map_some, episodeOf, realized]
  cases held : heldAfter entry.key entries with
  | none =>
    have empty : openLegs entry.key entries = [] := (openLegs_nil_iff ledgered).mpr held
    simp [empty, plain, realizedOf]
  | some quantity =>
    have legs : openLegs entry.key entries ≠ [] := by
      intro empty
      rw [(openLegs_nil_iff ledgered).mp empty] at held
      cases held
    obtain ⟨first, rest, same⟩ := List.exists_cons_of_ne_nil legs
    simp [same, plain, episodeOf]

theorem tolerance_covers : dust < tolerance := by
  unfold dust tolerance
  norm_num

theorem Follows.sold_episode (follows : Follows session date entries replay)
    (plain : entry.fill.corrected = false ∧ entry.fill.windDown = false) (side : entry.fill.side = "SELL") {held : ℚ}
    (before : heldAfter entry.key entries = some held) (legs : openLegs entry.key entries ≠ []) :
    ∃ episode, replay.episodes.get? entry.fill.key = some episode ∧ episode.quantity = held ∧
      episode.sold entry.fill = episodeOf (openLegs entry.key entries ++ [entry]) (max 0 (held - entry.fill.quantity)) := by
  refine ⟨_, (follows.episodes entry.key).trans (by rw [before]; rfl), rfl, ?_⟩
  obtain ⟨first, rest, same⟩ := List.exists_cons_of_ne_nil legs
  unfold Episode.sold episodeOf
  rw [realizedOf_snoc, if_pos side]
  simp [same, plain]

theorem Follows.erased (follows : Follows session date entries replay) (gone : entry.left = none) (key : String × String) :
    (replay.episodes.erase entry.key).get? key =
      (heldAfter key (entries ++ [entry])).map (episodeOf (openLegs key (entries ++ [entry]))) := by
  rw [Dict.get?_erase]
  split
  · rename_i own
    rw [heldAfter_snoc, if_pos own.symm, gone]
    rfl
  · rename_i apart
    rw [other_episodes (Ne.symm apart)]
    exact follows.episodes key

theorem Follows.closed_before (follows : Follows session date entries replay) (gone : entry.left = none)
    (other : session entry.fill.executedAt ≠ date) :
    Follows session date (entries ++ [entry]) { replay with episodes := replay.episodes.erase entry.fill.key } := by
  have same : closedOn session date (entries ++ [entry]) = closedOn session date entries := by
    rw [closedOn_snoc_flat gone, if_neg other, List.append_nil]
  constructor
  · exact follows.erased gone
  · rw [same]
    exact follows.details
  · rw [same]
    exact follows.positive
  · rw [same]
    exact follows.negative
  · rw [same]
    exact follows.flat

theorem Follows.closed_today (follows : Follows session date entries replay) (gone : entry.left = none)
    (today : session entry.fill.executedAt = date) (quantity : ℚ) :
    Follows session date (entries ++ [entry])
      { replay.close entry.fill.key (episodeOf (openLegs entry.key entries ++ [entry]) quantity) entry.fill.executedAt with
        episodes := replay.episodes.erase entry.fill.key } := by
  have snoc := @closedOn_snoc_flat session date entries entry gone
  rw [if_pos today] at snoc
  constructor
  · exact follows.erased gone
  · rw [snoc, List.map_append, ← follows.details]
    simp [Replay.close, listed, episodeOf, episodeId, Entry.key, Trade.key]
  · rw [snoc, List.countP_append, ← follows.positive]
    by_cases gains : 0 < realizedOf (openLegs entry.key entries ++ [entry]) <;> simp [Replay.close, episodeOf, gains]
  · rw [snoc, List.countP_append, ← follows.negative]
    by_cases gains : 0 < realizedOf (openLegs entry.key entries ++ [entry])
    · simp [Replay.close, episodeOf, gains, gains.le]
    · by_cases loses : realizedOf (openLegs entry.key entries ++ [entry]) < 0 <;> simp [Replay.close, episodeOf, gains, loses]
  · rw [snoc, List.countP_append, ← follows.flat]
    by_cases gains : 0 < realizedOf (openLegs entry.key entries ++ [entry])
    · simp [Replay.close, episodeOf, gains, gains.ne']
    · by_cases loses : realizedOf (openLegs entry.key entries ++ [entry]) < 0
      · simp [Replay.close, episodeOf, gains, loses, loses.ne]
      · have zero : realizedOf (openLegs entry.key entries ++ [entry]) = 0 := le_antisymm (not_lt.mp gains) (not_lt.mp loses)
        simp [Replay.close, episodeOf, zero]

theorem Follows.sold (follows : Follows session date entries replay) (ledgered : Ledgered entries)
    (plain : entry.fill.corrected = false ∧ entry.fill.windDown = false) (side : entry.fill.side = "SELL")
    {held : ℚ} (before : heldAfter entry.key entries = some held) (covered : entry.fill.quantity ≤ held + dust)
    (left : entry.left = if held - entry.fill.quantity ≤ dust then none else some (held - entry.fill.quantity))
    (clean : ∀ left ∈ entry.left, tolerance < left) :
    ∃ next, sellLeg session date replay entry.fill = .ok next ∧ Follows session date (entries ++ [entry]) next := by
  have legs : openLegs entry.key entries ≠ [] := by
    intro empty
    rw [(openLegs_nil_iff ledgered).mp empty] at before
    cases before
  obtain ⟨episode, found, quantity, sold⟩ := follows.sold_episode plain side before legs
  have enough : ¬ episode.quantity + tolerance < entry.fill.quantity := by
    rw [quantity]
    linarith [tolerance_covers]
  unfold sellLeg
  rw [found]
  dsimp only
  rw [if_neg enough, sold]
  by_cases gone : held - entry.fill.quantity ≤ dust
  · rw [if_pos gone] at left
    have closes : ¬ tolerance < max 0 (held - entry.fill.quantity) := by
      have small : (0 : ℚ) ≤ tolerance := by unfold tolerance; norm_num
      exact not_lt.mpr (max_le small (gone.trans tolerance_covers.le))
    refine ⟨_, if_neg closes, ?_⟩
    by_cases today : session entry.fill.executedAt = date
    · rw [if_pos ⟨Bool.false_ne_true, today⟩]
      exact follows.closed_today left today _
    · rw [if_neg fun both => today both.2]
      exact follows.closed_before left today
  · rw [if_neg gone] at left
    have kept : tolerance < held - entry.fill.quantity := clean _ left
    have positive : 0 ≤ held - entry.fill.quantity := by
      have small : (0 : ℚ) ≤ tolerance := by unfold tolerance; norm_num
      linarith
    rw [max_eq_right positive]
    refine ⟨_, if_pos kept, ?_⟩
    have stays : entry.left ≠ none := by
      rw [left]
      exact Option.some_ne_none _
    refine follows.stays stays rfl ⟨rfl, rfl, rfl, rfl⟩ ?_
    rw [left]
    rfl

end Steps

section Replays
variable {session : Int → Int} {date : Int} {entries : List Entry} {entry : Entry} {replay : Replay}

theorem replay_follows (ledgered : Ledgered entries) (plain : PlainLegs entries) (positive : Positive entries)
    (clean : NoResidue entries) : ∃ replay, (entries.map Entry.fill).foldlM (replayLeg session date) .initial = .ok replay ∧
      Follows session date entries replay := by
  induction ledgered with
  | nil => exact ⟨.initial, rfl, .initial⟩
  | @snoc entries entry before booked ih =>
    have last : entry ∈ entries ++ [entry] := List.mem_append_right _ List.mem_cons_self
    obtain ⟨replay, ran, follows⟩ := ih (fun other here => plain other (List.mem_append_left _ here))
      (fun other here => positive other (List.mem_append_left _ here))
      (fun other here => clean other (List.mem_append_left _ here))
    have turn : ∃ next, replayLeg session date replay entry.fill = .ok next ∧ Follows session date (entries ++ [entry]) next := by
      cases booked with
      | bought side left =>
        exact ⟨_, replay_buy side (positive entry last), follows.bought before (plain entry last) side left⟩
      | sold side held covered left =>
        rw [replay_sell side (positive entry last)]
        exact follows.sold before (plain entry last) side held covered left (clean entry last side)
    obtain ⟨next, stepped, stays⟩ := turn
    refine ⟨next, ?_, stays⟩
    rw [List.map_append, List.foldlM_append, ran]
    exact (bind_pure _).trans stepped

theorem replayLeg_lists {fill : Fill} {next : Replay} (stepped : replayLeg session date replay fill = .ok next)
    {detail : EpisodeDetail} (here : detail ∈ replay.details) : detail ∈ next.details := by
  unfold replayLeg at stepped
  dsimp only at stepped
  split at stepped
  · cases stepped
    exact here
  · split at stepped
    · cases stepped
    · split at stepped
      · cases stepped
        exact here
      · unfold sellLeg at stepped
        split at stepped
        · split at stepped
          · cases stepped
            exact here
          · cases stepped
        · dsimp only at stepped
          split at stepped
          · cases stepped
          · split at stepped
            · cases stepped
              exact here
            · cases stepped
              dsimp only
              split
              · exact List.mem_append_left _ here
              · exact here

theorem foldlM_lists {fills : List Fill} {final : Replay} (ran : fills.foldlM (replayLeg session date) replay = .ok final)
    {detail : EpisodeDetail} (here : detail ∈ replay.details) : detail ∈ final.details := by
  induction fills generalizing replay with
  | nil =>
    cases ran
    exact here
  | cons fill rest ih =>
    obtain ⟨next, stepped, goes⟩ := foldlM_cons_ok ran
    exact ih goes (replayLeg_lists stepped here)

theorem residue_listed {after : List Fill} {final : Replay} (ledgered : Ledgered (entries ++ [entry])) (plain : PlainLegs (entries ++ [entry]))
    (positive : Positive (entries ++ [entry])) (clean : NoResidue entries) (side : entry.fill.side = "SELL") {left : ℚ}
    (kept : entry.left = some left) (small : left ≤ tolerance) (today : session entry.fill.executedAt = date)
    (ran : ((entries.map Entry.fill) ++ entry.fill :: after).foldlM (replayLeg session date) .initial = .ok final) :
    ∃ detail ∈ final.details, detail.closedAt = entry.fill.executedAt := by
  have last : entry ∈ entries ++ [entry] := List.mem_append_right _ List.mem_cons_self
  obtain ⟨before, booked⟩ := ledgered_snoc ledgered
  obtain ⟨replay, started, follows⟩ := @replay_follows session date _ before
    (fun other here => plain other (List.mem_append_left _ here))
    (fun other here => positive other (List.mem_append_left _ here)) clean
  rw [List.foldlM_append, started] at ran
  obtain ⟨next, stepped, goes⟩ := foldlM_cons_ok ran
  rw [replay_sell side (positive entry last)] at stepped
  cases booked with
  | bought buys => exact absurd (buys.symm.trans side) (by decide)
  | @sold held _ held_ covered stays =>
    have legs : openLegs entry.key entries ≠ [] := by
      intro empty
      rw [(openLegs_nil_iff before).mp empty] at held_
      cases held_
    obtain ⟨episode, found, quantity, sold⟩ := follows.sold_episode (plain entry last) side held_ legs
    rw [kept] at stays
    have rest : left = held - entry.fill.quantity := by
      split at stays
      · cases stays
      · exact Option.some.inj stays
    unfold sellLeg at stepped
    rw [found] at stepped
    dsimp only at stepped
    split at stepped
    · cases stepped
    · rw [sold] at stepped
      have closes : ¬ tolerance < max 0 (held - entry.fill.quantity) := by
        have least : (0 : ℚ) ≤ tolerance := by unfold tolerance; norm_num
        rw [← rest]
        exact not_lt.mpr (max_le least small)
      have closed := (if_neg closes).symm.trans stepped
      rw [if_pos ⟨Bool.false_ne_true, today⟩] at closed
      cases closed
      exact ⟨_, foldlM_lists goes (List.mem_append_right _ List.mem_cons_self), rfl⟩

end Replays

end C3po.Paper
