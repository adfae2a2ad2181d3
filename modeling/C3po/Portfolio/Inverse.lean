import C3po.Portfolio.Grounds

/-! Reconstruction undoes the replay.

Where a symbol's movements lead exactly to its first informed position, undoing them
from that position, last one first, gives back what the replay held on each day before.
-/

set_option autoImplicit false

namespace C3po.Portfolio
open C3po.Library

theorem Position.record_undone {position recorded : Position} {event : Event} (held : 0 ≤ position.quantity)
    (move : event.kind ≠ .position) (ok : position.record event = .ok recorded) :
    0 ≤ recorded.quantity ∧
      if event.kind = .dividend then recorded.quantity = position.quantity else undo recorded.quantity event = .ok position.quantity := by
  unfold Position.record at ok
  obtain ⟨quantity, quantityOk, ok⟩ := bind_ok ok
  obtain ⟨total, totalOk, ok⟩ := bind_ok ok
  obtain ⟨fees, feesOk, ok⟩ := bind_ok ok
  obtain ⟨denominator, denominatorOk, ok⟩ := bind_ok ok
  obtain ⟨rfl, _⟩ := amount_ok quantityOk
  obtain ⟨rfl, denominatorNonneg⟩ := amount_ok denominatorOk
  have nonnegative : ¬ position.quantity < 0 := not_lt.mpr held
  cases kind : event.kind with
  | position => exact absurd kind move
  | buy =>
    simp only [kind] at ok
    split at ok
    · cases ok
    split at ok
    · cases ok
    rename_i _ bought
    cases ok
    refine ⟨add_nonneg held (not_le.mp bought).le, ?_⟩
    simp [undo, unmove, kind, quantityOk, bind, Except.bind, pure, Except.pure, nonnegative]
  | sell =>
    simp only [kind] at ok
    split at ok
    · cases ok
    split at ok
    · cases ok
    split at ok
    · cases ok
    rename_i _ sold _
    cases ok
    rw [not_or, not_lt] at sold
    refine ⟨sub_nonneg.mpr sold.2, ?_⟩
    simp [undo, unmove, kind, quantityOk, bind, Except.bind, pure, Except.pure, nonnegative]
  | dividend =>
    simp only [kind] at ok
    split at ok
    · cases ok
    split at ok
    · cases ok
    cases ok
    exact ⟨held, by simp⟩
  | split =>
    simp only [kind] at ok
    split at ok
    · cases ok
    split at ok
    · cases ok
    rename_i denominated scaled
    cases ok
    rw [not_or, not_le] at scaled
    rw [not_or, not_le] at denominated
    refine ⟨div_nonneg (mul_nonneg held scaled.1.le) denominatorNonneg, ?_⟩
    have whole : event.quantity ≠ 0 := scaled.1.ne'
    have back : position.quantity * event.quantity / event.splitDenominator * event.splitDenominator / event.quantity = position.quantity := by
      rw [div_mul_cancel₀ _ denominated.1.ne', mul_div_cancel_right₀ _ whole]
    simp [undo, unmove, kind, quantityOk, denominatorOk, bind, Except.bind, divide, whole, back, nonnegative]
  | other name =>
    simp only [kind] at ok
    split at ok
    · cases ok
    · cases ok

theorem recordOn_own {holdings next : Holdings} {event : Event} (ok : recordOn holdings event = .ok next) :
    (holdings.getD event.symbol {}).record event = .ok (next.getD event.symbol {}) := by
  obtain ⟨position, recorded, ok⟩ := bind_ok ok
  cases ok
  rw [recorded, Dict.getD_insert, if_pos rfl]

theorem replay_own {symbol : String} {day : Int} {line : List Event} (own : ∀ event ∈ line, event.symbol = symbol) {holdings final : Holdings}
    (ok : line.foldlM (fun holdings event => if (some day).any (· < event.day) then pure holdings else recordOn holdings event) holdings =
      .ok final) :
    (upTo day line).foldlM Position.record (holdings.getD symbol {}) = .ok (final.getD symbol {}) := by
  induction line generalizing holdings with
  | nil =>
    cases ok
    rfl
  | cons event rest ih =>
    obtain ⟨next, nextOk, restOk⟩ := foldlM_cons_ok ok
    have later := ih (fun other member => own other (List.mem_cons_of_mem _ member)) restOk
    have same : event.symbol = symbol := own event List.mem_cons_self
    by_cases before : event.day ≤ day
    · rw [if_neg (by simpa using before)] at nextOk
      have recorded := recordOn_own nextOk
      rw [same] at recorded
      have taken : upTo day (event :: rest) = event :: upTo day rest := List.filter_cons_of_pos (by simpa using before)
      rw [taken, List.foldlM_cons, recorded]
      exact later
    · rw [if_pos (by simpa using before)] at nextOk
      cases nextOk
      have left : upTo day (event :: rest) = upTo day rest := List.filter_cons_of_neg (by simpa using before)
      rw [left]
      exact later

theorem record_nonneg {line : List Event} {position final : Position} (start : 0 ≤ position.quantity)
    (ok : line.foldlM Position.record position = .ok final) : 0 ≤ final.quantity := by
  refine foldlM_keeps (fun position => 0 ≤ position.quantity) ?_ start ok
  intro event member position next held nextOk
  by_cases informed : event.kind = .position
  · obtain ⟨valid, quantity⟩ := Position.record_spec nextOk
    rw [quantity, carry_position informed]
    exact valid.quantity
  · exact (Position.record_undone held informed nextOk).1

theorem record_quantity {line : List Event} {position final : Position} (ok : line.foldlM Position.record position = .ok final) :
    final.quantity = line.foldl carry position.quantity := by
  induction line generalizing position with
  | nil =>
    cases ok
    rfl
  | cons event rest ih =>
    obtain ⟨next, nextOk, restOk⟩ := foldlM_cons_ok ok
    rw [ih restOk, (Position.record_spec nextOk).2, List.foldl_cons]

/-- A symbol's events lead exactly to the position it is reconstructed from, with no
movement on the day of that position. -/
structure Reached (events : List Event) (symbol : String) (snap : Event) : Prop where
  first : reference (timeline events symbol) = some snap
  clear : ∀ event ∈ timeline events symbol, event.day = snap.day → event.kind = .position ∨ event.kind = .dividend
  replayed : ∃ holdings, replay (eventsOf events symbol) (some (snap.day - 1)) = .ok holdings ∧ quantityOf holdings symbol = snap.quantity

section
variable {events : List Event} {symbol : String} {snap : Event} {day : Int} {closing : Bool}

theorem ordered_eventsOf (events : List Event) (symbol : String) : ordered (eventsOf events symbol) = timeline events symbol :=
  (stableSort_choose Event.key (fun event => event.symbol = symbol) events).symm

theorem Reached.loose (reached : Reached events symbol snap) (before : day < snap.day) : anchored events day symbol = false := by
  rw [← Bool.not_eq_true, anchored_iff]
  rintro ⟨event, member, informed, early⟩
  have least := (reference_spec reached.first (timeline_sorted events symbol)).2.2 event member informed
  omega

theorem Reached.later (reached : Reached events symbol snap) (before : day < snap.day) :
    (symbol, snap) ∈ (laterSnapshots events day).entries := by
  refine Dict.mem_entries.mpr ?_
  rw [laterSnapshots_reference (reached.loose before), reached.first]

theorem Reached.moves (reached : Reached events symbol snap) :
    movesUpTo events symbol day snap =
      (between day (snap.day - 1) (timeline events symbol)).filter fun event => event.kind ≠ .dividend := by
  unfold movesUpTo between timeline
  rw [List.filter_filter, List.filter_filter]
  refine List.filter_congr fun event member => ?_
  rw [Bool.eq_iff_iff]
  simp only [Bool.and_eq_true, decide_eq_true_eq]
  have least := (reference_spec reached.first (timeline_sorted events symbol)).2.2 event
  constructor
  · rintro ⟨own, move, paid, after, upTo⟩
    have clear := reached.clear event (mem_timeline.mpr ⟨mem_stableSort.mp member, own⟩)
    have apart : event.day ≠ snap.day := fun same => (clear same).elim move paid
    exact ⟨⟨paid, after, by omega⟩, own⟩
  · rintro ⟨⟨paid, after, upTo⟩, own⟩
    refine ⟨own, fun informed => ?_, paid, after, by omega⟩
    have := least (mem_timeline.mpr ⟨mem_stableSort.mp member, own⟩) informed
    omega

theorem Reached.undone (reached : Reached events symbol snap) (before : day < snap.day) :
    0 ≤ snap.quantity ∧
      (movesUpTo events symbol day snap).reverse.foldlM undo snap.quantity = .ok (forward (timeline events symbol) day) := by
  obtain ⟨holdings, replayed, exact⟩ := reached.replayed
  have line : (upTo (snap.day - 1) (timeline events symbol)).foldlM Position.record {} = .ok (holdings.getD symbol {}) := by
    rw [← ordered_eventsOf]
    refine replay_own (fun event member => ?_) replayed
    rw [ordered_eventsOf] at member
    exact (mem_timeline.mp member).2
  rw [upTo_split (timeline_sorted events symbol) (by omega : day ≤ snap.day - 1), List.foldlM_append] at line
  obtain ⟨middle, earlyOk, lateOk⟩ := bind_ok line
  have held : 0 ≤ middle.quantity := record_nonneg le_rfl earlyOk
  have carried : middle.quantity = forward (timeline events symbol) day := record_quantity earlyOk
  refine ⟨by rw [← exact]; exact record_nonneg held lateOk, ?_⟩
  rw [reached.moves, ← exact, ← carried]
  refine foldlM_back Position.quantity (fun position => 0 ≤ position.quantity) _ (fun event member position next kept nextOk => ?_) held lateOk
  have uninformed : event.kind ≠ .position := by
    intro informed
    obtain ⟨inLine, within⟩ := List.mem_filter.mp member
    have least := (reference_spec reached.first (timeline_sorted events symbol)).2.2 event inLine informed
    have within := of_decide_eq_true within
    omega
  obtain ⟨nonneg, undone⟩ := Position.record_undone kept uninformed nextOk
  refine ⟨nonneg, ?_⟩
  by_cases paid : event.kind = .dividend
  · rw [if_pos paid] at undone
    rw [if_neg (by simpa using paid)]
    exact undone
  · rw [if_neg paid] at undone
    rw [if_pos (by simpa using paid)]
    exact undone

theorem Reached.projected (reached : Reached events symbol snap) (before : day < snap.day) (reaches : Reaches day closing snap) :
    projected events day closing (symbol, snap) = .ok (some (forward (timeline events symbol) day)) := by
  obtain ⟨nonneg, undone⟩ := reached.undone before
  have near : ¬(day < cutoffOf snap.day ∨ (closing = true ∧ day = cutoffOf snap.day)) := by
    rw [not_or, not_lt]
    exact reaches
  have clear : ((movesUpTo events symbol day snap).any fun event => event.day = snap.day) = false := by
    rw [List.any_eq_false]
    intro event member
    rw [reached.moves] at member
    have within := of_decide_eq_true (List.mem_filter.mp (List.mem_filter.mp member).1).2
    have apart : event.day ≠ snap.day := by omega
    simpa using apart
  unfold Portfolio.projected
  dsimp only
  rw [reached.loose before, if_neg Bool.false_ne_true, if_neg near, clear, if_neg Bool.false_ne_true, amount_of_nonneg nonneg]
  show ((movesUpTo events symbol day snap).reverse.foldlM undo snap.quantity >>= fun quantity => pure (some quantity)) = _
  rw [undone]
  rfl

theorem projections_ok {entries : List (String × Event)} {holdings : Holdings} :
    (∃ final, entries.foldlM (projectBack events day closing) holdings = .ok final) ↔
      ∀ entry ∈ entries, ∃ quantity, Portfolio.projected events day closing entry = .ok quantity := by
  induction entries generalizing holdings with
  | nil => exact ⟨fun _ _ member => (nomatch member), fun _ => ⟨holdings, rfl⟩⟩
  | cons entry rest ih =>
    constructor
    · rintro ⟨final, ok⟩ other member
      obtain ⟨next, nextOk, restOk⟩ := foldlM_cons_ok ok
      rcases List.mem_cons.mp member with rfl | later
      · obtain ⟨quantity, projectedOk, _⟩ := projectBack_ok nextOk
        exact ⟨quantity, projectedOk⟩
      · exact ih.mp ⟨final, restOk⟩ other later
    · intro each
      obtain ⟨quantity, projectedOk⟩ := each entry List.mem_cons_self
      obtain ⟨final, restOk⟩ := ih.mpr fun other member => each other (List.mem_cons_of_mem _ member)
      refine ⟨final, ?_⟩
      rw [List.foldlM_cons, projectBack_eq, projectedOk]
      exact restOk

theorem quantityOf_projected {entries : List (String × Event)} (distinct : (entries.map Prod.fst).Nodup) {holdings final : Holdings}
    (ok : entries.foldlM (projectBack events day closing) holdings = .ok final) (member : (symbol, snap) ∈ entries) {quantity : ℚ}
    (found : Portfolio.projected events day closing (symbol, snap) = .ok (some quantity)) : quantityOf final symbol = quantity := by
  induction entries generalizing holdings with
  | nil => cases member
  | cons entry rest ih =>
    obtain ⟨next, nextOk, restOk⟩ := foldlM_cons_ok ok
    rw [List.map_cons, List.nodup_cons] at distinct
    rcases List.mem_cons.mp member with rfl | later
    · obtain ⟨written, writtenOk, rfl⟩ := projectBack_ok nextOk
      rw [found] at writtenOk
      cases writtenOk
      rw [quantityOf_projections restOk distinct.1, quantityOf_write, Option.getD_some]
    · exact ih distinct.2 restOk later

/-- On every day the first informed position reaches back to, the symbol's reconstruction
never fails and gives the quantity the replay holds: the holdings are refused only where the
replay of the ledger, or another symbol's reconstruction, is. -/
theorem holdingsAt_replayed (reached : Reached events symbol snap) (before : day < snap.day) (reaches : Reaches day closing snap) :
    ((∃ holdings, holdingsAt events day closing = .ok holdings) ↔
        (∃ replayed, replay events (some day) = .ok replayed) ∧
          ∀ entry ∈ (laterSnapshots events day).entries, entry.1 ≠ symbol → ∃ quantity, projected events day closing entry = .ok quantity) ∧
      ∀ holdings, holdingsAt events day closing = .ok holdings →
        ∃ replayed, replay events (some day) = .ok replayed ∧ quantityOf holdings symbol = quantityOf replayed symbol := by
  have own := reached.projected before reaches
  have listed := reached.later before
  refine ⟨⟨?_, ?_⟩, ?_⟩
  · rintro ⟨holdings, ok⟩
    obtain ⟨replayed, replayedOk, loopOk⟩ := bind_ok ok
    exact ⟨⟨replayed, replayedOk⟩, fun entry member _ => projections_ok.mp ⟨holdings, loopOk⟩ entry member⟩
  · rintro ⟨⟨replayed, replayedOk⟩, others⟩
    have each : ∀ entry ∈ (laterSnapshots events day).entries, ∃ quantity, projected events day closing entry = .ok quantity := by
      rintro ⟨other, later⟩ member
      by_cases same : other = symbol
      · subst same
        have found := (Dict.mem_entries.mp member).symm.trans (Dict.mem_entries.mp listed)
        cases found
        exact ⟨_, own⟩
      · exact others _ member same
    obtain ⟨final, loopOk⟩ := projections_ok.mpr each
    exact ⟨final, by rw [holdingsAt, replayedOk]; exact loopOk⟩
  · intro holdings ok
    obtain ⟨replayed, replayedOk, loopOk⟩ := bind_ok ok
    refine ⟨replayed, replayedOk, ?_⟩
    rw [quantityOf_projected (laterSnapshots events day).distinct loopOk listed own, replay_quantity replayedOk]

end

/-- Ten shares bought in January, split two for one in February and informed in March;
another symbol moves on the day it is informed. -/
def besideAmbiguous : List Event :=
  [{ symbol := "AAPL", kind := .buy, quantity := 10, total := 100, day := 739640, sequence := 1 },
    { symbol := "AAPL", kind := .split, quantity := 2, total := 0, day := 739650, sequence := 2 },
    { symbol := "AAPL", kind := .position, quantity := 20, total := 100, day := 739676, sequence := 3 },
    { symbol := "MSFT", kind := .buy, quantity := 5, total := 50, day := 739676, sequence := 4 },
    { symbol := "MSFT", kind := .position, quantity := 5, total := 50, day := 739676, sequence := 5 }]

def marchSnap : Event := { symbol := "AAPL", kind := .position, quantity := 20, total := 100, day := 739676, sequence := 3 }

theorem besideAmbiguous_reached : Reached besideAmbiguous "AAPL" marchSnap where
  first := by decide +kernel
  clear := by decide +kernel
  replayed := ⟨Dict.empty.insert "AAPL" { quantity := 20, basis := 100 }, by decide +kernel, by decide +kernel⟩

/-- The other symbol's reconstruction is refused, and the holdings with it. -/
theorem holdingsAt_besideAmbiguous : ¬ ∀ (events : List Event) (symbol : String) (snap : Event) (day : Int) (closing : Bool),
    Reached events symbol snap → day < snap.day → Reaches day closing snap →
      ∃ holdings replayed, holdingsAt events day closing = .ok holdings ∧ replay events (some day) = .ok replayed ∧
        quantityOf holdings symbol = quantityOf replayed symbol := by
  intro claim
  obtain ⟨holdings, _, ok, _⟩ := claim besideAmbiguous "AAPL" marchSnap 739645 false besideAmbiguous_reached (by decide) (by decide +kernel)
  have refused : holdingsAt besideAmbiguous 739645 = .error (.ambiguousDay "MSFT") := by decide +kernel
  rw [refused] at ok
  cases ok

/-- Without the other symbol, the ten shares of January are found again. -/
theorem holdingsAt_replayed_split : ∃ replayed, replay (besideAmbiguous.take 3) (some 739645) = .ok replayed ∧
    quantityOf (Dict.empty.insert "AAPL" { quantity := 10, basis := 100 }) "AAPL" = quantityOf replayed "AAPL" :=
  (holdingsAt_replayed
    { first := by decide +kernel
      clear := by decide +kernel
      replayed := ⟨Dict.empty.insert "AAPL" { quantity := 20, basis := 100 }, by decide +kernel, by decide +kernel⟩ }
    (by decide : (739645 : Int) < marchSnap.day) (by decide +kernel : Reaches 739645 false marchSnap)).2 _ (by decide +kernel)

end C3po.Portfolio
