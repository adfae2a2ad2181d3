import Mathlib.Tactic.Linarith
import C3po.Portfolio.Timeline

/-! Corrections on a timeline.

An informed position that disagrees with the holding carried to it changes the
holding without a trade. The scan for restatements finds these jumps, except the
same-day fixes: over a stretch of days with no restatement, a timeline of trades and
informed positions moves by its trades and its same-day fixes only.
-/

set_option autoImplicit false

namespace C3po.Portfolio
open C3po.Library

/-- Buys, sells and informed positions, whose amounts are in order. -/
structure Event.Plain (event : Event) : Prop where
  kind : event.kind = .position ∨ event.kind = .buy ∨ event.kind = .sell
  valid : event.Valid

/-- The last informed position, as long as nothing moved since. -/
def informedAfter (last : Option (Int × ℚ)) (event : Event) : Option (Int × ℚ) :=
  match event.kind with
  | .position => some (event.day, event.quantity)
  | .dividend => last
  | _ => none

def fixOf (last : Option (Int × ℚ)) (event : Event) : List (Int × ℚ) :=
  match last with
  | some (day, quantity) =>
      if event.kind = .position ∧ day = event.day then [(day, event.quantity - quantity)] else []
  | none => []

/-- The informed positions that follow another of the same day, nothing moving between,
each with its day and what it changes. -/
def sameDayFixes : Option (Int × ℚ) → List Event → List (Int × ℚ)
  | _, [] => []
  | last, event :: rest => fixOf last event ++ sameDayFixes (informedAfter last event) rest

def changeOf (fixes : List (Int × ℚ)) : ℚ := (fixes.map Prod.snd).sum

theorem sameDayFixes_append (last : Option (Int × ℚ)) (first second : List Event) :
    sameDayFixes last (first ++ second) =
      sameDayFixes last first ++ sameDayFixes (first.foldl informedAfter last) second := by
  induction first generalizing last with
  | nil => rfl
  | cons event rest ih => simp only [List.cons_append, sameDayFixes, ih, List.append_assoc, List.foldl_cons]

theorem mem_sameDayFixes {last : Option (Int × ℚ)} {line : List Event} {fix : Int × ℚ}
    (member : fix ∈ sameDayFixes last line) :
    ∃ event ∈ line, event.kind = .position ∧ event.day = fix.1 := by
  induction line generalizing last with
  | nil => cases member
  | cons event rest ih =>
    rcases List.mem_append.mp member with here | later
    · unfold fixOf at here
      split at here
      · split at here
        · rename_i hit
          obtain rfl := List.mem_singleton.mp here
          exact ⟨event, by simp, hit.1, hit.2.symm⟩
        · cases here
      · cases here
    · obtain ⟨other, otherIn, spec⟩ := ih later
      exact ⟨other, by simp [otherIn], spec⟩

/-- The scan's step on an event with valid amounts that does not split. -/
def Scan.step (scan : Scan) (event : Event) : Scan :=
  match event.kind with
  | .position => scan.inform event.quantity event.day
  | _ => { scan with moved := true, quantity := scan.quantity.map (· + signed event) }

theorem Scan.record_plain {event : Event} (plain : event.Plain) (scan : Scan) :
    scan.record event = .ok (scan.step event) := by
  have quantityOk := amount_of_nonneg plain.valid.quantity
  unfold Scan.record Scan.step signed
  rcases plain.kind with kind | kind | kind
  · simp only [kind, if_true, quantityOk]
    rfl
  · cases scan.quantity <;> simp [kind, quantityOk, pure, Except.pure, bind, Except.bind]
  · cases scan.quantity <;>
      simp [kind, quantityOk, pure, Except.pure, bind, Except.bind, sub_eq_add_neg]

/-- The last informed position the scan still trusts. -/
def Scan.last (scan : Scan) : Option (Int × ℚ) :=
  if scan.moved then none else
    match scan.informedDay, scan.quantity with
    | some day, some quantity => some (day, quantity)
    | _, _ => none

theorem Scan.last_step {event : Event} (plain : event.Plain) (scan : Scan) :
    (scan.step event).last = informedAfter scan.last event := by
  rcases plain.kind with kind | kind | kind <;> simp [Scan.step, kind, Scan.last, informedAfter, Scan.inform]

theorem Scan.last_foldl {line : List Event} (plain : ∀ event ∈ line, event.Plain) (scan : Scan) :
    (line.foldl Scan.step scan).last = line.foldl informedAfter scan.last := by
  induction line generalizing scan with
  | nil => rfl
  | cons event rest ih =>
    rw [List.foldl_cons, List.foldl_cons, ih (fun other member => plain other (by simp [member])),
      Scan.last_step (plain event (by simp))]

theorem Scan.found_step {scan : Scan} {day : Int} (known : day ∈ scan.found) (event : Event) :
    day ∈ (scan.step event).found := by
  unfold Scan.step Scan.inform
  split
  · simp only
    split
    · exact List.mem_append_left _ known
    · exact known
  · exact known

theorem Scan.found_foldl {scan : Scan} {day : Int} (known : day ∈ scan.found) (line : List Event) :
    day ∈ (line.foldl Scan.step scan).found := by
  induction line generalizing scan with
  | nil => exact known
  | cons event rest ih => exact ih (Scan.found_step known event)

theorem carry_move {event : Event} (plain : event.Plain) (move : event.kind ≠ .position) (quantity : ℚ) :
    carry quantity event = quantity + signed event := by
  unfold carry signed
  rcases plain.kind with kind | kind | kind
  · exact absurd kind move
  · rw [kind]
  · rw [kind, sub_eq_add_neg]

theorem carry_position {event : Event} (informed : event.kind = .position) (quantity : ℚ) :
    carry quantity event = event.quantity := by
  simp [carry, informed]

theorem Scan.quantity_step {event : Event} (plain : event.Plain) {scan : Scan} {quantity : ℚ}
    (known : scan.quantity = some quantity) : (scan.step event).quantity = some (carry quantity event) := by
  by_cases informed : event.kind = .position
  · rw [carry_position informed]
    simp [Scan.step, Scan.inform, informed]
  · rw [carry_move plain informed]
    simp [Scan.step, known]

theorem Scan.quantity_foldl {line : List Event} (plain : ∀ event ∈ line, event.Plain) {scan : Scan}
    {quantity : ℚ} (known : scan.quantity = some quantity) :
    (line.foldl Scan.step scan).quantity = some (line.foldl carry quantity) := by
  induction line generalizing scan quantity with
  | nil => exact known
  | cons event rest ih =>
    exact ih (fun other member => plain other (by simp [member]))
      (Scan.quantity_step (plain event (by simp)) known)

theorem Scan.quantity_informed {line : List Event} (plain : ∀ event ∈ line, event.Plain)
    (informed : ∃ event ∈ line, event.kind = .position) (scan : Scan) (quantity : ℚ)
    (unknown : scan.quantity = none) :
    (line.foldl Scan.step scan).quantity = some (line.foldl carry quantity) := by
  induction line generalizing scan quantity with
  | nil => simp at informed
  | cons event rest ih =>
    have plainRest : ∀ other ∈ rest, other.Plain := fun other member => plain other (by simp [member])
    by_cases here : event.kind = .position
    · refine Scan.quantity_foldl plainRest ?_
      rw [carry_position here]
      simp [Scan.step, Scan.inform, here]
    · obtain ⟨other, member, kind⟩ := informed
      have later : other ∈ rest := by
        rcases List.mem_cons.mp member with rfl | later
        · exact absurd kind here
        · exact later
      exact ih plainRest ⟨other, later, kind⟩ _ _ (by simp [Scan.step, unknown])

theorem inform_change {event : Event} (informed : event.kind = .position) {scan : Scan} {quantity : ℚ}
    (known : scan.quantity = some quantity) (clear : event.day ∉ (scan.step event).found) :
    event.quantity = quantity + changeOf (fixOf scan.last event) := by
  by_cases fix : scan.informedDay = some event.day ∧ scan.moved = false
  · simp [Scan.last, fix.1, fix.2, known, fixOf, informed, changeOf]
  · have agrees : event.quantity = quantity := by
      by_contra apart
      refine clear ?_
      have kept : scan.informedDay = some event.day → scan.moved = true := by simpa using fix
      simp only [Scan.step, Scan.inform, informed, known]
      rw [if_pos (by simpa [apart] using kept)]
      simp
    have none : fixOf scan.last event = [] := by
      unfold fixOf Scan.last
      cases moved : scan.moved with
      | true => rfl
      | false =>
        cases recent : scan.informedDay with
        | none => rfl
        | some day =>
          have other : day ≠ event.day := by
            rintro rfl
            exact fix ⟨recent, moved⟩
          simp [known, other]
    simp [agrees, none, changeOf]

theorem stretch_change {stretch : List Event} (plain : ∀ event ∈ stretch, event.Plain) {scan : Scan}
    {quantity : ℚ} (known : scan.quantity = some quantity)
    (clear : ∀ event ∈ stretch, event.day ∉ (stretch.foldl Scan.step scan).found) :
    stretch.foldl carry quantity =
      quantity + movement stretch + changeOf (sameDayFixes scan.last stretch) := by
  induction stretch generalizing scan quantity with
  | nil => simp [movement, sameDayFixes, changeOf]
  | cons event rest ih =>
    have plainEvent := plain event (by simp)
    have tail := ih (fun other member => plain other (by simp [member]))
      (Scan.quantity_step plainEvent known) fun other member => clear other (by simp [member])
    rw [List.foldl_cons, tail, Scan.last_step plainEvent]
    have head : carry quantity event = quantity + signed event + changeOf (fixOf scan.last event) := by
      by_cases informed : event.kind = .position
      · have still : signed event = 0 := by simp [signed, informed]
        rw [carry_position informed, still, add_zero]
        exact inform_change informed known fun found =>
          clear event (by simp) (Scan.found_foldl found rest)
      · have none : fixOf scan.last event = [] := by
          unfold fixOf
          split <;> simp [informed]
        rw [carry_move plainEvent informed, none]
        simp [changeOf]
    rw [head]
    simp only [movement, changeOf, sameDayFixes, List.map_cons, List.sum_cons, List.map_append,
      List.sum_append]
    ring

/-! One symbol over one period.

The opening and the closing of a period may come from different reconstructions.
Where both are defined they agree up to the movements between them, so over the
period the holding changes by its movements and by the same-day fixes after the
first informed day.
-/

def Sorted (line : List Event) : Prop := line.Pairwise fun first second => first.day ≤ second.day

section
variable {line : List Event} {first middle last : Int}

theorem sorted_split (sorted : Sorted line) (day : Int) :
    line = upTo day line ++ line.filter fun event => day < event.day := by
  induction line with
  | nil => rfl
  | cons event rest ih =>
    obtain ⟨least, sortedRest⟩ := List.pairwise_cons.mp sorted
    unfold upTo at ih ⊢
    by_cases before : event.day ≤ day
    · simp only [List.filter_cons, before, decide_true, if_true, not_lt.mpr before, decide_false,
        List.cons_append]
      exact congrArg _ (ih sortedRest)
    · have after : day < event.day := not_le.mp before
      have none : (event :: rest).filter (fun other => other.day ≤ day) = [] := by
        refine List.filter_eq_nil_iff.mpr fun other member => ?_
        rcases List.mem_cons.mp member with rfl | later
        · simpa using after
        · simpa using after.trans_le (least other later)
      have all : (event :: rest).filter (fun other => day < other.day) = event :: rest := by
        refine List.filter_eq_self.mpr fun other member => ?_
        rcases List.mem_cons.mp member with rfl | later
        · simpa using after
        · simpa using after.trans_le (least other later)
      rw [none, all, List.nil_append]

theorem upTo_split (sorted : Sorted line) (order : first ≤ last) :
    upTo last line = upTo first line ++ between first last line := by
  conv_lhs => rw [sorted_split sorted first]
  unfold upTo between
  rw [List.filter_append, List.filter_filter, List.filter_filter]
  congr 1 <;> refine List.filter_congr fun event _ => ?_
  · rw [Bool.eq_iff_iff]
    simp only [Bool.and_eq_true, decide_eq_true_eq]
    omega
  · rw [Bool.eq_iff_iff]
    simp only [Bool.and_eq_true, decide_eq_true_eq]
    omega

theorem between_split (sorted : Sorted line) (early : first ≤ middle) (late : middle ≤ last) :
    between first last line = between first middle line ++ between middle last line := by
  conv_lhs => rw [sorted_split sorted middle]
  unfold upTo between
  rw [List.filter_append, List.filter_filter, List.filter_filter]
  congr 1 <;> refine List.filter_congr fun event _ => ?_
  · rw [Bool.eq_iff_iff]
    simp only [Bool.and_eq_true, decide_eq_true_eq]
    omega
  · rw [Bool.eq_iff_iff]
    simp only [Bool.and_eq_true, decide_eq_true_eq]
    omega

theorem forward_split (sorted : Sorted line) (order : first ≤ last) :
    forward line last = (between first last line).foldl carry (forward line first) := by
  unfold forward
  rw [upTo_split sorted order, List.foldl_append]

theorem movement_between (sorted : Sorted line) (early : first ≤ middle) (late : middle ≤ last) :
    movement (between first last line) =
      movement (between first middle line) + movement (between middle last line) := by
  rw [between_split sorted early late]
  simp [movement]

theorem carry_moves {moves : List Event} (plain : ∀ event ∈ moves, event.Plain)
    (uninformed : ∀ event ∈ moves, event.kind ≠ .position) (quantity : ℚ) :
    moves.foldl carry quantity = quantity + movement moves := by
  induction moves generalizing quantity with
  | nil => simp [movement]
  | cons event rest ih =>
    rw [List.foldl_cons, ih (fun other member => plain other (by simp [member]))
      (fun other member => uninformed other (by simp [member])),
      carry_move (plain event (by simp)) (uninformed event (by simp))]
    simp only [movement, List.map_cons, List.sum_cons]
    ring

theorem forward_uninformed (sorted : Sorted line) (plain : ∀ event ∈ line, event.Plain)
    (order : first ≤ last) (uninformed : ∀ event ∈ line, event.day ≤ last → event.kind ≠ .position) :
    forward line last = forward line first + movement (between first last line) := by
  rw [forward_split sorted order]
  refine carry_moves (fun event member => plain event (List.mem_filter.mp member).1) ?_ _
  intro event member
  have inside := List.mem_filter.mp member
  simp only [decide_eq_true_eq] at inside
  exact uninformed event inside.1 inside.2.2

theorem backward_split {snap : Event} (sorted : Sorted line) (early : first ≤ middle)
    (late : middle ≤ snap.day) :
    backward line snap middle = backward line snap first + movement (between first middle line) := by
  unfold backward
  rw [movement_between sorted early late]
  ring

theorem backward_self (line : List Event) (snap : Event) : backward line snap snap.day = snap.quantity := by
  have none : between snap.day snap.day line = [] :=
    List.filter_eq_nil_iff.mpr fun event _ => by simp
  simp [backward, none, movement]

theorem carry_first_day {rest : List Event} {snap first : Event}
    (sorted : ∀ event ∈ rest, first.day ≤ event.day)
    (still : ∀ event ∈ rest, event.kind ≠ .position → event.day ≠ first.day)
    (found : (rest.filter fun event => event.kind = .position).foldl
      (fun found event => some (laterOf event found)) (some first) = some snap) :
    (upTo first.day rest).foldl carry first.quantity = snap.quantity := by
  induction rest generalizing first with
  | nil =>
    cases found
    rfl
  | cons event rest ih =>
    have sortedRest : ∀ other ∈ rest, first.day ≤ other.day := fun other member =>
      sorted other (by simp [member])
    have stillRest : ∀ other ∈ rest, other.kind ≠ .position → other.day ≠ first.day :=
      fun other member => still other (by simp [member])
    by_cases same : event.day = first.day
    · have informed : event.kind = .position := by
        by_contra move
        exact still event (by simp) move same
      have next : laterOf event (some first) = event := by simp [laterOf, same]
      simp only [informed, decide_true, List.filter_cons_of_pos, List.foldl_cons, next] at found
      have tail := ih (by simpa [same] using sortedRest) (by simpa [same] using stillRest) found
      simpa [upTo, List.filter_cons, same, carry_position informed] using tail
    · have later : ¬ event.day ≤ first.day := by
        have := sorted event (by simp)
        omega
      have skipped : (rest.filter fun event => event.kind = .position).foldl
          (fun found event => some (laterOf event found)) (some first) = some snap := by
        by_cases informed : event.kind = .position
        · have next : laterOf event (some first) = first := by simp [laterOf, same]
          simpa [informed, next] using found
        · simpa [informed] using found
      simpa [upTo, later] using ih sortedRest stillRest skipped

theorem forward_reference {snap : Event} (sorted : Sorted line)
    (found : reference line = some snap)
    (still : ∀ event ∈ line, event.kind ≠ .position → event.day ≠ snap.day) (quantity : ℚ) :
    (upTo snap.day line).foldl carry quantity = snap.quantity := by
  induction line generalizing quantity with
  | nil => cases found
  | cons event rest ih =>
    obtain ⟨least, sortedRest⟩ := List.pairwise_cons.mp sorted
    have stillRest : ∀ other ∈ rest, other.kind ≠ .position → other.day ≠ snap.day :=
      fun other member => still other (by simp [member])
    unfold reference at found
    by_cases informed : event.kind = .position
    · simp only [informed, decide_true, List.filter_cons_of_pos, List.foldl_cons, laterOf] at found
      obtain ⟨last, lastFound, day, _⟩ := reference_loop
        (rest.filter fun event => event.kind = .position) event
      have same : last = snap := Option.some.inj (lastFound.symm.trans found)
      rw [same] at day
      have tail := carry_first_day least (by simpa [day] using stillRest) found
      simpa [upTo, List.filter_cons, day, carry_position informed] using tail
    · have foundRest : reference rest = some snap := by simpa [reference, informed] using found
      have before : event.day ≤ snap.day := least snap (reference_spec foundRest sortedRest).1
      simpa [upTo, List.filter_cons, before] using ih sortedRest foundRest stillRest (carry quantity event)

/-- The same-day fixes of a period that come after the first informed day. -/
def quietFixes (line : List Event) (before last : Int) : List (Int × ℚ) :=
  (sameDayFixes none line).filter fun fix => before < fix.1 ∧ fix.1 ≤ last ∧
    line.any fun event => event.kind = .position ∧ event.day < fix.1

def Holds (line : List Event) (day : Int) (closing : Bool) (quantity : ℚ) : Prop :=
  match reference line with
  | some snap =>
      if day < snap.day ∧ Reaches day closing snap then
        (∀ event ∈ line, event.kind ≠ .position → event.day ≠ snap.day) ∧
          quantity = backward line snap day
      else quantity = forward line day
  | none => quantity = forward line day

theorem holdingsAt_holds {events : List Event} (plain : ∀ event ∈ events, event.Plain) {day : Int}
    {closing : Bool} {holdings : Holdings} (ok : holdingsAt events day closing = .ok holdings)
    (symbol : String) : Holds (timeline events symbol) day closing (quantityOf holdings symbol) := by
  have whole : ∀ event ∈ events, event.kind ≠ .split := by
    intro event member kind
    have := (plain event member).kind
    simp [kind] at this
  have spec := holdingsAt_quantity whole ok symbol
  unfold Holds
  cases found : reference (timeline events symbol) with
  | none => simpa only [found] using spec
  | some snap =>
    simp only [found] at spec ⊢
    split
    · rename_i reaches
      rw [if_pos reaches] at spec
      refine ⟨fun event member move same => spec.1 event ?_ same, spec.2⟩
      have plainEvent := (plain event (mem_timeline.mp member).1).kind
      have own := mem_timeline.mp member
      refine List.mem_filter.mpr ⟨mem_stableSort.mpr own.1, ?_⟩
      have after := reaches.1
      rcases plainEvent with kind | kind | kind
      · exact absurd kind move
      · simp [own.2, kind, same, after]
      · simp [own.2, kind, same, after]
    · rename_i short
      rwa [if_neg short] at spec

variable {before : Int} {snap : Event}

theorem three_parts (sorted : Sorted line) (order : first ≤ last) :
    line = upTo first line ++ between first last line ++ line.filter fun event => last < event.day := by
  rw [← upTo_split sorted order]
  exact sorted_split sorted last

theorem quietFixes_stretch (sorted : Sorted line) (found : reference line = some snap) {start : Int}
    (begins : start = max before snap.day) (order : start ≤ last) :
    quietFixes line before last =
      sameDayFixes ((upTo start line).foldl informedAfter none) (between start last line) := by
  obtain ⟨snapIn, snapKind, earliest⟩ := reference_spec found sorted
  unfold quietFixes
  conv_lhs =>
    rw [three_parts sorted order, sameDayFixes_append, sameDayFixes_append, List.filter_append,
      List.filter_append, ← three_parts sorted order]
  have early : (sameDayFixes none (upTo start line)).filter (fun fix => before < fix.1 ∧
      fix.1 ≤ last ∧ line.any fun event => event.kind = .position ∧ event.day < fix.1) = [] := by
    refine List.filter_eq_nil_iff.mpr fun fix member kept => ?_
    obtain ⟨event, eventIn, _, day⟩ := mem_sameDayFixes member
    have upToStart := (List.mem_filter.mp eventIn).2
    simp only [decide_eq_true_eq, List.any_eq_true] at upToStart kept
    obtain ⟨after, _, other, otherIn, kind, otherDay⟩ := kept
    have := earliest other otherIn kind
    omega
  have late : ∀ informed, (sameDayFixes informed (line.filter fun event => last < event.day)).filter
      (fun fix => before < fix.1 ∧ fix.1 ≤ last ∧
        line.any fun event => event.kind = .position ∧ event.day < fix.1) = [] := by
    refine fun informed => List.filter_eq_nil_iff.mpr fun fix member kept => ?_
    obtain ⟨event, eventIn, _, day⟩ := mem_sameDayFixes member
    have afterLast := (List.mem_filter.mp eventIn).2
    simp only [decide_eq_true_eq] at afterLast kept
    omega
  rw [early, late, List.append_nil, List.nil_append]
  refine List.filter_eq_self.mpr fun fix member => ?_
  obtain ⟨event, eventIn, _, day⟩ := mem_sameDayFixes member
  have inside := (List.mem_filter.mp eventIn).2
  simp only [decide_eq_true_eq, List.any_eq_true] at inside ⊢
  exact ⟨by omega, by omega, snap, snapIn, snapKind, by omega⟩

theorem quietFixes_none (uninformed : ∀ event ∈ line, event.day ≤ last → event.kind ≠ .position) :
    quietFixes line before last = [] := by
  refine List.filter_eq_nil_iff.mpr fun fix member kept => ?_
  obtain ⟨event, eventIn, kind, day⟩ := mem_sameDayFixes member
  simp only [decide_eq_true_eq] at kept
  exact uninformed event eventIn (by omega) kind

theorem forward_quiet (sorted : Sorted line) (plain : ∀ event ∈ line, event.Plain)
    (found : reference line = some snap)
    (clear : ∀ day ∈ (line.foldl Scan.step {}).found, ¬(before < day ∧ day ≤ last))
    {start : Int} (begins : start = max before snap.day) (order : start ≤ last) :
    forward line last =
      forward line start + movement (between start last line) + changeOf (quietFixes line before last) := by
  obtain ⟨snapIn, snapKind, _⟩ := reference_spec found sorted
  have plainEarly : ∀ event ∈ upTo start line, event.Plain := fun event member =>
    plain event (List.mem_filter.mp member).1
  have plainStretch : ∀ event ∈ between start last line, event.Plain := fun event member =>
    plain event (List.mem_filter.mp member).1
  obtain ⟨scan, scanEq⟩ : ∃ scan, scan = (upTo start line).foldl Scan.step {} := ⟨_, rfl⟩
  have known : scan.quantity = some (forward line start) := by
    rw [scanEq]
    refine Scan.quantity_informed plainEarly ⟨snap, List.mem_filter.mpr ⟨snapIn, ?_⟩, snapKind⟩ _ _ rfl
    simp [begins]
  have quiet : ∀ event ∈ between start last line,
      event.day ∉ ((between start last line).foldl Scan.step scan).found := by
    intro event member flagged
    have inside := (List.mem_filter.mp member).2
    simp only [decide_eq_true_eq] at inside
    refine clear event.day ?_ ⟨by omega, inside.2⟩
    rw [three_parts sorted order, List.foldl_append, List.foldl_append, ← scanEq]
    exact Scan.found_foldl flagged _
  have trusted : scan.last = (upTo start line).foldl informedAfter none := by
    rw [scanEq]
    exact Scan.last_foldl plainEarly {}
  rw [forward_split sorted order, stretch_change plainStretch known quiet, trusted,
    quietFixes_stretch sorted found begins order]

/-- Where the year's cutoff lies in the period, both bases agree on it. -/
def Agrees (line : List Event) (before last : Int) : Prop :=
  ∀ snap, reference line = some snap → before < cutoffOf snap.day → cutoffOf snap.day < last →
    ∃ quantity, Holds line (cutoffOf snap.day) true quantity ∧ Holds line (cutoffOf snap.day) false quantity

theorem cutoffOf_lt (day : Int) : cutoffOf day < day := by
  have := Calendar.newYear_yearOf_le day
  unfold cutoffOf
  omega

theorem Holds.of_uninformed {day : Int} {closing : Bool} {quantity : ℚ}
    (holds : Holds line day closing quantity) (none : reference line = none) :
    quantity = forward line day := by
  simpa [Holds, none] using holds

theorem Holds.of_reaching {day : Int} {closing : Bool} {quantity : ℚ}
    (holds : Holds line day closing quantity) (found : reference line = some snap)
    (ahead : day < snap.day) (reaches : Reaches day closing snap) :
    (∀ event ∈ line, event.kind ≠ .position → event.day ≠ snap.day) ∧
      quantity = backward line snap day := by
  simpa [Holds, found, ahead, reaches] using holds

theorem Holds.of_short {day : Int} {closing : Bool} {quantity : ℚ}
    (holds : Holds line day closing quantity) (found : reference line = some snap)
    (short : ¬(day < snap.day ∧ Reaches day closing snap)) : quantity = forward line day := by
  simpa only [Holds, found, short, if_false] using holds

/-- An opening before the first informed day is the reference undone, whichever of the
two bases it comes from. -/
theorem opening_backward (sorted : Sorted line) (plain : ∀ event ∈ line, event.Plain)
    (found : reference line = some snap) (agrees : Agrees line before last) {opening : ℚ}
    (holds : Holds line before false opening) (ahead : before < snap.day)
    (crossed : cutoffOf snap.day < last) :
    (∀ event ∈ line, event.kind ≠ .position → event.day ≠ snap.day) ∧
      opening = backward line snap before := by
  have cutoffBefore := cutoffOf_lt snap.day
  by_cases near : cutoffOf snap.day ≤ before
  · exact holds.of_reaching found ahead ⟨near, by simp⟩
  · have far : before < cutoffOf snap.day := not_le.mp near
    have earliest := (reference_spec found sorted).2.2
    obtain ⟨quantity, recorded, informed⟩ := agrees snap found far crossed
    have carried := recorded.of_short found (by simp [Reaches])
    obtain ⟨still, undone⟩ := informed.of_reaching found cutoffBefore ⟨le_rfl, by simp⟩
    have start := holds.of_short found fun reaches => near reaches.2.1
    have carriedOn := forward_uninformed sorted plain far.le fun event member day kind =>
      absurd (earliest event member kind) (by omega)
    have undoneBack := backward_split sorted far.le cutoffBefore.le
    exact ⟨still, by linarith⟩

theorem holding_change (sorted : Sorted line) (plain : ∀ event ∈ line, event.Plain)
    (order : before < last) (agrees : Agrees line before last)
    (clear : ∀ day ∈ (line.foldl Scan.step {}).found, ¬(before < day ∧ day ≤ last))
    {opening closing : ℚ} (opens : Holds line before false opening) (closes : Holds line last true closing) :
    closing = opening + movement (between before last line) + changeOf (quietFixes line before last) := by
  cases found : reference line with
  | none =>
    have uninformed : ∀ event ∈ line, event.day ≤ last → event.kind ≠ .position :=
      fun event member _ => reference_none found event member
    rw [closes.of_uninformed found, opens.of_uninformed found, quietFixes_none uninformed,
      forward_uninformed sorted plain order.le uninformed]
    simp [changeOf]
  | some snap =>
    have earliest := (reference_spec found sorted).2.2
    have cutoffBefore := cutoffOf_lt snap.day
    rcases lt_or_ge last snap.day with unborn | born
    · -- both bounds come before the first informed day
      have uninformed : ∀ event ∈ line, event.day ≤ last → event.kind ≠ .position :=
        fun event member day kind => absurd (earliest event member kind) (by omega)
      have quiet : changeOf (quietFixes line before last) = 0 := by
        rw [quietFixes_none uninformed]
        rfl
      rcases lt_or_ge (cutoffOf snap.day) last with crossed | recorded
      · have opened := (opening_backward sorted plain found agrees opens (by omega) crossed).2
        have closed := (closes.of_reaching found unborn ⟨crossed.le, by omega⟩).2
        have moved := backward_split sorted order.le unborn.le
        linarith
      · have opened := opens.of_short found fun reaches => by
          have := reaches.2.1
          omega
        have closed := closes.of_short found fun reaches =>
          reaches.2.2 ⟨rfl, le_antisymm recorded reaches.2.1⟩
        have moved := forward_uninformed sorted plain order.le uninformed
        linarith
    · rcases lt_or_ge before snap.day with inside | informed
      · -- the first informed day lies in the period
        obtain ⟨still, opened⟩ := opening_backward sorted plain found agrees opens inside (by omega)
        have closed := closes.of_short found fun reaches => by omega
        have anchor : forward line snap.day = snap.quantity := forward_reference sorted found still 0
        have reached := backward_split sorted inside.le le_rfl
        have quiet := forward_quiet sorted plain found clear (max_eq_right inside.le).symm born
        have whole := movement_between sorted inside.le born
        rw [backward_self] at reached
        linarith
      · -- both bounds come after it
        have opened := opens.of_short found fun reaches => by omega
        have closed := closes.of_short found fun reaches => by omega
        have quiet := forward_quiet sorted plain found clear (max_eq_left informed).symm order.le
        linarith

end
end C3po.Portfolio
