import C3po.Official.Composition

/-! One insert, chained on the generation its writer read.

The insert succeeds only while the tip of the chain is the generation the writer read as
the head; a refused one finds the head moved, so no writer ever repairs the chain.
-/

set_option autoImplicit false

namespace C3po.Official
open C3po.Library
open C3po.Prices (normalise)

variable {Digest : Type} {setting : Setting Digest} {store : Store} {log : List (Event Store Reading)}

section Maps

theorem dict_ext {first second : Dict String ℕ} (same : first.entries = second.entries) : first = second := by
  cases first
  cases second
  cases same
  rfl

@[simp] theorem get?_sortedTargeted (targeted : Dict String ℕ) (symbol : String) :
    (sortedTargeted targeted).get? symbol = targeted.get? symbol := by
  ext cycleId
  rw [← Dict.mem_entries, ← Dict.mem_entries]
  exact mem_stableSort

@[simp] theorem sortedTargeted_sortedTargeted (targeted : Dict String ℕ) :
    sortedTargeted (sortedTargeted targeted) = sortedTargeted targeted :=
  dict_ext (stableSort_eq_of_perm (stableSort_perm Prod.fst targeted.entries) (sortedEntries_nodup targeted))

def CleanKeys (targeted : Dict String ℕ) : Prop :=
  ∀ symbol cycleId, targeted.get? symbol = some cycleId → normalise symbol = symbol

theorem CleanKeys.mem {targeted : Dict String ℕ} (clean : CleanKeys targeted) {entry : String × ℕ}
    (member : entry ∈ targeted.entries) : normalise entry.1 = entry.1 :=
  clean entry.1 entry.2 (Dict.mem_entries.mp member)

theorem contains_iff {targeted : Dict String ℕ} {symbol : String} :
    targeted.contains symbol = true ↔ symbol ∈ targeted.keys := Dict.mem_keys.symm

theorem foldl_first (entries : List (String × ℕ)) (clean : ∀ entry ∈ entries, normalise entry.1 = entry.1)
    (start : Dict String ℕ) (distinct : (start.keys ++ entries.map Prod.fst).Nodup) :
    (entries.foldl (fun clean entry => if clean.contains (normalise entry.1) then clean
      else clean.insert (normalise entry.1) entry.2) start).entries = start.entries ++ entries := by
  induction entries generalizing start with
  | nil => exact (List.append_nil _).symm
  | cons entry rest ih =>
    have absent : entry.1 ∉ start.keys := by
      intro member
      exact (List.nodup_append.mp distinct).2.2 _ member _ List.mem_cons_self rfl
    have written : (start.insert entry.1 entry.2).entries = start.entries ++ [entry] := Dict.put_absent absent
    have keys : (start.insert entry.1 entry.2).keys = start.keys ++ [entry.1] := by
      unfold Dict.keys
      rw [written, List.map_append]
      rfl
    have own := clean entry List.mem_cons_self
    rw [List.foldl_cons, own, if_neg (by rw [contains_iff]; exact absent),
      ih (fun other member => clean other (List.mem_cons_of_mem _ member)) _ (by rw [keys]; simpa using distinct),
      written]
    simp

theorem firstTargeted_clean {targeted : Dict String ℕ} (clean : CleanKeys targeted) :
    firstTargeted targeted.entries = targeted :=
  dict_ext ((foldl_first targeted.entries (fun _ member => clean.mem member) .empty targeted.distinct).trans
    (List.nil_append _))

theorem foldlM_normalized (entries : List (String × ℕ)) (clean : ∀ entry ∈ entries, normalise entry.1 = entry.1)
    (start : Dict String ℕ) (distinct : (start.keys ++ entries.map Prod.fst).Nodup) :
    ∃ final, entries.foldlM normalizeEntry start = .ok final ∧ final.entries = start.entries ++ entries := by
  induction entries generalizing start with
  | nil => exact ⟨start, rfl, (List.append_nil _).symm⟩
  | cons entry rest ih =>
    have absent : entry.1 ∉ start.keys := by
      intro member
      exact (List.nodup_append.mp distinct).2.2 _ member _ List.mem_cons_self rfl
    have written : (start.insert entry.1 entry.2).entries = start.entries ++ [entry] := Dict.put_absent absent
    have keys : (start.insert entry.1 entry.2).keys = start.keys ++ [entry.1] := by
      unfold Dict.keys
      rw [written, List.map_append]
      rfl
    obtain ⟨final, ran, whole⟩ := ih (fun other member => clean other (List.mem_cons_of_mem _ member))
      (start.insert entry.1 entry.2) (by rw [keys]; simpa using distinct)
    refine ⟨final, ?_, by rw [whole, written, List.append_assoc]; rfl⟩
    have step : normalizeEntry start entry = .ok (start.insert entry.1 entry.2) := by
      rw [normalizeEntry, clean entry List.mem_cons_self, Dict.get?_of_not_mem absent]
    rw [List.foldlM_cons, step]
    exact ran

theorem normalizedTargeted_clean {targeted : Dict String ℕ} (clean : CleanKeys targeted) :
    normalizedTargeted targeted.entries = .ok targeted := by
  obtain ⟨final, ran, whole⟩ :=
    foldlM_normalized targeted.entries (fun _ member => clean.mem member) .empty targeted.distinct
  rw [normalizedTargeted, ran, dict_ext (whole.trans (List.nil_append _))]

end Maps

section Tips
variable {origin : Store}

theorem same_tip (before : Sound setting origin) (after : Sound setting store) (grows : Grows origin store)
    (same : store.tip.map Generation.id = origin.tip.map Generation.id) : store.generations = origin.generations := by
  obtain ⟨more, whole⟩ := grows.generations
  cases more with
  | nil => rw [← whole, List.append_nil]
  | cons first rest =>
    exfalso
    have longer : origin.generations.length < store.generations.length := by
      rw [← whole, List.length_append, List.length_cons]
      omega
    have lastPlace : ∀ {other : Store}, Sound setting other → ∀ head, other.tip = some head →
        head.id = other.generations.length - 1 := fun sound head found =>
      (sound.placed _ _ (tip_of_length found)).1
    cases found : store.tip with
    | none => rw [tip_none found] at longer; exact absurd longer (Nat.not_lt_zero _)
    | some head =>
      cases earlier : origin.tip with
      | none => rw [found, earlier] at same; cases same
      | some old =>
        rw [found, earlier, Option.map_some, Option.map_some, Option.some_inj, lastPlace after head found,
          lastPlace before old earlier] at same
        have nonempty := List.length_pos_of_mem (tip_mem earlier)
        omega

theorem conflict_iff {generation : Generation} (before : Sound setting origin) (after : Sound setting store)
    (grows : Grows origin store) (previous : generation.previous = origin.tip.map Generation.id) :
    store.conflict generation = true ↔ store.generations ≠ origin.generations := by
  have next : generation.previous = if origin.generations.length = 0 then none
      else some (origin.generations.length - 1) := by
    rw [previous]
    cases found : origin.tip with
    | none => rw [tip_none found]; rfl
    | some head =>
      rw [if_neg (List.length_pos_of_mem (tip_mem found)).ne', Option.map_some,
        (before.placed _ _ (tip_of_length found)).1]
  obtain ⟨more, whole⟩ := grows.generations
  unfold Store.conflict
  rw [List.any_eq_true]
  constructor
  · rintro ⟨other, member, same⟩ alike
    obtain ⟨place, found⟩ := List.mem_iff_getElem?.mp member
    have placed := (after.placed place other found).2
    have bound := (List.getElem?_eq_some_iff.mp found).1
    rw [alike] at bound
    rw [of_decide_eq_true same, next] at placed
    split_ifs at placed
    · omega
    · rw [Option.some_inj] at placed
      omega
  · intro apart
    cases more with
    | nil => exact absurd (by rw [← whole, List.append_nil]) apart
    | cons first rest =>
      have found : store.generations[origin.generations.length]? = some first := by
        rw [← whole, List.getElem?_append_right le_rfl, Nat.sub_self]
        rfl
      refine ⟨first, List.mem_of_getElem? found, decide_eq_true ?_⟩
      rw [(after.placed _ first found).2, next]

theorem tip_congr (same : store.generations = origin.generations) : store.tip = origin.tip := by
  unfold Store.tip
  rw [same]

theorem between {middle : Store} (first : Grows origin middle) (second : Grows middle store)
    (same : store.generations = origin.generations) : middle.generations = origin.generations := by
  refine (first.generations.eq_of_length_le ?_).symm
  rw [← same]
  exact second.generations.length_le

end Tips

/-- Where the clock of an insert comes from: the order, or the wall right before it. -/
def ClockRead (setting : Setting Digest) (now : Option Int) (log : List (Event Store Reading)) (clock : Int) : Prop :=
  match now with
  | some instant => clock = instant
  | none => ∃ answer, setting.allowed log answer ∧ clock = answer.clock

/-- What a writer's insert comes to. -/
def Outcome (log : List (Event Store Reading)) (result : Except Refusal Generation)
    (later : List (Event Store Reading)) : Prop :=
  match result with
  | .ok generation => Inserted generation log later
  | .error _ => Quiet log later

section Insert
variable {origin : Store}

theorem insertSelection_then {B : Type} {generation : Generation} {rest : Option Generation → Process B}
    {post : B → List (Event Store Reading) → Store → Prop}
    (inserted : ∀ next, (official setting).Later store next → next.conflict generation = false →
      Move setting next (next.chain (next.stored generation)) ∧
        (official setting).Holds (rest (some (next.stored generation)))
          (log ++ [.stepped next (next.chain (next.stored generation))]) (next.chain (next.stored generation)) post)
    (refused : ∀ next later, (official setting).Later store next → Quiet log later →
      next.conflict generation = true → (official setting).Holds (rest none) later next post) :
    (official setting).Holds (insertSelection generation >>= rest) log store post := by
  refine Protocol.Holds.write fun next reached => ?_
  cases found : next.conflict generation with
  | true =>
    have same : next.insertSelection generation = next := if_pos found
    rw [same]
    exact ⟨Protocol.Later.refl next, refused next _ reached (Quiet.step rfl) found⟩
  | false =>
    have same : next.insertSelection generation = next.chain (next.stored generation) := if_neg (by rw [found]; decide)
    rw [same]
    obtain ⟨move, after⟩ := inserted next reached found
    exact ⟨Relation.ReflTransGen.single move, after⟩

theorem repaired_spec {generation : Generation} {expected : Option ℕ} {strict : Bool} (sound : Sound setting store)
    (stays : ∀ next, (official setting).Later store next → next.tip.map Generation.id ≠ expected) :
    (official setting).Holds (repaired generation expected strict) log store
      fun result later _ => Outcome log result later := by
  unfold repaired
  apply read_then
  intro next later reached quiet
  rw [(reached.keeps sound : Sound setting next).head]
  have apart := stays next reached
  cases found : next.tip with
  | none => exact fun last _ => quiet
  | some head =>
    rw [found] at apart
    simp only
    split
    · exact fun last _ => quiet
    · rename_i unmoved
      exact absurd apart unmoved

theorem assemble_previous {draft : Draft} {head : Option Generation} {activatedAt : Int} {strict : Bool}
    {generation : Generation} (assembled : assemble draft head activatedAt strict = .ok generation) :
    generation.previous = head.map Generation.id := by
  unfold assemble at assembled
  simp only at assembled
  split at assembled
  · cases found : normalizedTargeted draft.targeted.entries with
    | error refusal => rw [found] at assembled; cases assembled
    | ok targeted => rw [found] at assembled; cases assembled; rfl
  · cases assembled
    rfl

theorem Outcome.since {result : Except Refusal Generation} {middle later : List (Event Store Reading)}
    (quiet : Quiet log middle) (outcome : Outcome middle result later) : Outcome log result later := by
  cases result with
  | ok generation => exact quiet.inserted outcome
  | error refusal => exact quiet.trans outcome

/-- What a writer does once it has read the head and the clock. -/
def insertDraft (draft : Draft) (tip : Option Generation) (now : Option Int) (clock : Int) : Process (Except Refusal Generation) :=
  match activationClock tip now clock with
  | .error refusal => pure (.error refusal)
  | .ok activatedAt => match assemble draft tip activatedAt now.isSome with
    | .error refusal => pure (.error refusal)
    | .ok generation => do
      match ← insertSelection generation with
      | some stored => pure (.ok stored)
      | none => repaired generation (tip.map Generation.id) now.isSome

theorem newGeneration_spec {draft : Draft} {now : Option Int} (sound : Sound setting origin)
    (reached : (official setting).Later origin store)
    (expected : draft.expectedPrevious = origin.tip.map Generation.id)
    (fits : ∀ next middle later clock activatedAt generation, (official setting).Later store next →
      next.generations = origin.generations → Quiet log middle → Quiet middle later → ClockRead setting now middle clock →
      activationClock origin.tip now clock = .ok activatedAt →
      assemble draft origin.tip activatedAt now.isSome = .ok generation →
      Move setting next (next.chain (next.stored generation))) :
    (official setting).Holds (newGeneration draft now) log store
      fun result later _ => Outcome log result later := by
  unfold newGeneration
  apply read_then
  intro first later reached' quiet
  have grows := later_grows (reached.trans reached')
  have soundFirst : Sound setting first := (reached.trans reached').keeps sound
  rw [soundFirst.head]
  split
  · exact fun _ _ => quiet
  rename_i unmoved
  rw [expected, not_not] at unmoved
  have same := same_tip sound soundFirst grows unmoved
  rw [tip_congr same]
  have fromClock : ∀ middle last clock, Quiet later middle → Quiet middle last → ClockRead setting now middle clock →
      (official setting).Holds (insertDraft draft origin.tip now clock) last first
        fun result later _ => Outcome log result later := by
    intro middle last clock quietMiddle quietLast clockRead
    have quietAll := quiet.trans (quietMiddle.trans quietLast)
    unfold insertDraft
    split
    · exact fun _ _ => quietAll
    rename_i activatedAt activated
    split
    · exact fun _ _ => quietAll
    rename_i generation assembled
    have previous := assemble_previous assembled
    refine insertSelection_then (fun next after free => ?_) (fun next last' after quietEnd taken => ?_)
    · have soundNext : Sound setting next := after.keeps soundFirst
      have alike : next.generations = origin.generations := by
        by_contra apart
        rw [(conflict_iff sound soundNext (grows.trans (later_grows after)) previous).mpr apart] at free
        cases free
      refine ⟨fits next middle last clock activatedAt generation (reached'.trans after) alike
        (quiet.trans quietMiddle) quietLast clockRead activated assembled, fun _ _ => ?_⟩
      exact ⟨last, next, _, quietAll, rfl, rfl⟩
    · have soundNext : Sound setting next := after.keeps soundFirst
      have apart := (conflict_iff sound soundNext (grows.trans (later_grows after)) previous).mp taken
      refine Protocol.Holds.mono (repaired_spec soundNext fun final reachedFinal alike => apart ?_)
        fun result final _ _ outcome => Outcome.since (quietAll.trans quietEnd) outcome
      have toFinal := later_grows reachedFinal
      have soundFinal : Sound setting final := reachedFinal.keeps soundNext
      exact between (grows.trans (later_grows after)) toFinal
        (same_tip sound soundFinal ((grows.trans (later_grows after)).trans toFinal) alike)
  cases now with
  | some instant => exact fromClock later later instant (Quiet.refl later) (Quiet.refl later) rfl
  | none =>
    refine answer_then fun answer last allowed _ quietLast => ?_
    exact fromClock later last answer.clock (Quiet.refl later) quietLast ⟨answer, allowed, rfl⟩

end Insert
end C3po.Official
