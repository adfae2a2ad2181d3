import C3po.Overlays.Saving

/-! A history of saves converges: the period never moves back, a row goes only for newer ones, and
the payload just saved changes nothing.
-/

set_option autoImplicit false

namespace C3po.Overlays

open Library

/-- The store after the calls, each at its own instant. -/
def saves (calls : List (ℤ × Payload)) : List Snapshot := saveOfficialStatements [] calls

def Clocked (calls : List (ℤ × Payload)) : Prop := (calls.map Prod.fst).Pairwise (· < ·)

instance (calls : List (ℤ × Payload)) : Decidable (Clocked calls) := inferInstanceAs (Decidable (List.Pairwise _ _))

def Takes (symbol : String) (incoming : Payload) : Prop := incoming.symbol = symbol ∧ incoming.symbol ≠ "" ∧ incoming.asOf.isSome

/-- The payload is of a period not older than what is stored. -/
def Admits (prior : Option Payload) (incoming : Payload) : Prop :=
  ∀ before period, prior.bind Payload.asOf = some before → incoming.asOf = some period → before ≤ period

section Steps
variable {calls earlier later : List (ℤ × Payload)} {call : ℤ × Payload} {symbol : String}

theorem saves_snoc (calls : List (ℤ × Payload)) (call : ℤ × Payload) : saves (calls ++ [call]) = save (saves calls) call.1 call.2 := by
  unfold saves saveOfficialStatements
  rw [List.foldl_append]
  rfl

theorem Clocked.front (clocked : Clocked (earlier ++ later)) : Clocked earlier := by
  unfold Clocked at clocked ⊢
  rw [List.map_append] at clocked
  exact (List.pairwise_append.mp clocked).1

theorem published_of_mem (calls : List (ℤ × Payload)) : ∀ snapshot ∈ saves calls, snapshot.publishedAt ∈ calls.map Prod.fst := by
  induction calls using List.reverseRecOn with
  | nil => exact fun _ member => nomatch member
  | append_singleton calls call ih =>
    intro snapshot member
    rw [List.map_append, List.mem_append]
    rw [saves_snoc] at member
    unfold save at member
    dsimp only at member
    split at member
    · exact .inl (ih snapshot member)
    · split at member
      · exact .inl (ih snapshot member)
      · rcases List.mem_append.mp member with old | new
        · exact .inl (ih snapshot old)
        · cases List.mem_singleton.mp new
          exact .inr (List.mem_singleton_self _)

theorem Clocked.before (clocked : Clocked (calls ++ [call])) : ∀ snapshot ∈ saves calls, snapshot.publishedAt < call.1 := by
  intro snapshot member
  unfold Clocked at clocked
  rw [List.map_append] at clocked
  exact (List.pairwise_append.mp clocked).2.2 _ (published_of_mem calls snapshot member) call.1 (List.mem_singleton_self _)

theorem stored_snoc {snapshots : List Snapshot} {instant : ℤ} (before : ∀ snapshot ∈ snapshots, snapshot.publishedAt < instant)
    (symbol : String) (next : Payload) : stored (snapshots ++ [⟨symbol, instant, next⟩]) symbol = some next := by
  unfold stored latestSnapshot latestOf
  rw [List.filter_append]
  have own : [(⟨symbol, instant, next⟩ : Snapshot)].filter (fun snapshot => snapshot.symbol = symbol) = [⟨symbol, instant, next⟩] := by
    simp
  rw [own, List.argmax_concat]
  cases found : List.argmax Snapshot.publishedAt (snapshots.filter fun snapshot => snapshot.symbol = symbol) with
  | none => rfl
  | some last =>
    have earlier := before last (List.mem_filter.mp (List.argmax_mem found)).1
    dsimp only
    rw [if_pos earlier]
    rfl

theorem stored_snoc_other {snapshots : List Snapshot} {instant : ℤ} {other : String} (apart : other ≠ symbol) (next : Payload) :
    stored (snapshots ++ [⟨other, instant, next⟩]) symbol = stored snapshots symbol := by
  unfold stored latestSnapshot
  rw [List.filter_append]
  have none : [(⟨other, instant, next⟩ : Snapshot)].filter (fun snapshot => snapshot.symbol = symbol) = [] := by
    simp [apart]
  rw [none, List.append_nil]

theorem stored_step (clocked : Clocked (calls ++ [call])) (symbol : String) :
    (¬Takes symbol call.2 ∧ stored (saves (calls ++ [call])) symbol = stored (saves calls) symbol) ∨
    (Takes symbol call.2 ∧ stored (saves (calls ++ [call])) symbol = some (mergeStatementPayloads (stored (saves calls) symbol) call.2)) ∨
    (Takes symbol call.2 ∧ ∃ prior, stored (saves calls) symbol = some prior ∧ stored (saves (calls ++ [call])) symbol = some prior ∧
      prior.bare = (mergeStatementPayloads (stored (saves calls) symbol) call.2).bare) := by
  rw [saves_snoc]
  by_cases void : call.2.symbol = "" ∨ call.2.asOf.isNone = true
  · refine .inl ⟨fun takes => ?_, ?_⟩
    · have dated := takes.2.2
      rcases void with nameless | undated
      · exact takes.2.1 nameless
      · rw [Option.isNone_iff_eq_none.mp undated] at dated
        cases dated
    · unfold save
      rw [if_pos (by simpa using void)]
  · have valid : call.2.symbol ≠ "" ∧ call.2.asOf.isSome := by
      rw [not_or] at void
      exact ⟨void.1, by simpa [Option.isSome_iff_ne_none] using void.2⟩
    have guard : ¬(call.2.symbol = "" || call.2.asOf.isNone) = true := by simpa using void
    unfold save
    rw [if_neg guard]
    dsimp only
    by_cases own : call.2.symbol = symbol
    · subst own
      refine .inr ?_
      change (_ ∧ stored (if ((stored (saves calls) call.2.symbol).any fun prior =>
        prior.bare = (mergeStatementPayloads (stored (saves calls) call.2.symbol) call.2).bare) = true then _ else _) _ = _) ∨
        (_ ∧ ∃ prior, _ ∧ stored (if ((stored (saves calls) call.2.symbol).any fun prior =>
          prior.bare = (mergeStatementPayloads (stored (saves calls) call.2.symbol) call.2).bare) = true then _ else _) _ = _ ∧ _)
      split
      · rename_i unchanged
        obtain ⟨prior, held, same⟩ := (Option.any_eq_true _ _).mp unchanged
        exact .inr ⟨⟨rfl, valid⟩, prior, held, held, of_decide_eq_true same⟩
      · exact .inl ⟨⟨rfl, valid⟩, stored_snoc clocked.before _ _⟩
    · refine .inl ⟨fun takes => own takes.1, ?_⟩
      split
      · rfl
      · exact stored_snoc_other own _

end Steps

section Merges
variable {prior : Option Payload} {base incoming : Payload}

/-- Nothing stored yet. -/
def blank (incoming : Payload) : Payload :=
  { incoming with
    asOf := none, publishedOn := none, sourceUrl := none, quarterlyIncome := [], quarterlyCashFlow := [], quarterlyBalance := [],
    sharesOutstanding := none, periodDocuments := [] }

theorem statement_blank (incoming : Payload) (statement : Statement) : (blank incoming).statement statement = [] := by
  cases statement <;> rfl

theorem mergeStatementPayloads_admitted (admits : Admits prior incoming) :
    mergeStatementPayloads prior incoming = merged (prior.getD (blank incoming)) incoming := by
  cases prior with
  | none => rfl
  | some base =>
    unfold mergeStatementPayloads
    dsimp only
    split
    · rename_i before period stored own
      rw [if_neg (not_lt.mpr (admits before period stored own))]
      rfl
    · rfl

theorem mergeStatementPayloads_refused (refused : ¬Admits prior incoming) : prior = some (mergeStatementPayloads prior incoming) := by
  unfold Admits at refused
  push Not at refused
  obtain ⟨before, period, stored, own, back⟩ := refused
  obtain ⟨base, rfl, dated⟩ := Option.bind_eq_some_iff.mp stored
  unfold mergeStatementPayloads
  dsimp only
  rw [dated, own]
  dsimp only
  rw [if_pos back]

end Merges

section Forward
variable {calls earlier later : List (ℤ × Payload)} {call : ℤ × Payload} {symbol : String} {before after last : Payload}

/-- The period is stored, or enough newer ones are. -/
def Reached (payload : Payload) (statement : Statement) (period : Day) : Prop :=
  period ∈ (payload.statement statement).map Row.date ∨ historyQuarters ≤ newerThan Row.date (payload.statement statement) period

structure Follows (before after : Payload) : Prop where
  forward : ∀ period, before.asOf = some period → ∃ later, after.asOf = some later ∧ period ≤ later
  reach : ∀ statement period, Reached before statement period → Reached after statement period

theorem Follows.refl (payload : Payload) : Follows payload payload := ⟨fun period dated => ⟨period, dated, le_rfl⟩, fun _ _ reached => reached⟩

theorem Follows.trans (first : Follows before after) (second : Follows after last) : Follows before last := by
  refine ⟨fun period dated => ?_, fun statement period reached => second.reach statement period (first.reach statement period reached)⟩
  obtain ⟨between, there, sooner⟩ := first.forward period dated
  obtain ⟨later, here, further⟩ := second.forward between there
  exact ⟨later, here, sooner.trans further⟩

theorem reached_merged {base incoming : Payload} {statement : Statement} {period : Day} (reached : Reached base statement period) :
    Reached (merged base incoming) statement period := by
  unfold Reached
  rw [statement_merged, or_iff_not_imp_left]
  intro dropped
  rcases reached with held | enough
  · refine newer_of_dropped ?_ dropped
    rw [List.map_append]
    exact List.mem_append_left _ held
  · refine newerThan_retain (enough.trans (newerThan_mono fun later _ member => ?_))
    rw [List.map_append]
    exact List.mem_append_left _ member

theorem follows_merge {incoming : Payload} (dated : incoming.asOf.isSome) : Follows before (mergeStatementPayloads (some before) incoming) := by
  by_cases admits : Admits (some before) incoming
  · rw [mergeStatementPayloads_admitted admits]
    obtain ⟨later, own⟩ := Option.isSome_iff_exists.mp dated
    exact ⟨fun period stored => ⟨later, own, admits period later stored own⟩, fun statement period reached => reached_merged reached⟩
  · have same := Option.some.inj (mergeStatementPayloads_refused admits)
    rw [← same]
    exact .refl before

theorem stored_follows (clocked : Clocked (earlier ++ later)) (held : stored (saves earlier) symbol = some before) :
    ∃ after, stored (saves (earlier ++ later)) symbol = some after ∧ Follows before after := by
  induction later using List.reverseRecOn with
  | nil => exact ⟨before, by rw [List.append_nil]; exact held, .refl before⟩
  | append_singleton later call ih =>
    rw [← List.append_assoc] at clocked ⊢
    obtain ⟨after, found, follows⟩ := ih clocked.front
    rcases stored_step clocked symbol with ⟨_, same⟩ | ⟨takes, next⟩ | ⟨_, kept, there, same, _⟩
    · exact ⟨after, same.trans found, follows⟩
    · rw [found] at next
      exact ⟨_, next, follows.trans (follows_merge takes.2.2)⟩
    · cases found.symm.trans there
      exact ⟨after, same, follows⟩

end Forward

section Rows
variable {calls earlier later : List (ℤ × Payload)} {call : ℤ × Payload} {symbol : String} {statement : Statement} {row other : Row}

def LastCarried (symbol : String) (statement : Statement) (calls : List (ℤ × Payload)) (row : Row) : Prop :=
  ∃ earlier call later own, calls = earlier ++ call :: later ∧ Takes symbol call.2 ∧ Admits (stored (saves earlier) symbol) call.2 ∧
    lastOf Row.date (call.2.statement statement) row.date = some own ∧ own.bare = row.bare ∧
    ∀ between other rest, later = between ++ other :: rest → Takes symbol other.2 →
      Admits (stored (saves (earlier ++ call :: between)) symbol) other.2 → row.date ∉ (other.2.statement statement).map Row.date

theorem date_of_bare (same : row.bare = other.bare) : row.date = other.date := by
  have dates : row.bare.date = other.bare.date := by rw [same]
  exact dates

theorem LastCarried.congr (carried : LastCarried symbol statement calls row) (same : row.bare = other.bare) :
    LastCarried symbol statement calls other := by
  obtain ⟨earlier, call, later, own, split, takes, admits, found, alike, quiet⟩ := carried
  have dated := date_of_bare same
  rw [dated] at found quiet
  exact ⟨earlier, call, later, own, split, takes, admits, found, alike.trans same, quiet⟩

theorem LastCarried.fresh (takes : Takes symbol call.2) (admits : Admits (stored (saves calls) symbol) call.2)
    (found : lastOf Row.date (call.2.statement statement) row.date = some row) : LastCarried symbol statement (calls ++ [call]) row := by
  refine ⟨calls, call, [], row, rfl, takes, admits, found, rfl, fun between other rest split => ?_⟩
  cases between <;> cases split

theorem LastCarried.stays (carried : LastCarried symbol statement calls row)
    (quiet : Takes symbol call.2 → Admits (stored (saves calls) symbol) call.2 → row.date ∉ (call.2.statement statement).map Row.date) :
    LastCarried symbol statement (calls ++ [call]) row := by
  obtain ⟨earlier, first, later, own, rfl, takes, admits, found, alike, before⟩ := carried
  refine ⟨earlier, first, later ++ [call], own, by simp, takes, admits, found, alike, fun between other rest split => ?_⟩
  induction rest using List.reverseRecOn with
  | nil =>
    obtain ⟨rfl, last⟩ := List.append_inj' split rfl
    cases last
    exact quiet
  | append_singleton rest last _ =>
    have front : later ++ [call] = (between ++ other :: rest) ++ [last] := by simpa using split
    exact before between other rest (List.append_inj' front rfl).1

theorem lastCarried_merge (rows : ∀ prior, stored (saves calls) symbol = some prior →
      ∀ row ∈ prior.statement statement, LastCarried symbol statement calls row) (takes : Takes symbol call.2)
    (member : row ∈ (mergeStatementPayloads (stored (saves calls) symbol) call.2).statement statement) :
    LastCarried symbol statement (calls ++ [call]) row := by
  by_cases admits : Admits (stored (saves calls) symbol) call.2
  · rw [mergeStatementPayloads_admitted admits, statement_merged] at member
    have last := (mem_retain.mp member).1
    rw [lastOf_append] at last
    rcases Option.or_eq_some_iff.mp last with fresh | ⟨absent, old⟩
    · exact .fresh takes admits fresh
    · cases held : stored (saves calls) symbol with
      | none =>
        rw [held] at old
        rw [show (Option.getD none (blank call.2)).statement statement = [] from statement_blank _ _] at old
        cases old
      | some prior =>
        rw [held] at old
        refine (rows prior held row (lastOf_some old).1).stays fun _ _ carried => ?_
        have present : (lastOf Row.date (call.2.statement statement) row.date).isSome := lastOf_isSome.mpr carried
        rw [absent] at present
        cases present
  · have held := mergeStatementPayloads_refused admits
    exact (rows _ held row member).stays fun _ admitted => absurd admitted admits

theorem stored_lastCarried (clocked : Clocked calls) {payload : Payload} (held : stored (saves calls) symbol = some payload) :
    ∀ row ∈ payload.statement statement, LastCarried symbol statement calls row := by
  induction calls using List.reverseRecOn generalizing payload with
  | nil => cases held
  | append_singleton calls call ih =>
    intro row member
    have rows : ∀ prior, stored (saves calls) symbol = some prior → ∀ row ∈ prior.statement statement, LastCarried symbol statement calls row :=
      fun prior there => ih clocked.front there
    rcases stored_step clocked symbol with ⟨idle, same⟩ | ⟨takes, next⟩ | ⟨takes, prior, _, same, alike⟩
    · exact (rows payload (same ▸ held) row member).stays fun takes => absurd takes idle
    · cases held.symm.trans next
      exact lastCarried_merge rows takes member
    · cases held.symm.trans same
      have image : row.bare ∈ payload.bare.statement statement := by
        rw [bare_statement]
        exact List.mem_map_of_mem member
      rw [alike, bare_statement] at image
      obtain ⟨other, among, equal⟩ := List.mem_map.mp image
      exact (lastCarried_merge rows takes among).congr equal

end Rows

section Sources
variable {A : Type} {calls : List (ℤ × Payload)} {symbol : String} {base incoming payload : Payload} {described : Payload → Option A}

/-- What describes the period comes with the document of the period. -/
def Sourced (payload : Payload) : Prop := payload.publishedOn.isSome ∨ payload.sourceUrl.isSome →
  ∀ period, payload.asOf = some period → (documentAt payload.periodDocuments period).isSome

/-- What describes the period was given by a payload that names the version stored for it. -/
def ReadFrom (described : Payload → Option A) (calls : List (ℤ × Payload)) (symbol : String) (payload : Payload) : Prop :=
  ∀ value period, described payload = some value → payload.asOf = some period →
    ∃ call ∈ calls, Takes symbol call.2 ∧ call.2.asOf = some period ∧ described call.2 = some value ∧
      ∃ own, documentAt call.2.periodDocuments period = some own ∧
        ∀ document, documentAt payload.periodDocuments period = some document → document.item.identity = own.item.identity

theorem ReadFrom.snoc {call : ℤ × Payload} (read : ReadFrom described calls symbol payload) : ReadFrom described (calls ++ [call]) symbol payload := by
  intro value period held dated
  obtain ⟨other, member, rest⟩ := read value period held dated
  exact ⟨other, List.mem_append_left _ member, rest⟩

variable (merges : ∀ base incoming, described (merged base incoming) =
    if sameAsOfDocument base incoming then (described incoming).or (described base) else described incoming)
  (sourced : ∀ call ∈ calls, (described call.2).isSome → ∀ period, call.2.asOf = some period →
    (documentAt call.2.periodDocuments period).isSome)
include merges

theorem readFrom_merged {call : ℤ × Payload} (takes : Takes symbol call.2) (read : ReadFrom described calls symbol base)
    (named : (described call.2).isSome → ∀ period, call.2.asOf = some period → (documentAt call.2.periodDocuments period).isSome) :
    ReadFrom described (calls ++ [call]) symbol (merged base call.2) := by
  intro value period held dated
  have fresh : described call.2 = some value → ∃ other ∈ calls ++ [call], Takes symbol other.2 ∧ other.2.asOf = some period ∧
      described other.2 = some value ∧ ∃ own, documentAt other.2.periodDocuments period = some own ∧
        ∀ document, documentAt (merged base call.2).periodDocuments period = some document → document.item.identity = own.item.identity := by
    intro given
    obtain ⟨own, listed⟩ := Option.isSome_iff_exists.mp (named (by rw [given]; rfl) period dated)
    exact ⟨call, List.mem_append_right _ (List.mem_singleton_self _), takes, dated, given, own, listed,
      fun document found => identity_mergeDocument listed (documentAt_merged_some found).2⟩
  rw [merges] at held
  split at held
  · rename_i same
    rcases Option.or_eq_some_iff.mp held with given | ⟨_, inherited⟩
    · exact fresh given
    · obtain ⟨_, first, second, here, prior, old, new, identity⟩ := sameAsOfDocument_iff.mp same
      cases dated.symm.trans here
      obtain ⟨other, member, takes, asOf, given, own, listed, alike⟩ := read value period inherited prior
      refine ⟨other, List.mem_append_left _ member, takes, asOf, given, own, listed, fun document found => ?_⟩
      rw [identity_mergeDocument new (documentAt_merged_some found).2, ← identity]
      exact alike first old
  · exact fresh held

include sourced in
theorem stored_readFrom (clocked : Clocked calls) (held : stored (saves calls) symbol = some payload) :
    ReadFrom described calls symbol payload := by
  induction calls using List.reverseRecOn generalizing payload with
  | nil => cases held
  | append_singleton calls call ih =>
    have before : ∀ prior, stored (saves calls) symbol = some prior → ReadFrom described calls symbol prior :=
      fun prior there => ih (fun other member => sourced other (List.mem_append_left _ member)) clocked.front there
    rcases stored_step clocked symbol with ⟨_, same⟩ | ⟨takes, next⟩ | ⟨_, prior, there, same, _⟩
    · exact (before payload (same ▸ held)).snoc
    · cases held.symm.trans next
      have named := sourced call (List.mem_append_right _ (List.mem_singleton_self _))
      by_cases admits : Admits (stored (saves calls) symbol) call.2
      · rw [mergeStatementPayloads_admitted admits]
        refine readFrom_merged merges takes ?_ named
        cases there : stored (saves calls) symbol with
        | none => exact fun _ _ _ dated => nomatch dated
        | some prior => exact before prior there
      · exact (before _ (mergeStatementPayloads_refused admits)).snoc
    · cases held.symm.trans same
      exact (before payload there).snoc

end Sources

section Again
variable {calls : List (ℤ × Payload)} {symbol : String} {payload incoming : Payload} {prior : Option Payload}

/-- What holds of every stored payload, if no payload has a row newer than its period. -/
structure Settled (payload : Payload) : Prop where
  dated : payload.asOf.isSome
  bounded : Bounded payload
  documented : Documented payload

theorem settled_merge (settled : ∀ before, prior = some before → Settled before) (dated : incoming.asOf.isSome) (bounded : Bounded incoming) :
    Settled (mergeStatementPayloads prior incoming) := by
  by_cases admits : Admits prior incoming
  · rw [mergeStatementPayloads_admitted admits]
    refine ⟨dated, fun row member period own => ?_, documented_merged⟩
    rcases mem_merged member with carried | stored
    · exact bounded row carried period own
    · cases prior with
      | none => cases stored
      | some before =>
        obtain ⟨earlier, there⟩ := Option.isSome_iff_exists.mp (settled before rfl).dated
        exact ((settled before rfl).bounded row stored earlier there).trans (admits earlier period there own)
  · exact settled _ (mergeStatementPayloads_refused admits)

theorem stored_settled (clocked : Clocked calls) (bounded : ∀ call ∈ calls, Bounded call.2) (held : stored (saves calls) symbol = some payload) :
    Settled payload := by
  induction calls using List.reverseRecOn generalizing payload with
  | nil => cases held
  | append_singleton calls call ih =>
    have before : ∀ prior, stored (saves calls) symbol = some prior → Settled prior :=
      fun prior there => ih clocked.front (fun other member => bounded other (List.mem_append_left _ member)) there
    rcases stored_step clocked symbol with ⟨_, same⟩ | ⟨takes, next⟩ | ⟨_, prior, there, same, _⟩
    · exact before payload (same ▸ held)
    · cases held.symm.trans next
      exact settled_merge before takes.2.2 (bounded call (List.mem_append_right _ (List.mem_singleton_self _)))
    · cases held.symm.trans same
      exact before payload there

theorem admits_merged (base incoming : Payload) : Admits (some (merged base incoming)) incoming := by
  intro before period stored own
  cases stored.symm.trans own
  exact le_rfl

theorem mergeStatementPayloads_again (settled : ∀ before, prior = some before → Settled before) (bounded : Bounded incoming) :
    mergeStatementPayloads (some (mergeStatementPayloads prior incoming)) incoming = mergeStatementPayloads prior incoming := by
  by_cases admits : Admits prior incoming
  · rw [mergeStatementPayloads_admitted admits, mergeStatementPayloads_admitted (admits_merged _ _)]
    refine merged_again ?_ ?_ bounded
    · cases prior with
      | none => exact fun _ member => nomatch member
      | some before => exact (settled before rfl).bounded
    · cases prior with
      | none => exact fun _ found => nomatch found
      | some before => exact (settled before rfl).documented
  · have held := mergeStatementPayloads_refused admits
    rw [← held]

theorem save_unchanged {snapshots : List Snapshot} (again : ℤ)
    (same : stored snapshots payload.symbol = some (mergeStatementPayloads (stored snapshots payload.symbol) payload)) :
    save snapshots again payload = snapshots := by
  unfold save
  split
  · rfl
  · dsimp only
    rw [if_pos]
    refine (Option.any_eq_true _ _).mpr ⟨_, same, ?_⟩
    exact decide_eq_true rfl

theorem save_again {instant : ℤ} (clocked : Clocked (calls ++ [(instant, payload)])) (bounded : ∀ call ∈ calls ++ [(instant, payload)], Bounded call.2)
    (again : ℤ) : save (saves (calls ++ [(instant, payload)])) again payload = saves (calls ++ [(instant, payload)]) := by
  have settled : ∀ before, stored (saves calls) payload.symbol = some before → Settled before :=
    fun before there => stored_settled clocked.front (fun other member => bounded other (List.mem_append_left _ member)) there
  have own := bounded (instant, payload) (List.mem_append_right _ (List.mem_singleton_self _))
  rcases stored_step clocked payload.symbol with ⟨idle, _⟩ | ⟨takes, next⟩ | ⟨takes, prior, there, same, alike⟩
  · unfold save
    rw [if_pos]
    by_contra valid
    rw [Bool.or_eq_true, not_or, decide_eq_true_eq, Bool.not_eq_true, Option.isNone_eq_false_iff] at valid
    exact idle ⟨rfl, valid⟩
  · refine save_unchanged again ?_
    rw [next, mergeStatementPayloads_again settled own]
  · unfold save
    split
    · rfl
    · dsimp only
      rw [if_pos]
      refine (Option.any_eq_true _ _).mpr ⟨prior, same, ?_⟩
      have held : ∀ snapshots, stored snapshots payload.symbol = some prior →
          (latestSnapshot snapshots payload.symbol).map Snapshot.outputs = some prior := fun _ found => found
      rw [held _ same, decide_eq_true_eq, alike, there]

end Again

/-- Saves that converge and never go back. -/
structure Converges (calls : List (ℤ × Payload)) (symbol : String) : Prop where
  forward : ∀ earlier later before, calls = earlier ++ later → stored (saves earlier) symbol = some before →
    ∃ after, stored (saves calls) symbol = some after ∧
      (∀ period, before.asOf = some period → ∃ last, after.asOf = some last ∧ period ≤ last) ∧
      ∀ statement, ∀ row ∈ before.statement statement, row.date ∉ (after.statement statement).map Row.date →
        historyQuarters ≤ newerThan Row.date (after.statement statement) row.date
  carried : ∀ payload, stored (saves calls) symbol = some payload → ∀ statement, ∀ row ∈ payload.statement statement,
    LastCarried symbol statement calls row
  sourced : (∀ call ∈ calls, Sourced call.2) → ∀ payload, stored (saves calls) symbol = some payload →
    ReadFrom Payload.publishedOn calls symbol payload ∧ ReadFrom Payload.sourceUrl calls symbol payload
  again : (∀ call ∈ calls, Bounded call.2) → ∀ earlier instant payload, calls = earlier ++ [(instant, payload)] →
    ∀ later, save (saves calls) later payload = saves calls

/-- Whatever payloads are saved, the store converges and never goes back. -/
theorem saves_converge (calls : List (ℤ × Payload)) (clocked : Clocked calls) (symbol : String) : Converges calls symbol where
  forward := by
    rintro earlier later before rfl held
    obtain ⟨after, found, follows⟩ := stored_follows clocked held
    refine ⟨after, found, follows.forward, fun statement row member dropped => ?_⟩
    exact (follows.reach statement row.date (.inl (List.mem_map_of_mem member))).resolve_left dropped
  carried := fun _ held _ => stored_lastCarried clocked held
  sourced := fun sourced _ held =>
    ⟨stored_readFrom (fun _ _ => rfl) (fun call member given => sourced call member (.inl given)) clocked held,
      stored_readFrom (fun _ _ => rfl) (fun call member given => sourced call member (.inr given)) clocked held⟩
  again := by
    rintro bounded earlier instant payload rfl later
    exact save_again clocked bounded later

section Astray

private def dated (period : Day) : Row := ⟨period, Record.empty⟩

/-- A payload with income rows of some periods, that names a version of its own period or none. -/
private def payloadOf (asOf : Day) (published : Option Day) (version : Option ℤ) (periods : List Day) : Payload where
  symbol := "PETR4"
  asOf := some asOf
  publishedOn := published
  sourceName := ""
  sourceUrl := none
  quarterlyIncome := periods.map dated
  quarterlyCashFlow := []
  quarterlyBalance := []
  sharesOutstanding := none
  metrics := ⟨"", "", "", .con, none, none⟩
  periodDocuments := version.toList.map fun version => (asOf, ⟨⟨⟨"ITR", asOf, version⟩, published⟩, "", []⟩)

/-- A quarter, and the next one. -/
private def regular : List (ℤ × Payload) :=
  [(1, payloadOf 90 (some 120) (some 1) [90]), (2, payloadOf 181 (some 211) (some 1) [181, 90])]

/-- A quarter, and its publication said again without its document. -/
private def unnamed : List (ℤ × Payload) :=
  [(1, payloadOf 90 (some 120) (some 1) [90]), (2, payloadOf 90 (some 150) none [90])]

/-- Eight newer quarters, given as of an old one. -/
private def pruned : Payload := payloadOf 90 none (some 1) [181, 273, 365, 455, 546, 638, 730, 820]

private def pruning : List (ℤ × Payload) := [(1, payloadOf 90 (some 120) (some 1) [90]), (2, pruned)]

private theorem regular_regular : ∀ call ∈ regular, Sourced call.2 ∧ Bounded call.2 := by
  have first : Sourced (payloadOf 90 (some 120) (some 1) [90]) ∧ Bounded (payloadOf 90 (some 120) (some 1) [90]) := by
    refine ⟨fun _ period own => ?_, fun row member period own => ?_⟩ <;> cases own
    · decide
    · cases List.mem_singleton.mp member
      decide
  have second : Sourced (payloadOf 181 (some 211) (some 1) [181, 90]) ∧ Bounded (payloadOf 181 (some 211) (some 1) [181, 90]) := by
    refine ⟨fun _ period own => ?_, fun row member period own => ?_⟩ <;> cases own
    · decide
    · have dates : row = dated 181 ∨ row = dated 90 := by simpa [Payload.rows, payloadOf] using member
      rcases dates with rfl | rfl <;> decide
  intro call member
  rcases List.mem_cons.mp member with rfl | rest
  · exact first
  · cases List.mem_singleton.mp rest
    exact second

end Astray

/-- Two quarters in turn. -/
theorem saves_converge_regular : (∀ call ∈ regular, Sourced call.2 ∧ Bounded call.2) ∧ Converges regular "PETR4" :=
  ⟨regular_regular, saves_converge regular (by decide) "PETR4"⟩

/-- A publication no document is named for stands beside the document stored before, and a
receipt lost with its pruned period is written a second time. -/
theorem saves_go_astray :
    (Clocked unnamed ∧ ∃ payload, stored (saves unnamed) "PETR4" = some payload ∧
      ¬ReadFrom Payload.publishedOn unnamed "PETR4" payload) ∧
    (Clocked (pruning ++ [(3, pruned)]) ∧ save (saves pruning) 3 pruned ≠ saves pruning) := by
  refine ⟨⟨by decide, ?_⟩, by decide, fun same => ?_⟩
  · have stays : (stored (saves unnamed) "PETR4").any fun payload =>
        payload.publishedOn = some 150 && payload.asOf = some 90 := by decide +kernel
    obtain ⟨payload, held, described⟩ := (Option.any_eq_true _ _).mp stays
    rw [Bool.and_eq_true, decide_eq_true_eq, decide_eq_true_eq] at described
    refine ⟨payload, held, fun read => ?_⟩
    obtain ⟨call, member, _, _, given, own, named, _⟩ := read 150 90 described.1 described.2
    rcases List.mem_cons.mp member with rfl | rest
    · exact absurd given (by decide)
    · cases List.mem_singleton.mp rest
      cases named
  · have once : (saves pruning).length = 2 := by decide +kernel
    have twice : (save (saves pruning) 3 pruned).length = 3 := by decide +kernel
    rw [same, once] at twice
    exact absurd twice (by decide)

section Extracted

end Extracted

end C3po.Overlays
