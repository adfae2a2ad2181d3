import Mathlib.Order.ConditionallyCompleteLattice.Basic
import Mathlib.Data.Int.ConditionallyCompleteOrder
import Mathlib.Order.WithBot
import C3po.Statements.Facts

/-! The vintages of one issuer: insertion, and how first publications are flagged.

A fact is flagged once, when it is inserted, against the rows that are stored then.
-/

set_option autoImplicit false

namespace C3po.Statements
open C3po.Library

/-- A row with its acceptance clock. -/
structure Stamped where
  row : Row
  accepted : ℤ
  deriving DecidableEq

structure Stored extends Stamped where
  isFirstPublication : Bool
  deriving DecidableEq

def Stamped.identity (stamped : Stamped) : Identity := stamped.row.key.identity

def Stamped.order (stamped : Stamped) : ℤ ×ₗ String ×ₗ String ×ₗ WithBot ℤ ×ₗ ℤ :=
  let key := stamped.row.key
  -- a missing start sorts as the empty text, before every date
  toLex (stamped.accepted, toLex (key.accession, toLex (key.identity.concept,
    toLex ((key.identity.start : WithBot ℤ), key.identity.finish))))

/-- The acceptances known for each identity. -/
abbrev Earliest := Identity → Option ℤ

/-- No publication is known, or only later ones. -/
def Earliest.precedes (earliest : Earliest) (stamped : Stamped) : Bool :=
  (earliest stamped.identity).all (stamped.accepted < ·)

def Earliest.add (earliest : Earliest) (stamped : Stamped) : Earliest :=
  if earliest.precedes stamped then Function.update earliest stamped.identity (some stamped.accepted) else earliest

def earliestByIdentity (stored : List Stored) : Earliest :=
  stored.foldl (fun earliest row => earliest.add row.toStamped) fun _ => none

/-- `_flagged` between two rows. -/
structure Flagging where
  earliest : Earliest
  existing : List Key
  flagged : List Stored
  outOfOrder : ℕ

def Flagging.add (flagging : Flagging) (stamped : Stamped) : Flagging :=
  if stamped.row.key ∈ flagging.existing then flagging
  else
    let first := flagging.earliest.precedes stamped
    { earliest := flagging.earliest.add stamped
      existing := stamped.row.key :: flagging.existing
      flagged := flagging.flagged ++ [⟨stamped, first⟩]
      outOfOrder := flagging.outOfOrder + (first && (flagging.earliest stamped.identity).isSome).toNat }

def Flagging.start (stored : List Stored) : Flagging := ⟨earliestByIdentity stored, stored.map (·.row.key), [], 0⟩

@[simp] theorem Flagging.start_flagged (stored : List Stored) : (Flagging.start stored).flagged = [] := rfl

/-- `insert_vintages`: the rows are read under the lock of the issuer, for the concepts of the batch. -/
def insertVintages (store : List Stored) (rows : List Stamped) : Flagging :=
  let checked := stableSort Stamped.order rows
  let concepts := checked.map (·.identity.concept)
  let stored := store.filter (·.identity.concept ∈ concepts)
  checked.foldl Flagging.add (.start stored)

/-- The least acceptance among the rows of an identity. -/
def Least (table : List Stored) (identity : Identity) : Option ℤ → Prop
  | none => ∀ row ∈ table, row.identity ≠ identity
  | some accepted => (∃ row ∈ table, row.identity = identity ∧ row.accepted = accepted) ∧
      ∀ row ∈ table, row.identity = identity → accepted ≤ row.accepted

theorem Least.add {table : List Stored} {earliest : Earliest} {identity : Identity}
    (least : Least table identity (earliest identity)) (row : Stored) :
    Least (table ++ [row]) identity (earliest.add row.toStamped identity) := by
  by_cases same : row.identity = identity
  · subst same
    cases known : earliest row.identity with
    | none =>
      rw [known] at least
      have precedes : earliest.precedes row.toStamped = true := by simp [Earliest.precedes, known]
      simp only [Earliest.add, precedes, if_true, Function.update_self]
      refine ⟨⟨row, by simp, rfl, rfl⟩, ?_⟩
      intro other here same
      obtain before | after := List.mem_append.mp here
      · exact absurd same (least other before)
      · rw [List.mem_singleton.mp after]
    | some prior =>
      rw [known] at least
      obtain ⟨⟨witness, inside, alike, reached⟩, lowest⟩ := least
      by_cases lower : row.accepted < prior
      · have precedes : earliest.precedes row.toStamped = true := by simp [Earliest.precedes, known, lower]
        simp only [Earliest.add, precedes, if_true, Function.update_self]
        refine ⟨⟨row, by simp, rfl, rfl⟩, ?_⟩
        intro other here same
        obtain before | after := List.mem_append.mp here
        · exact lower.le.trans (lowest other before same)
        · rw [List.mem_singleton.mp after]
      · have precedes : earliest.precedes row.toStamped = false := by simp [Earliest.precedes, known, lower]
        simp only [Earliest.add, precedes, Bool.false_eq_true, if_false, known]
        refine ⟨⟨witness, by simp [inside], alike, reached⟩, ?_⟩
        intro other here same
        obtain before | after := List.mem_append.mp here
        · exact lowest other before same
        · rw [List.mem_singleton.mp after]
          exact not_lt.mp lower
  · have kept : earliest.add row.toStamped identity = earliest identity := by
      unfold Earliest.add
      split
      · exact Function.update_of_ne (Ne.symm same) _ _
      · rfl
    rw [kept]
    cases known : earliest identity with
    | none =>
      rw [known] at least
      intro other here
      obtain before | after := List.mem_append.mp here
      · exact least other before
      · rw [List.mem_singleton.mp after]
        exact same
    | some prior =>
      rw [known] at least
      obtain ⟨⟨witness, inside, alike, reached⟩, lowest⟩ := least
      refine ⟨⟨witness, by simp [inside], alike, reached⟩, ?_⟩
      intro other here also
      obtain before | after := List.mem_append.mp here
      · exact lowest other before also
      · rw [List.mem_singleton.mp after] at also
        exact absurd also same

theorem earliestByIdentity_least (stored : List Stored) (identity : Identity) :
    Least stored identity (earliestByIdentity stored identity) := by
  induction stored using List.reverseRecOn with
  | nil =>
    intro row here
    cases here
  | append_singleton rows row ih =>
    have step : earliestByIdentity (rows ++ [row]) = (earliestByIdentity rows).add row.toStamped := List.foldl_concat ..
    rw [step]
    exact ih.add row

theorem Least.of_filter {table : List Stored} {concepts : List String} {identity : Identity} {earliest : Option ℤ}
    (read : identity.concept ∈ concepts)
    (least : Least (table.filter (·.identity.concept ∈ concepts)) identity earliest) : Least table identity earliest := by
  have reads : ∀ row ∈ table, row.identity = identity → row ∈ table.filter (·.identity.concept ∈ concepts) := by
    intro row here same
    apply List.mem_filter.mpr
    rw [same]
    exact ⟨here, decide_eq_true read⟩
  cases earliest with
  | none =>
    intro row here same
    exact least row (reads row here same) same
  | some accepted =>
    obtain ⟨⟨row, inside, same, reached⟩, lowest⟩ := least
    exact ⟨⟨row, (List.mem_filter.mp inside).1, same, reached⟩, fun other here also => lowest other (reads other here also) also⟩

/-- What `_flagged` knows is what the table holds of the concepts it read. -/
structure Flagging.Reads (flagging : Flagging) (table : List Stored) (concepts : List String) : Prop where
  earliest : ∀ identity : Identity, identity.concept ∈ concepts → Least table identity (flagging.earliest identity)
  existing : ∀ key : Key, key.identity.concept ∈ concepts → (key ∈ flagging.existing ↔ key ∈ table.map (·.row.key))

section Rows
variable {store table : List Stored} {flagging : Flagging} {stamped : Stamped} {concepts : List String}

theorem reads_stored (store : List Stored) (concepts : List String) :
    (Flagging.start (store.filter (·.identity.concept ∈ concepts))).Reads (store ++ []) concepts := by
  rw [List.append_nil]
  constructor
  · intro identity read
    exact (earliestByIdentity_least _ identity).of_filter read
  · intro key read
    constructor
    · intro here
      obtain ⟨row, inside, same⟩ := List.mem_map.mp here
      exact List.mem_map.mpr ⟨row, (List.mem_filter.mp inside).1, same⟩
    · intro here
      obtain ⟨row, inside, same⟩ := List.mem_map.mp here
      refine List.mem_map.mpr ⟨row, List.mem_filter.mpr ⟨inside, decide_eq_true ?_⟩, same⟩
      rw [← same] at read
      exact read

theorem Flagging.Reads.add (reads : flagging.Reads (store ++ flagging.flagged) concepts)
    (read : stamped.identity.concept ∈ concepts) :
    (stamped.row.key ∈ (store ++ flagging.flagged).map (·.row.key) ∧ flagging.add stamped = flagging) ∨
      (stamped.row.key ∉ (store ++ flagging.flagged).map (·.row.key) ∧
        (flagging.add stamped).flagged = flagging.flagged ++ [⟨stamped, flagging.earliest.precedes stamped⟩] ∧
        (flagging.add stamped).outOfOrder = flagging.outOfOrder +
          (flagging.earliest.precedes stamped && (flagging.earliest stamped.identity).isSome).toNat ∧
        (flagging.add stamped).Reads (store ++ (flagging.add stamped).flagged) concepts) := by
  by_cases known : stamped.row.key ∈ flagging.existing
  · left
    exact ⟨(reads.existing _ read).mp known, if_pos known⟩
  · right
    have absent := fun here => known ((reads.existing _ read).mpr here)
    have step : flagging.add stamped = ⟨flagging.earliest.add stamped, stamped.row.key :: flagging.existing,
        flagging.flagged ++ [⟨stamped, flagging.earliest.precedes stamped⟩], flagging.outOfOrder +
          (flagging.earliest.precedes stamped && (flagging.earliest stamped.identity).isSome).toNat⟩ := if_neg known
    rw [step]
    refine ⟨absent, rfl, rfl, ?_⟩
    constructor
    · intro identity inside
      rw [← List.append_assoc]
      exact (reads.earliest identity inside).add _
    · intro key inside
      have before := reads.existing key inside
      simp only [List.map_append, List.mem_append, List.mem_cons, List.map_cons, List.map_nil, List.not_mem_nil,
        or_false] at before ⊢
      rw [before]
      tauto

/-- The flags of a table: the earliest publication of each fact, and one row for each fact. -/
structure Flagged (table : List Stored) : Prop where
  distinct : (table.map (·.row.key)).Nodup
  earliest : ∀ row ∈ table, row.isFirstPublication → ∀ other ∈ table, other.identity = row.identity → row.accepted ≤ other.accepted
  unique : ∀ row ∈ table, ∃! first, first ∈ table ∧ first.isFirstPublication ∧ first.identity = row.identity

theorem Flagged.append (flagged : Flagged table) {row : Stored} (absent : row.row.key ∉ table.map (·.row.key))
    (flag : row.isFirstPublication ↔ ∀ other ∈ table, other.identity ≠ row.identity)
    (later : ∀ other ∈ table, other.identity = row.identity → other.accepted ≤ row.accepted) :
    Flagged (table ++ [row]) := by
  constructor
  · rw [List.map_append]
    refine List.nodup_append'.mpr ⟨flagged.distinct, List.nodup_singleton _, ?_⟩
    intro key here there
    rw [List.mem_singleton.mp there] at here
    exact absent here
  · intro first here isFirst other there same
    obtain before | after := List.mem_append.mp here <;> obtain earlier | last := List.mem_append.mp there
    · exact flagged.earliest first before isFirst other earlier same
    · obtain rfl := List.mem_singleton.mp last
      exact later first before same.symm
    · obtain rfl := List.mem_singleton.mp after
      exact absurd same (flag.mp isFirst other earlier)
    · rw [List.mem_singleton.mp after, List.mem_singleton.mp last]
  · intro given here
    by_cases new : row.isFirstPublication ∧ given.identity = row.identity
    · have alone := flag.mp new.1
      refine ⟨row, ⟨by simp, new.1, new.2.symm⟩, ?_⟩
      rintro first ⟨there, -, same⟩
      obtain before | after := List.mem_append.mp there
      · exact absurd (same.trans new.2) (alone first before)
      · exact List.mem_singleton.mp after
    · have held : ∃ old ∈ table, old.identity = given.identity := by
        obtain before | after := List.mem_append.mp here
        · exact ⟨given, before, rfl⟩
        · rw [List.mem_singleton.mp after] at new ⊢
          by_contra none
          exact new ⟨flag.mpr fun other there same => none ⟨other, there, same⟩, rfl⟩
      obtain ⟨old, inside, alike⟩ := held
      obtain ⟨first, ⟨there, isFirst, same⟩, only⟩ := flagged.unique old inside
      refine ⟨first, ⟨by simp [there], isFirst, same.trans alike⟩, ?_⟩
      rintro other ⟨there, also, likewise⟩
      obtain before | after := List.mem_append.mp there
      · exact only other ⟨before, also, likewise.trans alike.symm⟩
      · obtain rfl := List.mem_singleton.mp after
        exact absurd ⟨also, likewise.symm⟩ new

theorem precedes_iff {earliest : Earliest} (least : Least table stamped.identity (earliest stamped.identity))
    (later : ∀ other ∈ table, other.identity = stamped.identity → other.accepted ≤ stamped.accepted) :
    (earliest.precedes stamped ↔ ∀ other ∈ table, other.identity ≠ stamped.identity) ∧
      (earliest.precedes stamped && (earliest stamped.identity).isSome) = false := by
  cases known : earliest stamped.identity with
  | none =>
    rw [known] at least
    simp only [Earliest.precedes, known, Option.all_none, Option.isSome_none, Bool.and_false, and_true, true_iff]
    exact least
  | some prior =>
    rw [known] at least
    obtain ⟨⟨other, inside, same, reached⟩, -⟩ := least
    have atMost : prior ≤ stamped.accepted := reached ▸ later other inside same
    have precedes : earliest.precedes stamped = false := by simp [Earliest.precedes, known, atMost]
    simp only [precedes, Bool.false_and, Bool.false_eq_true, false_iff, not_forall, and_true]
    exact ⟨other, inside, fun differs => differs same⟩

theorem foldl_flagged {rows : List Stamped} (reads : flagging.Reads (store ++ flagging.flagged) concepts)
    (flagged : Flagged (store ++ flagging.flagged)) (ordered : flagging.outOfOrder = 0)
    (read : ∀ stamped ∈ rows, stamped.identity.concept ∈ concepts)
    (sorted : rows.Pairwise fun first second => first.accepted ≤ second.accepted)
    (later : ∀ other ∈ store ++ flagging.flagged, ∀ stamped ∈ rows, other.identity = stamped.identity →
      stamped.row.key ∉ (store ++ flagging.flagged).map (·.row.key) → other.accepted ≤ stamped.accepted) :
    Flagged (store ++ (rows.foldl Flagging.add flagging).flagged) ∧ (rows.foldl Flagging.add flagging).outOfOrder = 0 := by
  induction rows generalizing flagging with
  | nil => exact ⟨flagged, ordered⟩
  | cons head rest ih =>
    rw [List.foldl_cons]
    obtain ⟨headFirst, restSorted⟩ := List.pairwise_cons.mp sorted
    have readRest : ∀ stamped ∈ rest, stamped.identity.concept ∈ concepts := fun stamped here => read stamped (by simp [here])
    obtain ⟨-, same⟩ | ⟨absent, written, counted, next⟩ := reads.add (read head (by simp))
    · rw [same]
      apply ih reads flagged ordered readRest restSorted
      intro other here stamped there
      exact later other here stamped (by simp [there])
    · have before := fun other here same => later other here head (by simp) same absent
      obtain ⟨flag, quiet⟩ := precedes_iff (reads.earliest _ (read head (by simp))) before
      have grown : store ++ (flagging.add head).flagged =
          (store ++ flagging.flagged) ++ [⟨head, flagging.earliest.precedes head⟩] := by
        rw [written, List.append_assoc]
      apply ih next
      · rw [grown]
        exact flagged.append absent flag before
      · rw [counted, quiet, ordered]
        rfl
      · exact readRest
      · exact restSorted
      · rw [grown]
        intro other here stamped there same unknown
        obtain old | new := List.mem_append.mp here
        · apply later other old stamped (by simp [there]) same
          intro known
          exact unknown (by rw [List.map_append]; exact List.mem_append_left _ known)
        · rw [List.mem_singleton.mp new]
          exact headFirst stamped there

/-- What is written comes from the batch, keeps its clock, and was not stored; afterwards the batch is stored. -/
structure Written (store : List Stored) (rows : List Stamped) (flagged : List Stored) : Prop where
  new : ∀ row ∈ flagged, row.toStamped ∈ rows ∧ row.row.key ∉ store.map (·.row.key)
  stored : ∀ stamped ∈ rows, stamped.row.key ∈ (store ++ flagged).map (·.row.key)

theorem foldl_new {rows : List Stamped} (reads : flagging.Reads (store ++ flagging.flagged) concepts)
    (read : ∀ stamped ∈ rows, stamped.identity.concept ∈ concepts) :
    ∃ added, (rows.foldl Flagging.add flagging).flagged = flagging.flagged ++ added ∧
      Written (store ++ flagging.flagged) rows added := by
  induction rows generalizing flagging with
  | nil => exact ⟨[], by simp, (fun _ here => nomatch here), (fun _ here => nomatch here)⟩
  | cons head rest ih =>
    rw [List.foldl_cons]
    have readRest : ∀ stamped ∈ rest, stamped.identity.concept ∈ concepts := fun stamped here => read stamped (by simp [here])
    obtain ⟨known, same⟩ | ⟨absent, written, -, next⟩ := reads.add (read head (by simp))
    · rw [same]
      obtain ⟨added, last, new, stored⟩ := ih reads readRest
      refine ⟨added, last, fun row here => ⟨List.mem_cons_of_mem _ (new row here).1, (new row here).2⟩, ?_⟩
      intro stamped here
      obtain rfl | there := List.mem_cons.mp here
      · rw [List.map_append]
        exact List.mem_append_left _ known
      · exact stored stamped there
    · obtain ⟨added, last, new, stored⟩ := ih next readRest
      rw [written, ← List.append_assoc] at new stored
      rw [written, List.append_assoc] at last
      refine ⟨_, last, ?_, ?_⟩
      · intro row here
        obtain rfl | there := List.mem_cons.mp here
        · exact ⟨List.mem_cons_self, absent⟩
        · obtain ⟨inside, unknown⟩ := new row there
          refine ⟨List.mem_cons_of_mem _ inside, fun known => unknown ?_⟩
          rw [List.map_append]
          exact List.mem_append_left _ known
      · intro stamped here
        rw [← List.append_assoc]
        obtain rfl | there := List.mem_cons.mp here
        · simp
        · exact stored stamped there

end Rows

section Insertion
variable {store : List Stored} {rows : List Stamped}

theorem reads_batch : ∀ stamped ∈ stableSort Stamped.order rows,
    stamped.identity.concept ∈ (stableSort Stamped.order rows).map (·.identity.concept) :=
  fun _ here => List.mem_map_of_mem here

theorem insertVintages_written : Written store rows (insertVintages store rows).flagged := by
  have reads := reads_stored store ((stableSort Stamped.order rows).map (·.identity.concept))
  obtain ⟨added, last, new, stored⟩ := foldl_new reads reads_batch
  simp only [Flagging.start_flagged, List.nil_append, List.append_nil] at last new stored
  constructor
  · intro row here
    rw [insertVintages, last] at here
    exact ⟨mem_stableSort.mp (new row here).1, (new row here).2⟩
  · intro stamped here
    rw [insertVintages, last]
    exact stored stamped (mem_stableSort.mpr here)

theorem accepted_of_order {first second : Stamped} (before : first.order ≤ second.order) : first.accepted ≤ second.accepted := by
  obtain lower | ⟨same, -⟩ := Prod.Lex.le_iff.mp before
  · exact lower.le
  · exact same.le

theorem insertVintages_flagged (flagged : Flagged store)
    (later : ∀ other ∈ store, ∀ stamped ∈ rows, other.identity = stamped.identity →
      stamped.row.key ∉ store.map (·.row.key) → other.accepted ≤ stamped.accepted) :
    Flagged (store ++ (insertVintages store rows).flagged) ∧ (insertVintages store rows).outOfOrder = 0 := by
  have reads := reads_stored store ((stableSort Stamped.order rows).map (·.identity.concept))
  apply foldl_flagged reads ((List.append_nil store).symm ▸ flagged) rfl reads_batch
  · exact (stableSort_sorted Stamped.order rows).imp accepted_of_order
  · intro other here stamped there
    simp only [Flagging.start_flagged, List.append_nil] at here ⊢
    exact later other here stamped (mem_stableSort.mp there)

theorem insertVintages_again (stored : ∀ stamped ∈ rows, stamped.row.key ∈ store.map (·.row.key)) :
    (insertVintages store rows).flagged = [] ∧ (insertVintages store rows).outOfOrder = 0 := by
  have reads := reads_stored store ((stableSort Stamped.order rows).map (·.identity.concept))
  rw [List.append_nil] at reads
  have still : ∀ batch : List Stamped, (∀ stamped ∈ batch, stamped ∈ stableSort Stamped.order rows) → ∀ flagging : Flagging,
      flagging.Reads store ((stableSort Stamped.order rows).map (·.identity.concept)) →
      batch.foldl Flagging.add flagging = flagging := by
    intro batch inside flagging reads
    induction batch with
    | nil => rfl
    | cons head rest ih =>
      have here := inside head (by simp)
      have known := (reads.existing _ (reads_batch head here)).mpr (stored head (mem_stableSort.mp here))
      rw [List.foldl_cons, Flagging.add, if_pos known]
      exact ih fun stamped there => inside stamped (by simp [there])
  rw [insertVintages, still _ (fun _ here => here) _ reads]
  exact ⟨rfl, rfl⟩

end Insertion

end C3po.Statements
