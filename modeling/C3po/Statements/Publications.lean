import C3po.Statements.Vintages

/-! Ingestion passes over one issuer: what a poll registers, reads and inserts, whatever fails on the way.

The retry state of a process only decides when a pass is made, so a restart leaves nothing to model.
-/

set_option autoImplicit false

namespace C3po.Statements
open C3po.Library

/-- What reading a filing header gives: its clock, a failure, or the refusal that ends the pass. -/
inductive Answer
  | accepted (clock : ℤ)
  | unreadable
  | throttled

abbrev Registry := String → Option ℤ

/-- `register_filing` for the trigger filings of a poll; the flag says that the SEC refused. -/
def registered : List (String × Answer) → Registry → Registry × Bool
  | [], registry => (registry, false)
  | (document, answer) :: rest, registry =>
    match registry document, answer with
    | some _, _ => registered rest registry
    | none, .accepted clock => registered rest (Function.update registry document (some clock))
    | none, .unreadable => registered rest registry
    | none, .throttled => (registry, true)

def documents (rows : List Row) : List String :=
  rows.foldl (fun found row => if row.key.accession ∈ found then found else found ++ [row.key.accession]) []

structure Readied where
  registry : Registry
  ready : List String
  throttled : Bool

/-- The loop over the documents: the first unreadable header leaves the rest for another pass. -/
def readied (headers : String → Answer) : List String → Registry → Readied
  | [], registry => ⟨registry, [], false⟩
  | document :: rest, registry =>
    match registry document, headers document with
    | some _, _ =>
      let readied := readied headers rest registry
      { readied with ready := document :: readied.ready }
    | none, .accepted clock =>
      let readied := readied headers rest (Function.update registry document (some clock))
      { readied with ready := document :: readied.ready }
    | none, .unreadable => ⟨registry, [], false⟩
    | none, .throttled => ⟨registry, [], true⟩

def stamped (rows : List Row) (readied : Readied) : List Stamped :=
  stableSort (fun stamped => toLex (stamped.accepted, stamped.row.key.accession))
    ((rows.filter (·.key.accession ∈ readied.ready)).filterMap fun row =>
      (readied.registry row.key.accession).map (Stamped.mk row))

def vintageLookbackDays : ℤ := 10 * 366

/-- One pass: the filings it registers, the download, the headers, its day, and whether the insertion commits. -/
structure Pass where
  filings : List (String × Answer)
  payload : Option Payload
  headers : String → Answer
  today : ℤ
  commits : Bool

structure State where
  registry : Registry
  store : List Stored
  outOfOrder : ℕ

def State.empty : State := ⟨fun _ => none, [], 0⟩

def Pass.rows (pass : Pass) (payload : Payload) : List Row :=
  companyfactsVintages payload (pass.today - vintageLookbackDays)

/-- `ingest_issuer`. -/
def State.ingestIssuer (state : State) (pass : Pass) (payload : Payload) : State :=
  let rows := pass.rows payload
  let readied := readied pass.headers (documents rows) state.registry
  if readied.throttled || !pass.commits then { state with registry := readied.registry }
  else
    let inserted := insertVintages state.store (stamped rows readied)
    ⟨readied.registry, state.store ++ inserted.flagged, state.outOfOrder + inserted.outOfOrder⟩

def State.perform (state : State) (pass : Pass) : State :=
  let (registry, throttled) := registered pass.filings state.registry
  let state := { state with registry }
  match throttled, pass.payload with
  | false, some payload => state.ingestIssuer pass payload
  | _, _ => state

/-- Runs of passes that are allowed after the payload seen last. -/
inductive Reached (allowed : Payload → Pass → Prop) : Payload → State → Prop
  | start : Reached allowed (fun _ => []) .empty
  | pass {seen : Payload} {state : State} (before : Reached allowed seen state) (pass : Pass) (allows : allowed seen pass) :
      Reached allowed (pass.payload.getD seen) (state.perform pass)

structure History (allowed : Payload → Pass → Prop) where
  seen : Payload
  state : State
  reached : Reached allowed seen state

/-- Headers answer the clock of the document, companyfacts only grows, and a document filed on an earlier day was not
accepted later. -/
structure Honest (clock : String → ℤ) (seen : Payload) (pass : Pass) : Prop where
  filings : ∀ document accepted, (document, .accepted accepted) ∈ pass.filings → accepted = clock document
  headers : ∀ document accepted, pass.headers document = .accepted accepted → accepted = clock document
  grows : ∀ payload ∈ pass.payload, seen.Grows payload
  inFiledOrder : ∀ payload ∈ pass.payload, ∀ first ∈ entries payload, ∀ second ∈ entries payload,
    first.filed < second.filed → clock first.key.accession ≤ clock second.key.accession

/-- Documents of one day are accepted in the order of their accession numbers, and companyfacts starts to carry a fact
only for a document accepted no earlier than those it carried that fact for. -/
structure Timely (clock : String → ℤ) (seen : Payload) (pass : Pass) : Prop extends Honest clock seen pass where
  inAccessionOrder : ∀ payload ∈ pass.payload, ∀ first ∈ entries payload, ∀ second ∈ entries payload,
    first.filed = second.filed → first.key.accession ≤ second.key.accession →
    clock first.key.accession ≤ clock second.key.accession
  later : ∀ payload ∈ pass.payload, ∀ key, Carries payload key → ¬ Carries seen key →
    ∀ other, Carries seen other → other.identity = key.identity → clock other.accession ≤ clock key.accession

/-- First publications flagged right: the earliest of their fact, one for each fact, none of them out of order. -/
structure FirstPublications (state : State) : Prop where
  earliest : ∀ row ∈ state.store, row.isFirstPublication → ∀ other ∈ state.store, other.identity = row.identity →
    row.accepted ≤ other.accepted
  unique : ∀ row ∈ state.store, ∃! first, first ∈ state.store ∧ first.isFirstPublication ∧ first.identity = row.identity
  inOrder : state.outOfOrder = 0
  repeated : ∀ pass : Pass, (state.perform pass).perform pass = state.perform pass

/-! What ingestion passes leave: the registered clocks, the stored rows, and their flags.

A stored row is no later than any row of its fact that companyfacts gives and that is not
stored; so no pass can find an earlier publication of a stored fact.
-/

section Registrations

def Registry.Extends (before after : Registry) : Prop := ∀ document clock, before document = some clock → after document = some clock

theorem Registry.Extends.update {registry after : Registry} {document : String} {clock : ℤ} (fresh : registry document = none)
    (extends_ : Registry.Extends (Function.update registry document (some clock)) after) :
    Registry.Extends registry after ∧ after document = some clock := by
  constructor
  · intro other known here
    apply extends_
    have differs : other ≠ document := by
      rintro rfl
      rw [fresh] at here
      cases here
    rw [Function.update_of_ne differs]
    exact here
  · apply extends_
    exact Function.update_self ..

theorem registered_extends (filings : List (String × Answer)) (registry : Registry) :
    Registry.Extends registry (registered filings registry).1 := by
  fun_induction registered filings registry with
  | case1 => exact fun _ _ here => here
  | case2 _ _ _ _ _ _ ih => exact ih
  | case3 _ _ _ _ fresh ih => exact (Registry.Extends.update fresh ih).1
  | case4 _ _ _ _ ih => exact ih
  | case5 => exact fun _ _ here => here

theorem registered_again {filings : List (String × Answer)} {registry later : Registry}
    (extended : Registry.Extends (registered filings registry).1 later)
    (stopped : (registered filings registry).2 = true → later = (registered filings registry).1) :
    registered filings later = (later, (registered filings registry).2) := by
  fun_induction registered filings registry with
  | case1 => rfl
  | case2 document answer rest registry clock known ih =>
    have here := extended _ _ (registered_extends rest registry _ _ known)
    simp only [registered, here]
    exact ih extended stopped
  | case3 document rest registry clock fresh ih =>
    have here := extended _ _ (registered_extends rest _ _ _ (Function.update_self document (some clock) registry))
    simp only [registered, here]
    exact ih extended stopped
  | case4 document rest registry fresh ih =>
    cases known : later document <;> simp only [registered, known] <;> exact ih extended stopped
  | case5 document rest registry fresh =>
    obtain rfl := stopped rfl
    simp only [registered, fresh]

theorem readied_extends (headers : String → Answer) (documents : List String) (registry : Registry) :
    Registry.Extends registry (readied headers documents registry).registry := by
  fun_induction readied headers documents registry with
  | case1 => exact fun _ _ here => here
  | case2 _ _ _ _ _ _ ih => exact ih
  | case3 _ _ _ _ _ fresh _ ih => exact (Registry.Extends.update fresh ih).1
  | case4 => exact fun _ _ here => here
  | case5 => exact fun _ _ here => here

theorem readied_again (headers : String → Answer) (documents : List String) (registry : Registry) :
    readied headers documents (readied headers documents registry).registry = readied headers documents registry := by
  fun_induction readied headers documents registry with
  | case1 => rfl
  | case2 document rest registry clock known left ih =>
    have here := readied_extends headers rest registry _ _ known
    simp only [readied, left, here, ih]
  | case3 document rest registry clock answer fresh left ih =>
    have here := (Registry.Extends.update fresh (readied_extends headers rest (Function.update registry document (some clock)))).2
    simp only [readied, left, here, ih]
  | case4 document rest registry answer fresh => simp only [readied, answer, fresh]
  | case5 document rest registry answer fresh => simp only [readied, answer, fresh]

theorem readied_ready (headers : String → Answer) (documents : List String) (registry : Registry) :
    (readied headers documents registry).ready <+: documents ∧
      ∀ document ∈ (readied headers documents registry).ready,
        ((readied headers documents registry).registry document).isSome := by
  fun_induction readied headers documents registry with
  | case1 => exact ⟨List.nil_prefix, (fun _ here => nomatch here)⟩
  | case2 document rest registry clock known left ih =>
    refine ⟨(List.prefix_cons_inj document).mpr ih.1, ?_⟩
    intro other here
    obtain rfl | there := List.mem_cons.mp here
    · exact Option.isSome_iff_exists.mpr ⟨clock, readied_extends headers rest registry _ _ known⟩
    · exact ih.2 other there
  | case3 document rest registry clock answer fresh left ih =>
    refine ⟨(List.prefix_cons_inj document).mpr ih.1, ?_⟩
    intro other here
    obtain rfl | there := List.mem_cons.mp here
    · exact Option.isSome_iff_exists.mpr ⟨clock, (Registry.Extends.update fresh (readied_extends headers rest _)).2⟩
    · exact ih.2 other there
  | case4 => exact ⟨List.nil_prefix, (fun _ here => nomatch here)⟩
  | case5 => exact ⟨List.nil_prefix, (fun _ here => nomatch here)⟩

def Registry.Sound (registry : Registry) (clock : String → ℤ) : Prop :=
  ∀ document accepted, registry document = some accepted → accepted = clock document

theorem Registry.Sound.update {registry : Registry} {clock : String → ℤ} (sound : registry.Sound clock) {document : String}
    {accepted : ℤ} (right : accepted = clock document) :
    Registry.Sound (Function.update registry document (some accepted)) clock := by
  intro other known here
  by_cases same : other = document
  · rw [same, Function.update_self] at here
    rw [same, ← right]
    exact (Option.some.inj here).symm
  · rw [Function.update_of_ne same] at here
    exact sound other known here

theorem registered_sound {clock : String → ℤ} {filings : List (String × Answer)} {registry : Registry}
    (sound : registry.Sound clock)
    (answers : ∀ document accepted, (document, .accepted accepted) ∈ filings → accepted = clock document) :
    (registered filings registry).1.Sound clock := by
  fun_induction registered filings registry with
  | case1 => exact sound
  | case2 document answer rest registry clock known ih => exact ih sound fun other accepted here => answers other accepted (by simp [here])
  | case3 document rest registry accepted fresh ih =>
    exact ih (sound.update (answers document accepted (by simp))) fun other accepted here => answers other accepted (by simp [here])
  | case4 document rest registry fresh ih => exact ih sound fun other accepted here => answers other accepted (by simp [here])
  | case5 => exact sound

theorem readied_sound {clock : String → ℤ} {headers : String → Answer} {documents : List String} {registry : Registry}
    (sound : registry.Sound clock) (answers : ∀ document accepted, headers document = .accepted accepted → accepted = clock document) :
    (readied headers documents registry).registry.Sound clock := by
  fun_induction readied headers documents registry with
  | case1 => exact sound
  | case2 _ _ _ _ _ _ ih => exact ih sound
  | case3 document rest registry accepted answer fresh left ih => exact ih (sound.update (answers document accepted answer))
  | case4 => exact sound
  | case5 => exact sound

end Registrations

section Documents
variable {rows : List Row}

theorem documents_append (rows : List Row) (row : Row) : documents (rows ++ [row]) =
    if row.key.accession ∈ documents rows then documents rows else documents rows ++ [row.key.accession] :=
  List.foldl_concat ..

theorem documents_sublist (rows : List Row) : (documents rows).Sublist (rows.map (·.key.accession)) := by
  induction rows using List.reverseRecOn with
  | nil => exact List.Sublist.refl _
  | append_singleton rows row ih =>
    rw [documents_append, List.map_append]
    split
    · exact ih.trans (List.sublist_append_left _ _)
    · exact ih.append (List.Sublist.refl _)

theorem mem_documents {row : Row} (here : row ∈ rows) : row.key.accession ∈ documents rows := by
  induction rows using List.reverseRecOn with
  | nil => cases here
  | append_singleton rows last ih =>
    rw [documents_append]
    obtain before | new := List.mem_append.mp here
    · split
      · exact ih before
      · exact List.mem_append_left _ (ih before)
    · rw [List.mem_singleton.mp new]
      split
      · next known => exact known
      · simp

theorem mem_stamped {readied : Readied} {item : Stamped} :
    item ∈ stamped rows readied ↔ item.row ∈ rows ∧ item.row.key.accession ∈ readied.ready ∧
      readied.registry item.row.key.accession = some item.accepted := by
  rw [stamped, mem_stableSort, List.mem_filterMap]
  constructor
  · rintro ⟨row, here, made⟩
    obtain ⟨accepted, clock, rfl⟩ := Option.map_eq_some_iff.mp made
    obtain ⟨inside, ready⟩ := List.mem_filter.mp here
    exact ⟨inside, of_decide_eq_true ready, clock⟩
  · rintro ⟨inside, ready, clock⟩
    exact ⟨item.row, List.mem_filter.mpr ⟨inside, decide_eq_true ready⟩, Option.map_eq_some_iff.mpr ⟨item.accepted, clock, rfl⟩⟩

end Documents

theorem perform_again (state : State) (pass : Pass) : (state.perform pass).perform pass = state.perform pass := by
  have extended := registered_extends pass.filings state.registry
  cases stopped : (registered pass.filings state.registry).2 with
  | true =>
    have first : state.perform pass = { state with registry := (registered pass.filings state.registry).1 } := by
      simp only [State.perform, stopped]
    have again := registered_again (fun _ _ here => here) fun _ => Eq.refl (registered pass.filings state.registry).1
    rw [first]
    simp only [State.perform, again, stopped]
  | false =>
    have quiet : ∀ later, (registered pass.filings state.registry).1.Extends later →
        registered pass.filings later = (later, false) := by
      intro later extends_
      rw [registered_again extends_ (fun refused => by rw [stopped] at refused; cases refused), stopped]
    cases given : pass.payload with
    | none =>
      have first : state.perform pass = { state with registry := (registered pass.filings state.registry).1 } := by
        simp only [State.perform, stopped, given]
      rw [first]
      simp only [State.perform, quiet _ fun _ _ here => here, given]
    | some payload =>
      have first : ∀ start : State, (registered pass.filings start.registry).2 = false → start.perform pass =
          State.ingestIssuer { start with registry := (registered pass.filings start.registry).1 } pass payload := by
        intro start passed
        simp only [State.perform, passed, given]
      let after := readied pass.headers (documents (pass.rows payload)) (registered pass.filings state.registry).1
      have kept : (state.perform pass).registry = after.registry := by
        rw [first state stopped, State.ingestIssuer]
        split <;> rfl
      have still := quiet after.registry (readied_extends _ _ _)
      rw [first (state.perform pass) (by rw [kept, still]), kept, still]
      have same : readied pass.headers (documents (pass.rows payload)) after.registry = after := readied_again ..
      by_cases refused : (after.throttled || !pass.commits) = true
      · simp only [State.ingestIssuer, same, if_pos refused]
        rw [first state stopped, State.ingestIssuer, if_pos refused]
      · simp only [State.ingestIssuer, same, if_neg refused]
        have stored : ∀ item ∈ stamped (pass.rows payload) after, item.row.key ∈ (state.perform pass).store.map (·.row.key) := by
          rw [first state stopped, State.ingestIssuer, if_neg refused]
          exact insertVintages_written.stored
        obtain ⟨nothing, none⟩ := insertVintages_again stored
        rw [nothing, none, List.append_nil, ← kept]
        rfl

/-- What holds after every pass. -/
structure State.Sound (state : State) (clock : String → ℤ) (seen : Payload) : Prop where
  registry : state.registry.Sound clock
  clocks : ∀ row ∈ state.store, row.accepted = clock row.row.key.accession
  carried : ∀ row ∈ state.store, Carries seen row.row.key
  later : ∀ row ∈ state.store, ∀ key, Carries seen key → Agreed seen key → key.identity = row.identity →
    key ∉ state.store.map (·.row.key) → clock row.row.key.accession ≤ clock key.accession
  flagged : Flagged state.store
  inOrder : state.outOfOrder = 0

section Passes
variable {state : State} {clock : String → ℤ} {seen payload : Payload} {pass : Pass}

theorem State.Sound.register (sound : state.Sound clock seen) {registry : Registry} (right : registry.Sound clock) :
    State.Sound { state with registry } clock seen :=
  { sound with registry := right }

theorem State.Sound.download (sound : state.Sound clock seen) (grows : seen.Grows payload)
    (later : ∀ key, Carries payload key → ¬ Carries seen key → ∀ other, Carries seen other → other.identity = key.identity →
      clock other.accession ≤ clock key.accession) : state.Sound clock payload := by
  refine { sound with carried := fun row here => (sound.carried row here).grow grows, later := ?_ }
  intro row here key carries agreed same absent
  by_cases known : Carries seen key
  · exact sound.later row here key known (agreed.before grows) same absent
  · exact later key carries known row.row.key (sound.carried row here) same.symm

theorem documents_in_order {rows : List Row} (sorted : rows.Pairwise fun first second => first.order ≤ second.order)
    (ordered : ∀ first ∈ rows, ∀ second ∈ rows, first.order ≤ second.order → clock first.key.accession ≤ clock second.key.accession) :
    (documents rows).Pairwise fun first second => clock first ≤ clock second := by
  apply List.Pairwise.sublist (documents_sublist rows)
  rw [List.pairwise_map]
  exact sorted.imp_of_mem fun {first second} here there before => ordered first here second there before

theorem rows_in_order (timely : Timely clock seen pass) (given : payload ∈ pass.payload) :
    ∀ first ∈ pass.rows payload, ∀ second ∈ pass.rows payload, first.order ≤ second.order →
      clock first.key.accession ≤ clock second.key.accession := by
  intro first here second there before
  obtain ⟨one, oneIn, oneKey, oneDay⟩ := vintage_entry here
  obtain ⟨two, twoIn, twoKey, twoDay⟩ := vintage_entry there
  rw [← oneKey, ← twoKey]
  obtain earlier | ⟨sameDay, after⟩ := Prod.Lex.le_iff.mp before
  · apply timely.inFiledOrder payload given one oneIn two twoIn
    rw [oneDay, twoDay]
    exact earlier
  · apply timely.inAccessionOrder payload given one oneIn two twoIn
    · rw [oneDay, twoDay]
      exact sameDay
    · rw [oneKey, twoKey]
      obtain lower | ⟨same, -⟩ := Prod.Lex.le_iff.mp after
      · exact lower.le
      · exact same.le

theorem State.Sound.ingest (sound : state.Sound clock payload) (timely : Timely clock seen pass) (given : payload ∈ pass.payload) :
    (state.ingestIssuer pass payload).Sound clock payload := by
  let after := readied pass.headers (documents (pass.rows payload)) state.registry
  have right : after.registry.Sound clock := readied_sound sound.registry timely.headers
  by_cases refused : (after.throttled || !pass.commits) = true
  · rw [State.ingestIssuer, if_pos refused]
    exact sound.register right
  · rw [State.ingestIssuer, if_neg refused]
    let inserted := insertVintages state.store (stamped (pass.rows payload) after)
    have written : Written state.store (stamped (pass.rows payload) after) inserted.flagged := insertVintages_written
    have clockOf : ∀ item ∈ stamped (pass.rows payload) after, item.accepted = clock item.row.key.accession :=
      fun item here => right _ _ (mem_stamped.mp here).2.2
    have published : ∀ item ∈ stamped (pass.rows payload) after, Carries payload item.row.key ∧ Agreed payload item.row.key ∧
        pass.today - vintageLookbackDays ≤ item.row.key.identity.finish :=
      fun item here => published_iff.mp ⟨item.row, (mem_stamped.mp here).1, rfl⟩
    -- every row waiting behind an unreadable header is no earlier than the ready ones
    have waiting : ∀ item ∈ stamped (pass.rows payload) after, ∀ key, Carries payload key → Agreed payload key →
        key.identity = item.identity → key ∉ (state.store ++ inserted.flagged).map (·.row.key) →
        clock item.row.key.accession ≤ clock key.accession := by
      intro item here key carries agreed same absent
      have within := (published item here).2.2
      rw [show item.row.key.identity = key.identity from same.symm] at within
      obtain ⟨row, inside, rfl⟩ := published_iff.mpr ⟨carries, agreed, within⟩
      obtain ⟨⟨rest, split⟩, registered⟩ := readied_ready pass.headers (documents (pass.rows payload)) state.registry
      have ordered : (documents (pass.rows payload)).Pairwise fun first second => clock first ≤ clock second :=
        documents_in_order (stableSort_sorted _ _) (rows_in_order timely given)
      rw [← split] at ordered
      have listed : row.key.accession ∈ after.ready ++ rest := by
        rw [split]
        exact mem_documents inside
      obtain ready | left := List.mem_append.mp listed
      · obtain ⟨accepted, known⟩ := Option.isSome_iff_exists.mp (registered _ ready)
        exact absurd (written.stored ⟨row, accepted⟩ (mem_stamped.mpr ⟨inside, ready, known⟩)) absent
      · exact (List.pairwise_append.mp ordered).2.2 _ (mem_stamped.mp here).2.1 _ left
    have noEarlier : ∀ other ∈ state.store, ∀ item ∈ stamped (pass.rows payload) after, other.identity = item.identity →
        item.row.key ∉ state.store.map (·.row.key) → other.accepted ≤ item.accepted := by
      intro other here item there same absent
      obtain ⟨carries, agreed, -⟩ := published item there
      rw [sound.clocks other here, clockOf item there]
      exact sound.later other here _ carries agreed same.symm absent
    obtain ⟨flagged, quiet⟩ := insertVintages_flagged sound.flagged noEarlier
    constructor
    · exact right
    · intro row here
      obtain old | new := List.mem_append.mp here
      · exact sound.clocks row old
      · exact clockOf _ (written.new row new).1
    · intro row here
      obtain old | new := List.mem_append.mp here
      · exact sound.carried row old
      · exact (published _ (written.new row new).1).1
    · intro row here key carries agreed same absent
      obtain old | new := List.mem_append.mp here
      · apply sound.later row old key carries agreed same
        intro known
        exact absent (by rw [List.map_append]; exact List.mem_append_left _ known)
      · exact waiting _ (written.new row new).1 key carries agreed same absent
    · exact flagged
    · change state.outOfOrder + inserted.outOfOrder = 0
      rw [sound.inOrder, quiet]

theorem State.Sound.perform (sound : state.Sound clock seen) (timely : Timely clock seen pass) :
    (state.perform pass).Sound clock (pass.payload.getD seen) := by
  have right := registered_sound sound.registry timely.filings
  cases given : pass.payload with
  | none =>
    have quiet : state.perform pass = { state with registry := (registered pass.filings state.registry).1 } := by
      cases stopped : (registered pass.filings state.registry).2 <;> simp only [State.perform, given, stopped]
    rw [quiet]
    exact sound.register right
  | some payload =>
    have grown := (sound.register right).download (timely.grows payload given) (timely.later payload given)
    cases stopped : (registered pass.filings state.registry).2 with
    | true =>
      simp only [State.perform, stopped, given]
      exact grown
    | false =>
      simp only [State.perform, stopped, given]
      exact grown.ingest timely given

end Passes

theorem reached_sound {clock : String → ℤ} {seen : Payload} {state : State} (reached : Reached (Timely clock) seen state) :
    state.Sound clock seen := by
  induction reached with
  | start =>
    constructor
    · intro _ _ here
      cases here
    · exact fun _ here => nomatch here
    · exact fun _ here => nomatch here
    · exact fun _ here => nomatch here
    · exact ⟨List.nodup_nil, (fun _ here => nomatch here), (fun _ here => nomatch here)⟩
    · rfl
  | pass before pass allows ih => exact ih.perform allows

theorem publications_flagged (clock : String → ℤ) (history : History (Timely clock)) : FirstPublications history.state := by
  have sound := reached_sound history.reached
  exact ⟨sound.flagged.earliest, sound.flagged.unique, sound.inOrder, perform_again history.state⟩

section Late

/-- The income of one quarter, as the filing of a day reports it. -/
def incomeOf (filed : ℤ) : FactItem :=
  ⟨"10-Q", if filed = 20050 then "0001" else "0002", some 7, some (some 19900), some 20000, some filed, some 2024, some "Q3"⟩

def incomes (filed : List ℤ) : Payload
  | "us-gaap:NetIncomeLoss" => filed.map fun day => some (incomeOf day)
  | _ => []

def acceptedAt : String → ℤ := fun document => if document = "0001" then 100 else 200

def downloaded (filed : List ℤ) : Pass := ⟨[], some (incomes filed), fun document => .accepted (acceptedAt document), 20100, true⟩

theorem downloaded_honest {seen : Payload} {filed : List ℤ} (grows : seen.Grows (incomes filed))
    (ordered : ∀ first ∈ entries (incomes filed), ∀ second ∈ entries (incomes filed),
      first.filed < second.filed → acceptedAt first.key.accession ≤ acceptedAt second.key.accession) :
    Honest acceptedAt seen (downloaded filed) := by
  constructor
  · intro document accepted here
    cases here
  · intro document accepted answered
    exact (Answer.accepted.inj answered).symm
  · rintro payload ⟨⟩
    exact grows
  · rintro payload ⟨⟩
    exact ordered

/-- Companyfacts starts to carry the earlier document after the later one. -/
def lateHistory : History (Honest acceptedAt) where
  seen := incomes [20060, 20050]
  state := (State.empty.perform (downloaded [20060])).perform (downloaded [20060, 20050])
  reached := by
    have first := Reached.pass .start (downloaded [20060]) (downloaded_honest (fun _ _ here => nomatch here) (by decide +kernel))
    apply Reached.pass first (downloaded [20060, 20050])
    apply downloaded_honest _ (by decide +kernel)
    intro concept item here
    change item ∈ incomes [20060] concept at here
    unfold incomes at here ⊢
    split at here
    · simp only [List.map_cons, List.map_nil, List.mem_singleton] at here
      simp [here]
    · cases here

theorem arrives_late : ¬ ∀ (clock : String → ℤ) (history : History (Honest clock)), FirstPublications history.state := by
  intro holds
  have counted : lateHistory.state.outOfOrder = 1 := by decide +kernel
  rw [(holds acceptedAt lateHistory).inOrder] at counted
  cases counted

end Late

end C3po.Statements
