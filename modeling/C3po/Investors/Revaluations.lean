import C3po.Investors.Queue

/-! Runs of the queue: what its statuses say, as long as every finish is timely. -/

set_option autoImplicit false

namespace C3po.Investors
open C3po.Library

def State.Sound (state : State) : Prop := ∀ item ∈ state.tables.queue, item.Sound state.notes

theorem State.Sound.notLost {state : State} (sound : state.Sound) : NotLost state := by
  intro item here
  have kept := sound item here
  exact ⟨kept.applied, fun failed => ⟨kept.counted ▸ (kept.failed failed).1, (kept.failed failed).2⟩⟩

section Steps
variable {state : State}

theorem not_queued_of_map {keys : List Key} {key : Key} (outside : key ∉ keys) :
    ∀ note ∈ keys.map Note.queued, note ≠ .queued key := by
  rintro _ here rfl
  obtain ⟨other, inside, same⟩ := List.mem_map.mp here
  cases same
  exact outside inside

theorem not_finished_of_map {keys : List Key} {key : Key} (claim : ℕ) (succeeded : Bool) :
    .finished claim key succeeded ∉ keys.map Note.queued := by
  intro here
  obtain ⟨_, _, same⟩ := List.mem_map.mp here
  cases same

theorem save_sound (sound : state.Sound) (incoming : List Incoming) (securities : List Security) (now : ℤ) :
    (state.perform (.save incoming securities now)).Sound := by
  cases saved : saveIrEvents state.tables incoming securities now with
  | none =>
    simp only [State.perform, saved]
    exact sound
  | some tables =>
    simp only [State.perform, saved]
    unfold saveIrEvents at saved
    cases upserted : incoming.foldlM upsert state.tables.events with
    | none =>
      rw [upserted] at saved
      cases saved
    | some events =>
      rw [upserted] at saved
      cases saved
      intro item here
      obtain before | ⟨key, inside, absent, rfl⟩ := mem_inserted here
      · refine (sound item before).quiet (not_queued_of_map fun inserted => ?_) not_finished_of_map
        have absent := (List.mem_filter.mp inserted).2
        rw [holds_iff.mpr (List.mem_map_of_mem before)] at absent
        cases absent
      · exact fresh_sound (List.mem_filter.mpr ⟨inside, by rw [absent]; rfl⟩) now

theorem queue_sound (sound : state.Sound) (event : String) (securities : List Security) (now : ℤ) :
    (state.perform (.queue event securities now)).Sound := by
  intro item here
  obtain ⟨before, outside⟩ | ⟨key, inside, rfl⟩ := mem_requeued here
  · exact (sound item before).quiet (not_queued_of_map outside) not_finished_of_map
  · exact fresh_sound inside now

theorem claim_sound (sound : state.Sound) (limit : ℕ) (now : ℤ) : (state.perform (.claim limit now)).Sound := by
  intro item here
  obtain ⟨before, there, rfl⟩ := List.mem_map.mp here
  have unqueued : ∀ (returned : List Claimed) (key : Key), ∀ note ∈ returned.map fun claimed =>
      Note.claimed state.claims.length claimed.key, note ≠ .queued key := by
    rintro returned key _ inside rfl
    obtain ⟨_, _, same⟩ := List.mem_map.mp inside
    cases same
  have unfinished : ∀ (returned : List Claimed) (key : Key) claim succeeded, .finished claim key succeeded ∉
      returned.map fun claimed => Note.claimed state.claims.length claimed.key := by
    intro returned key claim succeeded inside
    obtain ⟨_, _, same⟩ := List.mem_map.mp inside
    cases same
  have later := (sound before there).quiet (unqueued _ _) (unfinished ((state.tables.queue.filter fun item =>
    item.key ∈ (picked state.tables.queue limit now).map Item.key).map fun item => ⟨item.key, item.attempts, item.queuedAt⟩) _)
  by_cases taken : before.key ∈ (picked state.tables.queue limit now).map Item.key
  · rw [if_pos taken]
    exact ⟨(fun applied => nomatch applied), later.counted, fun failed => nomatch failed⟩
  · rw [if_neg taken]
    exact later

theorem finish_quiet {updates : List (ℕ × Key)} {succeeded : Bool} {key : Key} :
    ∀ note ∈ updates.map fun update => Note.finished update.1 update.2 succeeded, note ≠ .queued key := by
  rintro _ here rfl
  obtain ⟨_, _, same⟩ := List.mem_map.mp here
  cases same

theorem one_failure {updates : List (ℕ × Key)} {item : Item} {claim : ℕ}
    (once : updates.filter (item.hit ·.2) = [(claim, item.key)]) :
    (updates.dedup.map fun update => Note.finished update.1 update.2 false).countP (·.fails item.key) = 1 := by
  have named : ∀ update ∈ updates, update.2 = item.key → update = (claim, item.key) := by
    intro update here same
    have hit : update ∈ updates.filter (item.hit ·.2) := List.mem_filter.mpr ⟨here, same ▸ hit_self item⟩
    rw [once] at hit
    exact List.mem_singleton.mp hit
  have inside : (claim, item.key) ∈ updates := by
    have first : (claim, item.key) ∈ updates.filter (item.hit ·.2) := once ▸ List.mem_singleton_self _
    exact (List.mem_filter.mp first).1
  rw [List.countP_map]
  calc updates.dedup.countP _ = updates.dedup.countP (· == (claim, item.key)) := by
        refine List.countP_congr fun update here => ?_
        rw [Function.comp_apply, Note.fails, Bool.not_false, Bool.and_true, beq_iff_eq, beq_iff_eq]
        exact ⟨named update (List.mem_dedup.mp here), fun same => same ▸ rfl⟩
    _ = updates.dedup.count (claim, item.key) := List.count_eq_countP.symm
    _ = 1 := List.count_eq_one_of_mem (List.nodup_dedup updates) (List.mem_dedup.mpr inside)

theorem finish_items_sound (sound : state.Sound) {updates : List (ℕ × Key)} {succeeded : Bool} (error : String)
    (incorporateEvents : Bool) (now : ℤ) (timely : Timely state (.finish updates succeeded error incorporateEvents now))
    {item : Item} (here : item ∈ state.tables.queue) :
    (item.settle (updates.map (·.2)) succeeded error now).Sound
      (updates.dedup.map (fun update => .finished update.1 update.2 succeeded) ++ state.notes) := by
  have kept := sound item here
  by_cases hit : ∃ update ∈ updates, item.hit update.2 = true
  · obtain ⟨update, named, hit⟩ := hit
    have fits := timely item here update named hit
    cases succeeded with
    | true =>
      obtain ⟨status, attempts⟩ := @settle_applied item (updates.map (·.2)) error now _ (List.mem_map_of_mem named) hit
      refine ⟨fun _ => ?_, ?_, fun failed => ?_⟩
      · rw [Succeeded, settle_key, since_append finish_quiet]
        obtain before | ⟨claim, own, claimed⟩ := fits
        · obtain ⟨claim, finished, claimed⟩ := kept.applied before
          exact ⟨claim, List.mem_append_right _ finished, List.mem_append_right _ claimed⟩
        · exact ⟨claim, List.mem_append_left _ (List.mem_map.mpr ⟨_, List.mem_dedup.mpr own, rfl⟩), List.mem_append_right _ claimed⟩
      · rw [attempts, settle_key, failures_append finish_quiet, kept.counted, List.countP_eq_zero.mpr, Nat.zero_add]
        intro note inside
        obtain ⟨other, -, rfl⟩ := List.mem_map.mp inside
        rw [Note.fails, Bool.not_true, Bool.and_false]
        exact Bool.false_ne_true
      · rw [status] at failed
        cases failed
    | false =>
      obtain ⟨⟨claim, once⟩, last⟩ := fits
      have settled : item.settle (updates.map (·.2)) false error now = item.finish false error now := by
        rw [Item.settle, List.filter_map]
        rw [show updates.filter (item.hit ∘ (·.2)) = [(claim, item.key)] from once]
        rfl
      rw [settled]
      refine ⟨fun applied => ?_, ?_, fun failed => ?_⟩
      · rw [Item.finish, if_neg Bool.false_ne_true] at applied
        dsimp only at applied
        split at applied <;> cases applied
      · rw [finish_key, failures_append finish_quiet, one_failure once, ← kept.counted, Nat.add_comm]
        rfl
      · have third : 3 ≤ item.attempts + 1 := by
          rw [Item.finish, if_neg Bool.false_ne_true] at failed
          dsimp only at failed
          split at failed
          · assumption
          · cases failed
        refine ⟨third, fun other finished => ?_⟩
        rw [finish_key, since_append finish_quiet, List.mem_append] at finished
        obtain inside | before := finished
        · obtain ⟨_, _, same⟩ := List.mem_map.mp inside
          exact absurd (Note.finished.inj same).2.2 Bool.false_ne_true
        · exact last third other before
  · rw [settle_missed]
    · refine kept.quiet finish_quiet fun claim succeeded inside => hit ?_
      obtain ⟨update, named, same⟩ := List.mem_map.mp inside
      obtain ⟨-, mine, -⟩ := Note.finished.inj same
      exact ⟨update, List.mem_dedup.mp named, mine ▸ hit_self item⟩
    · intro key inside
      obtain ⟨update, named, rfl⟩ := List.mem_map.mp inside
      rw [← Bool.not_eq_true]
      exact fun struck => hit ⟨update, named, struck⟩

theorem finish_queue (state : State) (updates : List (ℕ × Key)) (succeeded : Bool) (error : String) (incorporateEvents : Bool)
    (now : ℤ) : (state.perform (.finish updates succeeded error incorporateEvents now)).tables.queue =
      state.tables.queue.map (Item.settle (updates.map (·.2)) succeeded error now) := by
  rw [State.perform, finishIrValuationUpdates]
  dsimp only
  rw [foldl_finishOne]
  split <;> rfl

theorem finish_sound (sound : state.Sound) {updates : List (ℕ × Key)} {succeeded : Bool} (error : String)
    (incorporateEvents : Bool) (now : ℤ) (timely : Timely state (.finish updates succeeded error incorporateEvents now)) :
    (state.perform (.finish updates succeeded error incorporateEvents now)).Sound := by
  unfold State.Sound
  rw [finish_queue]
  intro item here
  obtain ⟨before, there, rfl⟩ := List.mem_map.mp here
  exact finish_items_sound sound error incorporateEvents now timely there

theorem call_sound (sound : state.Sound) {call : Call} (timely : Timely state call) : (state.perform call).Sound := by
  cases call with
  | save incoming securities now => exact save_sound sound incoming securities now
  | queue event securities now => exact queue_sound sound event securities now
  | claim limit now => exact claim_sound sound limit now
  | finish updates succeeded error incorporateEvents now => exact finish_sound sound error incorporateEvents now timely

end Steps

section Incorporation

theorem upsert_incorporated {events later : List IrEvent} {incoming : Incoming} (saved : upsert events incoming = some later)
    {event : IrEvent} (here : event ∈ later) (incorporated : event.status = .incorporated) :
    ∃ before ∈ events, before.id = event.id ∧ before.status = .incorporated := by
  have never : incoming.status.status ≠ .incorporated := by
    cases incoming.status <;> exact fun same => nomatch same
  unfold upsert at saved
  split at saved
  · cases saved
    obtain ⟨before, there, rfl⟩ := List.mem_map.mp here
    split at incorporated
    · rename_i same
      rw [if_pos same]
      refine ⟨before, there, rfl, ?_⟩
      rw [IrEvent.merge] at incorporated
      dsimp only at incorporated
      split at incorporated
      · exact incorporated
      · exact absurd incorporated never
    · rename_i apart
      rw [if_neg apart]
      exact ⟨before, there, rfl, incorporated⟩
  · split at saved
    · cases saved
    · cases saved
      obtain before | last := List.mem_append.mp here
      · exact ⟨event, before, rfl, incorporated⟩
      · rw [List.mem_singleton.mp last] at incorporated
        exact absurd incorporated never

theorem upserts_incorporated {incoming : List Incoming} {events later : List IrEvent}
    (saved : incoming.foldlM upsert events = some later) {event : IrEvent} (here : event ∈ later)
    (incorporated : event.status = .incorporated) :
    ∃ before ∈ events, before.id = event.id ∧ before.status = .incorporated := by
  induction incoming generalizing events with
  | nil =>
    cases saved
    exact ⟨event, here, rfl, incorporated⟩
  | cons first rest ih =>
    rw [List.foldlM_cons] at saved
    cases next : upsert events first with
    | none =>
      rw [next] at saved
      cases saved
    | some middle =>
      rw [next] at saved
      obtain ⟨between, there, same, status⟩ := ih saved
      obtain ⟨before, earlier, same', status'⟩ := upsert_incorporated next there status
      exact ⟨before, earlier, same'.trans same, status'⟩

theorem call_incorporates {state : State} (sound : state.Sound) {call : Call} (timely : Timely state call) :
    Incorporates state (state.perform call) := by
  intro event here incorporated
  cases call with
  | save incoming securities now =>
    refine .inl ?_
    cases saved : saveIrEvents state.tables incoming securities now with
    | none =>
      simp only [State.perform, saved] at here
      exact ⟨event, here, rfl, incorporated⟩
    | some tables =>
      simp only [State.perform, saved] at here
      unfold saveIrEvents at saved
      cases upserted : incoming.foldlM upsert state.tables.events with
      | none =>
        rw [upserted] at saved
        cases saved
      | some events =>
        rw [upserted] at saved
        cases saved
        exact upserts_incorporated upserted here incorporated
  | queue event_id securities now => exact .inl ⟨event, here, rfl, incorporated⟩
  | claim limit now => exact .inl ⟨event, here, rfl, incorporated⟩
  | finish updates succeeded error incorporateEvents now =>
    have after := finish_sound sound error incorporateEvents now timely
    rw [State.perform, finishIrValuationUpdates] at here
    dsimp only at here
    split at here
    · obtain ⟨before, there, rfl⟩ := List.mem_map.mp here
      unfold IrEvent.incorporate at incorporated ⊢
      split at incorporated
      · rename_i all
        rw [if_pos all]
        refine .inr fun item inside mine => ?_
        rw [finish_queue, ← foldl_finishOne] at inside
        have applied := all.2 item inside mine
        refine ⟨applied, (after item ?_).applied applied⟩
        rw [finish_queue, ← foldl_finishOne]
        exact inside
      · rename_i kept
        rw [if_neg kept]
        exact .inl ⟨before, there, rfl, incorporated⟩
    · exact .inl ⟨event, here, rfl, incorporated⟩

end Incorporation

section Claims

/-- A run from any stored events and an empty queue. -/
structure History (allowed : State → Call → Prop) (events : List IrEvent) where
  state : State
  reached : Reached allowed events state

/-- In a run whose finishes are all timely no item is applied or failed without reason, and
no call incorporates an event without reason. -/
theorem revaluations_kept {events : List IrEvent} (history : History Timely events) :
    NotLost history.state ∧ ∀ call, call.Admitted history.state → Timely history.state call →
      Incorporates history.state (history.state.perform call) := by
  obtain ⟨state, reached⟩ := history
  have sound : state.Sound := by
    induction reached with
    | start => exact fun _ none => nomatch none
    | call _ _ timely ih => exact call_sound ih timely
  exact ⟨sound.notLost, fun call _ timely => call_incorporates sound timely⟩

def ticker : Security := ⟨.b3, ⟨"TEST3", by decide +kernel⟩, "company"⟩

def disclosure : Incoming := ⟨"event", "cvm", "result", some "company", true, .pendingReview⟩

def disclosed : Key := ⟨"event", .b3, ticker.symbol⟩

/-- A worker claims the item, a reviewer queues it again, and the worker finishes. -/
def requeuedWhileClaimed : List Call :=
  [.save [disclosure] [ticker] 0, .claim 12 1, .queue "event" [ticker] 2, .finish [(0, disclosed)] true "" true 3]

/-- The item is applied, and no claim was made after it was queued again. -/
theorem requeued_lost : ∃ state, Reached (fun _ _ => True) [] state ∧ ¬NotLost state := by
  refine ⟨requeuedWhileClaimed.foldl State.perform (.start []), ?_, fun kept => ?_⟩
  · have saved := @Reached.call (fun _ _ => True) [] _ (.save [disclosure] [ticker] 0) .start trivial trivial
    have claimed := @Reached.call _ _ _ (.claim 12 1) saved trivial trivial
    have requeued := @Reached.call _ _ _ (.queue "event" [ticker] 2) claimed trivial trivial
    refine @Reached.call _ _ _ (.finish [(0, disclosed)] true "" true 3) requeued ?_ trivial
    have returned : ((((State.start []).perform (.save [disclosure] [ticker] 0)).perform (.claim 12 1)).perform
        (.queue "event" [ticker] 2)).claims[0]? = some [⟨disclosed, 0, 0⟩] := by decide +kernel
    rintro _ (_ | ⟨_, none⟩)
    · exact ⟨_, returned, _, List.mem_singleton_self _, rfl⟩
    · cases none
  · have inside : (⟨disclosed, .applied, 0, 2, some 3, "", 3⟩ : Item) ∈
        (requeuedWhileClaimed.foldl State.perform (.start [])).tables.queue := by decide +kernel
    have latest : since disclosed (requeuedWhileClaimed.foldl State.perform (.start [])).notes =
        [.finished 0 disclosed true] := by decide +kernel
    obtain ⟨claim, -, claimed⟩ := (kept _ inside).1 rfl
    rw [latest, List.mem_singleton] at claimed
    cases claimed

end Claims
end C3po.Investors
