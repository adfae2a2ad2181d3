import C3po.Library.Calendar

/-! The slots of the production schedules: when one is due, and which texts name one.

A stamp is kept as the instant it writes, in seconds since 1970: on whole seconds the stamp
and its reading are inverse. Its text is written out where the text itself is read.
-/

set_option autoImplicit false

namespace C3po.Schedule
open C3po.Library

def secondsADay : Int := 86400

/-- The zone of the schedules, with what the zone data says of every instant and every day
from the last week of 1969 on. -/
structure Zone where
  /-- The offset to UTC at an instant. -/
  offset : Int → Int
  /-- The offset a wall clock is read with; of two, the earlier. -/
  wallOffset : Int → Int
  bounded : ∀ time, -secondsADay < offset time ∧ offset time < secondsADay
  whole : ∀ time, -7 * secondsADay ≤ time → offset time % 60 = 0
  /-- A wall time that some instant shows is read as an instant that shows it. -/
  shown : ∀ time wall, time + offset time = wall →
    wall - wallOffset wall + offset (wall - wallOffset wall) = wall
  /-- No clock change skips 03:30, 08:00 or 08:30. -/
  occurs : ∀ day minute : Int, -7 ≤ day → minute ∈ [210, 480, 510] →
    ∃ time, time + offset time = day * secondsADay + minute * 60

/-- The zone since its clocks last changed, three hours behind. -/
def Zone.saoPaulo : Zone where
  offset _ := -10800
  wallOffset _ := -10800
  bounded _ := by decide
  whole _ _ := by decide
  shown _ _ _ := by omega
  occurs day minute _ _ := ⟨day * secondsADay + minute * 60 + 10800, by omega⟩

namespace Zone
variable (zone : Zone)

/-- The wall clock, in seconds since 1970 began there. -/
def wall (time : Int) : Int := time + zone.offset time

/-- The instant of a wall time. -/
def utc (wall : Int) : Int := wall - zone.wallOffset wall

def minuteOfDay (time : Int) : Int := zone.wall time % secondsADay / 60

/-- Monday is 0; 1970 began on a Thursday. -/
def weekday (day : Int) : Int := (day + 3) % 7

end Zone

def ops : String := "ops-readonly-report.yml"
def exporter : String := "decisor-verdict-export.yml"
def workflows : List String := [ops, exporter]
def retiredWorkflows : List String := ["valuation-pit-grid-autopilot.yml"]

def minAge : Int := 20 * 60
def maxAge : Int := 80 * 60

/-- The text of an instant, to the second. -/
def stamp (time : Int) : String :=
  let clock := time % secondsADay
  Calendar.isoformat (time / secondsADay + 719163) ++ "T" ++ Calendar.digits 2 (clock / 3600) ++ ":" ++
    Calendar.digits 2 (clock / 60 % 60) ++ ":" ++ Calendar.digits 2 (clock % 60) ++ "Z"

structure Slot where
  workflow : String
  instant : Int
  deriving DecidableEq, Repr

namespace Slot

def key (slot : Slot) : String := slot.workflow ++ ":" ++ stamp slot.instant

def tag (slot : Slot) : String := "[recovery:" ++ stamp slot.instant ++ "]"

/-- The slot is old enough to have been missed, and not too old to catch up. -/
def due (slot : Slot) (now : Int) : Bool := minAge ≤ now - slot.instant && now - slot.instant ≤ maxAge

end Slot

/-- The slots of one day of the wall clock, whether due or not. -/
def slotsOf (zone : Zone) (day : Int) : List Slot :=
  ([210, 510].map fun minute => ⟨ops, zone.utc (day * secondsADay + minute * 60)⟩) ++
    if Zone.weekday day < 5 then [⟨exporter, zone.utc (day * secondsADay + 480 * 60)⟩] else []

def slots (zone : Zone) (now : Int) : List Slot :=
  let day := zone.wall now / secondsADay
  [day, day - 1].flatMap fun day => (slotsOf zone day).filter fun slot => slot.due now

def scheduled (workflow : String) (day minute : Int) : Bool :=
  if workflow = ops then minute = 210 || minute = 510 else minute = 480 && Zone.weekday day < 5

/-- The slot that a workflow and a stamp name; a stamp that does not read has no instant. -/
def validateSlot (zone : Zone) (workflow : String) (value : Option Int) : Except String Slot :=
  match value with
  | none => .error "invalid_recovery_slot"
  | some time =>
      if workflow ∉ workflows ∨ time % 60 ≠ 0 then .error "invalid_recovery_slot"
      else if scheduled workflow (zone.wall time / secondsADay) (zone.minuteOfDay time) then
        .ok ⟨workflow, time⟩
      else .error "invalid_recovery_slot"

section Valid
variable {zone : Zone}

theorem validateSlot_ok {workflow : String} {value : Option Int} {slot : Slot}
    (ok : validateSlot zone workflow value = .ok slot) : slot.workflow = workflow ∧ some slot.instant = value := by
  unfold validateSlot at ok
  cases value with
  | none => cases ok
  | some time =>
    dsimp only at ok
    split_ifs at ok
    cases ok
    exact ⟨rfl, rfl⟩

theorem due_iff {slot : Slot} {now : Int} :
    slot.due now ↔ minAge ≤ now - slot.instant ∧ now - slot.instant ≤ maxAge := by
  simp [Slot.due]

theorem wall_utc {day minute : Int} (recent : -7 ≤ day) (known : minute ∈ [210, 480, 510]) :
    zone.wall (zone.utc (day * secondsADay + minute * 60)) = day * secondsADay + minute * 60 := by
  obtain ⟨time, same⟩ := zone.occurs day minute recent known
  exact zone.shown time _ same

theorem utc_whole {day minute : Int} (recent : -7 ≤ day) (known : minute ∈ [210, 480, 510])
    (late : -7 * secondsADay ≤ zone.utc (day * secondsADay + minute * 60)) :
    zone.utc (day * secondsADay + minute * 60) % 60 = 0 := by
  have shows := @wall_utc zone day minute recent known
  have whole := zone.whole _ late
  unfold Zone.wall at shows
  unfold secondsADay at *
  omega

theorem scheduled_known {workflow : String} {day minute : Int} (planned : scheduled workflow day minute) :
    minute ∈ [210, 480, 510] := by
  unfold scheduled at planned
  split at planned <;> grind

theorem validateSlot_utc {workflow : String} {day minute : Int} (recent : -7 ≤ day)
    (listed : workflow ∈ workflows) (planned : scheduled workflow day minute)
    (late : -7 * secondsADay ≤ zone.utc (day * secondsADay + minute * 60)) :
    validateSlot zone workflow (some (zone.utc (day * secondsADay + minute * 60))) =
      .ok ⟨workflow, zone.utc (day * secondsADay + minute * 60)⟩ := by
  have known := scheduled_known planned
  have shows := @wall_utc zone day minute recent known
  have whole := utc_whole recent known late
  have within : 0 ≤ minute * 60 ∧ minute * 60 < secondsADay := by
    unfold secondsADay
    simp only [List.mem_cons, List.not_mem_nil, or_false] at known
    omega
  have sameDay : zone.wall (zone.utc (day * secondsADay + minute * 60)) / secondsADay = day := by
    rw [shows]
    unfold secondsADay at within ⊢
    omega
  have sameMinute : zone.minuteOfDay (zone.utc (day * secondsADay + minute * 60)) = minute := by
    unfold Zone.minuteOfDay
    rw [shows]
    unfold secondsADay at within ⊢
    omega
  have accepted : ¬(workflow ∉ workflows ∨ zone.utc (day * secondsADay + minute * 60) % 60 ≠ 0) :=
    not_or.mpr ⟨not_not.mpr listed, not_not.mpr whole⟩
  unfold validateSlot
  dsimp only
  rw [if_neg accepted, sameDay, sameMinute, if_pos planned]

theorem slots_valid {now : ℕ} {slot : Slot} (found : slot ∈ slots zone now) :
    validateSlot zone slot.workflow (some slot.instant) = .ok slot := by
  unfold slots at found
  obtain ⟨day, either, inDay⟩ := List.mem_flatMap.mp found
  obtain ⟨listed, due⟩ := List.mem_filter.mp inDay
  rw [due_iff] at due
  have recent : -7 ≤ day := by
    have bounded := (zone.bounded now).1
    have place : day = zone.wall now / secondsADay ∨ day = zone.wall now / secondsADay - 1 := by
      simpa using either
    unfold Zone.wall secondsADay at place
    unfold secondsADay at bounded
    omega
  have late : -7 * secondsADay ≤ slot.instant := by
    have old := due.2
    unfold maxAge at old
    unfold secondsADay
    omega
  unfold slotsOf at listed
  rcases List.mem_append.mp listed with report | night
  · obtain ⟨minute, either, rfl⟩ := List.mem_map.mp report
    have planned : scheduled ops day minute := by
      unfold scheduled
      simpa using either
    exact validateSlot_utc recent (by simp [workflows]) planned late
  · split at night
    · rename_i workday
      cases List.mem_singleton.mp night
      have planned : scheduled exporter day 480 := by
        unfold scheduled
        rw [if_neg (by decide)]
        simpa using workday
      exact validateSlot_utc recent (by simp [workflows]) planned late
    · cases night

end Valid

example : stamp 1790836200 = "2026-10-01T06:30:00Z" := by decide +kernel
example : (slots .saoPaulo 1790838000).map Slot.key = ["ops-readonly-report.yml:2026-10-01T06:30:00Z"] := by
  decide +kernel

end C3po.Schedule
