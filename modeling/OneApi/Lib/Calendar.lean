import OneApi.Lib.Go

/-!
# Days, dates and midnights

What the calendar of `Go` does: a date read back is the day it is the date of, and the first of the next month is
later.  The proofs count the years from March, so that the leap day is the last of its year.

`time.Date` subtracts from a wall clock reading the offset it reads it with (`Location.readAs`); `AddDate` reads
the wall clock of its time, moved on.  In a zone whose clocks reach every midnight and are not set back before
it, a day is over by the midnight that ends it (`KeepsMidnights`).
-/

namespace OneApi.Lib.Go

/-! ## Dates -/

/-- The year of an era that a day of it is in. -/
theorem yearOfEra {doe : ℤ} (h0 : 0 ≤ doe) (h1 : doe < 146097) :
    let yoe := (doe - doe / 1460 + doe / 36524 - doe / 146096) / 365
    0 ≤ yoe ∧ yoe ≤ 399 ∧ 365 * yoe + yoe / 4 - yoe / 100 ≤ doe ∧
      (doe < 365 * (yoe + 1) + (yoe + 1) / 4 - (yoe + 1) / 100 ∨ yoe = 399) := by
  intro yoe
  have hcentury : yoe / 100 = doe / 36524 - doe / 146096 := by
    have hcases : doe / 36524 = 0 ∨ doe / 36524 = 1 ∨ doe / 36524 = 2 ∨ doe / 36524 = 3 ∨ doe = 146096 := by omega
    rcases hcases with h | h | h | h | h <;> omega
  have hfour : yoe / 4 ≤ doe / 1460 := by omega
  refine ⟨by omega, by omega, by omega, ?_⟩
  have hnext : (yoe + 1) / 100 = yoe / 100 ∨ yoe + 1 = 100 * (yoe / 100 + 1) := by omega
  rcases hnext with hsame | hlast
  · omega
  · omega

/-- A date with the years counted from March: `mp` is 0 in March and 11 in February. -/
def marchDate (era yoe mp day : ℤ) : ℤ × ℤ × ℤ :=
  let month := if mp < 10 then mp + 3 else mp - 9
  (if month ≤ 2 then yoe + era * 400 + 1 else yoe + era * 400, month, day)

theorem daysFromCivil_marchDate (era : ℤ) {yoe mp : ℤ} (hyoe : 0 ≤ yoe ∧ yoe ≤ 399) (hmp : 0 ≤ mp ∧ mp ≤ 11) (day : ℤ) :
    daysFromCivil (marchDate era yoe mp day).1 (marchDate era yoe mp day).2.1 day =
      era * 146097 + (yoe * 365 + yoe / 4 - yoe / 100 + ((153 * mp + 2) / 5 + day - 1)) - 719468 := by
  have hera : (yoe + era * 400) / 400 = era := by omega
  simp only [daysFromCivil, marchDate]
  by_cases h : mp < 10
  · omega
  · omega

/-- The date of a day: its month has begun, and the next one has not. -/
theorem civilFromDays_eq (days : ℤ) : ∃ era yoe mp doy, (0 ≤ yoe ∧ yoe ≤ 399) ∧ (0 ≤ mp ∧ mp ≤ 11) ∧
    civilFromDays days = marchDate era yoe mp (doy - (153 * mp + 2) / 5 + 1) ∧
    days = era * 146097 + (yoe * 365 + yoe / 4 - yoe / 100 + doy) - 719468 ∧
    (153 * mp ≤ 5 * doy + 2 ∧ 5 * doy + 2 < 153 * (mp + 1)) ∧
    (yoe < 399 → doy < 365 + (yoe + 1) / 4 - (yoe + 1) / 100 - yoe / 4 + yoe / 100) ∧
    (yoe = 399 → doy < 366) := by
  have hlast : days + 719468 - (days + 719468) / 146097 * 146097 < 146097 := by omega
  obtain ⟨hlow, hhigh, hbegin, hend⟩ := yearOfEra (by omega) hlast
  refine ⟨(days + 719468) / 146097, _, _, _, ⟨hlow, hhigh⟩, ?_, rfl, ?_⟩
  all_goals
    revert hlast hlow hhigh hbegin hend
    generalize (days + 719468) / 146097 = era
    generalize hdoe : days + 719468 - era * 146097 = doe
    generalize (doe - doe / 1460 + doe / 36524 - doe / 146096) / 365 = yoe
    intro hlast hlow hhigh hbegin hend
  · omega
  · refine ⟨by omega, by omega, by omega, by omega⟩

/-- A date read back is the day it is the date of. -/
theorem daysFromCivil_civilFromDays (days : ℤ) :
    daysFromCivil (civilFromDays days).1 (civilFromDays days).2.1 (civilFromDays days).2.2 = days := by
  obtain ⟨era, yoe, mp, doy, hyoe, hmp, hdate, hdays, -⟩ := civilFromDays_eq days
  rw [hdate]
  have hread := daysFromCivil_marchDate era hyoe hmp (doy - (153 * mp + 2) / 5 + 1)
  rw [show (marchDate era yoe mp (doy - (153 * mp + 2) / 5 + 1)).2.2 = doy - (153 * mp + 2) / 5 + 1 from rfl, hread]
  omega

theorem month_bounds (days : ℤ) : 1 ≤ (civilFromDays days).2.1 ∧ (civilFromDays days).2.1 ≤ 12 := by
  obtain ⟨era, yoe, mp, doy, -, hmp, hdate, -⟩ := civilFromDays_eq days
  rw [hdate]
  show 1 ≤ (if mp < 10 then mp + 3 else mp - 9) ∧ (if mp < 10 then mp + 3 else mp - 9) ≤ 12
  split <;> omega

/-- The first day of the month that a day is in, and of the month after. -/
def firstOfMonth (day : ℤ) : ℤ := daysFromCivil (civilFromDays day).1 (civilFromDays day).2.1 1

def firstOfNextMonth (day : ℤ) : ℤ :=
  daysFromCivil ((civilFromDays day).1 + (civilFromDays day).2.1 / 12) ((civilFromDays day).2.1 % 12 + 1) 1

theorem civilFromDays_firstOfMonth (day : ℤ) :
    civilFromDays (firstOfMonth day) = ((civilFromDays day).1, (civilFromDays day).2.1, 1) := by
  obtain ⟨era, yoe, mp, doy, hyoe, hmp, hdate, -, hmonth, -⟩ := civilFromDays_eq day
  have hfirst : firstOfMonth day =
      era * 146097 + (yoe * 365 + yoe / 4 - yoe / 100 + (153 * mp + 2) / 5) - 719468 := by
    rw [firstOfMonth, hdate]
    exact (daysFromCivil_marchDate era hyoe hmp 1).trans (by omega)
  obtain ⟨era', yoe', mp', doy', hyoe', hmp', hdate', hdays', hmonth', hyear', hlast'⟩ := civilFromDays_eq (firstOfMonth day)
  rw [hfirst] at hdays'
  obtain rfl : era' = era := by omega
  -- the years of an era do not overlap
  have hstart : ∀ a b : ℤ, a ≤ b → 365 * a + a / 4 - a / 100 ≤ 365 * b + b / 4 - b / 100 := by omega
  obtain rfl : yoe' = yoe := by
    rcases lt_trichotomy yoe' yoe with hlt | heq | hlt
    · have := hstart (yoe' + 1) yoe (by omega)
      omega
    · exact heq
    · have := hstart (yoe + 1) yoe' (by omega)
      omega
  obtain rfl : mp' = mp := by omega
  have hday : doy' - (153 * mp' + 2) / 5 + 1 = 1 := by omega
  rw [hdate', hdate, hday]
  rfl

theorem firstOfNextMonth_firstOfMonth (day : ℤ) : firstOfNextMonth (firstOfMonth day) = firstOfNextMonth day := by
  rw [firstOfNextMonth, civilFromDays_firstOfMonth, firstOfNextMonth]

/-- The first day of the next month is later. -/
theorem lt_firstOfNextMonth (days : ℤ) : days < firstOfNextMonth days := by
  obtain ⟨era, yoe, mp, doy, hyoe, hmp, hdate, hdays, hmonth, hyear, hlast⟩ := civilFromDays_eq days
  have hnext : ∃ era' yoe' mp', (0 ≤ yoe' ∧ yoe' ≤ 399) ∧ (0 ≤ mp' ∧ mp' ≤ 11) ∧
      (civilFromDays days).1 + (civilFromDays days).2.1 / 12 = (marchDate era' yoe' mp' 1).1 ∧
      (civilFromDays days).2.1 % 12 + 1 = (marchDate era' yoe' mp' 1).2.1 ∧
      days < era' * 146097 + (yoe' * 365 + yoe' / 4 - yoe' / 100 + (153 * mp' + 2) / 5) - 719468 := by
    rw [hdate]
    simp only [marchDate]
    by_cases hmp11 : mp = 11
    · subst hmp11
      by_cases hyoe399 : yoe = 399
      · subst hyoe399
        exact ⟨era + 1, 0, 0, by omega, by omega, by simp; omega, by simp, by omega⟩
      · exact ⟨era, yoe + 1, 0, by omega, by omega, by simp; omega, by simp, by omega⟩
    · refine ⟨era, yoe, mp + 1, by omega, by omega, ?_, ?_, by omega⟩
      · split_ifs <;> omega
      · split_ifs <;> omega
  obtain ⟨era', yoe', mp', hyoe', hmp', hy, hm, hlt⟩ := hnext
  rw [firstOfNextMonth, hy, hm, daysFromCivil_marchDate era' hyoe' hmp']
  omega

/-! ## Wall clock readings -/

/-- The offset with which `time.Date` reads a wall clock reading. -/
def Location.readAs (loc : Location) (reading : ℤ) : ℤ :=
  let zone := loc.lookup reading
  if zone.offset = 0 then 0
  else if reading - zone.offset < zone.start ∨ zone.stop ≤ reading - zone.offset then
    (loc.lookup (reading - zone.offset)).offset
  else zone.offset

/-- The time it stands for. -/
def Location.resolve (loc : Location) (reading : ℤ) : ℤ := reading - loc.readAs reading

theorem date_eq (loc : Location) (year month day hour min sec : ℤ) :
    date loc year month day hour min sec =
      loc.resolve ((daysFromCivil (year + (month - 1) / 12) ((month - 1) % 12 + 1) 1 + (day - 1)) * 86400 +
        hour * 3600 + min * 60 + sec) := by
  rw [Location.resolve, Location.readAs, date]
  dsimp only
  split
  · rw [sub_zero]
  · split <;> rfl

theorem daysFromCivil_first (year month day : ℤ) :
    daysFromCivil year month 1 + (day - 1) = daysFromCivil year month day := by
  simp only [daysFromCivil]
  omega

variable (loc : Location) (t : ℤ)

/-- A date of the month of `t`. -/
theorem date_civil (day hour min sec : ℤ) :
    date loc (civil loc t).1 (civil loc t).2.1 ((civil loc t).2.2 + day) hour min sec =
      loc.resolve ((loc.wall t / 86400 + day) * 86400 + hour * 3600 + min * 60 + sec) := by
  have hmonth := month_bounds (loc.wall t / 86400)
  have hread := daysFromCivil_civilFromDays (loc.wall t / 86400)
  have hfirst := daysFromCivil_first (civil loc t).1 (civil loc t).2.1 (civil loc t).2.2
  rw [civil] at hfirst ⊢
  rw [date_eq]
  have hsame : ((civilFromDays (loc.wall t / 86400)).2.1 - 1) / 12 = 0 := by omega
  have hmod : ((civilFromDays (loc.wall t / 86400)).2.1 - 1) % 12 + 1 = (civilFromDays (loc.wall t / 86400)).2.1 := by
    omega
  rw [hsame, hmod, add_zero]
  congr 4
  omega

/-- The midnight that began the day. -/
theorem date_midnight : date loc (civil loc t).1 (civil loc t).2.1 (civil loc t).2.2 0 0 0 =
    loc.resolve (loc.wall t / 86400 * 86400) := by
  have h := date_civil loc t 0 0 0 0
  simp only [add_zero, zero_mul] at h
  exact h

theorem addDate_days (days : ℤ) : addDate loc t 0 0 days = loc.resolve (loc.wall t + days * 86400) := by
  have h := date_civil loc t days (loc.wall t % 86400 / 3600) (loc.wall t % 86400 / 60 % 60) (loc.wall t % 86400 % 60)
  rw [addDate]
  simp only [add_zero]
  rw [h]
  congr 1
  omega

/-- The midnight that began the month. -/
theorem date_first : date loc (civil loc t).1 (civil loc t).2.1 1 0 0 0 =
    loc.resolve (firstOfMonth (loc.wall t / 86400) * 86400) := by
  have h := date_civil loc t (1 - (civil loc t).2.2) 0 0 0
  have hread := daysFromCivil_civilFromDays (loc.wall t / 86400)
  have hfirst := daysFromCivil_first (civil loc t).1 (civil loc t).2.1 (civil loc t).2.2
  rw [add_sub_cancel] at h
  rw [h]
  simp only [firstOfMonth, civil] at hfirst ⊢
  congr 1
  omega

theorem addDate_month : addDate loc t 0 1 0 =
    loc.resolve ((firstOfNextMonth (loc.wall t / 86400) + ((civil loc t).2.2 - 1)) * 86400 + loc.wall t % 86400) := by
  have h := date_eq loc (civil loc t).1 ((civil loc t).2.1 + 1) (civil loc t).2.2 (loc.wall t % 86400 / 3600)
    (loc.wall t % 86400 / 60 % 60) (loc.wall t % 86400 % 60)
  rw [add_sub_cancel_right] at h
  rw [addDate]
  simp only [add_zero]
  rw [h, firstOfNextMonth, civil]
  congr 1
  omega

/-- The clock reaches every midnight, and is not set back before it afterwards. -/
structure KeepsMidnights (loc : Location) : Prop where
  reached : ∀ day, loc.wall (loc.resolve (day * 86400)) = day * 86400
  kept : ∀ day t, loc.resolve (day * 86400) ≤ t → day * 86400 ≤ loc.wall t

theorem KeepsMidnights.lt {loc : Location} (h : KeepsMidnights loc) {day t : ℤ} (hwall : loc.wall t < day * 86400) :
    t < loc.resolve (day * 86400) := by
  by_contra hle
  have := h.kept day t (not_lt.mp hle)
  omega

theorem keepsMidnights_fixed (offset : ℤ) : KeepsMidnights (.fixed offset) := by
  have hread : ∀ reading, (Location.fixed offset).readAs reading = offset := by
    intro reading
    have hoffset : ∀ t, ((Location.fixed offset).lookup t).offset = offset := fun _ => rfl
    rw [Location.readAs, hoffset, hoffset]
    split
    · next h => exact h.symm
    · exact ite_self offset
  constructor
  · intro day
    simp only [Location.wall, Location.resolve, hread]
    exact sub_add_cancel _ offset
  · intro day t h
    rw [Location.resolve, hread] at h
    show day * 86400 ≤ t + offset
    omega

end OneApi.Lib.Go
