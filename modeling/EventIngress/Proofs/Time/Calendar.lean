import EventIngress.Time.Calendar
import Mathlib

/-!
# Days and dates

The date of a day exists and has that day. The first day of a year is never two days off what the
mean length of a year says, so the estimate of the year of a day is at most one year off.

Results:

* `Date.yearOfDay_spec`: a day falls into its year.
* `Date.ofDay_spec`: the date of a day.
* `Date.year_ofDay_lt`, `Date.Valid.day_lt`: the days before a year and the dates before it.
-/

namespace EventIngress.Date

/-! ## Years -/

/-- The number of days of a year. -/
def yearLength (year : Nat) : Nat :=
  (monthLengths year).foldr (· + ·) 0

theorem yearLength_eq (year : Nat) : yearLength year = if isLeap year then 366 else 365 := by
  unfold yearLength monthLengths
  cases isLeap year <;> rfl

theorem isLeap_iff {year : Nat} :
    isLeap year = true ↔ year % 4 = 0 ∧ (year % 100 ≠ 0 ∨ year % 400 = 0) := by
  simp [isLeap]

theorem daysBeforeYear_succ (year : Nat) :
    daysBeforeYear (year + 1) = daysBeforeYear year + yearLength year := by
  have h₄ : (year + 1 + 3) / 4 = (year + 3) / 4 + if year % 4 = 0 then 1 else 0 := by
    split <;> omega
  have h₁₀₀ : (year + 1 + 99) / 100 = (year + 99) / 100 + if year % 100 = 0 then 1 else 0 := by
    split <;> omega
  have h₄₀₀ : (year + 1 + 399) / 400 = (year + 399) / 400 + if year % 400 = 0 then 1 else 0 := by
    split <;> omega
  have hle : (year + 99) / 100 ≤ (year + 3) / 4 := by omega
  have h₁₀₀₄ : year % 100 = 0 → year % 4 = 0 := by omega
  have h₄₀₀₁₀₀ : year % 400 = 0 → year % 100 = 0 := by omega
  rw [yearLength_eq, daysBeforeYear, daysBeforeYear, h₄, h₁₀₀, h₄₀₀]
  simp only [isLeap_iff]
  generalize (year + 3) / 4 = a at hle ⊢
  generalize (year + 99) / 100 = b at hle ⊢
  generalize (year + 399) / 400 = c
  split <;> split <;> split <;> split <;> omega

theorem daysBeforeYear_le {a b : Nat} (h : a ≤ b) : daysBeforeYear a ≤ daysBeforeYear b := by
  induction h with
  | refl => exact Nat.le_refl _
  | step _ ih =>
    rw [daysBeforeYear_succ]
    omega

/-- The first day of a year is less than two days off the mean. -/
theorem daysBeforeYear_bounds (year : Nat) :
    146097 * year ≤ 400 * daysBeforeYear year + 396 ∧
      400 * daysBeforeYear year ≤ 146097 * year + 699 := by
  unfold daysBeforeYear
  omega

/-- A day falls into its year. -/
theorem yearOfDay_spec (day : Nat) :
    daysBeforeYear (yearOfDay day) ≤ day ∧ day < daysBeforeYear (yearOfDay day + 1) := by
  unfold yearOfDay
  dsimp only
  have hestimate : 146097 * (day * 400 / 146097) ≤ day * 400 ∧
      day * 400 < 146097 * (day * 400 / 146097 + 1) := by omega
  generalize day * 400 / 146097 = estimate at hestimate ⊢
  split
  · rename_i hlate
    cases estimate with
    | zero => exact absurd hlate (Nat.not_lt_zero day)
    | succ year =>
      have hbounds := daysBeforeYear_bounds year
      rw [Nat.add_sub_cancel]
      exact ⟨by omega, hlate⟩
  · split
    · rename_i hearly
      have hbounds := daysBeforeYear_bounds (estimate + 2)
      exact ⟨hearly, show day < daysBeforeYear (estimate + 2) by omega⟩
    · omega

/-! ## Months -/

/-- The month of a day of a year, with the days of the months before it. -/
theorem monthOfDay_spec (lengths : List Nat) (month rest : Nat)
    (h : rest < lengths.foldr (· + ·) 0) :
    ∃ k d, monthOfDay lengths month rest = (month + k + 1, d + 1) ∧ d < lengths.getD k 0 ∧
      (lengths.take k).foldr (· + ·) 0 + d = rest := by
  induction lengths generalizing month rest with
  | nil => exact absurd h (Nat.not_lt_zero rest)
  | cons length lengths ih =>
    rw [monthOfDay]
    by_cases hlt : rest < length
    · rw [if_pos hlt]
      exact ⟨0, rest, rfl, hlt, Nat.zero_add rest⟩
    · rw [List.foldr_cons] at h
      obtain ⟨k, d, hmonth, hd, hsum⟩ := ih (month + 1) (rest - length) (by omega)
      rw [if_neg hlt, hmonth]
      refine ⟨k + 1, d, ?_, hd, ?_⟩
      · rw [Nat.add_assoc month 1 k, Nat.add_comm 1 k]
      · rw [List.take_succ_cons, List.foldr_cons]
        omega

theorem sum_take_lt {lengths : List Nat} {k d : Nat} (h : d < lengths.getD k 0) :
    (lengths.take k).foldr (· + ·) 0 + d < lengths.foldr (· + ·) 0 := by
  induction lengths generalizing k with
  | nil => exact absurd h (Nat.not_lt_zero d)
  | cons length lengths ih =>
    cases k with
    | zero =>
      have hlt : d < length := h
      rw [List.take_zero, List.foldr_nil, List.foldr_cons]
      omega
    | succ k =>
      have hlt := ih (k := k) h
      rw [List.take_succ_cons, List.foldr_cons, List.foldr_cons]
      omega

/-! ## Days and dates -/

theorem ofDay_spec (n : Nat) :
    (ofDay n).Valid ∧ (ofDay n).day = n ∧ (ofDay n).year = yearOfDay n := by
  obtain ⟨hfirst, hlast⟩ := yearOfDay_spec n
  rw [daysBeforeYear_succ] at hlast
  obtain ⟨k, d, hmonth, hd, hsum⟩ := monthOfDay_spec (monthLengths (yearOfDay n)) 0
    (n - daysBeforeYear (yearOfDay n)) (by
      show _ < yearLength (yearOfDay n)
      omega)
  have hdate : ofDay n = ⟨yearOfDay n, k + 1, d + 1⟩ := by
    rw [ofDay]
    dsimp only
    rw [hmonth, Nat.zero_add]
  rw [hdate]
  refine ⟨⟨Nat.succ_pos d, ?_⟩, ?_, rfl⟩
  · rw [monthLength, if_neg (Nat.succ_ne_zero k)]
    exact hd
  · show daysBeforeYear (yearOfDay n) + _ + (d + 1 - 1) = n
    rw [Nat.add_sub_cancel, Nat.add_sub_cancel, Nat.add_assoc, hsum]
    omega

/-- The date of a day before a year is in an earlier year. -/
theorem year_ofDay_lt {n year : Nat} (h : n < daysBeforeYear year) : (ofDay n).year < year := by
  rw [(ofDay_spec n).2.2]
  apply Nat.lt_of_not_le
  intro hle
  have hyears := daysBeforeYear_le hle
  obtain ⟨hfirst, _⟩ := yearOfDay_spec n
  omega

/-- A date is before the next year. -/
theorem Valid.day_lt {d : Date} (h : d.Valid) {year : Nat} (hyear : d.year < year) :
    d.day < daysBeforeYear year := by
  obtain ⟨hpos, hle⟩ := h
  rw [monthLength] at hle
  split at hle
  · omega
  · have hlt : ((monthLengths d.year).take (d.month - 1)).foldr (· + ·) 0 + (d.dayOfMonth - 1) <
        yearLength d.year := sum_take_lt (by omega)
    have hnext : daysBeforeYear d.year + yearLength d.year ≤ daysBeforeYear year :=
      daysBeforeYear_succ d.year ▸ daysBeforeYear_le hyear
    unfold day
    omega

theorem Valid.month_le {d : Date} (h : d.Valid) : d.month ≤ 12 ∧ d.dayOfMonth ≤ 31 := by
  obtain ⟨hpos, hle⟩ := h
  rw [monthLength] at hle
  split at hle
  · omega
  · have hall : ∀ n ∈ monthLengths d.year, n ≤ 31 := by
      unfold monthLengths
      cases isLeap d.year <;> decide
    have hlt : d.month - 1 < (monthLengths d.year).length := by
      apply Nat.lt_of_not_le
      intro hlong
      rw [List.getD_eq_default _ _ hlong] at hle
      omega
    rw [List.getD_eq_getElem _ _ hlt] at hle
    have hmonth : d.month - 1 < 12 := hlt
    exact ⟨by omega, Nat.le_trans hle (hall _ (List.getElem_mem hlt))⟩

end EventIngress.Date
