import EventIngress.Proofs.Routing.Ticks

/-!
# Refreshes over whole schedules

A refresh waits for the first multiple of its period after its start that is still to come. Every
unit of time keeps this: either that instant is still to come, or the tick is at it and the refresh
waits for the next one. What is done to the files and to the table does not touch the refresh, and
the outcome of a load does not either. So whatever happens, the table is loaded at each multiple of
the period while it is in use, and afterwards the first tick is the last one.

Results:

* `Refresh.instants`: the instants at which a period comes round.
* `RoutingSite.OnSchedule`: what every unit of time keeps of a refresh.
* `RoutingSite.refresh_keeps_schedule`: the loads of a refresh, and its end, for all schedules.
-/

namespace EventIngress

/-! ## Instants -/

namespace Refresh

/-- The instants after one time and up to another at which a period has come round since a start. -/
def instants (start period since till : Nat) : List Nat :=
  (List.range' (since + 1) (till - since)).filter fun time => period ∣ time - start

variable {start period since mid till : Nat}

@[simp]
theorem instants_self : instants start period since since = [] := by
  rw [instants, Nat.sub_self]
  rfl

theorem instants_append (hmid : since ≤ mid) (htill : mid ≤ till) :
    instants start period since mid ++ instants start period mid till =
      instants start period since till := by
  have hend : mid + 1 = since + 1 + 1 * (mid - since) := by omega
  rw [instants, instants, instants, ← List.filter_append, hend, List.range'_append]
  rw [show mid - since + (till - mid) = till - since by omega]

theorem instants_succ (htill : since ≤ till) :
    instants start period since (till + 1) =
      instants start period since till ++ if period ∣ till + 1 - start then [till + 1] else [] := by
  rw [← instants_append htill (Nat.le_succ till)]
  congr 1
  rw [instants, Nat.succ_sub (Nat.le_refl _), Nat.sub_self]
  by_cases hdvd : period ∣ till + 1 - start
  · simp [hdvd]
  · simp [hdvd]

end Refresh

namespace RoutingSite

variable {h : RoutingSite} {t : FileTable} {r : Refresh} {start : Nat}

/-! ## Loads and their times -/

/-- The loads at ticks while time passes, each with its time and what is reported of it. -/
def attempts (h : RoutingSite) : Nat → List (Nat × LogEntry)
  | 0 => []
  | units + 1 =>
    h.attempts units ++ ((h.advance units).2.advance 1).1.map (h.now + units + 1, ·)

/-- The loads are those that are reported while time passes. -/
theorem reports_attempts (hahead : h.Ahead) (units : Nat) :
    (h.attempts units).map Prod.snd = (h.advance units).1 := by
  induction units with
  | zero => rw [hahead.advance_zero]; rfl
  | succ units ih =>
    rw [attempts, List.map_append, ih, advance_add hahead, List.map_map]
    exact congrArg _ (List.map_id _)

/-! ## Refreshes on schedule -/

/-- A refresh has not ended, and waits for the first instant to come at which its period comes
round. -/
structure OnSchedule (h : RoutingSite) (r : Refresh) (start : Nat) : Prop where
  refreshes_eq : h.refreshes = [r]
  table_eq : r.table = h.tableNumber
  running : r.ended = false
  start_le : start ≤ h.now
  period_dvd : r.period ∣ r.next - start
  now_lt : h.now < r.next
  next_le : r.next ≤ h.now + r.period

theorem minPeriod_eq (h : RoutingSite) : h.minPeriod = h.perMilli :=
  Nat.one_mul _

theorem onSchedule_start (hnone : h.refreshes = []) (interval : Nat) :
    (h.startRefresh interval).OnSchedule (h.newRefresh interval) h.now where
  refreshes_eq := by rw [startRefresh, hnone]; rfl
  table_eq := rfl
  running := rfl
  start_le := Nat.le_refl _
  period_dvd := by simp [newRefresh]
  now_lt := Nat.lt_add_of_pos_right (h.newRefresh interval).period_pos
  next_le := Nat.le_refl _

namespace OnSchedule

theorem ahead (hs : h.OnSchedule r start) : h.Ahead := by
  intro other hother _
  rw [hs.refreshes_eq, List.mem_singleton] at hother
  rw [hother]
  exact hs.now_lt

/-- What becomes of the files and of the table does not matter. -/
theorem of_same {h' : RoutingSite} (hs : h.OnSchedule r start)
    (hnumber : h'.tableNumber = h.tableNumber) (hrefreshes : h'.refreshes = h.refreshes)
    (hnow : h'.now = h.now) : h'.OnSchedule r start where
  refreshes_eq := hrefreshes.trans hs.refreshes_eq
  table_eq := hs.table_eq.trans hnumber.symm
  running := hs.running
  start_le := hnow ▸ hs.start_le
  period_dvd := hs.period_dvd
  now_lt := hnow ▸ hs.now_lt
  next_le := hnow ▸ hs.next_le

/-- The tick is in the next unit of time exactly if the period comes round at its end. -/
theorem next_eq_iff (hs : h.OnSchedule r start) :
    r.next = h.now + 1 ↔ r.period ∣ h.now + 1 - start := by
  constructor
  · intro hnext
    rw [← hnext]
    exact hs.period_dvd
  · intro hdvd
    have hlt := hs.now_lt
    have hle := hs.next_le
    have hstart := hs.start_le
    have hwait : r.period ∣ r.next - (h.now + 1) := by
      have hsub := Nat.dvd_sub hs.period_dvd hdvd
      rwa [show r.next - start - (h.now + 1 - start) = r.next - (h.now + 1) by omega] at hsub
    have hzero := Nat.eq_zero_of_dvd_of_lt hwait (by have := r.period_pos; omega)
    omega

/-- In a unit of time without a tick a refresh stays on schedule. -/
theorem wait (hs : h.OnSchedule r start) (hdvd : ¬ r.period ∣ h.now + 1 - start) :
    OnSchedule { h with now := h.now + 1 } r start :=
  { hs with
    start_le := Nat.le_succ_of_le hs.start_le
    now_lt := by
      have hne := mt hs.next_eq_iff.1 hdvd
      have hlt := hs.now_lt
      dsimp only
      omega
    next_le := by
      have hle := hs.next_le
      dsimp only
      omega }

/-- After a tick a refresh waits for the next one. -/
theorem tick (hs : h.OnSchedule r start) (hdvd : r.period ∣ h.now + 1 - start)
    (table : Option FileTable) :
    OnSchedule
      { h with
        now := h.now + 1
        table := table
        refreshes := [{ r with next := r.next + r.period }] }
      { r with next := r.next + r.period } start := by
  have hnext := hs.next_eq_iff.2 hdvd
  have hpos := r.period_pos
  have hstart := hs.start_le
  refine ⟨rfl, hs.table_eq, hs.running, Nat.le_succ_of_le hstart, ?_, ?_, ?_⟩
  · dsimp only
    rw [Nat.sub_add_comm (by omega)]
    exact Nat.dvd_add hs.period_dvd (Nat.dvd_refl _)
  · dsimp only
    omega
  · dsimp only
    omega

/-- A unit of time without a tick. -/
theorem advance_one_wait (hs : h.OnSchedule r start) (hdvd : ¬ r.period ∣ h.now + 1 - start) :
    h.advance 1 = ([], { h with now := h.now + 1 }) := by
  refine advance_one_of_none (nextTick_eq_none_iff.2 fun other hother _ => ?_)
  rw [hs.refreshes_eq, List.mem_singleton] at hother
  have hne := mt hs.next_eq_iff.1 hdvd
  have hlt := hs.now_lt
  rw [hother]
  omega

/-- A unit of time with a tick at its end. -/
theorem advance_one_tick (hs : h.OnSchedule r start) (hdvd : r.period ∣ h.now + 1 - start) :
    h.advance 1 =
      let (r, reports, ticked) := RoutingSite.tick { h with now := h.now + 1, refreshes := [] } r
      (reports, { ticked with refreshes := [r] }) := by
  have hnext := hs.next_eq_iff.2 hdvd
  have hdue : h.nextTick (h.now + 1) = some (h.now + 1) := by
    refine nextTick_eq_some_iff.2 ⟨Nat.le_refl _, ⟨r, ?_, hs.running, hnext⟩, ?_⟩
    · rw [hs.refreshes_eq]
      exact List.mem_singleton_self r
    · exact fun other hother hrunning => hs.ahead other hother hrunning
  rw [advance_one_of_some hdue, hs.refreshes_eq, tickAll, hs.running, hnext]
  rcases tick_cases { h with now := h.now + 1, refreshes := [] } r with ⟨t, -, htick⟩ | htick
  · simp [tickAll, htick]
  · simp [tickAll, htick]

/-- While its table is in use, a tick is a load, and the refresh stays on schedule. -/
theorem advance_one_in_use (hs : h.OnSchedule r start) (ht : h.table = some t)
    (hdvd : r.period ∣ h.now + 1 - start) :
    h.advance 1 =
      ([t.loadReport (RoutingDocument.load h.files t.path t.limit)],
        { h with
          now := h.now + 1
          table := some (t.afterLoad (RoutingDocument.load h.files t.path t.limit))
          refreshes := [{ r with next := r.next + r.period }] }) := by
  rw [hs.advance_one_tick hdvd,
    tick_in_use (h := { h with now := h.now + 1, refreshes := [] }) ht hs.table_eq]

/-- Once its table has been dropped, the refresh ends at its tick. -/
theorem advance_one_dropped (hs : h.OnSchedule r start) (ht : h.table = none)
    (hdvd : r.period ∣ h.now + 1 - start) :
    h.advance 1 =
      ([], { h with now := h.now + 1, refreshes := [{ r with ended := true }] }) := by
  rw [hs.advance_one_tick hdvd,
    tick_unused (h := { h with now := h.now + 1, refreshes := [] }) (.inl ht)]

end OnSchedule

/-! ## Tables in use -/

/-- A unit of time of a table in use: there is a load at its end if the period comes round there. -/
theorem OnSchedule.unit (hs : h.OnSchedule r start) (ht : h.table = some t) :
    (h.advance 1).1 = (if r.period ∣ h.now + 1 - start then
        [t.loadReport (RoutingDocument.load h.files t.path t.limit)] else []) ∧
      ∃ next, (h.advance 1).2.OnSchedule next start ∧ next.period = r.period := by
  by_cases hdvd : r.period ∣ h.now + 1 - start
  · rw [hs.advance_one_in_use ht hdvd, if_pos hdvd]
    exact ⟨rfl, _, hs.tick hdvd _, rfl⟩
  · rw [hs.advance_one_wait hdvd, if_neg hdvd]
    exact ⟨rfl, r, hs.wait hdvd, rfl⟩

/-- While a table is in use, it is loaded at each instant at which the period comes round. -/
theorem OnSchedule.pass (hs : h.OnSchedule r start) (ht : h.table = some t) (units : Nat) :
    (h.attempts units).map Prod.fst =
        Refresh.instants start r.period h.now (h.now + units) ∧
      ∃ next, (h.advance units).2.OnSchedule next start ∧ next.period = r.period := by
  induction units with
  | zero =>
    rw [hs.ahead.advance_zero, Nat.add_zero, Refresh.instants_self]
    exact ⟨rfl, r, hs, rfl⟩
  | succ units ih =>
    obtain ⟨htimes, next, hnext, hperiod⟩ := ih
    obtain ⟨hreports, later, hlater, hperiod'⟩ :=
      hnext.unit (advance_renewed ht units).table_eq
    rw [now_advance, hperiod] at hreports
    rw [advance_add hs.ahead, attempts, List.map_append, htimes, hreports, ← Nat.add_assoc,
      Refresh.instants_succ (Nat.le_add_right _ _)]
    refine ⟨congrArg _ ?_, later, hlater, hperiod'.trans hperiod⟩
    split
    · rfl
    · rfl

/-- All loads of some time find the same files, and have the same report. -/
theorem attempts_eq (hahead : h.Ahead) (ht : h.table = some t) (units : Nat) :
    h.attempts units = ((h.attempts units).map Prod.fst).map
      (·, t.loadReport (RoutingDocument.load h.files t.path t.limit)) := by
  have hreports := (advance_renewed ht units).reports_eq
  rw [← reports_attempts hahead] at hreports
  rw [List.map_map]
  refine (List.map_id _).symm.trans (List.map_congr_left fun attempt hattempt => ?_)
  have hreport := List.eq_of_mem_replicate (hreports ▸ List.mem_map_of_mem hattempt)
  exact Prod.ext rfl hreport

/-- After some time the table shows what its loads have found, if there were any. -/
theorem table_pass (hahead : h.Ahead) (ht : h.table = some t) (units : Nat) :
    (h.advance units).2.table =
      some (if h.attempts units = [] then t
        else t.afterLoad (RoutingDocument.load h.files t.path t.limit)) := by
  rw [(advance_renewed ht units).table_eq, ← reports_attempts hahead, List.length_map,
    FileTable.afterLoads_replicate]
  simp only [List.length_eq_zero_iff]

end RoutingSite

/-! ## Schedules -/

/-- What can happen to a table with a refresh. -/
inductive ScheduleEvent where
  /-- Files are written and deleted. -/
  | edit (change : FileTree → FileTree)
  /-- The table is renewed on demand, if it is still in use. -/
  | reload
  /-- Time passes, and the refresh ticks. -/
  | pass (units : Nat)
  /-- The table is dropped. -/
  | drop

namespace RoutingSite

variable {h : RoutingSite} {t : FileTable} {path : String} {limit start period since : Nat}

/-- The site after an event. -/
def follow (h : RoutingSite) : ScheduleEvent → RoutingSite
  | .edit change => h.after (.edit change)
  | .reload => h.after .reload
  | .pass units => h.after (.pass units)
  | .drop => h.dropTable

/-- The site after some events. -/
def followAll (h : RoutingSite) (events : List ScheduleEvent) : RoutingSite :=
  events.foldl follow h

/-- The loads at ticks during an event. -/
def attemptsAt (h : RoutingSite) : ScheduleEvent → List (Nat × LogEntry)
  | .pass units => h.attempts units
  | _ => []

/-- The loads at ticks during some events. -/
def attemptsAll (h : RoutingSite) : List ScheduleEvent → List (Nat × LogEntry)
  | [] => []
  | e :: events => h.attemptsAt e ++ (h.follow e).attemptsAll events

theorem attemptsAll_append (events more : List ScheduleEvent) :
    h.attemptsAll (events ++ more) =
      h.attemptsAll events ++ (h.followAll events).attemptsAll more := by
  induction events generalizing h with
  | nil => rfl
  | cons e events ih =>
    rw [List.cons_append, attemptsAll, attemptsAll, ih, List.append_assoc]
    rfl

/-- A renewal on demand changes nothing but the table. -/
theorem after_reload (h : RoutingSite) : ∃ table, h.after .reload = { h with table := table } := by
  rw [after]
  split
  · rename_i t ht
    cases hload : RoutingDocument.load h.files t.path t.limit with
    | error fault => exact ⟨h.table, by rw [reload_of_error hload]⟩
    | ok document => exact ⟨_, by rw [reload_of_ok hload]⟩
  · exact ⟨h.table, rfl⟩

/-- A table for a file is in use, and its refresh is on schedule. -/
structure InUse (h : RoutingSite) (path : String) (limit start period : Nat) : Prop where
  exists_table : ∃ t, h.table = some t ∧ t.path = path ∧ t.limit = limit
  exists_refresh : ∃ r, h.OnSchedule r start ∧ r.period = period

namespace InUse

theorem ahead (hu : h.InUse path limit start period) : h.Ahead := by
  obtain ⟨r, hs, -⟩ := hu.exists_refresh
  exact hs.ahead

theorem lastEnded_eq (hu : h.InUse path limit start period) : h.lastEnded = some false := by
  obtain ⟨r, hs, -⟩ := hu.exists_refresh
  rw [lastEnded, hs.refreshes_eq, ← hs.running]
  rfl

theorem times_attempts (hu : h.InUse path limit start period) (units : Nat) :
    (h.attempts units).map Prod.fst = Refresh.instants start period h.now (h.now + units) := by
  obtain ⟨t, ht, -⟩ := hu.exists_table
  obtain ⟨r, hs, rfl⟩ := hu.exists_refresh
  exact (hs.pass ht units).1

/-- A table stays in use until it is dropped, and its refresh stays on schedule. -/
theorem follow (hu : h.InUse path limit start period) {e : ScheduleEvent} (he : e ≠ .drop) :
    (h.follow e).InUse path limit start period ∧ h.now ≤ (h.follow e).now ∧
      (h.attemptsAt e).map Prod.fst = Refresh.instants start period h.now (h.follow e).now := by
  obtain ⟨t, ht, rfl, rfl⟩ := hu.exists_table
  obtain ⟨r, hs, rfl⟩ := hu.exists_refresh
  have htable := fun e : SiteEvent => show ∃ t', (h.after e).table = some t' ∧ t'.path = t.path ∧
      t'.limit = t.limit from
    ⟨_, table_after ht e, FileTable.path_afterLoads _, FileTable.limit_afterLoads _⟩
  cases e with
  | drop => exact absurd rfl he
  | edit change =>
    refine ⟨⟨htable (.edit change), r, hs.of_same rfl rfl rfl, rfl⟩, Nat.le_refl _, ?_⟩
    exact Refresh.instants_self.symm
  | reload =>
    obtain ⟨table, hsite⟩ := h.after_reload
    have hnow : (h.after .reload).now = h.now := by rw [hsite]
    refine ⟨⟨htable .reload, r, ?_, rfl⟩, Nat.le_of_eq hnow.symm, ?_⟩
    · rw [RoutingSite.follow, hsite]
      exact hs.of_same rfl rfl rfl
    · rw [RoutingSite.follow, hnow]
      exact Refresh.instants_self.symm
  | pass units =>
    obtain ⟨htimes, hnext⟩ := hs.pass ht units
    have hnow : (h.after (.pass units)).now = h.now + units := now_advance units
    refine ⟨⟨htable (.pass units), hnext⟩, Nat.le.intro hnow.symm, ?_⟩
    rw [RoutingSite.follow, hnow]
    exact htimes

theorem followAll (hu : h.InUse path limit start period) {events : List ScheduleEvent}
    (hevents : .drop ∉ events) :
    (h.followAll events).InUse path limit start period ∧ h.now ≤ (h.followAll events).now ∧
      (h.attemptsAll events).map Prod.fst =
        Refresh.instants start period h.now (h.followAll events).now := by
  induction events generalizing h with
  | nil => exact ⟨hu, Nat.le_refl _, Refresh.instants_self.symm⟩
  | cons e events ih =>
    rw [List.mem_cons, not_or] at hevents
    obtain ⟨hnext, hle, htimes⟩ := hu.follow (Ne.symm hevents.1)
    obtain ⟨hlast, hle', htimes'⟩ := ih hnext hevents.2
    refine ⟨hlast, Nat.le_trans hle hle', ?_⟩
    rw [attemptsAll, List.map_append, htimes, htimes']
    exact Refresh.instants_append hle hle'

/-- The loads while time passes, and what the table shows after them. -/
theorem pass (hu : h.InUse path limit start period) (ht : h.table = some t) (units : Nat) :
    h.attempts units = (Refresh.instants start period h.now (h.now + units)).map
        (·, t.loadReport (RoutingDocument.load h.files path limit)) ∧
      (h.advance units).2.table =
        some (if Refresh.instants start period h.now (h.now + units) = [] then t
          else t.afterLoad (RoutingDocument.load h.files path limit)) := by
  obtain ⟨found, hfound, rfl, rfl⟩ := hu.exists_table
  obtain rfl := Option.some.inj (ht.symm.trans hfound)
  refine ⟨?_, ?_⟩
  · rw [← hu.times_attempts]
    exact attempts_eq hu.ahead ht units
  · rw [table_pass hu.ahead ht, ← hu.times_attempts]
    simp only [List.map_eq_nil_iff]

end InUse

/-! ## Dropped tables -/

/-- A table has been dropped at some time. Its refresh is on schedule if its period has not come
round since then, and has ended otherwise. -/
structure Dropped (h : RoutingSite) (start period since : Nat) : Prop where
  table_eq : h.table = none
  since_le : since ≤ h.now
  refresh :
    (∃ r, h.OnSchedule r start ∧ r.period = period ∧
      Refresh.instants start period since h.now = []) ∨
    ∃ r, h.refreshes = [r] ∧ r.ended = true ∧ Refresh.instants start period since h.now ≠ []

namespace Dropped

theorem ahead (hd : h.Dropped start period since) : h.Ahead := by
  rcases hd.refresh with ⟨r, hs, -⟩ | ⟨r, hr, hended, -⟩
  · exact hs.ahead
  · intro other hother hrunning
    rw [hr, List.mem_singleton] at hother
    rw [hother, hended] at hrunning
    cases hrunning

/-- Only the table, the refreshes and the time matter. -/
theorem of_same {h' : RoutingSite} (hd : h.Dropped start period since) (htable : h'.table = none)
    (hnumber : h'.tableNumber = h.tableNumber) (hrefreshes : h'.refreshes = h.refreshes)
    (hnow : h'.now = h.now) : h'.Dropped start period since := by
  refine ⟨htable, hnow ▸ hd.since_le, ?_⟩
  rw [hnow, hrefreshes]
  rcases hd.refresh with ⟨r, hs, hwait⟩ | hended
  · exact .inl ⟨r, hs.of_same hnumber hrefreshes hnow, hwait⟩
  · exact .inr hended

theorem lastEnded_eq (hd : h.Dropped start period since) :
    h.lastEnded = some (!(Refresh.instants start period since h.now).isEmpty) := by
  rcases hd.refresh with ⟨r, hs, -, hnone⟩ | ⟨r, hr, hended, hsome⟩
  · simp [lastEnded, hs.refreshes_eq, hs.running, hnone]
  · simp [lastEnded, hr, hended, hsome]

/-- In a unit of time, a refresh whose table has been dropped ends if its period comes round, and
stays ended. -/
theorem unit (hd : h.Dropped start period since) :
    (h.advance 1).1 = [] ∧ (h.advance 1).2.Dropped start period since := by
  have hinstants : Refresh.instants start period since (h.now + 1) =
      Refresh.instants start period since h.now ++
        if period ∣ h.now + 1 - start then [h.now + 1] else [] :=
    Refresh.instants_succ hd.since_le
  rcases hd.refresh with ⟨r, hs, rfl, hnone⟩ | ⟨r, hr, hended, hsome⟩
  · rw [hnone] at hinstants
    by_cases hdvd : r.period ∣ h.now + 1 - start
    · rw [hs.advance_one_dropped hd.table_eq hdvd]
      refine ⟨rfl, hd.table_eq, Nat.le_succ_of_le hd.since_le, .inr ⟨_, rfl, rfl, ?_⟩⟩
      rw [hinstants, if_pos hdvd]
      exact List.cons_ne_nil _ _
    · rw [hs.advance_one_wait hdvd]
      refine ⟨rfl, hd.table_eq, Nat.le_succ_of_le hd.since_le, .inl ⟨r, hs.wait hdvd, rfl, ?_⟩⟩
      rw [hinstants, if_neg hdvd]
      rfl
  · have hquiet : h.nextTick (h.now + 1) = none := by
      refine nextTick_eq_none_iff.2 fun other hother hrunning => ?_
      rw [hr, List.mem_singleton] at hother
      rw [hother, hended] at hrunning
      cases hrunning
    rw [advance_one_of_none hquiet]
    refine ⟨rfl, hd.table_eq, Nat.le_succ_of_le hd.since_le, .inr ⟨r, hr, hended, ?_⟩⟩
    rw [hinstants]
    exact List.append_ne_nil_of_left_ne_nil hsome _

theorem pass (hd : h.Dropped start period since) (units : Nat) :
    h.attempts units = [] ∧ (h.advance units).2.Dropped start period since := by
  induction units with
  | zero =>
    rw [hd.ahead.advance_zero]
    exact ⟨rfl, hd⟩
  | succ units ih =>
    obtain ⟨hnone, hd'⟩ := ih
    obtain ⟨hreports, hlast⟩ := hd'.unit
    rw [attempts, hnone, hreports, advance_add hd.ahead]
    exact ⟨rfl, hlast⟩

theorem follow (hd : h.Dropped start period since) (e : ScheduleEvent) :
    h.attemptsAt e = [] ∧ (h.follow e).Dropped start period since := by
  cases e with
  | pass units => exact hd.pass units
  | drop => exact ⟨rfl, hd.of_same rfl rfl rfl rfl⟩
  | edit change => exact ⟨rfl, hd.of_same hd.table_eq rfl rfl rfl⟩
  | reload =>
    rw [RoutingSite.follow, after, hd.table_eq]
    exact ⟨rfl, hd⟩

theorem followAll (hd : h.Dropped start period since) (events : List ScheduleEvent) :
    h.attemptsAll events = [] ∧ (h.followAll events).Dropped start period since := by
  induction events generalizing h with
  | nil => exact ⟨rfl, hd⟩
  | cons e events ih =>
    obtain ⟨hnone, hnext⟩ := hd.follow e
    obtain ⟨hnone', hlast⟩ := ih hnext
    rw [attemptsAll, hnone, hnone']
    exact ⟨rfl, hlast⟩

end Dropped

/-- Dropping the table leaves its refresh on schedule until the next tick. -/
theorem InUse.drop (hu : h.InUse path limit start period) :
    h.dropTable.Dropped start period h.now := by
  obtain ⟨r, hs, hperiod⟩ := hu.exists_refresh
  exact ⟨rfl, Nat.le_refl _, .inl ⟨r, hs.of_same rfl rfl rfl, hperiod, Refresh.instants_self⟩⟩

/-! ## Refreshes -/

/-- Let a refresh of a table be started, with no other one around. Its period is the interval asked
for, or one millisecond if that is longer. Whatever happens while the table is in use, the refresh
does not end, and its loads are exactly at the instants after its start at which its period comes
round. In any time that passes next, each load finds the file as it is, and after it the table shows
the new document if there is one, and what it has shown before otherwise. Whatever happens once the
table has been dropped, there are no more loads and the table does not come back; the refresh ends
at the first instant at which its period comes round, and stays so. -/
theorem refresh_keeps_schedule (ht : h.table = some t) (hnone : h.refreshes = []) (interval : Nat) :
    let started := h.startRefresh interval
    let instants := Refresh.instants h.now (max interval h.perMilli)
    (∀ events, ScheduleEvent.drop ∉ events →
      let now := started.followAll events
      now.lastEnded = some false ∧
      (started.attemptsAll events).map Prod.fst = instants h.now now.now ∧
      ∃ shown, now.table = some shown ∧ shown.path = t.path ∧ shown.limit = t.limit ∧
        ∀ units,
          let found := RoutingDocument.load now.files t.path t.limit
          let times := instants now.now (now.now + units)
          now.attempts units = times.map (·, shown.loadReport found) ∧
          (now.advance units).1 = (now.attempts units).map Prod.snd ∧
          (now.advance units).2.table =
            some (if times = [] then shown else shown.afterLoad found)) ∧
    ∀ events more, ScheduleEvent.drop ∉ events →
      let now := started.followAll (events ++ .drop :: more)
      now.table = none ∧
      started.attemptsAll (events ++ .drop :: more) = started.attemptsAll events ∧
      now.lastEnded = some (!(instants (started.followAll events).now now.now).isEmpty) := by
  intro started instants
  have hu : started.InUse t.path t.limit h.now (max interval h.perMilli) :=
    ⟨⟨t, ht, rfl, rfl⟩, _, onSchedule_start hnone interval,
      congrArg (max interval) h.minPeriod_eq⟩
  refine ⟨fun events hevents => ?_, fun events more hevents => ?_⟩
  · obtain ⟨hnow, -, htimes⟩ := hu.followAll hevents
    obtain ⟨shown, hshown, hpath, hlimit⟩ := hnow.exists_table
    refine ⟨hnow.lastEnded_eq, htimes, shown, hshown, hpath, hlimit, fun units => ?_⟩
    obtain ⟨hattempts, htable⟩ := hnow.pass hshown units
    exact ⟨hattempts, (reports_attempts hnow.ahead units).symm, htable⟩
  · obtain ⟨hnow, -, -⟩ := hu.followAll hevents
    obtain ⟨hquiet, hlast⟩ := hnow.drop.followAll more
    have hfollow : started.followAll (events ++ .drop :: more) =
        (started.followAll events).dropTable.followAll more :=
      List.foldl_append
    intro now
    rw [show now = _ from hfollow]
    refine ⟨hlast.table_eq, ?_, hlast.lastEnded_eq⟩
    rw [attemptsAll_append]
    exact (congrArg _ hquiet).trans (List.append_nil _)

/-- A schedule with a document that is written anew and then deleted, and with a renewal on demand
that fails. -/
def shortSchedule : List ScheduleEvent :=
  [.pass 99, .edit (·.putTopic "topic-two"), .pass 1,
    .edit fun files => (files.delete? "targets.json").getD files, .reload, .pass 250]

/-- A site like that of `openedOnce`, with a clock that counts half milliseconds. -/
def openedFine : RoutingSite :=
  { openedOnce with perMilli := 2, perMilli_pos := by decide }

/-- The loads are at 100, 200 and 300 milliseconds. Only the first one succeeds, and its document
stays. A table that is dropped at 350 milliseconds is not loaded at 400: there its refresh ends. On
the finer clock, an interval of half a millisecond is raised to a whole one, and one of one and a
half milliseconds is kept. -/
theorem refresh_keeps_schedule_short :
    ((openedOnce.startRefresh 100).attemptsAll shortSchedule).map Prod.fst = [100, 200, 300] ∧
      ((openedOnce.startRefresh 100).followAll shortSchedule).lastEnded = some false ∧
      (((openedOnce.startRefresh 100).followAll shortSchedule).table.map (·.document)) =
        some (.ofTopic "topic-two") ∧
      ((openedOnce.startRefresh 100).followAll
        (shortSchedule ++ [.drop, .pass 49])).lastEnded = some false ∧
      ((openedOnce.startRefresh 100).followAll
        (shortSchedule ++ [.drop, .pass 50, .pass 1000])).lastEnded = some true ∧
      ((openedFine.startRefresh 1).attemptsAll [.pass 7]).map Prod.fst = [2, 4, 6] ∧
      ((openedFine.startRefresh 3).attemptsAll [.pass 7]).map Prod.fst = [3, 6] := by
  have hdrop : ScheduleEvent.drop ∉ shortSchedule := by
    simp [shortSchedule]
  have hfine : ScheduleEvent.drop ∉ [ScheduleEvent.pass 7] := by simp
  obtain ⟨hused, hdropped⟩ := refresh_keeps_schedule (h := openedOnce) rfl rfl 100
  obtain ⟨hrunning, htimes, -⟩ := hused shortSchedule hdrop
  obtain ⟨-, -, hsoon⟩ := hdropped shortSchedule [.pass 49] hdrop
  obtain ⟨-, -, hlater⟩ := hdropped shortSchedule [.pass 50, .pass 1000] hdrop
  obtain ⟨-, hraised, -⟩ :=
    (refresh_keeps_schedule (h := openedFine) rfl rfl 1).1 [.pass 7] hfine
  obtain ⟨-, hkept, -⟩ := (refresh_keeps_schedule (h := openedFine) rfl rfl 3).1 [.pass 7] hfine
  refine ⟨htimes.trans ?_, hrunning, ?_, hsoon.trans ?_, hlater.trans ?_, hraised.trans ?_,
    hkept.trans ?_⟩
  · decide +kernel
  · decide +kernel
  · decide +kernel
  · decide +kernel
  · decide +kernel
  · decide +kernel

end RoutingSite

end EventIngress
