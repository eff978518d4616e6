import EventIngress.Proofs.Routing.Renewals

/-!
# Time at a site of routing tables

Time passes from tick to tick. As long as no tick of a refresh has been missed, none is missed
later, and the bound on the number of instants with ticks is never reached. So time may pass in
portions: what happens in it does not depend on them, and a tick happens in the unit of time that
ends with it.

Results:

* `RoutingSite.nextTick_eq_some_iff`: what the next tick is.
* `RoutingSite.Ahead.advance`: no tick is missed while time passes.
* `RoutingSite.advance_add`: time passes in portions.
-/

namespace EventIngress.RoutingSite

variable {h : RoutingSite} {limit time : Nat}

/-! ## The next tick -/

theorem nextTick_eq_none_iff :
    h.nextTick limit = none ↔ ∀ r ∈ h.refreshes, r.ended = false → limit < r.next := by
  simp [nextTick, List.min?_eq_none_iff]

/-- The next tick is the earliest of those to come. -/
theorem nextTick_eq_some_iff :
    h.nextTick limit = some time ↔ time ≤ limit ∧
      (∃ r ∈ h.refreshes, r.ended = false ∧ r.next = time) ∧
      ∀ r ∈ h.refreshes, r.ended = false → time ≤ r.next := by
  rw [nextTick, List.min?_eq_some_iff]
  simp only [List.mem_map, List.mem_filter, Bool.and_eq_true, Bool.not_eq_true', decide_eq_true_eq,
    forall_exists_index, and_imp]
  constructor
  · rintro ⟨⟨r, ⟨hr, hrunning, hlimit⟩, rfl⟩, hmin⟩
    refine ⟨hlimit, ⟨r, hr, hrunning, rfl⟩, fun other hother hrunning' => ?_⟩
    rcases Nat.lt_or_ge limit other.next with hlate | hearly
    · omega
    · exact hmin _ other hother hrunning' hearly rfl
  · rintro ⟨hlimit, ⟨r, hr, hrunning, rfl⟩, hmin⟩
    refine ⟨⟨r, ⟨hr, hrunning, hlimit⟩, rfl⟩, ?_⟩
    rintro _ other hother hrunning' - rfl
    exact hmin other hother hrunning'

/-! ## Ticks that are not missed -/

/-- No tick has been missed: those of the refreshes that have not ended are all to come. -/
def Ahead (h : RoutingSite) : Prop :=
  ∀ r ∈ h.refreshes, r.ended = false → h.now < r.next

theorem Ahead.nextTick_of_le (hahead : h.Ahead) (hlimit : limit ≤ h.now) :
    h.nextTick limit = none :=
  nextTick_eq_none_iff.2 fun r hr hrunning => Nat.lt_of_le_of_lt hlimit (hahead r hr hrunning)

theorem Ahead.lt_of_nextTick (hahead : h.Ahead) (htime : h.nextTick limit = some time) :
    h.now < time := by
  obtain ⟨-, ⟨r, hr, hrunning, rfl⟩, -⟩ := nextTick_eq_some_iff.1 htime
  exact hahead r hr hrunning

/-- After all ticks of an instant, none of them has been missed. -/
theorem tickAll_ahead {rs : List Refresh} (hahead : h.Ahead)
    (hrs : ∀ r ∈ rs, r.ended = false → h.now ≤ r.next) :
    (h.tickAll rs).2.now = h.now ∧ (h.tickAll rs).2.Ahead := by
  induction rs generalizing h with
  | nil => exact ⟨rfl, hahead⟩
  | cons r rs ih =>
    rw [tickAll]
    generalize hx : (if !r.ended && r.next ≤ h.now then h.tick r else (r, [], h)) = x
    have hticked : (∃ table, x.2.2 = { h with table := table }) ∧
        (x.1.ended = false → h.now < x.1.next) := by
      have hr := hrs r List.mem_cons_self
      rw [← hx]
      split
      · rename_i hdue
        rw [Bool.and_eq_true, Bool.not_eq_true'] at hdue
        rcases h.tick_cases r with ⟨t, -, htick⟩ | htick
        · rw [htick]
          exact ⟨⟨_, rfl⟩, fun _ =>
            Nat.lt_of_le_of_lt (hr hdue.1) (Nat.lt_add_of_pos_right r.period_pos)⟩
        · rw [htick]
          exact ⟨⟨h.table, rfl⟩, fun hrunning => by cases hrunning⟩
      · rename_i hdue
        refine ⟨⟨h.table, rfl⟩, fun hrunning => ?_⟩
        rw [hrunning] at hdue
        simpa using hdue
    obtain ⟨⟨table, hsite⟩, hnext⟩ := hticked
    have hrest := ih (h := x.2.2) (by rw [hsite]; exact hahead)
      (by rw [hsite]; exact fun r hr => hrs r (List.mem_cons_of_mem _ hr))
    have hnow : x.2.2.now = h.now := by rw [hsite]
    refine ⟨hrest.1.trans hnow, fun other hother hrunning => ?_⟩
    rcases List.mem_cons.1 hother with rfl | hother
    · exact Nat.lt_of_le_of_lt (Nat.le_of_eq (hrest.1.trans hnow)) (hnext hrunning)
    · exact hrest.2 other hother hrunning

theorem tickAll_nextTick (htime : h.nextTick limit = some time) :
    (tickAll { h with now := time, refreshes := [] } h.refreshes).2.now = time ∧
      (tickAll { h with now := time, refreshes := [] } h.refreshes).2.Ahead :=
  tickAll_ahead (fun _ hr => absurd hr List.not_mem_nil) (nextTick_eq_some_iff.1 htime).2.2

/-! ## Portions of time -/

theorem now_runTicks (steps : Nat) : (runTicks steps limit h).2.now = limit := by
  induction steps generalizing h with
  | zero => rfl
  | succ steps ih =>
    rw [runTicks]
    split
    · rfl
    · exact ih

theorem runTicks_of_none (hnone : h.nextTick limit = none) (steps : Nat) :
    runTicks steps limit h = ([], { h with now := limit }) := by
  cases steps with
  | zero => rfl
  | succ steps => rw [runTicks, hnone]

theorem Ahead.runTicks_now (hahead : h.Ahead) (steps : Nat) : runTicks steps h.now h = ([], h) :=
  runTicks_of_none (hahead.nextTick_of_le (Nat.le_refl _)) steps

/-- There are enough steps if there is one for each unit of time and one more. -/
theorem runTicks_ahead {steps : Nat} (hahead : h.Ahead) (hsteps : limit < h.now + steps) :
    (runTicks steps limit h).2.Ahead := by
  induction steps generalizing h with
  | zero => exact fun r hr hrunning => Nat.lt_trans hsteps (hahead r hr hrunning)
  | succ steps ih =>
    rw [runTicks]
    split
    · rename_i hnone
      exact nextTick_eq_none_iff.1 hnone
    · rename_i time htime
      obtain ⟨hnow, hnext⟩ := tickAll_nextTick htime
      have hlater := hahead.lt_of_nextTick htime
      exact ih hnext (by rw [hnow]; omega)

/-- The time up to a limit is the time up to some instant before it and the time from there,
whatever the numbers of steps are, if there are enough of them. -/
theorem runTicks_split {steps : Nat} (hahead : h.Ahead) (hsteps : limit < h.now + steps)
    (mid first second : Nat) (hmid : mid ≤ limit) (hfirst : mid < h.now + first)
    (hsecond : limit < mid + second) :
    runTicks steps limit h =
      ((runTicks first mid h).1 ++ (runTicks second limit (runTicks first mid h).2).1,
        (runTicks second limit (runTicks first mid h).2).2) := by
  induction steps generalizing h mid first second with
  | zero =>
    rw [runTicks_of_none (hahead.nextTick_of_le (by omega)),
      runTicks_of_none (hahead.nextTick_of_le (by omega)),
      runTicks_of_none (h := { h with now := mid }) (hahead.nextTick_of_le (by omega))]
    rfl
  | succ steps ih =>
    cases hnext : h.nextTick limit with
    | none =>
      have hearly : h.nextTick mid = none := nextTick_eq_none_iff.2 fun r hr hrunning =>
        Nat.lt_of_le_of_lt hmid (nextTick_eq_none_iff.1 hnext r hr hrunning)
      rw [runTicks_of_none hnext, runTicks_of_none hearly,
        runTicks_of_none (h := { h with now := mid }) hnext]
      rfl
    | some time =>
      have hlater := hahead.lt_of_nextTick hnext
      obtain ⟨htime, htick, hmin⟩ := nextTick_eq_some_iff.1 hnext
      obtain ⟨hnow, hahead'⟩ := tickAll_nextTick hnext
      rw [runTicks, hnext]
      dsimp only
      generalize hticked : tickAll { h with now := time, refreshes := [] } h.refreshes = ticked
        at hnow hahead' ⊢
      by_cases hmore : time ≤ mid
      · -- The instant with ticks is in the first portion.
        have hearly : h.nextTick mid = some time := nextTick_eq_some_iff.2 ⟨hmore, htick, hmin⟩
        cases first with
        | zero => omega
        | succ first =>
          rw [runTicks, hearly]
          dsimp only
          rw [hticked, ih hahead' (by omega) mid first second hmid (by omega) hsecond,
            List.append_assoc]
      · -- It is in the second one, which starts from the same refreshes.
        have hearly : h.nextTick mid = none := nextTick_eq_none_iff.2 fun r hr hrunning =>
          Nat.lt_of_lt_of_le (Nat.lt_of_not_le hmore) (hmin r hr hrunning)
        rw [runTicks_of_none hearly]
        cases second with
        | zero => omega
        | succ second =>
          have hsame : runTicks 1 time ticked.2 = ([], ticked.2) := by
            rw [← hnow, hahead'.runTicks_now]
          rw [runTicks, show nextTick { h with now := mid } limit = some time from hnext]
          dsimp only
          rw [hticked, ih hahead' (by omega) time 1 second htime (by omega) (by omega), hsame]
          rfl

theorem now_advance (units : Nat) : (h.advance units).2.now = h.now + units :=
  now_runTicks _

/-- No tick is missed while time passes. -/
theorem Ahead.advance (hahead : h.Ahead) (units : Nat) : (h.advance units).2.Ahead :=
  runTicks_ahead hahead (by omega)

/-- Time passes in portions: what happens in it does not depend on them. -/
theorem advance_add (hahead : h.Ahead) (units more : Nat) :
    h.advance (units + more) =
      ((h.advance units).1 ++ ((h.advance units).2.advance more).1,
        ((h.advance units).2.advance more).2) := by
  rw [advance, ← Nat.add_assoc,
    runTicks_split hahead (by omega) (h.now + units) (units + 1) (more + 1) (by omega) (by omega)
      (by omega)]
  rw [advance, advance, now_runTicks]

theorem Ahead.advance_zero (hahead : h.Ahead) : h.advance 0 = ([], h) :=
  hahead.runTicks_now _

/-- A unit of time without ticks. -/
theorem advance_one_of_none (hnone : h.nextTick (h.now + 1) = none) :
    h.advance 1 = ([], { h with now := h.now + 1 }) :=
  runTicks_of_none hnone _

/-- A unit of time with ticks at its end. -/
theorem advance_one_of_some (hdue : h.nextTick (h.now + 1) = some (h.now + 1)) :
    h.advance 1 = tickAll { h with now := h.now + 1, refreshes := [] } h.refreshes := by
  obtain ⟨hnow, hahead⟩ := tickAll_nextTick hdue
  rw [advance, runTicks, hdue]
  dsimp only
  generalize tickAll { h with now := h.now + 1, refreshes := [] } h.refreshes = ticked
    at hnow hahead ⊢
  rw [← hnow, hahead.runTicks_now, List.append_nil]

end EventIngress.RoutingSite
