import EventIngress.Proofs.Transport.Carriers

/-!
# Closing handles

A publish is refused if its handle was closed before it looked, and in no other case. What a publish
does after that look does not depend on any handle. So closing a handle stops new publishes on it,
leaves those that have looked before to come to their end, and means nothing to other handles.

Results:

* `Carrier.System.Steps`, `Carrier.System.step_steps`: all ways for a move to go.
* `Carrier.System.ClosedIn`, `Carrier.System.isClosed_run`: which handles are closed after some moves.
* `Carrier.System.publish_run`: what becomes of a publish that has looked.
* `Carrier.System.spared`, `Carrier.System.run_spare`: what is left when some handles are never
  closed.
* `Carrier.System.CloseLaws`, `Carrier.System.closing_laws`: the laws of closing, for the three
  transports.
-/

namespace EventIngress.Carrier

variable {K : Carrier}

namespace System

variable {s s' : K.System} {p h : Nat} {d : K.Data} {m : Message}

/-! ## All ways for a move to go -/

/-- All ways for a move to go. -/
inductive Steps (s : K.System) : K.Move → K.System → Prop where
  /-- The move is not possible. A handle can always be closed. -/
  | idle {move : K.Move} (hmove : ∀ h, move ≠ .close h) : Steps s move s
  | opened {t : TopicId} {d : K.Data} (hopen : K.openTopic s.shared t = .ok d) :
      Steps s (.openHandle t) { s with handles := s.handles ++ [(d, false)] }
  | closed {h : Nat} :
      Steps s (.close h) { s with handles := s.handles.modify h fun x => (x.1, true) }
  | refused {p h : Nat} {d : K.Data} {m : Message} (hnew : s.publishes p = none)
      (hhandle : s.handles[h]? = some (d, true)) :
      Steps s (.check p h m) (s.set p ⟨h, d, m, .ended (.error (.closed (K.topic d)))⟩)
  | admitted {p h : Nat} {d : K.Data} {m : Message} (hnew : s.publishes p = none)
      (hhandle : s.handles[h]? = some (d, false)) :
      Steps s (.check p h m) (s.set p ⟨h, d, m, .checked⟩)
  | departed {p h : Nat} {d : K.Data} {m : Message}
      (hp : s.publishes p = some ⟨h, d, m, .checked⟩) :
      Steps s (.depart p) ({ s with shared := (K.depart s.shared p d m).2 }.set p
        ⟨h, d, m, .underWay (K.depart s.shared p d m).1⟩)
  | arrived {p h : Nat} {d : K.Data} {m : Message} {load : K.Load} {turn : K.Turn}
      (hp : s.publishes p = some ⟨h, d, m, .underWay load⟩) :
      Steps s (.arrive p turn) ({ s with shared := (K.arrive s.shared p d m load turn).2 }.set p
        ⟨h, d, m, (K.arrive s.shared p d m load turn).1⟩)
  | happened {e : K.Event} : Steps s (.happen e) { s with shared := K.happen s.shared e }

/-- There are no other ways. -/
theorem step_steps (s : K.System) (move : K.Move) : Steps s move (s.step move) := by
  cases move with
  | openHandle t =>
    cases hopen : K.openTopic s.shared t with
    | error fault =>
      rw [step, hopen]
      exact .idle fun _ => by simp
    | ok d =>
      rw [step, hopen]
      exact .opened hopen
  | close h => exact .closed
  | check p h m =>
    cases hp : s.publishes p with
    | some q =>
      rw [step_check_taken hp]
      exact .idle fun _ => by simp
    | none =>
      rcases hhandle : s.handles[h]? with _ | ⟨d, _ | _⟩
      · rw [step_check_unopened hhandle]
        exact .idle fun _ => by simp
      · rw [step_check_open hp hhandle]
        exact .admitted hp hhandle
      · rw [step_check_closed hp hhandle]
        exact .refused hp hhandle
  | depart p =>
    by_cases hp : ∃ h d m, s.publishes p = some ⟨h, d, m, .checked⟩
    · obtain ⟨h, d, m, hp⟩ := hp
      rw [step_depart hp]
      exact .departed hp
    · rw [step_depart_idle fun h d m h' => hp ⟨h, d, m, h'⟩]
      exact .idle fun _ => by simp
  | arrive p turn =>
    by_cases hp : ∃ h d m load, s.publishes p = some ⟨h, d, m, .underWay load⟩
    · obtain ⟨h, d, m, load, hp⟩ := hp
      rw [step_arrive hp]
      exact .arrived hp
    · rw [step_arrive_idle fun h d m load h' => hp ⟨h, d, m, load, h'⟩]
      exact .idle fun _ => by simp
  | happen e => exact .happened

/-! ## Which handles are closed -/

/-- Whether a handle is closed. -/
def isClosed (s : K.System) (h : Nat) : Bool :=
  s.handles[h]?.any (·.2)

/-- A handle was closed in the course of some moves, when it was there. -/
def ClosedIn (s : K.System) (moves : List K.Move) (h : Nat) : Prop :=
  ∃ before after, moves = before ++ .close h :: after ∧ h < (s.run before).handles.length

theorem closedIn_cons (s : K.System) (move : K.Move) (moves : List K.Move) (h : Nat) :
    ClosedIn s (move :: moves) h ↔
      (move = .close h ∧ h < s.handles.length) ∨ ClosedIn (s.step move) moves h := by
  constructor
  · rintro ⟨_ | ⟨first, before⟩, after, heq, hlt⟩
    · cases heq
      exact .inl ⟨rfl, hlt⟩
    · cases heq
      exact .inr ⟨before, after, rfl, hlt⟩
  · rintro (⟨rfl, hlt⟩ | ⟨before, after, rfl, hlt⟩)
    · exact ⟨[], moves, rfl, hlt⟩
    · exact ⟨move :: before, after, rfl, hlt⟩

theorem isClosed_step (s : K.System) (move : K.Move) (h : Nat) :
    (s.step move).isClosed h = true ↔
      s.isClosed h = true ∨ (move = .close h ∧ h < s.handles.length) := by
  have hother (hmove : ∀ h, move ≠ .close h) :
      s.isClosed h = true ↔ s.isClosed h = true ∨ (move = .close h ∧ h < s.handles.length) :=
    (or_iff_left fun hclose => hmove h hclose.1).symm
  have hsteps := step_steps s move
  generalize s.step move = s' at hsteps ⊢
  cases hsteps with
  | idle hmove => exact hother hmove
  | opened =>
    refine Iff.trans ?_ (hother nofun)
    rw [isClosed, isClosed, List.getElem?_append]
    split
    · rfl
    · rename_i hlt
      rw [List.getElem?_eq_none (Nat.not_lt.1 hlt), List.getElem?_singleton]
      split <;> exact iff_of_false nofun nofun
  | closed =>
    rename_i h'
    show (s.step (.close h')).isClosed h = true ↔ _
    rw [isClosed, isClosed, step_close_handles]
    cases hat : s.handles[h]? with
    | none => simp [List.getElem?_eq_none_iff.1 hat]
    | some x => simp [(List.getElem?_eq_some_iff.1 hat).1, or_comm]
  | refused => exact hother nofun
  | admitted => exact hother nofun
  | departed => exact hother nofun
  | arrived => exact hother nofun
  | happened => exact hother nofun

/-- A handle is closed if it was, or if it was closed on the way. -/
theorem isClosed_run (s : K.System) (moves : List K.Move) (h : Nat) :
    (s.run moves).isClosed h = true ↔ s.isClosed h = true ∨ ClosedIn s moves h := by
  induction moves generalizing s with
  | nil =>
    refine ⟨.inl, fun hor => hor.elim id ?_⟩
    rintro ⟨_ | _, _, ⟨⟩, -⟩
  | cons move moves ih =>
    rw [closedIn_cons, ← or_assoc, ← isClosed_step]
    exact ih (s.step move)

/-! ## Publishes that have looked -/

/-- A publish keeps its handle and its message. It stays as it is once it is refused, and it is not
refused later. -/
theorem publish_step {q : K.Publish} (hq : s.publishes p = some q) (move : K.Move) :
    ∃ leg, (s.step move).publishes p = some { q with leg := leg } ∧
      leg.isRefused = q.leg.isRefused ∧ (q.leg.isRefused = true → leg = q.leg) := by
  have hsame : ∃ leg, s.publishes p = some { q with leg := leg } ∧
      leg.isRefused = q.leg.isRefused ∧ (q.leg.isRefused = true → leg = q.leg) :=
    ⟨q.leg, hq, rfl, fun _ => rfl⟩
  -- A publish under another number is not concerned.
  have hset {s' : K.System} {p' : Nat} {q' : K.Publish} (hs' : s'.publishes = s.publishes)
      (hself : p = p' → ∃ leg, q' = { q with leg := leg } ∧ leg.isRefused = q.leg.isRefused ∧
        (q.leg.isRefused = true → leg = q.leg)) :
      ∃ leg, (s'.set p' q').publishes p = some { q with leg := leg } ∧
        leg.isRefused = q.leg.isRefused ∧ (q.leg.isRefused = true → leg = q.leg) := by
    by_cases hp : p = p'
    · obtain ⟨leg, rfl, hleg⟩ := hself hp
      subst hp
      exact ⟨leg, set_publishes s' p _, hleg⟩
    · rw [set_publishes_of_ne s' hp, hs']
      exact hsame
  have hsteps := step_steps s move
  generalize s.step move = s' at hsteps ⊢
  cases hsteps with
  | idle | opened | closed | happened => exact hsame
  | refused hnew | admitted hnew =>
    refine hset rfl ?_
    rintro rfl
    cases hq.symm.trans hnew
  | departed hp =>
    refine hset rfl ?_
    rintro rfl
    cases hq.symm.trans hp
    exact ⟨_, rfl, rfl, nofun⟩
  | arrived hp =>
    refine hset rfl ?_
    rintro rfl
    cases hq.symm.trans hp
    exact ⟨_, rfl, K.arrive_isRefused _ _ _ _ _ _, nofun⟩

theorem publish_run {q : K.Publish} (hq : s.publishes p = some q) (moves : List K.Move) :
    ∃ leg, (s.run moves).publishes p = some { q with leg := leg } ∧
      leg.isRefused = q.leg.isRefused ∧ (q.leg.isRefused = true → leg = q.leg) := by
  induction moves generalizing s q with
  | nil => exact ⟨q.leg, hq, rfl, fun _ => rfl⟩
  | cons move moves ih =>
    obtain ⟨leg₁, hstep, hrefused₁, hsame₁⟩ := publish_step hq move
    obtain ⟨leg, hrun, hrefused, hsame⟩ := ih hstep
    refine ⟨leg, hrun, hrefused.trans hrefused₁, fun h => ?_⟩
    exact (hsame (hrefused₁.trans h)).trans (hsame₁ h)

/-! ## Handles that are never closed -/

/-- Whether a move is not made when some handles are never closed: it closes one of them, or it is a
publish on one of them that is refused. A publish whose number is taken is none at all. -/
def spares (s : K.System) (P : Nat → Bool) : K.Move → Bool
  | .close h => P h
  | .check p h _ => (s.publishes p).isSome || (P h && s.isClosed h)
  | _ => false

/-- The moves that are left when some handles are never closed. -/
def spare (P : Nat → Bool) : K.System → List K.Move → List K.Move
  | _, [] => []
  | s, move :: moves =>
    if s.spares P move then spare P (s.step move) moves else move :: spare P (s.step move) moves

/-- What is left when some handles are never closed: they are open, and no publish on them was
refused. All else is the same. -/
def spared (s : K.System) (P : Nat → Bool) : K.System where
  shared := s.shared
  handles := s.handles.mapIdx fun h x => (x.1, x.2 && !P h)
  publishes p := (s.publishes p).filter fun q => !(P q.handle && q.leg.isRefused)

variable {P : Nat → Bool}

theorem spared_handles (s : K.System) (P : Nat → Bool) (h : Nat) :
    (s.spared P).handles[h]? = (s.handles[h]?).map fun x => (x.1, x.2 && !P h) :=
  List.getElem?_mapIdx

theorem spared_publishes_iff {q : K.Publish} :
    (s.spared P).publishes p = some q ↔
      s.publishes p = some q ∧ (P q.handle && q.leg.isRefused) = false := by
  rw [spared, Option.filter_eq_some_iff, Bool.not_eq_true']

theorem spared_publishes_none (hnew : s.publishes p = none) : (s.spared P).publishes p = none := by
  show (s.publishes p).filter _ = none
  rw [hnew]
  rfl

theorem spared_set {q : K.Publish} (hq : (P q.handle && q.leg.isRefused) = false) :
    (s.set p q).spared P = (s.spared P).set p q := by
  refine System.ext rfl rfl (funext fun p' => ?_)
  by_cases hp : p' = p
  · subst hp
    rw [set_publishes]
    exact spared_publishes_iff.2 ⟨set_publishes s p' q, hq⟩
  · rw [set_publishes_of_ne _ hp]
    show (((s.set p q).publishes p').filter _) = _
    rw [set_publishes_of_ne _ hp]
    rfl

/-- A move that is not made would have changed nothing else. -/
theorem spared_step_of_spares {move : K.Move} (hspares : s.spares P move = true) :
    (s.step move).spared P = s.spared P := by
  cases move with
  | close h =>
    refine System.ext rfl (List.ext_getElem? fun h' => ?_) rfl
    have hP : P h = true := hspares
    rw [spared_handles, spared_handles, step_close_handles, Option.map_map]
    refine congrArg (Option.map · _) (funext fun x => ?_)
    by_cases hsame : h = h'
    · simp [← hsame, hP]
    · simp [hsame]
  | check p h m =>
    cases hp : s.publishes p with
    | some q => rw [step_check_taken hp]
    | none =>
      rw [spares, hp, Option.isSome_none, Bool.false_or, Bool.and_eq_true, isClosed,
        Option.any_eq_true] at hspares
      obtain ⟨hP, ⟨d, _⟩, hhandle, rfl⟩ := hspares
      rw [step_check_closed hp hhandle]
      refine System.ext rfl rfl (funext fun p' => ?_)
      by_cases hsame : p' = p
      · subst hsame
        rw [spared_publishes_none hp]
        show Option.filter _ _ = _
        rw [set_publishes]
        simp [hP, Leg.isRefused]
      · show Option.filter _ _ = Option.filter _ _
        rw [set_publishes_of_ne s hsame]
  | openHandle | depart | arrive | happen => cases hspares

/-- All other moves are made as before. -/
theorem spared_step {move : K.Move} (hspares : s.spares P move = false) :
    (s.step move).spared P = (s.spared P).step move := by
  cases move with
  | openHandle t =>
    cases hopen : K.openTopic s.shared t with
    | error fault =>
      have hopen' : K.openTopic (s.spared P).shared t = .error fault := hopen
      rw [step, step, hopen, hopen']
    | ok d =>
      have hopen' : K.openTopic (s.spared P).shared t = .ok d := hopen
      rw [step, step, hopen, hopen']
      exact System.ext rfl List.mapIdx_concat rfl
  | close h =>
    have hP : P h = false := hspares
    refine System.ext rfl (List.ext_getElem? fun h' => ?_) rfl
    rw [spared_handles, step_close_handles, step_close_handles, spared_handles, Option.map_map,
      Option.map_map]
    refine congrArg (Option.map · _) (funext fun x => ?_)
    by_cases hsame : h = h'
    · simp [← hsame, hP]
    · simp [hsame]
  | check p h m =>
    rw [spares, Bool.or_eq_false_iff, Option.isSome_eq_false_iff, Option.isNone_iff_eq_none] at hspares
    obtain ⟨hnew, hopen⟩ := hspares
    have hnew' := spared_publishes_none (P := P) hnew
    have hhandle' := spared_handles s P h
    rcases hhandle : s.handles[h]? with _ | ⟨d, _ | _⟩
    · rw [hhandle] at hhandle'
      rw [step_check_unopened hhandle, step_check_unopened hhandle']
    · rw [hhandle] at hhandle'
      rw [step_check_open hnew hhandle, step_check_open hnew' hhandle']
      exact spared_set (Bool.and_false _)
    · have hP : P h = false := by simpa [isClosed, hhandle] using hopen
      rw [hhandle, hP] at hhandle'
      rw [step_check_closed hnew hhandle, step_check_closed hnew' hhandle']
      exact spared_set (by simp [hP])
  | depart p =>
    by_cases hp : ∃ h d m, s.publishes p = some ⟨h, d, m, .checked⟩
    · obtain ⟨h, d, m, hp⟩ := hp
      rw [step_depart hp, step_depart (spared_publishes_iff.2 ⟨hp, Bool.and_false _⟩)]
      exact spared_set (Bool.and_false _)
    · rw [step_depart_idle fun h d m h' => hp ⟨h, d, m, h'⟩,
        step_depart_idle fun h d m h' => hp ⟨h, d, m, (spared_publishes_iff.1 h').1⟩]
  | arrive p turn =>
    by_cases hp : ∃ h d m load, s.publishes p = some ⟨h, d, m, .underWay load⟩
    · obtain ⟨h, d, m, load, hp⟩ := hp
      rw [step_arrive hp, step_arrive (spared_publishes_iff.2 ⟨hp, Bool.and_false _⟩)]
      refine spared_set ?_
      rw [K.arrive_isRefused, Bool.and_false]
    · rw [step_arrive_idle fun h d m load h' => hp ⟨h, d, m, load, h'⟩,
        step_arrive_idle fun h d m load h' => hp ⟨h, d, m, load, (spared_publishes_iff.1 h').1⟩]
  | happen e => rfl

/-- The moves that are left lead to what is left. -/
theorem run_spare (s : K.System) (P : Nat → Bool) (moves : List K.Move) :
    (s.spared P).run (spare P s moves) = (s.run moves).spared P := by
  induction moves generalizing s with
  | nil => rfl
  | cons move moves ih =>
    rw [spare]
    cases hspares : s.spares P move with
    | true =>
      rw [if_pos rfl, ← spared_step_of_spares hspares]
      exact ih (s.step move)
    | false =>
      rw [if_neg Bool.false_ne_true]
      show ((s.spared P).step move).run _ = _
      rw [← spared_step hspares]
      exact ih (s.step move)

theorem spared_initial (shared : K.Shared) (P : Nat → Bool) :
    (initial shared).spared P = initial shared :=
  rfl

theorem spare_sublist (P : Nat → Bool) (s : K.System) (moves : List K.Move) :
    (spare P s moves).Sublist moves := by
  induction moves generalizing s with
  | nil => exact List.Sublist.slnil
  | cons move moves ih =>
    rw [spare]
    split
    · exact (ih _).cons move
    · exact (ih _).cons_cons move

theorem close_notMem_spare (hP : P h = true) (s : K.System) (moves : List K.Move) :
    .close h ∉ spare P s moves := by
  induction moves generalizing s with
  | nil => exact List.not_mem_nil
  | cons move moves ih =>
    rw [spare]
    split
    · exact ih _
    · rename_i hspares
      rw [List.mem_cons]
      rintro (rfl | hmem)
      · exact hspares hP
      · exact ih _ hmem

/-! ## Waiting for room in a channel -/

/-- What waits for room in a channel waits under the number of a publish. -/
theorem waiting_step {s : channel.System} {move : channel.Move} {w : Nat × Delivery}
    (hw : w ∈ Channel.waiting (s.step move).shared) :
    w ∈ Channel.waiting s.shared ∨ ∃ q, (s.step move).publishes w.1 = some q := by
  have hsteps := step_steps s move
  generalize s.step move = s' at hsteps hw ⊢
  cases hsteps with
  | idle | opened | closed | refused | admitted => exact .inl hw
  | departed hp =>
    rcases List.mem_append.1 hw with hold | hnew
    · exact .inl hold
    · cases List.mem_singleton.1 hnew
      exact .inr ⟨_, set_publishes _ _ _⟩
  | arrived hp => exact .inl (Channel.arrive_waiting _ _ _ _ w hw)
  | happened => exact .inl (Channel.happen_waiting _ _ ▸ hw)

theorem waiting_run {s : channel.System}
    (hs : ∀ w ∈ Channel.waiting s.shared, ∃ q, s.publishes w.1 = some q)
    (moves : List channel.Move) :
    ∀ w ∈ Channel.waiting (s.run moves).shared, ∃ q, (s.run moves).publishes w.1 = some q := by
  induction moves generalizing s with
  | nil => exact hs
  | cons move moves ih =>
    refine ih fun w hw => ?_
    rcases waiting_step hw with hold | hnew
    · obtain ⟨q, hq⟩ := hs w hold
      obtain ⟨leg, hleg, -⟩ := publish_step hq move
      exact ⟨_, hleg⟩
    · exact hnew

/-! ## The laws of closing -/

/-- The laws of closing, for any moves. -/
structure CloseLaws (K : Carrier) : Prop where
  /-- A publish fails because its handle is closed if that was closed before the publish looked, and
  in no other case. -/
  refused_iff : ∀ (shared : K.Shared) (before after : List K.Move) p h d closed m,
    let s := (initial shared).run before
    s.publishes p = none → s.handles[h]? = some (d, closed) →
    ∃ leg, ((s.step (.check p h m)).run after).publishes p = some ⟨h, d, m, leg⟩ ∧
      ((∃ t, leg = .ended (.error (.closed t))) ↔ ClosedIn (initial shared) before h)
  /-- Then it fails with the topic of its handle, and nothing comes of it, at once or later. -/
  refused : ∀ (shared : K.Shared) (before after : List K.Move) p h d closed m,
    let s := (initial shared).run before
    s.publishes p = none → s.handles[h]? = some (d, closed) → ClosedIn (initial shared) before h →
    let final := (s.step (.check p h m)).run after
    (s.step (.check p h m)).shared = s.shared ∧
      final.publishes p = some ⟨h, d, m, .ended (.error (.closed (K.topic d)))⟩ ∧
      final.step (.depart p) = final ∧ ∀ turn, final.step (.arrive p turn) = final
  /-- If some handles were never closed, and what they refused was never published, all that the
  handles share would be the same, and so would be all publishes on other handles, and those on
  these handles that looked before. -/
  spared : ∀ (shared : K.Shared) (moves : List K.Move) (P : Nat → Bool),
    let s := (initial shared).run moves
    let rest := spare P (initial shared) moves
    rest.Sublist moves ∧ (∀ h, P h = true → .close h ∉ rest) ∧
      (initial shared).run rest = s.spared P ∧ ((initial shared).run rest).shared = s.shared ∧
      ∀ p q, s.publishes p = some q → (P q.handle = true → q.leg.isRefused = false) →
        ((initial shared).run rest).publishes p = some q

theorem isClosed_of_handle {s : K.System} {h : Nat} {d : K.Data} {closed : Bool}
    (hhandle : s.handles[h]? = some (d, closed)) : s.isClosed h = closed := by
  rw [isClosed, hhandle]
  rfl

/-- The laws hold for every transport. -/
theorem closeLaws (K : Carrier) : CloseLaws K := by
  have hclosed (shared : K.Shared) (before : List K.Move) (h : Nat) :
      ((initial shared).run before).isClosed h = true ↔ ClosedIn (initial shared) before h := by
    rw [isClosed_run]
    exact or_iff_right Bool.false_ne_true
  refine ⟨?_, ?_, ?_⟩
  · intro shared before after p h d closed m s hnew hhandle
    rw [← hclosed, isClosed_of_handle hhandle]
    cases closed with
    | true =>
      have hcheck := step_check_closed (m := m) hnew hhandle
      obtain ⟨leg, hleg, hrefused, -⟩ :=
        publish_run (hcheck ▸ set_publishes s p _) after
      exact ⟨leg, hleg, iff_of_true (Leg.isRefused_iff.1 hrefused) rfl⟩
    | false =>
      have hcheck := step_check_open (m := m) hnew hhandle
      obtain ⟨leg, hleg, hrefused, -⟩ :=
        publish_run (hcheck ▸ set_publishes s p _) after
      refine ⟨leg, hleg, iff_of_false (fun h => ?_) Bool.false_ne_true⟩
      cases hrefused.symm.trans (Leg.isRefused_iff.2 h)
  · intro shared before after p h d closed m s hnew hhandle hbefore final
    obtain rfl : closed = true :=
      (isClosed_of_handle hhandle).symm.trans ((hclosed shared before h).2 hbefore)
    have hcheck := step_check_closed (m := m) hnew hhandle
    obtain ⟨leg, hleg, -, hsame⟩ := publish_run (hcheck ▸ set_publishes s p _) after
    obtain rfl := hsame rfl
    refine ⟨by rw [hcheck]; rfl, hleg, step_depart_idle ?_, fun turn => step_arrive_idle ?_ turn⟩
    · simp [final, hleg]
    · simp [final, hleg]
  · intro shared moves P s rest
    have hrun : (initial shared).run rest = s.spared P := by
      rw [← run_spare, spared_initial]
    refine ⟨spare_sublist P _ moves, fun h hP => close_notMem_spare hP _ moves, hrun, ?_, ?_⟩
    · rw [hrun]
      rfl
    · intro p q hq hspared
      rw [hrun, spared_publishes_iff]
      refine ⟨hq, ?_⟩
      cases hP : P q.handle with
      | true => exact hspared hP
      | false => rfl

/-- The laws of closing hold for channels, journals and handles that publish over HTTP, whatever
happens and in whatever order. The turns of a publish without any between them are its publish in the
transport. -/
theorem closing_laws :
    (CloseLaws channel ∧ ∀ (c : Channel) moves p h t closed m, c.waiting = [] →
      let s := (initial (K := channel) c).run moves
      let c' : Channel := s.shared
      s.publishes p = none → s.handles[h]? = some (t, closed) →
      let s' := s.run [.check p h m, .depart p, .arrive p (if c'.receiving then .enter else .refuse)]
      ∃ load, s'.publishes p =
          some ⟨h, t, m, Leg.ofProgress load (c'.publish t closed p m).1⟩ ∧
        s'.shared = (c'.publish t closed p m).2) ∧
    (CloseLaws journal ∧ ∀ (j : Journal) moves p h t closed m,
      let s := (initial (K := journal) j).run moves
      let j' : Journal := s.shared
      s.publishes p = none → s.handles[h]? = some (t, closed) →
      let s' := s.run [.check p h m, .depart p, .arrive p ()]
      ∃ load, s'.publishes p =
          some ⟨h, t, m, Leg.ofProgress load (j'.publish t closed m).1⟩ ∧
        s'.shared = (j'.publish t closed m).2) ∧
    ∀ f, CloseLaws (pubSub f) ∧ ∀ (sent : List HttpRequest) moves p h closed m (d : PubSubHandle)
        (exchange : HttpRequest → Exchange),
      let s := (initial (K := pubSub f) sent).run moves
      s.publishes p = none → s.handles[h]? = some (d, closed) →
      let s' := s.run [.check p h m, .depart p, .arrive p (.answer (exchange (d.request m)))]
      let d' : PubSubHandle := { d with closed := closed }
      s'.publishes p = some ⟨h, d, m, .ended (d'.publish m exchange).2⟩ ∧
        s'.shared = List.append s.shared (d'.publish m exchange).1.toList ∧
        d'.close.2 = { d with closed := true } := by
  refine ⟨⟨closeLaws channel, ?_⟩, ⟨closeLaws journal, ?_⟩, fun f => ⟨closeLaws (pubSub f), ?_⟩⟩
  · intro c moves p h t closed m hc s c' hnew hhandle s'
    have hfresh : ∀ w ∈ c'.waiting, w.1 ≠ p := by
      rintro w hw rfl
      have hnone : ∀ w ∈ Channel.waiting (initial (K := channel) c).shared,
          ∃ q, (initial (K := channel) c).publishes w.1 = some q := by
        show ∀ w ∈ c.waiting, _
        rw [hc]
        exact nofun
      obtain ⟨q, hq⟩ := waiting_run hnone moves w hw
      cases hnew.symm.trans hq
    exact ⟨_, run_publish hnew hhandle (channel_publish hfresh t closed m)⟩
  · intro j moves p h t closed m s j' hnew hhandle s'
    exact ⟨_, run_publish hnew hhandle (journal_publish j' p t closed m)⟩
  · intro sent moves p h closed m d exchange s hnew hhandle s' d'
    obtain ⟨hpublish, hshared⟩ :=
      run_publish hnew hhandle (pubSub_publish f s.shared p d closed m exchange)
    refine ⟨hpublish, hshared, ?_⟩
    cases closed <;> rfl

/-- The topic of two handles of a journal. -/
def refundsTopic : TopicId :=
  .bare "refunds" (by decide)

/-- The first handle is closed after a publish on it has looked, and before that departs. -/
def closedMeanwhile : List journal.Move :=
  [.openHandle refundsTopic, .openHandle refundsTopic, .check 0 0 {}, .close 0]

/-- That publish goes on, and another one is made on the second handle. -/
def laterMoves : List journal.Move :=
  [.depart 0, .arrive 0 (), .check 2 1 {}, .depart 2, .arrive 2 ()]

/-- The publish that has looked before is taken, the next one on the handle is refused, and one on
the other handle gets the next id. If the handle had never been closed, the journal and the publishes
that were taken would be the same. -/
theorem closing_laws_closedMeanwhile :
    let moves := closedMeanwhile ++ .check 1 0 {} :: laterMoves
    let final := (initial (K := journal) {}).run moves
    let rest := spare (· == 0) (initial (K := journal) {}) moves
    final.publishes 0 = some ⟨0, refundsTopic, {}, .ended (.ok ⟨"log-1", refundsTopic⟩)⟩ ∧
      final.publishes 1 = some ⟨0, refundsTopic, {}, .ended (.error (.closed refundsTopic))⟩ ∧
      final.publishes 2 = some ⟨1, refundsTopic, {}, .ended (.ok ⟨"log-2", refundsTopic⟩)⟩ ∧
      .close 0 ∉ rest ∧ ((initial (K := journal) {}).run rest).shared = final.shared ∧
      ∀ p ∈ [0, 2], ((initial (K := journal) {}).run rest).publishes p = final.publishes p := by
  intro moves final rest
  obtain ⟨-, ⟨hlaws, -⟩, -⟩ := closing_laws
  have hfirst : final.publishes 0 =
      some ⟨0, refundsTopic, {}, .ended (.ok ⟨"log-1", refundsTopic⟩)⟩ := rfl
  have hsecond : final.publishes 2 =
      some ⟨1, refundsTopic, {}, .ended (.ok ⟨"log-2", refundsTopic⟩)⟩ := rfl
  have hclosed : ClosedIn (initial (K := journal) {}) closedMeanwhile 0 :=
    ⟨closedMeanwhile.dropLast, [], rfl, by decide⟩
  obtain ⟨-, hrefused, -⟩ :=
    hlaws.refused {} closedMeanwhile laterMoves 1 0 refundsTopic true {} rfl rfl hclosed
  obtain ⟨-, hunclosed, -, hshared, hkept⟩ := hlaws.spared {} moves (· == 0)
  refine ⟨hfirst, hrefused, hsecond, hunclosed 0 rfl, hshared, ?_⟩
  simp only [List.forall_mem_cons]
  exact ⟨(hkept 0 _ hfirst fun _ => rfl).trans hfirst.symm,
    (hkept 2 _ hsecond fun _ => rfl).trans hsecond.symm, nofun⟩

end System

end EventIngress.Carrier
