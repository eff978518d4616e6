import EventIngress.Proofs.Cache.Freshness
import Mathlib.Data.List.Infix

/-!
# Many calls for one broker come to one handle

Any number of callers may find that a broker has no handle for its topic, each before the others
have put one into the cache. The second look under the exclusive lock makes them agree: as long as
the route of the broker leads to one topic, at most one handle is opened for it, and it stays.

Results:

* `CacheSystem.RoutedRun`: a run in which the route of a broker always leads to one topic.
* `CacheSystem.Steady`, `CacheSystem.RoutedRun.steady`: what holds all along such a run.
* `CacheSystem.calls_converge`: one opening, one handle, and one close of the handle before it.
-/

namespace EventIngress

variable {η σ : Type}

/-- The handle and the topic that a call for the broker has opened. -/
def CacheEvent.openedFor? (b : BrokerIdentity) : CacheEvent η → Option (η × TopicId)
  | opened (some caller) h t => if caller = b then some (h, t) else none
  | _ => none

theorem CacheEvent.openedFor?_opened (b caller : BrokerIdentity) (h : η) (t : TopicId) :
    (CacheEvent.opened (some caller) h t).openedFor? b =
      if caller = b then some (h, t) else none :=
  rfl

theorem CacheEvent.openedFor?_asked (b b' : BrokerIdentity) (a : Option BrokerRoute) :
    (CacheEvent.asked b' a : CacheEvent η).openedFor? b = none :=
  rfl

theorem Call.broker?_of_handle? {c : Call η} {b : BrokerIdentity} {h : η}
    (hc : c.handle? = some (b, h)) : c.broker? = some b := by
  rcases c with _ | _ | _ | _ | _ | _ | _ | _ | (_ | _ | _ | _) <;> cases hc <;> rfl

/-! ## Steps -/

section Steps

variable {k : Collaborators η σ} {es es' : SortedMap BrokerIdentity (CacheEntry η)} {w : σ}
  {c c' : Call η} {added : List (CacheEvent η)}

/-- A call stays with its broker. -/
theorem Act.broker?_eq (hact : Act k es w c c' es' added) : c'.broker? = c.broker? := by
  cases hact with
  | stopped hstop hwhy hasks =>
    cases c with
    | ended e => cases hstop
    | _ => rfl
  | @returned b p h => rcases p with _ | (_ | _) <;> rfl
  | _ => rfl

/-- Only a call that has not ended goes on. -/
theorem Act.inFlight (hact : Act k es w c c' es' added) : c.inFlight = true := by
  cases hact with
  | stopped hstop hwhy hasks =>
    cases c with
    | ended e => cases hstop
    | _ => rfl
  | _ => rfl

/-- A call keeps the handle that it has got. -/
theorem Act.handle?_eq (hact : Act k es w c c' es' added) {x : BrokerIdentity × η}
    (hx : c.handle? = some x) : c'.handle? = some x := by
  cases hact with
  | stopped hstop hwhy hasks =>
    cases c with
    | returning | publishing | ended => cases hstop
    | _ => cases hx
  | @returned b p h => rcases p with _ | (_ | _) <;> exact hx
  | closedDisplaced => exact hx
  | concluded => exact hx
  | _ => cases hx

theorem Act.ne_emptying (hact : Act k es w c c' es' added) : c' ≠ .emptying := by
  rintro rfl
  generalize hd : Call.emptying = d at hact
  cases hact with
  | @returned b p h => rcases p with _ | (_ | _) <;> cases hd
  | _ => cases hd

/-- What a step does to the entry of a broker that has a route: nothing, unless it is the opening of
a handle for it, for a topic that the entry did not have. -/
theorem Act.entry_or_opened (hact : Act k es w c c' es' added) (hc : c ≠ .emptying)
    {b : BrokerIdentity} (hasked : .asked b none ∉ added) :
    (es'.find? b = es.find? b ∧ added.filterMap (CacheEvent.openedFor? b) = []) ∨
      ∃ a t h, .asked b a ∈ added ∧ topicOf b a = .ok t ∧ (∀ h', es.find? b ≠ some ⟨h', t⟩) ∧
        es'.find? b = some ⟨h, t⟩ ∧ added.filterMap (CacheEvent.openedFor? b) = [(h, t)] := by
  cases hact with
  | stopped hstop hwhy hasks =>
    exact .inl ⟨rfl, filterMap_asks (CacheEvent.openedFor?_asked b) hasks⟩
  | @opened b' p a t h rest hroute htopic hmiss hrest =>
    by_cases hb : b' = b
    · subst hb
      refine .inr ⟨a, t, h, List.mem_cons_self, htopic, hmiss, ?_, ?_⟩
      · rw [SortedMap.find?_insert, if_pos rfl]
      · rw [List.filterMap_cons_none (CacheEvent.openedFor?_asked _ _ _), List.filterMap_cons,
          CacheEvent.openedFor?_opened, if_pos rfl]
        rfl
    · refine .inl ⟨?_, ?_⟩
      · rw [SortedMap.find?_insert, if_neg (Ne.symm hb)]
      · rw [List.filterMap_cons_none (CacheEvent.openedFor?_asked _ _ _), List.filterMap_cons,
          CacheEvent.openedFor?_opened, if_neg hb]
        rfl
  | @pruned absent rest n asks hasks habsent hrest =>
    refine .inl ⟨SortedMap.find?_filter_of_keep fun e => ?_,
      filterMap_asks (CacheEvent.openedFor?_asked b) hasks⟩
    rw [Bool.not_eq_true']
    by_contra hb
    exact hasked (habsent b (by simpa using hb))
  | emptied hrest => exact absurd rfl hc
  | _ => exact .inl ⟨rfl, rfl⟩

end Steps

namespace CacheSystem

/-! ## Runs in which a route stays -/

/-- What was recorded between two instants. -/
def newEvents (k : Collaborators η σ) (w : σ) (moves : Schedule η σ) (start i : Nat) :
    List (CacheEvent η) :=
  (stateAt k w moves i).record.drop (stateAt k w moves start).record.length

/-- A run from one instant to another: at its start no call for the broker is in flight and no
shutdown is about to happen, none begins later, and whenever the routing table is asked for the
broker, its answer leads to the topic. -/
structure RoutedRun (k : Collaborators η σ) (w : σ) (moves : Schedule η σ) (start last : Nat)
    (b : BrokerIdentity) (t : TopicId) : Prop where
  le : start ≤ last
  idle : ∀ c ∈ (stateAt k w moves start).calls, c.inFlight = true →
    c.broker? ≠ some b ∧ c ≠ .emptying
  kept : ∀ i, start ≤ i → i < last → moves i ≠ .begin .closeAll
  routed : ∀ a, .asked b a ∈ newEvents k w moves start last → topicOf b a = .ok t

/-- A call got a handle of the broker after the start of a run. -/
def GotSince (k : Collaborators η σ) (w : σ) (moves : Schedule η σ) (start i n : Nat)
    (b : BrokerIdentity) (h : η) : Prop :=
  (stateAt k w moves i).Gives n b h ∧ ¬ (stateAt k w moves start).Gives n b h

/-- What holds at every instant of such a run: the entry of the broker is as it was at the start, or
one handle was opened for the broker and is its entry; and the calls that began in the run know the
topic only, and have the handle of the entry. -/
structure Steady (k : Collaborators η σ) (w : σ) (moves : Schedule η σ) (start : Nat)
    (b : BrokerIdentity) (t : TopicId) (i : Nat) : Prop where
  entry :
    ((newEvents k w moves start i).filterMap (CacheEvent.openedFor? b) = [] ∧
        (stateAt k w moves i).entries.find? b = (stateAt k w moves start).entries.find? b) ∨
      ∃ h, (newEvents k w moves start i).filterMap (CacheEvent.openedFor? b) = [(h, t)] ∧
        (stateAt k w moves i).entries.find? b = some ⟨h, t⟩ ∧
        ∀ h', (stateAt k w moves start).entries.find? b ≠ some ⟨h', t⟩
  topics : ∀ n p t', (stateAt k w moves start).calls.length ≤ n →
    (stateAt k w moves i).calls[n]? = some (.peeking b p t') → t' = t
  handles : ∀ n h, (stateAt k w moves start).calls.length ≤ n → (stateAt k w moves i).Gives n b h →
    (stateAt k w moves i).entries.find? b = some ⟨h, t⟩
  shutdowns : ∀ n : Nat, (stateAt k w moves i).calls[n]? ≠ some Call.emptying

variable {k : Collaborators η σ} {w : σ} {moves : Schedule η σ} {start last i n : Nat}
  {b : BrokerIdentity} {t : TopicId} {h : η}

theorem newEvents_self : newEvents k w moves start start = [] :=
  List.drop_length

theorem newEvents_succ (hle : start ≤ i) {added : List (CacheEvent η)}
    (hrecord : (stateAt k w moves (i + 1)).record = (stateAt k w moves i).record ++ added) :
    newEvents k w moves start (i + 1) = newEvents k w moves start i ++ added := by
  rw [newEvents, hrecord, List.drop_append_of_le_length (record_mono k w moves hle).length_le]
  rfl

theorem newEvents_subset (hle : i ≤ last) :
    newEvents k w moves start i ⊆ newEvents k w moves start last :=
  ((record_mono k w moves hle).drop _).subset

/-- What one move does to the entry of a broker that has a route. -/
theorem entry_step {s : CacheSystem η σ} {m : Move η σ}
    (hs : ∀ n : Nat, s.calls[n]? ≠ some Call.emptying) :
    ∃ added, (s.step k m).record = s.record ++ added ∧ (.asked b none ∉ added →
      ((s.step k m).entries.find? b = s.entries.find? b ∧
          added.filterMap (CacheEvent.openedFor? b) = []) ∨
        ∃ a t h, .asked b a ∈ added ∧ topicOf b a = .ok t ∧
          (∀ h', s.entries.find? b ≠ some ⟨h', t⟩) ∧
          (s.step k m).entries.find? b = some ⟨h, t⟩ ∧
          added.filterMap (CacheEvent.openedFor? b) = [(h, t)]) := by
  rcases cache_step k s m with ⟨hentries, hrecord⟩ | ⟨n, c, c', added, hc, hact, hrecord⟩
  · exact ⟨[], hrecord.trans (List.append_nil _).symm, fun _ => .inl ⟨by rw [hentries], rfl⟩⟩
  · refine ⟨added, hrecord, fun hasked => hact.entry_or_opened ?_ hasked⟩
    rintro rfl
    exact hs n hc

/-- A call that was there at an earlier instant is for the same broker, and has not changed if it
had ended. -/
theorem call_since (hle : start ≤ i) {c : Call η} (hn : n < (stateAt k w moves start).calls.length)
    (hc : (stateAt k w moves i).calls[n]? = some c) :
    ∃ c₀, (stateAt k w moves start).calls[n]? = some c₀ ∧ c.broker? = c₀.broker? ∧
      (c₀.inFlight = false → c = c₀) := by
  induction hle generalizing c with
  | refl => exact ⟨c, hc, rfl, fun _ => rfl⟩
  | @step i hle ih =>
    rcases call_step hc with hsame | ⟨task, -, hlen, -⟩ | ⟨d, added, hd, hact, -, -⟩
    · exact ih hsame
    · have := calls_length_mono k w moves hle
      omega
    · obtain ⟨c₀, hc₀, hbroker, hended⟩ := ih hd
      refine ⟨c₀, hc₀, hact.broker?_eq.trans hbroker, fun hflight => ?_⟩
      rw [← hended hflight, hact.inFlight] at hflight
      cases hflight

/-- A call keeps the handle that it has got. -/
theorem Gives.mono {j : Nat} (hgives : (stateAt k w moves i).Gives n b h) (hle : i ≤ j) :
    (stateAt k w moves j).Gives n b h := by
  induction hle with
  | refl => exact hgives
  | @step j hle ih =>
    obtain ⟨c, hc, hh⟩ := ih
    rcases call_next (m := moves j) hc with hsame | ⟨c', added, hc', hact⟩
    · exact ⟨c, hsame, hh⟩
    · exact ⟨c', hc', hact.handle?_eq hh⟩

/-- A call that gets a handle of the broker in such a run has begun in it. -/
theorem RoutedRun.le_of_gotSince (hrun : RoutedRun k w moves start last b t) (hle : start ≤ i)
    (hgot : GotSince k w moves start i n b h) : (stateAt k w moves start).calls.length ≤ n := by
  by_contra hn
  obtain ⟨⟨c, hc, hh⟩, hnot⟩ := hgot
  obtain ⟨c₀, hc₀, hbroker, hended⟩ := call_since hle (Nat.lt_of_not_le hn) hc
  have hflight : c₀.inFlight = false := by
    rw [← Bool.not_eq_true]
    intro hflight
    refine (hrun.idle c₀ (List.mem_of_getElem? hc₀) hflight).1 ?_
    rw [← hbroker]
    exact Call.broker?_of_handle? hh
  obtain rfl := hended hflight
  exact hnot ⟨c, hc₀, hh⟩

theorem steady_start (hrun : RoutedRun k w moves start last b t) :
    Steady k w moves start b t start where
  entry := .inl ⟨by rw [newEvents_self]; rfl, rfl⟩
  topics n p t' hn hc := by
    have := (List.getElem?_eq_some_iff.1 hc).1
    omega
  handles n h hn hgives := by
    obtain ⟨c, hc, -⟩ := hgives
    have := (List.getElem?_eq_some_iff.1 hc).1
    omega
  shutdowns n hc := (hrun.idle _ (List.mem_of_getElem? hc) rfl).2 rfl

theorem steady_succ (hrun : RoutedRun k w moves start last b t) (hle : start ≤ i) (hlt : i < last)
    (hi : Steady k w moves start b t i) : Steady k w moves start b t (i + 1) := by
  obtain ⟨added, hrecord, hentry⟩ := entry_step (k := k) (b := b) (m := moves i) hi.shutdowns
  have hnew := newEvents_succ hle hrecord
  -- every answer that this move is given leads to the topic
  have hrouted : ∀ a, .asked b a ∈ added → topicOf b a = .ok t := fun a ha =>
    hrun.routed a (newEvents_subset hlt (hnew ▸ List.mem_append_right _ ha))
  have hentry := hentry fun hnone => by cases hrouted none hnone
  -- an entry for the topic is not displaced
  have hstays : ∀ h, (stateAt k w moves i).entries.find? b = some ⟨h, t⟩ →
      (stateAt k w moves (i + 1)).entries.find? b = some ⟨h, t⟩ := by
    intro h hfind
    rcases hentry with ⟨hsame, -⟩ | ⟨a, t', h', ha, htopic, hmiss, -⟩
    · exact hsame.trans hfind
    · rw [hrouted a ha] at htopic
      cases htopic
      exact absurd hfind (hmiss h)
  refine ⟨?_, ?_, ?_, ?_⟩
  · rw [hnew, List.filterMap_append]
    rcases hentry with ⟨hsame, hnone⟩ | ⟨a, t', h', ha, htopic, hmiss, hfind, hone⟩
    · rw [hnone, List.append_nil]
      rcases hi.entry with ⟨hnil, hstart⟩ | ⟨h, hone, hfind, hstart⟩
      · exact .inl ⟨hnil, hsame.trans hstart⟩
      · exact .inr ⟨h, hone, hsame.trans hfind, hstart⟩
    · rw [hrouted a ha] at htopic
      cases htopic
      rcases hi.entry with ⟨hnil, hstart⟩ | ⟨h, -, hold, -⟩
      · rw [hnil, hone]
        exact .inr ⟨h', rfl, hfind, fun h hh => hmiss h (hstart.trans hh)⟩
      · exact absurd hold (hmiss h)
  · intro n p t' hn hc
    rcases call_step hc with hsame | ⟨task, -, -, htask⟩ | ⟨d, added', hd, hact, hrecord', -⟩
    · exact hi.topics n p t' hn hsame
    · cases task <;> cases htask
    · obtain rfl := List.append_cancel_left (hrecord.symm.trans hrecord')
      obtain ⟨-, a, -, htopic, ha⟩ := hact.peeking rfl
      rw [hrouted a ha] at htopic
      cases htopic
      rfl
  · rintro n h hn ⟨c, hc, hh⟩
    rcases call_step hc with hsame | ⟨task, -, -, rfl⟩ | ⟨d, added', hd, hact, hrecord', -⟩
    · exact hstays h (hi.handles n h hn ⟨c, hsame, hh⟩)
    · cases task <;> cases hh
    · obtain rfl := List.append_cancel_left (hrecord.symm.trans hrecord')
      rcases hact.handle hh with hhas | ⟨p, t', rfl, hfind⟩ | ⟨-, -, a, t', -, htopic, ha, hfind⟩
      · exact hstays h (hi.handles n h hn ⟨d, hd, hhas⟩)
      · obtain rfl := hi.topics n p t' hn hd
        exact hstays h hfind
      · rw [hrouted a ha] at htopic
        cases htopic
        exact hfind
  · intro n hc
    rcases call_step hc with hsame | ⟨task, hmove, -, htask⟩ | ⟨d, added', hd, hact, -, -⟩
    · exact hi.shutdowns n hsame
    · cases task with
      | closeAll => exact hrun.kept i hle hlt hmove
      | get | prune => cases htask
    · exact hact.ne_emptying rfl

theorem RoutedRun.steady (hrun : RoutedRun k w moves start last b t) (hle : start ≤ i)
    (hi : i ≤ last) : Steady k w moves start b t i := by
  induction hle with
  | refl => exact steady_start hrun
  | @step i hle ih => exact steady_succ hrun hle hi (ih (Nat.le_of_succ_le hi))

/-- The handle that a broker had before another one was opened for it is closed once all calls have
ended. -/
theorem Reachable.closed_of_displaced [DecidableEq η] {s : CacheSystem η σ} (hs : Reachable k s)
    (hfresh : s.opened.Nodup) {t₀ : TopicId} {h₀ : η} (hopened : .opened (some b) h₀ t₀ ∈ s.record)
    (hother : ∀ t, s.entries.find? b ≠ some ⟨h₀, t⟩)
    (hended : ∀ c ∈ s.calls, c.inFlight = false) : s.closed.count h₀ = 1 := by
  have hcount := List.nodup_iff_count.1 hfresh h₀
  have hmem := List.count_pos_iff.2 (mem_opened hopened)
  have hbalanced := hs.balanced h₀
  have hheld : (handlesOf s.entries).count h₀ = 0 := by
    rw [List.count_eq_zero]
    intro hin
    obtain ⟨b', t', hfind⟩ := mem_handlesOf.1 hin
    obtain ⟨hb, -⟩ := opened_unique hfresh (hs.opened_of_find? hfind) hopened
    cases hb
    exact hother t' hfind
  have hpending : s.pending.count h₀ = 0 := by
    rw [List.count_eq_zero]
    intro hin
    obtain ⟨c, hc, hclose⟩ := List.mem_flatMap.1 hin
    have hflight := Call.inFlight_of_mem_toClose hclose
    rw [hended c hc] at hflight
    cases hflight
  omega

/-- In a run in which the route of a broker always leads to one topic, however many calls there are
and whatever else they are for: at most one handle is opened for the broker; all calls get the same
handle, opened for the topic, which is the entry of the broker and open from then on; if the broker
had a handle for the topic at the start, it is that one and none is opened; and a handle for another
topic that the broker had at the start is closed at most once, and once if some call got a handle
and all calls have ended. -/
theorem calls_converge [DecidableEq η] (k : Collaborators η σ) (w : σ) (moves : Schedule η σ)
    {start last : Nat} (b : BrokerIdentity) (t : TopicId)
    (hfresh : (stateAt k w moves last).opened.Nodup)
    (hrun : RoutedRun k w moves start last b t) :
    ((newEvents k w moves start last).filterMap (CacheEvent.openedFor? b)).length ≤ 1 ∧
      (∀ i n h, start ≤ i → i ≤ last → GotSince k w moves start i n b h →
        .opened (some b) h t ∈ (stateAt k w moves i).record ∧
          (∀ j, i ≤ j → j ≤ last → (stateAt k w moves j).entries.find? b = some ⟨h, t⟩ ∧
            h ∉ (stateAt k w moves j).closed) ∧
          ∀ i' n' h', start ≤ i' → i' ≤ last → GotSince k w moves start i' n' b h' → h' = h) ∧
      (∀ h₀, (stateAt k w moves start).entries.find? b = some ⟨h₀, t⟩ →
        (newEvents k w moves start last).filterMap (CacheEvent.openedFor? b) = [] ∧
          ∀ i n h, start ≤ i → i ≤ last → GotSince k w moves start i n b h → h = h₀) ∧
      ∀ h₀ t₀, (stateAt k w moves start).entries.find? b = some ⟨h₀, t₀⟩ → t₀ ≠ t →
        (stateAt k w moves last).closed.count h₀ ≤ 1 ∧
          ((∀ c ∈ (stateAt k w moves last).calls, c.inFlight = false) →
            (∃ n h, GotSince k w moves start last n b h) →
              (stateAt k w moves last).closed.count h₀ = 1) := by
  have hreach := reachable_stateAt k w moves
  have hsteady := hrun.steady hrun.le (Nat.le_refl last)
  -- whoever has got a handle has the one that is the entry from then on
  have hentry : ∀ i n h, start ≤ i → GotSince k w moves start i n b h → ∀ j, i ≤ j → j ≤ last →
      (stateAt k w moves j).entries.find? b = some ⟨h, t⟩ := by
    intro i n h hi hgot j hij hj
    have hj' := hrun.steady (Nat.le_trans hi hij) hj
    exact hj'.handles n h (hrun.le_of_gotSince hi hgot) (hgot.1.mono hij)
  refine ⟨?_, ?_, ?_, ?_⟩
  · rcases hsteady.entry with ⟨hnil, -⟩ | ⟨h, hone, -⟩
    · rw [hnil]
      exact Nat.zero_le 1
    · rw [hone]
      exact Nat.le_refl 1
  · intro i n h hi hil hgot
    refine ⟨?_, ?_, ?_⟩
    · exact (hreach i).opened_of_find? (hentry i n h hi hgot i (Nat.le_refl i) hil)
    · intro j hij hj
      have hfind := hentry i n h hi hgot j hij hj
      exact ⟨hfind, (hreach j).not_mem_closed
        (hfresh.sublist (opened_mono k w moves hj).sublist) ⟨t, hfind⟩⟩
    · intro i' n' h' hi' hil' hgot'
      have hfind := hentry i n h hi hgot last hil (Nat.le_refl last)
      rw [hentry i' n' h' hi' hgot' last hil' (Nat.le_refl last)] at hfind
      cases hfind
      rfl
  · intro h₀ hstart
    rcases hsteady.entry with ⟨hnil, hsame⟩ | ⟨h, -, -, hnot⟩
    · refine ⟨hnil, fun i n h hi hil hgot => ?_⟩
      have hfind := hentry i n h hi hgot last hil (Nat.le_refl last)
      rw [hsame, hstart] at hfind
      cases hfind
      rfl
    · exact absurd hstart (hnot h₀)
  · intro h₀ t₀ hstart hne
    have hopened := (record_mono k w moves hrun.le).subset ((hreach start).opened_of_find? hstart)
    refine ⟨?_, ?_⟩
    · have hcount := List.nodup_iff_count.1 hfresh h₀
      have hbalanced := (hreach last).balanced h₀
      omega
    · rintro hended ⟨n, h, hgot⟩
      refine (hreach last).closed_of_displaced hfresh hopened ?_ hended
      intro t' hlast
      have hfind := hentry last n h hrun.le hgot last (Nat.le_refl last) (Nat.le_refl last)
      rw [hfind] at hlast
      cases hlast
      have hopened' := (hreach last).opened_of_find? hfind
      exact hne (opened_unique hfresh hopened hopened').2

/-- Two calls find that a broker is to change its topic, both before either has taken the lock. -/
def racedRotation : Schedule Nat World :=
  .ofList
    [.begin (.get ⟨"team", "orders"⟩ .handle), .turn 0, .turn 0, .turn 0, .turn 0,
      .begin (.get ⟨"team", "orders"⟩ .handle), .begin (.get ⟨"team", "orders"⟩ .handle),
      .turn 1, .turn 2, .turn 2, .turn 1, .turn 1, .turn 2, .turn 2, .turn 1, .turn 1]

/-- The routes that they are given: the first topic to the call before them, the second one to
both. -/
def racedRoutes : World :=
  let first : Option BrokerRoute := some ⟨.ready, "first"⟩
  let second : Option BrokerRoute := some ⟨.ready, "second"⟩
  { script := [first, first, second, second, second, second] }

/-- The topic that the rotation leads to. -/
def secondTopic : TopicId :=
  .bare "second" (by decide)

theorem calls_converge_racedRotation :
    let x := stateAt World.collaborators racedRoutes racedRotation
    ((x 16).opened.Nodup ∧
        RoutedRun World.collaborators racedRoutes racedRotation 5 16 ⟨"team", "orders"⟩
          secondTopic) ∧
      (x 5).entries.find? ⟨"team", "orders"⟩ = some ⟨0, firstTopic⟩ ∧
      (newEvents World.collaborators racedRoutes racedRotation 5 16).filterMap
        (CacheEvent.openedFor? ⟨"team", "orders"⟩) = [(1, secondTopic)] ∧
      (x 16).closed.count 0 = 1 := by
  intro x
  have hfresh : (x 16).opened.Nodup := by decide +kernel
  have hrun : RoutedRun World.collaborators racedRoutes racedRotation 5 16 ⟨"team", "orders"⟩
      secondTopic := by
    refine ⟨by decide, ?_, ?_, ?_⟩
    · have hcalls : (x 5).calls = [.ended (.got ⟨"team", "orders"⟩ 0)] := rfl
      intro c hc hflight
      obtain rfl := List.mem_singleton.1 (hcalls ▸ hc)
      cases hflight
    · intro i hi hlt
      interval_cases i <;> rintro ⟨⟩
    · have hnew : ∀ e ∈ newEvents World.collaborators racedRoutes racedRotation 5 16,
          e = .asked ⟨"team", "orders"⟩ (some ⟨.ready, "second"⟩) ∨
            e = .opened (some ⟨"team", "orders"⟩) 1 secondTopic ∨ e = .closed 0 := by
        decide +kernel
      intro a ha
      rcases hnew _ ha with hasked | hopened | hclosed
      · cases hasked
        rfl
      · cases hopened
      · cases hclosed
  have hfirst : (x 5).entries.find? ⟨"team", "orders"⟩ = some ⟨0, firstTopic⟩ := rfl
  have hconverge := calls_converge World.collaborators racedRoutes racedRotation _ _ hfresh hrun
  refine ⟨⟨hfresh, hrun⟩, hfirst, by decide +kernel, ?_⟩
  refine (hconverge.2.2.2 0 firstTopic hfirst (by decide)).2 ?_ ?_
  · have hcalls : (x 16).calls = [.ended (.got ⟨"team", "orders"⟩ 0),
        .ended (.got ⟨"team", "orders"⟩ 1), .ended (.got ⟨"team", "orders"⟩ 1)] := rfl
    rw [hcalls]
    simp [Call.inFlight]
  · refine ⟨1, 1, ⟨_, rfl, rfl⟩, ?_⟩
    rintro ⟨c, hc, -⟩
    cases hc

end CacheSystem

end EventIngress
