import EventIngress.Proofs.Cache.Calls

/-!
# Many calls to a cache at once

A cache with all calls that were ever made to it. One move is the begin of a call, a turn of a call,
the end of a publish, or a change of what is outside the cache; a schedule lays down one move for
each instant, in any order.

Results:

* `CacheSystem.step`, `CacheSystem.stateAt`: a move, and the system at an instant of a schedule.
* `Act`: all that a call can do when it goes on, with the guards under which it does so.
* `CacheSystem.Turn`, `CacheSystem.turn_step`: all that a move can do to the cache, to the record
  and to the calls.
-/

namespace EventIngress

/-! ## Systems of calls -/

/-- A cache, the state of what is outside it, the record, and all calls that were ever begun, by
their numbers. -/
structure CacheSystem (η σ : Type) where
  cache : TopicCache η := {}
  world : σ
  record : List (CacheEvent η) := []
  calls : List (Call η) := []

/-- What can happen next. -/
inductive Move (η σ : Type) where
  /-- Something changes outside the cache. -/
  | change (w : σ)
  /-- A call begins. -/
  | begin (task : Task)
  /-- A call takes its turn. -/
  | turn (i : Nat)
  /-- The transport answers the publish of a call. -/
  | answer (i : Nat) (result : Except PublishFault Ack) (w : σ)
  /-- A publish has taken too long and is given up. -/
  | giveUp (i : Nat) (timeout : Span) (w : σ)

/-- The publish that a move ends, by the number of its call, and the result of the send. -/
def Move.conclusion? {η σ : Type} : Move η σ → Option (Nat × Except Failure Ack)
  | answer i result _ => some (i, Sink.outcome result)
  | giveUp i timeout _ => some (i, .error (.cancelled timeout))
  | _ => none

theorem Move.eq_answer_of_conclusion? {η σ : Type} {m : Move η σ} {i : Nat} {fault : PublishFault}
    (h : m.conclusion? = some (i, .error (.publish fault))) :
    ∃ w, m = .answer i (.error fault) w := by
  cases m with
  | answer j result w =>
    cases result with
    | error fault' =>
      cases h
      exact ⟨w, rfl⟩
    | ok ack => cases h
  | giveUp j timeout w => cases h
  | _ => cases h

namespace CacheSystem

variable {η σ : Type}

/-- A system with an empty cache that nobody has called. -/
def initial (w : σ) : CacheSystem η σ := { world := w }

/-- A call takes its turn; a turn that fails ends it. -/
def turn (k : Collaborators η σ) (s : CacheSystem η σ) (i : Nat) (c : Call η) : CacheSystem η σ :=
  match c.advance (k.recorded c.broker?) (s.cache, (s.world, s.record)) with
  | (.ok c', (cache, (w, record))) => ⟨cache, w, record, s.calls.set i c'⟩
  | (.error e, (cache, (w, record))) =>
    ⟨cache, w, record, s.calls.set i (.ended (.stopped c.broker? e))⟩

/-- The publish of a call ends. A call that does not publish is left alone. -/
def conclude (s : CacheSystem η σ) (i : Nat) (result : Except Failure Ack) (w : σ) :
    CacheSystem η σ :=
  match s.calls[i]? with
  | some (.publishing b h _) =>
    { s with world := w, calls := s.calls.set i (.ended (.sent b h result)) }
  | _ => s

/-- One move. A move of a call that is not there does nothing. -/
def step (k : Collaborators η σ) (s : CacheSystem η σ) : Move η σ → CacheSystem η σ
  | .change w => { s with world := w }
  | .begin task => { s with calls := s.calls ++ [task.call] }
  | .turn i =>
    match s.calls[i]? with
    | none => s
    | some c => s.turn k i c
  | .answer i result w => s.conclude i (Sink.outcome result) w
  | .giveUp i timeout w => s.conclude i (.error (.cancelled timeout)) w

/-- What each instant brings. -/
abbrev Schedule (η σ : Type) := Nat → Move η σ

/-- The schedule of some moves; nothing happens after them. -/
def Schedule.ofList {η σ : Type} (moves : List (Move η σ)) : Schedule η σ :=
  fun i => moves.getD i (.turn moves.length)

/-- The system at an instant, from an empty cache on. -/
def stateAt (k : Collaborators η σ) (w : σ) (moves : Schedule η σ) : Nat → CacheSystem η σ
  | 0 => initial w
  | i + 1 => (stateAt k w moves i).step k (moves i)

/-- What some moves lead to from an empty cache. -/
def Reachable (k : Collaborators η σ) (s : CacheSystem η σ) : Prop :=
  ∃ w moves i, s = stateAt k w moves i

/-- What every move keeps holds at every instant. -/
theorem Reachable.invariant {k : Collaborators η σ} {P : CacheSystem η σ → Prop}
    (hinit : ∀ w, P (initial w)) (hstep : ∀ s m, P s → P (s.step k m)) {s : CacheSystem η σ}
    (hs : Reachable k s) : P s := by
  obtain ⟨w, moves, i, rfl⟩ := hs
  induction i with
  | zero => exact hinit w
  | succ i ih => exact hstep _ _ ih

theorem reachable_stateAt (k : Collaborators η σ) (w : σ) (moves : Schedule η σ) (i : Nat) :
    Reachable k (stateAt k w moves i) :=
  ⟨w, moves, i, rfl⟩

/-- What the cache holds. -/
def entries (s : CacheSystem η σ) : SortedMap BrokerIdentity (CacheEntry η) :=
  s.cache.entries

end CacheSystem

/-! ## All that a move can do -/

/-- What a call does when it goes on: `Act k es w c c' es' added` says that `c` becomes `c'`, that
the entries `es` of the cache become `es'` and that the events `added` are recorded, where `w` is
what is outside the cache. -/
inductive Act {η σ : Type} (k : Collaborators η σ)
    (es : SortedMap BrokerIdentity (CacheEntry η)) (w : σ) :
    Call η → Call η → SortedMap BrokerIdentity (CacheEntry η) → List (CacheEvent η) → Prop where
  /-- A call ends without a result. It may have asked for routes. No publish has failed. -/
  | stopped {c : Call η} {why : Stop} {asks : List (CacheEvent η)} (hstop : c.mayStop = true)
      (hwhy : ∀ fault, why ≠ .failure (.publish fault))
      (hasks : ∀ e ∈ asks, ∃ b a, e = .asked b a) :
      Act k es w c (.ended (.stopped c.broker? why)) es asks
  | resolved {b : BrokerIdentity} {p : Purpose} {a : Option BrokerRoute} {t : TopicId}
      (hroute : (k.route b w).1 = .answer a) (htopic : topicOf b a = .ok t) :
      Act k es w (.resolving b p) (.peeking b p t) es [.asked b a]
  | found {b : BrokerIdentity} {p : Purpose} {t : TopicId} {h : η}
      (hhit : es.find? b = some ⟨h, t⟩) : Act k es w (.peeking b p t) (.returning b p h []) es []
  | missed {b : BrokerIdentity} {p : Purpose} {t : TopicId} :
      Act k es w (.peeking b p t) (.installing b p) es []
  | foundLate {b : BrokerIdentity} {p : Purpose} {a : Option BrokerRoute} {t : TopicId} {h : η}
      (hroute : (k.route b w).1 = .answer a) (htopic : topicOf b a = .ok t)
      (hhit : es.find? b = some ⟨h, t⟩) :
      Act k es w (.installing b p) (.returning b p h []) es [.asked b a]
  | opened {b : BrokerIdentity} {p : Purpose} {a : Option BrokerRoute} {t : TopicId} {h : η}
      {rest : List (Removed η)} (hroute : (k.route b w).1 = .answer a)
      (htopic : topicOf b a = .ok t) (hmiss : ∀ h', es.find? b ≠ some ⟨h', t⟩)
      (hrest : rest.map (·.handle) = (es.find? b).toList.map (·.handle)) :
      Act k es w (.installing b p) (.returning b p h rest) (es.insert b ⟨h, t⟩)
        [.asked b a, .opened (some b) h t]
  | pruned {absent : BrokerIdentity → Bool} {rest : List (Removed η)} {n : Nat}
      {asks : List (CacheEvent η)} (hasks : ∀ e ∈ asks, ∃ b a, e = .asked b a)
      (habsent : ∀ b, absent b = true → .asked b none ∈ asks)
      (hrest : (rest.map (·.handle)).Perm
        ((es.toList.filter fun e => absent e.1).map (·.2.handle))) :
      Act k es w .pruning (.closing rest n) (es.filter fun b _ => !absent b) asks
  | emptied {rest : List (Removed η)} {n : Nat}
      (hrest : (rest.map (·.handle)).Perm (es.toList.map (·.2.handle))) :
      Act k es w .emptying (.closing rest n) .empty []
  | closedDisplaced {b : BrokerIdentity} {p : Purpose} {h : η} {r : Removed η}
      {rest : List (Removed η)} :
      Act k es w (.returning b p h (r :: rest)) (.returning b p h rest) es [.closed r.handle]
  | closedRemoved {r : Removed η} {rest : List (Removed η)} {n : Nat} :
      Act k es w (.closing (r :: rest) n) (.closing rest n) es [.closed r.handle]
  | returned {b : BrokerIdentity} {p : Purpose} {h : η} :
      Act k es w (.returning b p h []) (p.next b h) es []
  | finished {n : Nat} : Act k es w (.closing [] n) (.ended (.removed n)) es []
  | concluded {b : BrokerIdentity} {h : η} {m : Message} {result : Except Failure Ack} :
      Act k es w (.publishing b h m) (.ended (.sent b h result)) es []

namespace Collaborators

variable {η σ : Type}

theorem recorded_reportAll (k : Collaborators η σ) (caller : Option BrokerIdentity)
    (entries : List LogEntry) (w : σ) (r : List (CacheEvent η)) :
    (k.recorded caller).reportAll entries (w, r) = (k.reportAll entries w, r) := by
  induction entries generalizing w with
  | nil => rfl
  | cons e entries ih => exact ih (k.report e w)

theorem recorded_route (k : Collaborators η σ) (caller : Option BrokerIdentity)
    (b : BrokerIdentity) (w : σ) (r : List (CacheEvent η)) :
    (k.recorded caller).route b (w, r) =
      match k.route b w with
      | (.answer a, w') => (.answer a, (w', r ++ [.asked b a]))
      | (.broken, w') => (.broken, (w', r)) :=
  rfl

theorem recorded_openTopic (k : Collaborators η σ) (caller : Option BrokerIdentity) (t : TopicId)
    (w : σ) (r : List (CacheEvent η)) :
    (k.recorded caller).openTopic t (w, r) =
      match k.openTopic t w with
      | (.answer (.ok h), w') => (.answer (.ok h), (w', r ++ [.opened caller h t]))
      | (.answer (.error fault), w') => (.answer (.error fault), (w', r))
      | (.broken, w') => (.broken, (w', r)) :=
  rfl

theorem recorded_visit (k : Collaborators η σ) (caller : Option BrokerIdentity)
    (entries : List (BrokerIdentity × CacheEntry η)) (w : σ) (r : List (CacheEvent η)) :
    (k.recorded caller).visit entries (w, r) = k.visit entries w :=
  rfl

end Collaborators

namespace CacheSystem

variable {η σ : Type} {k : Collaborators η σ} {s : CacheSystem η σ} {i : Nat} {c : Call η}

/-- A call that is at `c` goes on, and the system becomes `s'`. -/
def Acts (k : Collaborators η σ) (s s' : CacheSystem η σ) (i : Nat) (c : Call η) : Prop :=
  ∃ c' added, Act k s.entries s.world c c' s'.entries added ∧ s'.record = s.record ++ added ∧
    s'.calls = s.calls.set i c'

theorem acts_resolving (b : BrokerIdentity) (p : Purpose) :
    Acts k s (s.turn k i (.resolving b p)) i (.resolving b p) := by
  rw [turn, Call.advance, CacheUse.bind_apply, CacheUse.resolve_apply, Collaborators.recorded_route]
  rcases hr : k.route b s.world with ⟨a | _, w⟩
  · have hroute : (k.route b s.world).1 = .answer a := by rw [hr]
    dsimp only
    rw [Collaborators.recorded_reportAll]
    cases ht : topicOf b a with
    | ok t => exact ⟨_, _, .resolved hroute ht, rfl, rfl⟩
    | error f =>
      exact ⟨_, [.asked b a], .stopped rfl (by simpa using topicOf_ne_publish ht) (by simp), rfl,
        rfl⟩
  · exact ⟨_, [], .stopped rfl (by rintro _ ⟨⟩) (by simp), (List.append_nil _).symm, rfl⟩

theorem acts_peeking (b : BrokerIdentity) (p : Purpose) (t : TopicId) :
    Acts k s (s.turn k i (.peeking b p t)) i (.peeking b p t) := by
  rw [turn, Call.advance, CacheUse.bind_apply, TopicCache.peek_apply]
  cases s.cache.poisoned with
  | true =>
    simp only [if_true, Collaborators.recorded_reportAll]
    exact ⟨_, [], .stopped rfl (by rintro _ ⟨⟩) (by simp), (List.append_nil _).symm, rfl⟩
  | false =>
    simp only [Bool.false_eq_true, if_false]
    cases hh : s.cache.hit? b t with
    | some h =>
      exact ⟨_, [], .found (TopicCache.hit?_eq_some_iff.1 hh), (List.append_nil _).symm, rfl⟩
    | none => exact ⟨_, [], .missed, (List.append_nil _).symm, rfl⟩

theorem acts_installing (b : BrokerIdentity) (p : Purpose) :
    Acts k s (s.turn k i (.installing b p)) i (.installing b p) := by
  rw [turn, Call.advance, CacheUse.bind_apply, TopicCache.install_apply,
    TopicCache.createUnderLock_apply, CacheUse.resolve_apply, Collaborators.recorded_route]
  cases s.cache.poisoned with
  | true =>
    simp only [if_true, Collaborators.recorded_reportAll]
    exact ⟨_, [], .stopped rfl (by rintro _ ⟨⟩) (by simp), (List.append_nil _).symm, rfl⟩
  | false =>
    simp only [Bool.false_eq_true, if_false]
    rcases hr : k.route b s.world with ⟨a | _, w⟩
    · have hroute : (k.route b s.world).1 = .answer a := by rw [hr]
      simp only [Collaborators.recorded_reportAll]
      cases ht : topicOf b a with
      | error f =>
        exact ⟨_, [.asked b a], .stopped rfl (by simpa using topicOf_ne_publish ht) (by simp), rfl,
          rfl⟩
      | ok t =>
        dsimp only
        cases hh : s.cache.hit? b t with
        | some h => exact ⟨_, _, .foundLate hroute ht (TopicCache.hit?_eq_some_iff.1 hh), rfl, rfl⟩
        | none =>
          have hmiss := TopicCache.hit?_eq_none_iff.1 hh
          rw [Collaborators.recorded_reportAll, Collaborators.recorded_openTopic]
          rcases k.openTopic t _ with ⟨(f | h) | _, w'⟩
          · exact ⟨_, [.asked b a], .stopped rfl (by rintro _ ⟨⟩) (by simp), rfl, rfl⟩
          · cases hp : s.cache.entries.find? b with
            | none =>
              simp only [Collaborators.recorded_reportAll]
              exact ⟨_, _, .opened hroute ht hmiss (by rw [entries, hp]; rfl),
                List.append_assoc _ _ _, rfl⟩
            | some e =>
              exact ⟨_, _, .opened hroute ht hmiss (by rw [entries, hp]; rfl),
                List.append_assoc _ _ _, rfl⟩
          · exact ⟨_, [.asked b a], .stopped rfl (by rintro _ ⟨⟩) (by simp), rfl, rfl⟩
    · exact ⟨_, [], .stopped rfl (by rintro _ ⟨⟩) (by simp), (List.append_nil _).symm, rfl⟩

/-- Whatever the routing table answers while the absent brokers are found, each of them was asked
for and was not known. -/
theorem absentAmong_recorded (caller : Option BrokerIdentity) (bs : List BrokerIdentity)
    (c : TopicCache η) (w : σ) (r : List (CacheEvent η)) :
    ∃ result w' asks,
      TopicCache.absentAmong (k.recorded caller) bs (c, (w, r)) = (result, (c, (w', r ++ asks))) ∧
      (∀ e ∈ asks, ∃ b a, e = .asked b a) ∧ (∀ why, result = .error why → why = .broken) ∧
      ∀ absent, result = .ok absent → ∀ b ∈ absent, .asked b none ∈ asks := by
  induction bs generalizing w r with
  | nil =>
    refine ⟨.ok [], w, [], by rw [List.append_nil]; rfl, by simp, by rintro _ ⟨⟩, ?_⟩
    rintro absent ⟨⟩
    simp
  | cons b bs ih =>
    rw [TopicCache.absentAmong_cons, Collaborators.recorded_route]
    rcases k.route b w with ⟨a | _, w'⟩
    · obtain ⟨result, w'', asks, heq, hasks, hbroken, habsent⟩ := ih w' (r ++ [.asked b a])
      rw [List.append_assoc, List.singleton_append] at heq
      simp only [heq]
      have hasks' : ∀ e ∈ .asked b a :: asks, ∃ b a, e = .asked b a := by
        intro e he
        rcases List.mem_cons.1 he with rfl | he
        · exact ⟨b, a, rfl⟩
        · exact hasks e he
      cases result with
      | error why =>
        refine ⟨_, _, _, rfl, hasks', ?_, by rintro _ ⟨⟩⟩
        rintro _ ⟨⟩
        exact hbroken why rfl
      | ok absent =>
        refine ⟨_, _, _, rfl, hasks', by rintro _ ⟨⟩, ?_⟩
        rintro absent' ⟨⟩ b' hb'
        cases a with
        | some route => exact List.mem_cons_of_mem _ (habsent absent rfl b' hb')
        | none =>
          rcases List.mem_cons.1 hb' with rfl | hb'
          · exact List.mem_cons_self
          · exact List.mem_cons_of_mem _ (habsent absent rfl b' hb')
    · refine ⟨.error .broken, w', [], by rw [List.append_nil], by simp, ?_, by rintro _ ⟨⟩⟩
      rintro _ ⟨⟩
      rfl

theorem acts_pruning : Acts k s (s.turn k i .pruning) i .pruning := by
  rw [turn, Call.advance, CacheUse.bind_apply, TopicCache.takeAbsent_apply]
  cases s.cache.poisoned with
  | true =>
    simp only [if_true, Collaborators.recorded_reportAll]
    exact ⟨_, [], .stopped rfl (by rintro _ ⟨⟩) (by simp), (List.append_nil _).symm, rfl⟩
  | false =>
    simp only [Bool.false_eq_true, if_false]
    rw [Collaborators.recorded_visit]
    rcases k.visit s.cache.entries.toList s.world with ⟨visited, hvisited⟩
    obtain ⟨result, w, asks, heq, hasks, hbroken, habsent⟩ :=
      absentAmong_recorded (k := k) Call.pruning.broker? (visited.map (·.1)) s.cache s.world s.record
    rw [heq]
    rcases result with (f | _) | absent
    · cases hbroken _ rfl
    · exact ⟨_, asks, .stopped rfl (by rintro _ ⟨⟩) hasks, rfl, rfl⟩
    · refine ⟨_, asks, .pruned hasks (fun b hb => habsent absent rfl b (by simpa using hb)) ?_,
        rfl, rfl⟩
      rw [List.map_map]
      exact (hvisited.filter _).map _

theorem acts_emptying : Acts k s (s.turn k i .emptying) i .emptying := by
  rw [turn, Call.advance, CacheUse.bind_apply, TopicCache.takeAll_apply]
  cases s.cache.poisoned with
  | true =>
    simp only [if_true, Collaborators.recorded_reportAll]
    exact ⟨_, [], .stopped rfl (by rintro _ ⟨⟩) (by simp), (List.append_nil _).symm, rfl⟩
  | false =>
    refine ⟨_, [], .emptied ?_, (List.append_nil _).symm, rfl⟩
    rw [List.map_map, Collaborators.recorded_visit]
    exact (k.visit s.cache.entries.toList s.world).property.map _

theorem acts_returning (b : BrokerIdentity) (p : Purpose) (h : η) (rest : List (Removed η)) :
    Acts k s (s.turn k i (.returning b p h rest)) i (.returning b p h rest) := by
  cases rest with
  | nil => exact ⟨_, [], .returned, (List.append_nil _).symm, rfl⟩
  | cons r rest =>
    rw [turn, Call.advance, CacheUse.bind_apply, CacheUse.close_apply,
      Collaborators.recorded_reportAll]
    exact ⟨_, _, .closedDisplaced, rfl, rfl⟩

theorem acts_closing (rest : List (Removed η)) (n : Nat) :
    Acts k s (s.turn k i (.closing rest n)) i (.closing rest n) := by
  cases rest with
  | nil => exact ⟨_, [], .finished, (List.append_nil _).symm, rfl⟩
  | cons r rest =>
    rw [turn, Call.advance, CacheUse.bind_apply, CacheUse.close_apply,
      Collaborators.recorded_reportAll]
    exact ⟨_, _, .closedRemoved, rfl, rfl⟩

/-- What a move does: nothing that a call can see, or a call begins, or a call goes on. A publish is
ended by a move that is its conclusion. -/
inductive Turn (k : Collaborators η σ) (s : CacheSystem η σ) (m : Move η σ)
    (s' : CacheSystem η σ) : Prop where
  | calm (hentries : s'.entries = s.entries) (hrecord : s'.record = s.record)
      (hcalls : s'.calls = s.calls)
  | begun (task : Task) (hmove : m = .begin task) (hentries : s'.entries = s.entries)
      (hrecord : s'.record = s.record) (hcalls : s'.calls = s.calls ++ [task.call])
  | acted (i : Nat) (c c' : Call η) (added : List (CacheEvent η)) (hc : s.calls[i]? = some c)
      (hact : Act k s.entries s.world c c' s'.entries added)
      (hrecord : s'.record = s.record ++ added) (hcalls : s'.calls = s.calls.set i c')
      (hend : ∀ b h msg, c = .publishing b h msg →
        ∃ result, m.conclusion? = some (i, result) ∧ c' = .ended (.sent b h result))

variable {m : Move η σ}

theorem Turn.of_acts {s' : CacheSystem η σ} {c : Call η} (hc : s.calls[i]? = some c)
    (h : Acts k s s' i c) (hend : ∀ b h msg, c ≠ .publishing b h msg) : Turn k s m s' := by
  obtain ⟨c', added, hact, hrecord, hcalls⟩ := h
  exact .acted i c c' added hc hact hrecord hcalls fun b h msg hp => absurd hp (hend b h msg)

theorem set_self {c : Call η} (hc : s.calls[i]? = some c) : s.calls.set i c = s.calls := by
  obtain ⟨hi, rfl⟩ := List.getElem?_eq_some_iff.1 hc
  exact List.set_getElem_self hi

theorem turn_turn (hc : s.calls[i]? = some c) : Turn k s m (s.turn k i c) := by
  cases c with
  | resolving b p => exact .of_acts hc (acts_resolving b p) (by rintro _ _ _ ⟨⟩)
  | peeking b p t => exact .of_acts hc (acts_peeking b p t) (by rintro _ _ _ ⟨⟩)
  | installing b p => exact .of_acts hc (acts_installing b p) (by rintro _ _ _ ⟨⟩)
  | returning b p h rest => exact .of_acts hc (acts_returning b p h rest) (by rintro _ _ _ ⟨⟩)
  | pruning => exact .of_acts hc acts_pruning (by rintro _ _ _ ⟨⟩)
  | emptying => exact .of_acts hc acts_emptying (by rintro _ _ _ ⟨⟩)
  | closing rest n => exact .of_acts hc (acts_closing rest n) (by rintro _ _ _ ⟨⟩)
  | publishing b h msg => exact .calm rfl rfl (set_self hc)
  | ended e => exact .calm rfl rfl (set_self hc)

theorem turn_conclude {result : Except Failure Ack} (hm : m.conclusion? = some (i, result))
    (w : σ) : Turn k s m (s.conclude i result w) := by
  rw [conclude]
  split
  · rename_i b h msg hc
    refine .acted i _ _ [] hc .concluded (List.append_nil _).symm rfl ?_
    rintro _ _ _ ⟨⟩
    exact ⟨result, hm, rfl⟩
  · exact .calm rfl rfl rfl

/-- Every move is one of these. -/
theorem turn_step (k : Collaborators η σ) (s : CacheSystem η σ) (m : Move η σ) :
    Turn k s m (s.step k m) := by
  cases m with
  | change w => exact .calm rfl rfl rfl
  | begin task => exact .begun task rfl rfl rfl rfl
  | turn i =>
    rw [step]
    split
    · exact .calm rfl rfl rfl
    · rename_i c hc
      exact turn_turn hc
  | answer i result w => exact turn_conclude rfl w
  | giveUp i timeout w => exact turn_conclude rfl w

/-- What a move does to the cache and to the record: nothing, or what a call does when it goes
on. -/
theorem cache_step (k : Collaborators η σ) (s : CacheSystem η σ) (m : Move η σ) :
    (s.step k m).entries = s.entries ∧ (s.step k m).record = s.record ∨
      ∃ (n : Nat) (c c' : Call η) (added : List (CacheEvent η)), s.calls[n]? = some c ∧
        Act k s.entries s.world c c' (s.step k m).entries added ∧
        (s.step k m).record = s.record ++ added := by
  cases turn_step k s m with
  | calm hentries hrecord hcalls => exact .inl ⟨hentries, hrecord⟩
  | begun task hmove hentries hrecord hcalls => exact .inl ⟨hentries, hrecord⟩
  | acted n c c' added hc hact hrecord hcalls hend =>
    exact .inr ⟨n, c, c', added, hc, hact, hrecord⟩

/-! ## What a move does to one call -/

/-- A call that is there after a move was there before it, or has just begun, or has just gone
on. -/
theorem call_step {n : Nat} {c' : Call η} (hc' : (s.step k m).calls[n]? = some c') :
    s.calls[n]? = some c' ∨ (∃ task, m = .begin task ∧ n = s.calls.length ∧ c' = task.call) ∨
      ∃ c added, s.calls[n]? = some c ∧ Act k s.entries s.world c c' (s.step k m).entries added ∧
        (s.step k m).record = s.record ++ added ∧
        (∀ b h msg, c = .publishing b h msg →
          ∃ result, m.conclusion? = some (n, result) ∧ c' = .ended (.sent b h result)) := by
  cases turn_step k s m with
  | calm hentries hrecord hcalls =>
    rw [hcalls] at hc'
    exact .inl hc'
  | begun task hmove hentries hrecord hcalls =>
    rw [hcalls, List.getElem?_append] at hc'
    split at hc'
    · exact .inl hc'
    · rename_i hn
      obtain ⟨hlt, heq⟩ := List.getElem?_eq_some_iff.1 hc'
      rw [List.length_singleton] at hlt
      rw [List.getElem_singleton] at heq
      exact .inr (.inl ⟨task, hmove, by omega, heq.symm⟩)
  | acted i c d added hc hact hrecord hcalls hend =>
    rw [hcalls, List.getElem?_set] at hc'
    split at hc'
    · rename_i hi
      subst hi
      split at hc'
      · cases hc'
        exact .inr (.inr ⟨c, added, hc, hact, hrecord, hend⟩)
      · cases hc'
    · exact .inl hc'

/-- A call that is there stays as it is or goes on. -/
theorem call_next {n : Nat} {c : Call η} (hc : s.calls[n]? = some c) :
    (s.step k m).calls[n]? = some c ∨
      ∃ c' added, (s.step k m).calls[n]? = some c' ∧
        Act k s.entries s.world c c' (s.step k m).entries added := by
  have hn := (List.getElem?_eq_some_iff.1 hc).1
  cases turn_step k s m with
  | calm hentries hrecord hcalls => exact .inl (hcalls ▸ hc)
  | begun task hmove hentries hrecord hcalls =>
    rw [hcalls, List.getElem?_append_left hn]
    exact .inl hc
  | acted i d c' added hd hact hrecord hcalls hend =>
    rw [hcalls, List.getElem?_set]
    split
    · rename_i hi
      subst hi
      rw [hd] at hc
      cases hc
      exact .inr ⟨c', added, if_pos hn, hact⟩
    · exact .inl hc

/-! ## Along a schedule -/

variable (k : Collaborators η σ) (w : σ) (moves : Schedule η σ)

/-- The record only grows. -/
theorem record_mono {i j : Nat} (h : i ≤ j) :
    (stateAt k w moves i).record <+: (stateAt k w moves j).record := by
  induction h with
  | refl => exact List.prefix_rfl
  | @step j hle ih =>
    refine ih.trans ?_
    rw [stateAt]
    rcases cache_step k (stateAt k w moves j) (moves j) with
      ⟨-, hrecord⟩ | ⟨n, c, c', added, -, -, hrecord⟩
    · exact hrecord ▸ List.prefix_rfl
    · rw [hrecord]
      exact List.prefix_append _ _

/-- No call is ever forgotten. -/
theorem calls_length_mono {i j : Nat} (h : i ≤ j) :
    (stateAt k w moves i).calls.length ≤ (stateAt k w moves j).calls.length := by
  induction h with
  | refl => exact Nat.le_refl _
  | @step j hle ih =>
    refine Nat.le_trans ih ?_
    rw [stateAt]
    cases turn_step k (stateAt k w moves j) (moves j) with
    | calm hentries hrecord hcalls => exact hcalls ▸ Nat.le_refl _
    | begun task hmove hentries hrecord hcalls =>
      rw [hcalls, List.length_append]
      omega
    | acted i c d added hc hact hrecord hcalls hend =>
      have hlen := congrArg List.length hcalls
      rw [List.length_set] at hlen
      omega

end CacheSystem

end EventIngress
