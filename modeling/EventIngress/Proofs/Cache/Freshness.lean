import EventIngress.Proofs.Cache.Accounting
import Mathlib.Data.List.Nodup
import Mathlib.Data.List.Pairwise
import Mathlib.Tactic.IntervalCases

/-!
# Handles are given out while they are current

The route of a broker is looked at before the cache is, and the lock is dropped in between, so that
a call works with answers that may be old. What it gives out was current nevertheless: while the
call was getting its handle there was an instant at which the routing table named the topic of the
handle, and a later one at which the handle was the entry of the broker.

Results:

* `CacheSystem.origins_stateAt`: where the topic and the handle of each call come from.
* `CacheSystem.not_heldBy_of_le`: a handle that was taken out of the cache never comes back.
* `CacheSystem.handles_are_current`: no call gives out a handle that was stale throughout the call,
  and no send meets a closed handle unless it was taken out during the send.
-/

namespace EventIngress

variable {η σ : Type}

theorem Call.inFlight_of_getting {c : Call η} (hc : c.getting = true) : c.inFlight = true := by
  cases c with
  | ended e => cases hc
  | _ => rfl

/-- The failure that a call has ended with. -/
def Ending.failure? : Ending η → Option Failure
  | sent _ _ (.error f) => some f
  | stopped _ (.failure f) => some f
  | _ => none

/-! ## Steps -/

section Steps

variable {k : Collaborators η σ} {es es' : SortedMap BrokerIdentity (CacheEntry η)} {w : σ}
  {c c' : Call η} {added : List (CacheEvent η)}

/-- A call that will look into the cache has just been told the topic by the route. -/
theorem Act.peeking (hact : Act k es w c c' es' added) {b : BrokerIdentity} {p : Purpose}
    {t : TopicId} (hc' : c' = .peeking b p t) :
    c.getting = true ∧
      ∃ a, (k.route b w).1 = .answer a ∧ topicOf b a = .ok t ∧ .asked b a ∈ added := by
  cases hact with
  | resolved hroute htopic =>
    cases hc'
    exact ⟨rfl, _, hroute, htopic, List.mem_cons_self⟩
  | @returned b' p' h => rcases p' with _ | (_ | _) <;> cases hc'
  | _ => cases hc'

/-- A call comes by its handle in one of two ways: it finds the handle in the cache, under the topic
that it was told before; or the route names the topic under the exclusive lock, and the handle is in
the cache from then on. -/
theorem Act.handle (hact : Act k es w c c' es' added) {b : BrokerIdentity} {h : η}
    (hc' : c'.handle? = some (b, h)) :
    c.handle? = some (b, h) ∨
      (∃ p t, c = .peeking b p t ∧ es.find? b = some ⟨h, t⟩) ∨
      (c.getting = true ∧ c'.getting = true ∧
        ∃ a t, (k.route b w).1 = .answer a ∧ topicOf b a = .ok t ∧ .asked b a ∈ added ∧
          es'.find? b = some ⟨h, t⟩) := by
  cases hact with
  | found hhit =>
    cases hc'
    exact .inr (.inl ⟨_, _, rfl, hhit⟩)
  | foundLate hroute htopic hhit =>
    cases hc'
    exact .inr (.inr ⟨rfl, rfl, _, _, hroute, htopic, List.mem_cons_self, hhit⟩)
  | opened hroute htopic hmiss hrest =>
    cases hc'
    refine .inr (.inr ⟨rfl, rfl, _, _, hroute, htopic, List.mem_cons_self, ?_⟩)
    rw [SortedMap.find?_insert, if_pos rfl]
  | @returned b' p' h' =>
    rcases p' with _ | (_ | _) <;> exact .inl hc'
  | closedDisplaced => exact .inl hc'
  | concluded => exact .inl hc'
  | _ => cases hc'

/-- Only a publish fails with the fault of a publish. -/
theorem Act.publishing_of_failure (hact : Act k es w c c' es' added) {e : Ending η}
    {fault : PublishFault} (hc' : c' = .ended e) (he : e.failure? = some (.publish fault)) :
    ∃ b h msg, c = .publishing b h msg := by
  cases hact with
  | stopped hstop hwhy hasks =>
    cases hc'
    rename_i why
    cases why with
    | failure f =>
      cases he
      exact absurd rfl (hwhy fault)
    | broken => cases he
  | @returned b p h =>
    rcases p with _ | (_ | _)
    · cases hc'
      cases he
    · cases hc'
      cases he
    · cases hc'
  | finished =>
    cases hc'
    cases he
  | concluded => exact ⟨_, _, _, rfl⟩
  | _ => cases hc'

end Steps

namespace CacheSystem

/-! ## Instants of a call -/

/-- The routing table, if it were asked now, would name the topic for the broker. -/
def Names (k : Collaborators η σ) (s : CacheSystem η σ) (b : BrokerIdentity) (t : TopicId) : Prop :=
  ∃ topic, (k.route b s.world).1 = .answer (some ⟨.ready, topic⟩) ∧ TopicId.parse topic = .ok t

/-- A call is getting its handle. -/
def Getting (s : CacheSystem η σ) (n : Nat) : Prop :=
  ∃ c, s.calls[n]? = some c ∧ c.getting = true

/-- A call has begun and not ended. -/
def Flying (s : CacheSystem η σ) (n : Nat) : Prop :=
  ∃ c, s.calls[n]? = some c ∧ c.inFlight = true

/-- A call for a broker has got a handle. -/
def Gives (s : CacheSystem η σ) (n : Nat) (b : BrokerIdentity) (h : η) : Prop :=
  ∃ c, s.calls[n]? = some c ∧ c.handle? = some (b, h)

variable {k : Collaborators η σ} {w : σ} {moves : Schedule η σ} {n i : Nat} {c : Call η}
  {b : BrokerIdentity} {h : η}

/-- While the call was getting its handle, up to an instant, the routing table named the topic. -/
def WasNamed (k : Collaborators η σ) (w : σ) (moves : Schedule η σ) (n i : Nat)
    (b : BrokerIdentity) (t : TopicId) : Prop :=
  ∃ j ≤ i, (stateAt k w moves j).Getting n ∧ (stateAt k w moves j).Names k b t

/-- While the call was getting its handle, up to an instant, the routing table named a topic and
then, or later, the handle was the entry of the broker for that topic. -/
def WasCurrent (k : Collaborators η σ) (w : σ) (moves : Schedule η σ) (n i : Nat)
    (b : BrokerIdentity) (h : η) : Prop :=
  ∃ t j m, j ≤ m ∧ m ≤ i ∧ (stateAt k w moves j).Getting n ∧ (stateAt k w moves m).Getting n ∧
    (stateAt k w moves j).Names k b t ∧ (stateAt k w moves m).entries.find? b = some ⟨h, t⟩

theorem WasNamed.mono {t : TopicId} (hn : WasNamed k w moves n i b t) :
    WasNamed k w moves n (i + 1) b t := by
  obtain ⟨j, hj, hget, hname⟩ := hn
  exact ⟨j, Nat.le_succ_of_le hj, hget, hname⟩

theorem WasCurrent.mono (hc : WasCurrent k w moves n i b h) :
    WasCurrent k w moves n (i + 1) b h := by
  obtain ⟨t, j, m, hjm, hmi, hrest⟩ := hc
  exact ⟨t, j, m, hjm, Nat.le_succ_of_le hmi, hrest⟩

/-- Where the topic that a call looks for, and the handle that it has, come from. -/
def Origins (k : Collaborators η σ) (w : σ) (moves : Schedule η σ) (n i : Nat) (c : Call η) :
    Prop :=
  (∀ b p t, c = .peeking b p t → WasNamed k w moves n i b t) ∧
    ∀ b h, c.handle? = some (b, h) → WasCurrent k w moves n i b h

theorem origins_stateAt (hc : (stateAt k w moves i).calls[n]? = some c) :
    Origins k w moves n i c := by
  induction i generalizing c with
  | zero => cases hc
  | succ i ih =>
    rcases call_step hc with hsame | ⟨task, -, -, rfl⟩ | ⟨d, added, hd, hact, -⟩
    · obtain ⟨hnamed, hcurrent⟩ := ih hsame
      exact ⟨fun b p t hp => (hnamed b p t hp).mono, fun b h hh => (hcurrent b h hh).mono⟩
    · constructor
      · rintro b p t hp
        cases task <;> cases hp
      · rintro b h hh
        cases task <;> cases hh
    · obtain ⟨hnamed, hcurrent⟩ := ih hd
      constructor
      · intro b p t hp
        obtain ⟨hget, a, hroute, htopic, -⟩ := hact.peeking hp
        obtain ⟨topic, rfl, hparse⟩ := topicOf_eq_ok_iff.1 htopic
        exact ⟨i, Nat.le_succ i, ⟨d, hd, hget⟩, topic, hroute, hparse⟩
      · intro b h hh
        rcases hact.handle hh with
          hhas | ⟨p, t, rfl, hfind⟩ | ⟨hget, hget', a, t, hroute, htopic, -, hfind⟩
        · exact (hcurrent b h hhas).mono
        · -- found under the topic that the route named when it was looked at first
          obtain ⟨j, hj, hgetj, hname⟩ := hnamed b p t rfl
          exact ⟨t, j, i, hj, Nat.le_succ i, hgetj, ⟨_, hd, rfl⟩, hname, hfind⟩
        · -- in the cache since the exclusive section
          obtain ⟨topic, rfl, hparse⟩ := topicOf_eq_ok_iff.1 htopic
          exact ⟨t, i, i + 1, Nat.le_succ i, Nat.le_refl _, ⟨d, hd, hget⟩, ⟨c, hc, hget'⟩,
            ⟨topic, hroute, hparse⟩, hfind⟩

/-! ## Handles do not come back -/

theorem mem_opened {s : CacheSystem η σ} {caller : Option BrokerIdentity} {t : TopicId}
    (hmem : .opened caller h t ∈ s.record) : h ∈ s.opened :=
  List.mem_filterMap.2 ⟨_, hmem, rfl⟩

/-- With fresh handles, a handle was opened by a call for one broker, and for one topic. -/
theorem opened_unique {s : CacheSystem η σ} (hfresh : s.opened.Nodup)
    {caller caller' : Option BrokerIdentity} {t t' : TopicId} (ht : .opened caller h t ∈ s.record)
    (ht' : .opened caller' h t' ∈ s.record) : caller = caller' ∧ t = t' := by
  by_contra hne
  have hpair := List.pairwise_filterMap.1 hfresh
  have hsymm : Std.Symm fun x y : CacheEvent η =>
      ∀ u, x.opened? = some u → ∀ v, y.opened? = some v → u ≠ v :=
    ⟨fun x y hxy u hu v hv huv => hxy v hv u hu huv.symm⟩
  have hevents : CacheEvent.opened caller h t ≠ .opened caller' h t' := by
    intro heq
    cases heq
    exact hne ⟨rfl, rfl⟩
  exact hpair.forall ht ht' hevents h rfl h rfl rfl

theorem heldBy_step {s : CacheSystem η σ} {m : Move η σ} (hb : (s.step k m).HeldBy h b) :
    s.HeldBy h b ∨ ∃ added, (s.step k m).opened = s.opened ++ added ∧ h ∈ added := by
  obtain ⟨t, hb⟩ := hb
  rcases cache_step k s m with ⟨hentries, hrecord⟩ | ⟨n, c, c', added, -, hact, hrecord⟩
  · rw [hentries] at hb
    exact .inl ⟨t, hb⟩
  · rcases hact.entry hb with hold | hnew
    · exact .inl ⟨t, hold⟩
    · refine .inr ⟨added.filterMap CacheEvent.opened?, ?_, List.mem_filterMap.2 ⟨_, hnew, rfl⟩⟩
      rw [opened, hrecord, List.filterMap_append]
      rfl

theorem opened_mono (k : Collaborators η σ) (w : σ) (moves : Schedule η σ) {i j : Nat}
    (hle : i ≤ j) : (stateAt k w moves i).opened <+: (stateAt k w moves j).opened :=
  (record_mono k w moves hle).filterMap CacheEvent.opened?

/-- A handle that was opened and is not held by any entry will never be held again. -/
theorem not_heldBy_of_le {r : Nat} (hopened : h ∈ (stateAt k w moves r).opened)
    (hout : ∀ b, ¬ (stateAt k w moves r).HeldBy h b) (hle : r ≤ i)
    (hfresh : (stateAt k w moves i).opened.Nodup) : ∀ b, ¬ (stateAt k w moves i).HeldBy h b := by
  induction hle with
  | refl => exact hout
  | @step i hle ih =>
    intro b hb
    rcases heldBy_step hb with hold | ⟨added, heq, hnew⟩
    · exact ih (hfresh.sublist (opened_mono k w moves (Nat.le_succ i)).sublist) b hold
    · rw [stateAt, heq] at hfresh
      exact hfresh.disjoint ((opened_mono k w moves hle).subset hopened) hnew

/-- The instant of a publish that has failed, and the move that ended it. -/
theorem exists_answer_of_failure {e : Ending η} {fault : PublishFault}
    (hc : (stateAt k w moves i).calls[n]? = some (.ended e))
    (he : e.failure? = some (.publish fault)) :
    ∃ j < i, ∃ b h msg w', (stateAt k w moves j).calls[n]? = some (.publishing b h msg) ∧
      moves j = .answer n (.error fault) w' ∧ e = .sent b h (.error (.publish fault)) := by
  induction i with
  | zero => cases hc
  | succ i ih =>
    rcases call_step hc with hsame | ⟨task, -, -, htask⟩ | ⟨d, added, hd, hact, -, hend⟩
    · obtain ⟨j, hj, hrest⟩ := ih hsame
      exact ⟨j, Nat.lt_succ_of_lt hj, hrest⟩
    · cases task <;> cases htask
    · obtain ⟨b, h, msg, rfl⟩ := hact.publishing_of_failure rfl he
      obtain ⟨result, hm, hsent⟩ := hend b h msg rfl
      cases hsent
      cases result with
      | ok ack => cases he
      | error f =>
        cases he
        obtain ⟨w', hmove⟩ := Move.eq_answer_of_conclusion? hm
        exact ⟨i, Nat.lt_succ_self i, b, h, msg, w', hd, hmove, rfl⟩

/-- Every call that has a handle of a broker, at any instant of any run: while it was getting the
handle there was an instant at which the routing table named the topic that the handle was opened
for, and then, or later, the handle was the entry of the broker and not closed. So a handle for a
topic that was not named during the call is never given out, nor is one that was taken out of the
cache before the call began. Where a publish is refused as closed only after the close of its
handle, a send is refused so only if its handle was taken out of the cache during the send. -/
theorem handles_are_current [DecidableEq η] (k : Collaborators η σ) (w : σ)
    (moves : Schedule η σ) {last : Nat} (hfresh : (stateAt k w moves last).opened.Nodup) :
    (∀ i ≤ last, ∀ n b h, (stateAt k w moves i).Gives n b h →
      (∃ t j m, j ≤ m ∧ m ≤ i ∧ (stateAt k w moves j).Getting n ∧ (stateAt k w moves m).Getting n ∧
          (stateAt k w moves j).Names k b t ∧ .opened (some b) h t ∈ (stateAt k w moves m).record ∧
          (stateAt k w moves m).entries.find? b = some ⟨h, t⟩ ∧
          h ∉ (stateAt k w moves m).closed) ∧
        (∀ t, (∀ j ≤ i, (stateAt k w moves j).Getting n → ¬ (stateAt k w moves j).Names k b t) →
          ∀ caller, .opened caller h t ∉ (stateAt k w moves last).record) ∧
        ∀ q r b', q ≤ r → (stateAt k w moves q).HeldBy h b' →
          (∀ b'', ¬ (stateAt k w moves r).HeldBy h b'') → n < (stateAt k w moves r).calls.length) ∧
      ((∀ i n t w' b h msg, i < last → moves i = .answer n (.error (.closed t)) w' →
          (stateAt k w moves i).calls[n]? = some (.publishing b h msg) →
            h ∈ (stateAt k w moves i).closed) →
        ∀ i ≤ last, ∀ n e t, (stateAt k w moves i).calls[n]? = some (.ended e) →
          e.failure? = some (.publish (.closed t)) →
            ∃ b h m r, e = .sent b h (.error (.publish (.closed t))) ∧ m < r ∧ r < i ∧
              (stateAt k w moves m).Flying n ∧ (stateAt k w moves r).Flying n ∧
              (stateAt k w moves m).HeldBy h b ∧ ∀ b', ¬ (stateAt k w moves r).HeldBy h b') := by
  have hcurrent : ∀ i n b h, (stateAt k w moves i).Gives n b h → WasCurrent k w moves n i b h := by
    rintro i n b h ⟨c, hc, hh⟩
    exact (origins_stateAt hc).2 b h hh
  have hreach := reachable_stateAt k w moves
  have hfresh' : ∀ i ≤ last, (stateAt k w moves i).opened.Nodup := fun i hi =>
    hfresh.sublist (opened_mono k w moves hi).sublist
  refine ⟨fun i hi n b h hgives => ?_, fun htransport i hi n e t hc he => ?_⟩
  · obtain ⟨t, j, m, hjm, hmi, hgetj, hgetm, hname, hfind⟩ := hcurrent i n b h hgives
    have hm : m ≤ last := Nat.le_trans hmi hi
    have hopened := (hreach m).opened_of_find? hfind
    refine ⟨?_, ?_, ?_⟩
    · exact ⟨t, j, m, hjm, hmi, hgetj, hgetm, hname, hopened, hfind,
        (hreach m).not_mem_closed (hfresh' m hm) ⟨t, hfind⟩⟩
    · intro t' hnever caller hlast
      have hopened' := (record_mono k w moves hm).subset hopened
      obtain ⟨-, rfl⟩ := opened_unique hfresh hopened' hlast
      exact hnever j (Nat.le_trans hjm hmi) hgetj hname
    · intro q r b' hqr hheld hout
      by_contra hlate
      -- the call begins after the handle was taken out, and has seen it in the cache again
      obtain ⟨c, hcm, -⟩ := hgetm
      have hn := (List.getElem?_eq_some_iff.1 hcm).1
      have hrm : r ≤ m := by
        by_contra hmr
        have := calls_length_mono k w moves (Nat.le_of_not_le hmr)
        omega
      obtain ⟨t', hheld⟩ := hheld
      have hopened' := (record_mono k w moves hqr).subset ((hreach q).opened_of_find? hheld)
      exact not_heldBy_of_le (mem_opened hopened') hout hrm (hfresh' m hm) b ⟨t, hfind⟩
  · obtain ⟨j, hj, b, h, msg, w', hpub, hmove, rfl⟩ := exists_answer_of_failure hc he
    have hjlast : j < last := Nat.lt_of_lt_of_le hj hi
    obtain ⟨t', -, m, -, hmj, -, ⟨c, hcm, hget⟩, -, hfind⟩ := hcurrent j n b h ⟨_, hpub, rfl⟩
    have hclosed := htransport j n t w' b h msg hjlast hmove hpub
    have hout : ∀ b', ¬ (stateAt k w moves j).HeldBy h b' := fun b' hb' =>
      (hreach j).not_mem_closed (hfresh' j (Nat.le_of_lt hjlast)) hb' hclosed
    have hmj' : m < j := by
      refine Nat.lt_of_le_of_ne hmj ?_
      rintro rfl
      exact hout b ⟨t', hfind⟩
    exact ⟨b, h, m, j, rfl, hmj', hj, ⟨c, hcm, Call.inFlight_of_getting hget⟩, ⟨_, hpub, rfl⟩,
      ⟨t', hfind⟩, hout⟩

theorem nameFault?_first : TopicId.nameFault? "first".toList = none := by
  decide

/-- The topic that the routing table names first. -/
def firstTopic : TopicId :=
  .bare "first" nameFault?_first

/-- A send gets its handle; a second call rotates the topic and closes that handle; then the publish
of the send is refused. -/
def rotationDuringSend : Schedule Nat World :=
  .ofList
    [.begin (.get ⟨"team", "orders"⟩ (.sending (.ok {}))), .turn 0, .turn 0, .turn 0, .turn 0,
      .begin (.get ⟨"team", "orders"⟩ .handle), .turn 1, .turn 1, .turn 1, .turn 1,
      .answer 0 (.error (.closed firstTopic)) {}]

/-- The system under that schedule, where the routing table names another topic to the second
call. -/
def rotated (i : Nat) : CacheSystem Nat World :=
  let first : Option BrokerRoute := some ⟨.ready, "first"⟩
  let second : Option BrokerRoute := some ⟨.ready, "second"⟩
  stateAt World.collaborators { script := [first, first, second, second] } rotationDuringSend i

theorem handles_are_current_rotated :
    (rotated 11).opened.Nodup ∧
      (∀ i n t w' b h msg, i < 11 → rotationDuringSend i = .answer n (.error (.closed t)) w' →
        (rotated i).calls[n]? = some (.publishing b h msg) → h ∈ (rotated i).closed) ∧
      (rotated 11).Gives 1 ⟨"team", "orders"⟩ 1 ∧
      (∃ t j m, j ≤ m ∧ m ≤ 11 ∧ (rotated j).Getting 1 ∧
        (rotated j).Names World.collaborators ⟨"team", "orders"⟩ t ∧
        (rotated m).entries.find? ⟨"team", "orders"⟩ = some ⟨1, t⟩ ∧ 1 ∉ (rotated m).closed) ∧
      ∃ b h m r, m < r ∧ r < 11 ∧ (rotated m).HeldBy h b ∧ ∀ b', ¬ (rotated r).HeldBy h b' := by
  have hfresh : (rotated 11).opened.Nodup := by decide +kernel
  have htransport : ∀ i n t w' b h msg, i < 11 →
      rotationDuringSend i = .answer n (.error (.closed t)) w' →
        (rotated i).calls[n]? = some (.publishing b h msg) → h ∈ (rotated i).closed := by
    intro i n t w' b h msg hi hmove hpub
    have hten : i = 10 ∧ n = 0 := by
      interval_cases i <;> cases hmove
      exact ⟨rfl, rfl⟩
    obtain ⟨rfl, rfl⟩ := hten
    have hat : (rotated 10).calls[0]? = some (.publishing ⟨"team", "orders"⟩ 0 {}) := rfl
    rw [hat] at hpub
    cases hpub
    decide +kernel
  have hcurrent := handles_are_current World.collaborators _ rotationDuringSend hfresh
  have hgives : (rotated 11).Gives 1 ⟨"team", "orders"⟩ 1 := ⟨_, rfl, rfl⟩
  have hsend : (rotated 11).calls[0]? =
      some (.ended (.sent ⟨"team", "orders"⟩ 0 (.error (.publish (.closed firstTopic))))) := rfl
  refine ⟨hfresh, htransport, hgives, ?_, ?_⟩
  · obtain ⟨t, j, m, hjm, hm, hget, -, hname, -, hfind, hopen⟩ :=
      (hcurrent.1 11 (Nat.le_refl _) 1 _ 1 hgives).1
    exact ⟨t, j, m, hjm, hm, hget, hname, hfind, hopen⟩
  · obtain ⟨b, h, m, r, -, hmr, hr, -, -, hheld, hout⟩ :=
      hcurrent.2 htransport 11 (Nat.le_refl _) 0 _ firstTopic hsend rfl
    exact ⟨b, h, m, r, hmr, hr, hheld, hout⟩

end CacheSystem

end EventIngress
