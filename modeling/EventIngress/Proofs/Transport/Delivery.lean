import EventIngress.Proofs.Transport.Accounts

/-!
# Delivery through a channel

An answered publish has put its delivery into the channel, once, and a publish that came to any
other end never does. This holds after any moves of any number of handles.

Results:

* `ChannelSystem.Orderly.ended_run`: a publish that has come to an end stays as it is.
* `ChannelSystem.Orderly.publish_run`, `ChannelSystem.Orderly.receive_run`,
  `ChannelSystem.Orderly.hangUp_run`: what the functions of a channel do is done by moves.
* `ChannelSystem.answered_iff_entered`: what has entered the queue, in terms of the publishes.
-/

namespace EventIngress

namespace ChannelSystem

variable {s : ChannelSystem} {i : Nat} {p : Publishing}

/-! ## What stays -/

/-- A publish keeps its handle, its message and its id, and where it stands once it has come to an
end. -/
theorem Orderly.stage_step (hs : s.Orderly) (hp : s.publishes[i]? = some p) (move : ChannelMove) :
    ∃ stage, (s.step move).publishes[i]? = some { p with stage := stage } ∧
      (p.stage.isWaiting = false → stage = p.stage) := by
  have hsame : ∃ stage, s.publishes[i]? = some { p with stage := stage } ∧
      (p.stage.isWaiting = false → stage = p.stage) := ⟨p.stage, hp, fun _ => rfl⟩
  have hset {s' : ChannelSystem} {j : Nat} {stage : Stage} (hsame' : s'.publishes = s.publishes)
      (hwaits : s.waits j = true) :
      ∃ stage', (s'.setStage j stage).publishes[i]? = some { p with stage := stage' } ∧
        (p.stage.isWaiting = false → stage' = p.stage) := by
    obtain ⟨q, hq, hqwaits⟩ := waits_iff.1 hwaits
    rw [getElem?_setStage (hsame' ▸ hq), hsame']
    by_cases h : j = i
    · subst h
      rw [hp] at hq
      cases hq
      exact ⟨stage, if_pos rfl, by rw [hqwaits]; rintro ⟨⟩⟩
    · rw [if_neg h]
      exact hsame
  cases move with
  | openHandle t =>
    rw [ChannelSystem.step]
    split <;> exact hsame
  | close h => exact hsame
  | start h m =>
    have hlt := (List.getElem?_eq_some_iff.1 hp).1
    simp only [ChannelSystem.step]
    split
    · exact hsame
    · exact ⟨p.stage, (List.getElem?_append_left hlt).trans hp, fun _ => rfl⟩
    · exact ⟨p.stage, (List.getElem?_append_left hlt).trans hp, fun _ => rfl⟩
  | enter j =>
    rw [ChannelSystem.step]
    split
    · exact hsame
    · rename_i d c hletIn
      exact hset rfl (hs.waits_of_mem (eq_of_letIn? hletIn).1)
  | refuse j =>
    rw [ChannelSystem.step]
    split
    · rename_i hgone
      exact hset rfl (Bool.and_eq_true _ _ ▸ hgone).1
    · exact hsame
  | giveUp j =>
    rw [ChannelSystem.step]
    split
    · rename_i hwaits
      exact hset rfl hwaits
    · exact hsame
  | receive =>
    rw [ChannelSystem.step]
    split <;> exact hsame
  | hangUp => exact hsame

/-- A publish that has come to an end stays as it is. -/
theorem Orderly.ended_run (hs : s.Orderly) (hp : s.publishes[i]? = some p)
    (hended : p.stage.isWaiting = false) (moves : List ChannelMove) :
    (s.run moves).publishes[i]? = some p := by
  induction moves generalizing s with
  | nil => exact hp
  | cons move moves ih =>
    obtain ⟨stage, hstage, hsame⟩ := hs.stage_step hp move
    rw [hsame hended] at hstage
    exact ih (hs.step move) hstage

theorem capacity_tag_step (s : ChannelSystem) (move : ChannelMove) :
    (s.step move).channel.capacity = s.channel.capacity ∧
      (s.step move).channel.issuer.tag = s.channel.issuer.tag := by
  cases move with
  | enter i =>
    rw [ChannelSystem.step]
    split
    · exact ⟨rfl, rfl⟩
    · rename_i d c hletIn
      obtain ⟨_, _, rfl⟩ := eq_of_letIn? hletIn
      exact ⟨rfl, rfl⟩
  | receive =>
    rw [ChannelSystem.step]
    split
    · rename_i d c _ htake
      unfold Channel.take? at htake
      split at htake
      · cases htake
      · cases htake
        exact ⟨rfl, rfl⟩
    · exact ⟨rfl, rfl⟩
  | close h => exact ⟨rfl, rfl⟩
  | hangUp => exact ⟨rfl, rfl⟩
  | openHandle t => rw [ChannelSystem.step]; split <;> exact ⟨rfl, rfl⟩
  | start h m => simp only [ChannelSystem.step]; split <;> exact ⟨rfl, rfl⟩
  | refuse i => rw [ChannelSystem.step]; split <;> exact ⟨rfl, rfl⟩
  | giveUp i => rw [ChannelSystem.step]; split <;> exact ⟨rfl, rfl⟩

theorem capacity_tag_run (s : ChannelSystem) (moves : List ChannelMove) :
    (s.run moves).channel.capacity = s.channel.capacity ∧
      (s.run moves).channel.issuer.tag = s.channel.issuer.tag := by
  induction moves generalizing s with
  | nil => exact ⟨rfl, rfl⟩
  | cons move moves ih =>
    obtain ⟨hcapacity, htag⟩ := ih (s.step move)
    have hstep := s.capacity_tag_step move
    exact ⟨hcapacity.trans hstep.1, htag.trans hstep.2⟩

/-! ## The functions of the channel -/

theorem Orderly.ticket_fresh (hs : s.Orderly) :
    ∀ w ∈ s.channel.waiting, w.1 ≠ s.publishes.length := by
  rintro ⟨i, d⟩ hw rfl
  obtain ⟨p, hp, _⟩ := waits_iff.1 (hs.waits_of_mem hw)
  exact Nat.lt_irrefl _ (List.getElem?_eq_some_iff.1 hp).1

theorem Orderly.tickets_nodup (hs : s.Orderly) : (s.channel.waiting.map (·.1)).Nodup := by
  apply nodup_of_shareOf
  intro i
  rw [hs.pending]
  cases s.publishes[i]? with
  | none => exact Nat.zero_le 1
  | some p => exact p.length_pending

private theorem modify_last {α : Type} (l : List α) (a : α) (f : α → α) :
    (l ++ [a]).modify l.length f = l ++ [f a] := by
  induction l with
  | nil => rfl
  | cons b l ih => exact congrArg (b :: ·) ih

theorem step_start_closed {h : Nat} {t : TopicId} (hhandle : s.handles[h]? = some (t, true))
    (m : Message) :
    s.step (.start h m) =
      { s with publishes := s.publishes ++ [⟨h, t, m, none, .ended (.error (.closed t))⟩] } := by
  simp only [ChannelSystem.step, hhandle]

theorem step_start_open {h : Nat} {t : TopicId} (hhandle : s.handles[h]? = some (t, false))
    (m : Message) :
    s.step (.start h m) = { s with
      channel := (s.channel.enlist t s.publishes.length m).2
      publishes := s.publishes ++ [⟨h, t, m, some s.channel.issuer.next.1, .waiting⟩] } := by
  simp only [ChannelSystem.step, hhandle]
  rfl

theorem step_enter {d : Delivery} {c : Channel} (hletIn : s.channel.letIn? i = some (d, c)) :
    s.step (.enter i) = { s with
      channel := c
      entered := s.entered ++ [(i, d)] }.setStage i (.ended (.ok d.ack)) := by
  rw [ChannelSystem.step, hletIn]

theorem step_refuse (hwaits : s.waits i = true) (hreceiving : s.channel.receiving = false) :
    s.step (.refuse i) = { s with channel := s.channel.withdraw i }.setStage i
      (.ended (.error (.transport Channel.hungUp))) := by
  rw [ChannelSystem.step, hwaits, hreceiving]
  rfl

theorem step_receive {d : Delivery} {queue : List Delivery}
    (hreceiving : s.channel.receiving = true) (hqueue : s.channel.queue = d :: queue) :
    s.step .receive = { s with
      channel := { s.channel with queue := queue }
      received := s.received ++ [d] } := by
  rw [ChannelSystem.step, hreceiving, Channel.take?, hqueue]

/-- A publish on a channel is a move, or two. -/
theorem Orderly.publish_run (hs : s.Orderly) {h : Nat} {t : TopicId} {closed : Bool}
    (hhandle : s.handles[h]? = some (t, closed)) (m : Message) :
    ∃ moves id stage,
      (s.run moves).channel = (s.channel.publish t closed s.publishes.length m).2 ∧
      (s.run moves).publishes = s.publishes ++ [⟨h, t, m, id, stage⟩] ∧
      stage.progress? = some (s.channel.publish t closed s.publishes.length m).1 := by
  cases closed with
  | true =>
    refine ⟨[.start h m], none, .ended (.error (.closed t)), ?_⟩
    rw [run_cons, run_nil, step_start_closed hhandle]
    exact ⟨rfl, rfl, rfl⟩
  | false =>
    -- all three ways begin with the wait
    rw [Channel.publish_eq hs.ticket_fresh]
    cases hreceiving : s.channel.receiving with
    | false =>
      refine ⟨[.start h m, .refuse s.publishes.length], some s.channel.issuer.next.1,
        .ended (.error (.transport Channel.hungUp)), ?_⟩
      rw [run_cons, run_cons, run_nil, step_start_open hhandle, step_refuse ?_ ?_]
      · exact ⟨rfl, modify_last _ _ _, rfl⟩
      · exact waits_iff.2 ⟨_, List.getElem?_concat_length, rfl⟩
      · exact hreceiving
    | true =>
      cases hletIn : (s.channel.enlist t s.publishes.length m).2.letIn? s.publishes.length with
      | none =>
        refine ⟨[.start h m], some s.channel.issuer.next.1, .waiting, ?_⟩
        rw [run_cons, run_nil, step_start_open hhandle]
        exact ⟨rfl, rfl, rfl⟩
      | some letIn =>
        obtain ⟨d, c⟩ := letIn
        refine ⟨[.start h m, .enter s.publishes.length], some s.channel.issuer.next.1,
          .ended (.ok d.ack), ?_⟩
        rw [run_cons, run_cons, run_nil, step_start_open hhandle, step_enter hletIn]
        exact ⟨rfl, modify_last _ _ _, rfl⟩

/-- To receive is a move, or two. -/
theorem Orderly.receive_run (hs : s.Orderly) (hreceiving : s.channel.receiving = true) :
    ∃ moves, (s.run moves).channel = s.channel.receive.2.2 ∧
      (s.run moves).received = s.received ++ s.channel.receive.1.toList ∧
      ∀ i ack, s.channel.receive.2.1 = some (i, ack) →
        ∃ p, (s.run moves).publishes[i]? = some p ∧ p.stage = .ended (.ok ack) := by
  cases hqueue : s.channel.queue with
  | nil =>
    refine ⟨[], ?_⟩
    rw [run_nil, Channel.receive, hqueue]
    refine ⟨rfl, (List.append_nil _).symm, ?_⟩
    rintro i ack ⟨⟩
  | cons d queue =>
    have hstep := step_receive hreceiving hqueue
    have hroom : queue.length < s.channel.capacity := by
      have hfits := hs.fits
      rw [hqueue] at hfits
      exact hfits
    cases hwaiting : s.channel.waiting with
    | nil =>
      refine ⟨[.receive], ?_⟩
      rw [run_cons, run_nil, hstep, Channel.receive, hqueue, hwaiting]
      refine ⟨?_, rfl, ?_⟩
      · show _ = ({ s.channel with queue := queue, waiting := [] } : Channel)
        rw [← hwaiting]
      · rintro i ack ⟨⟩
    | cons w waiting =>
      obtain ⟨i, w⟩ := w
      have hletIn := Channel.letIn?_of_head (c := { s.channel with queue := queue }) hwaiting
        hs.tickets_nodup hroom
      have hwaits : s.waits i = true :=
        hs.waits_of_mem (d := w) (hwaiting ▸ List.mem_cons_self)
      obtain ⟨p, hp, _⟩ := waits_iff.1 hwaits
      refine ⟨[.receive, .enter i], ?_⟩
      rw [run_cons, run_cons, run_nil, hstep, step_enter hletIn, Channel.receive, hqueue, hwaiting]
      refine ⟨rfl, rfl, ?_⟩
      rintro _ _ ⟨⟩
      refine ⟨_, (getElem?_setStage (p := p) ?_).trans (if_pos rfl), rfl⟩
      exact hp

/-- When nobody receives any more, the publishes that wait are refused one by one. -/
theorem Orderly.refuse_run (hs : s.Orderly) (hreceiving : s.channel.receiving = false)
    {tickets : List Nat} (hnodup : tickets.Nodup) (hwaits : ∀ i ∈ tickets, s.waits i = true) :
    (s.run (tickets.map .refuse)).channel = tickets.foldl Channel.withdraw s.channel ∧
      ∀ i ∈ tickets, ∃ p, (s.run (tickets.map .refuse)).publishes[i]? = some p ∧
        p.stage = .ended (.error (.transport Channel.hungUp)) := by
  induction tickets generalizing s with
  | nil => exact ⟨rfl, by rintro i ⟨⟩⟩
  | cons i tickets ih =>
    obtain ⟨hfresh, hnodup⟩ := List.nodup_cons.1 hnodup
    have hi := hwaits i List.mem_cons_self
    obtain ⟨p, hp, _⟩ := waits_iff.1 hi
    have hs' := hs.step (.refuse i)
    rw [step_refuse hi hreceiving] at hs'
    rw [List.map_cons, run_cons, List.foldl_cons, step_refuse hi hreceiving]
    have hget {j : Nat} : ({ s with channel := s.channel.withdraw i }.setStage i
        (.ended (.error (.transport Channel.hungUp)))).publishes[j]? =
        if i = j then some { p with stage := .ended (.error (.transport Channel.hungUp)) }
        else s.publishes[j]? :=
      getElem?_setStage (s := { s with channel := s.channel.withdraw i }) hp
    obtain ⟨hchannel, hrefused⟩ := ih hs' hreceiving hnodup (by
      intro j hj
      have hne : i ≠ j := fun h => hfresh (h ▸ hj)
      rw [waits, hget, if_neg hne]
      exact hwaits j (List.mem_cons_of_mem i hj))
    refine ⟨hchannel, ?_⟩
    intro j hj
    rcases List.mem_cons.1 hj with rfl | hj
    · exact ⟨_, hs'.ended_run (hget.trans (if_pos rfl)) rfl _, rfl⟩
    · exact hrefused j hj

/-- The receiving end is dropped in one move, and the publishes that wait end after it. -/
theorem Orderly.hangUp_run (hs : s.Orderly) :
    ∃ moves, (s.run moves).channel = s.channel.hangUp.2 ∧
      ∀ i ∈ s.channel.hangUp.1, ∃ p, (s.run moves).publishes[i]? = some p ∧
        p.stage = .ended (.error (.transport Channel.hungUp)) := by
  refine ⟨.hangUp :: (s.channel.waiting.map (·.1)).map .refuse, ?_⟩
  rw [run_cons, Channel.hangUp_eq]
  refine (hs.step .hangUp).refuse_run rfl hs.tickets_nodup ?_
  intro i hi
  obtain ⟨⟨_, d⟩, hw, rfl⟩ := List.mem_map.1 hi
  exact hs.waits_of_mem hw

/-! ## Delivered once -/

/-- A delivery that has entered the queue is that of an answered publish. -/
theorem Orderly.publish_of_entered (hs : s.Orderly) {d : Delivery} (h : (i, d) ∈ s.entered) :
    ∃ p, s.publishes[i]? = some p ∧ p.Sound ∧ p.stage = .ended (.ok d.ack) ∧ p.accepted = [d] := by
  rw [← mem_shareOf, hs.accepted] at h
  cases hp : s.publishes[i]? with
  | none =>
    rw [hp] at h
    cases h
  | some p =>
    rw [hp, Option.elim_some] at h
    have hsound := hs.sound p (List.mem_of_getElem? hp)
    refine ⟨p, rfl, hsound, Publishing.answer_of_accepted hsound h, ?_⟩
    obtain ⟨x, hx⟩ := List.length_eq_one_iff.1
      (Nat.le_antisymm p.length_accepted (List.length_pos_of_mem h))
    rw [hx] at h ⊢
    rw [List.mem_singleton.1 h]

/-- Two publishes with ids have different ones. -/
theorem Orderly.messageId_injective (hs : s.Orderly) {j : Nat} {q : Publishing} {id : String}
    (hp : s.publishes[i]? = some p) (hq : s.publishes[j]? = some q) (hpid : p.messageId = some id)
    (hqid : q.messageId = some id) : i = j := by
  have hnodup := hs.ids ▸ s.channel.issuer.ids_nodup
  rw [List.Nodup, List.pairwise_filterMap, List.pairwise_iff_getElem] at hnodup
  obtain ⟨hi, rfl⟩ := List.getElem?_eq_some_iff.1 hp
  obtain ⟨hj, rfl⟩ := List.getElem?_eq_some_iff.1 hq
  rcases Nat.lt_trichotomy i j with hlt | heq | hlt
  · exact absurd rfl (hnodup i j hi hj hlt id hpid id hqid)
  · exact heq
  · exact absurd rfl (hnodup j i hj hi hlt id hqid id hpid)

/-- No id enters the queue twice. -/
theorem Orderly.entered_ids_nodup (hs : s.Orderly) :
    ((s.entered.map (·.2)).map (·.messageId)).Nodup := by
  have hnumbers : (s.entered.map (·.1)).Nodup := by
    apply nodup_of_shareOf
    intro i
    rw [hs.accepted]
    cases s.publishes[i]? with
    | none => exact Nat.zero_le 1
    | some p => exact p.length_accepted
  rw [List.map_map]
  refine List.Nodup.map_on ?_ (List.Nodup.of_map _ hnumbers)
  rintro ⟨i, d⟩ hd ⟨j, d'⟩ hd' hid
  obtain ⟨p, hp, hpsound, hpstage, hpd⟩ := hs.publish_of_entered hd
  obtain ⟨q, hq, hqsound, hqstage, hqd⟩ := hs.publish_of_entered hd'
  obtain rfl := hs.messageId_injective hp hq
    (Publishing.messageId_of_answer hpsound hpstage)
    ((Publishing.messageId_of_answer hqsound hqstage).trans (congrArg some hid.symm))
  cases hp.symm.trans hq
  cases hpd.symm.trans hqd
  rfl

/-- After any moves of any number of handles of one channel: the queue fits; what has entered it was
received, went with the receiving end or is in the queue, in this order; a publish was answered iff
a delivery of it has entered the queue, which is then one, with its message, the topic of its handle
and the id of the answer; no id is received or queued twice; the ids that publishes took are all
that were handed out, one after another; and a publish that has come to an end stays as it is. -/
theorem answered_iff_entered (capacity : Nat) (tag : String) (moves : List ChannelMove) :
    let s := (initial capacity tag).run moves
    s.channel.queue.length ≤ capacity ∧
    s.entered.map (·.2) = s.received ++ s.lost ++ s.channel.queue ∧
    (s.channel.receiving = true → s.lost = []) ∧
    (∀ i d, (i, d) ∈ s.entered → ∃ p, s.publishes[i]? = some p ∧ p.stage = .ended (.ok d.ack)) ∧
    (∀ i p, s.publishes[i]? = some p →
      (s.handles[p.handle]?).map (·.1) = some p.topic ∧
      (∀ ack, p.stage = .ended (.ok ack) → ack.topic = p.topic ∧
        shareOf i s.entered = [⟨p.message, p.topic, ack.messageId⟩]) ∧
      ((∀ ack, p.stage ≠ .ended (.ok ack)) → shareOf i s.entered = []) ∧
      (p.messageId = none ↔ p.stage = .ended (.error (.closed p.topic))) ∧
      (p.stage ≠ .waiting → ∀ more, (s.run more).publishes[i]? = some p)) ∧
    ((s.received ++ s.channel.queue).map (·.messageId)).Nodup ∧
    s.publishes.filterMap (·.messageId) =
      (List.range s.channel.issuer.issued).map fun k => tag ++ "-" ++ toString (k + 1) := by
  intro s
  have hs : s.Orderly := (orderly_initial capacity tag).run moves
  obtain ⟨hcapacity, htag⟩ := capacity_tag_run (initial capacity tag) moves
  refine ⟨?_, hs.passed, hs.unlost, ?_, ?_, ?_, ?_⟩
  · have hfits := hs.fits
    rw [hcapacity] at hfits
    exact hfits
  · intro i d hd
    obtain ⟨p, hp, _, hstage, _⟩ := hs.publish_of_entered hd
    exact ⟨p, hp, hstage⟩
  · intro i p hp
    have hmem := List.mem_of_getElem? hp
    have haccepted := hs.accepted i
    rw [hp, Option.elim_some] at haccepted
    refine ⟨hs.housed p hmem, ?_, ?_, Publishing.messageId_eq_none_iff (hs.sound p hmem), ?_⟩
    · intro ack hstage
      obtain ⟨hone, htopic⟩ := Publishing.accepted_of_answer (hs.sound p hmem) hstage
      exact ⟨htopic, haccepted.trans hone⟩
    · intro hstage
      exact haccepted.trans (Publishing.accepted_of_no_answer hstage)
    · intro hstage more
      exact hs.ended_run hp (Stage.isWaiting_eq_false hstage) more
  · have hnodup := hs.entered_ids_nodup
    rw [hs.passed] at hnodup
    refine hnodup.sublist (List.Sublist.map _ ?_)
    rw [List.append_assoc]
    exact (List.sublist_append_right _ _).append_left _
  · have hids := hs.ids
    rw [Issuer.ids, htag] at hids
    exact hids

/-- The topic of a handle. -/
def paymentsTopic : TopicId :=
  .bare "payments" (by decide)

/-- Three publishes on one handle of a channel with room for one delivery. The second one is given
up while it waits, and the third one enters when the first delivery has been received. -/
def crowdedMoves : List ChannelMove :=
  [.openHandle paymentsTopic, .start 0 {}, .enter 0, .start 0 {}, .giveUp 1, .start 0 {}, .receive,
    .enter 2]

/-- The publish that is given up has used an id, which nobody else gets, and its message never enters
the queue. -/
theorem answered_iff_entered_givenUp :
    let s := (initial 1 "channel").run crowdedMoves
    s.channel.queue.length ≤ 1 ∧
      s.received ++ s.channel.queue =
        [⟨{}, paymentsTopic, "channel-1"⟩, ⟨{}, paymentsTopic, "channel-3"⟩] ∧
      shareOf 0 s.entered = [⟨{}, paymentsTopic, "channel-1"⟩] ∧ shareOf 1 s.entered = [] ∧
      s.publishes.filterMap (·.messageId) = ["channel-1", "channel-2", "channel-3"] ∧
      ∀ more, (s.run more).publishes[1]? =
        some ⟨0, paymentsTopic, {}, some "channel-2", .givenUp⟩ := by
  intro s
  obtain ⟨hfits, -, -, -, hpublishes, -, hids⟩ := answered_iff_entered 1 "channel" crowdedMoves
  obtain ⟨-, hanswered, -⟩ := hpublishes 0 ⟨0, paymentsTopic, {}, some "channel-1",
    .ended (.ok ⟨"channel-1", paymentsTopic⟩)⟩ rfl
  obtain ⟨-, -, hgivenUp, -, hstays⟩ :=
    hpublishes 1 ⟨0, paymentsTopic, {}, some "channel-2", .givenUp⟩ rfl
  exact ⟨hfits, rfl, (hanswered _ rfl).2, hgivenUp nofun, hids, hstays nofun⟩

end ChannelSystem

end EventIngress
