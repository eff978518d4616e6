import EventIngress.Proofs.Transport.Steps
import Mathlib.Data.List.Nodup

/-!
# The accounts of a channel

What waits and what has entered the queue of a channel is accounted for, publish by publish: a
publish that waits has its delivery waiting, an answered one has put it into the queue, and all
others have nothing in either place.

Results:

* `Issuer.ids_nodup`: no message id is handed out twice.
* `Publishing.pending`, `Publishing.accepted`: what belongs to a publish, by where it stands.
* `ChannelSystem.Orderly`: the invariant.
* `ChannelSystem.Orderly.step`, `ChannelSystem.Orderly.run`: all moves keep it.
-/

namespace EventIngress

/-! ## Message ids -/

namespace Issuer

variable (i : Issuer)

/-- The ids that have been handed out, in order. -/
def ids (i : Issuer) : List String :=
  (List.range i.issued).map fun k => i.tag ++ "-" ++ toString (k + 1)

theorem ids_next : i.next.2.ids = i.ids ++ [i.next.1] := by
  rw [ids, ids]
  show (List.range (i.issued + 1)).map _ = _
  rw [List.range_succ, List.map_append]
  rfl

private theorem toString_injective {m n : Nat} (h : toString m = toString n) : m = n := by
  have hdigits := congrArg String.toList h
  rw [Nat.toString_eq_ofList_toDigits, Nat.toString_eq_ofList_toDigits, String.toList_ofList,
    String.toList_ofList] at hdigits
  have hvalue := congrArg (fun cs => Nat.ofDigitChars 10 cs 0) hdigits
  simpa [Nat.ofDigitChars_ten_toDigits] using hvalue

/-- No id is handed out twice. -/
theorem ids_nodup : i.ids.Nodup := by
  refine List.Nodup.map ?_ List.nodup_range
  intro k k' h
  have hsucc := toString_injective ((String.append_right_inj _).1 h)
  omega

end Issuer

/-! ## Topics of handles -/

section Handles

variable {handles : List (TopicId × Bool)} {h : Nat}

/-- A handle keeps its topic when another one is opened. -/
theorem topic_concat {t : TopicId} (ht : (handles[h]?).map (·.1) = some t) (x : TopicId × Bool) :
    ((handles ++ [x])[h]?).map (·.1) = some t := by
  obtain ⟨y, hy, _⟩ := Option.map_eq_some_iff.1 ht
  obtain ⟨hlt, _⟩ := List.getElem?_eq_some_iff.1 hy
  rw [List.getElem?_append_left hlt]
  exact ht

/-- A handle keeps its topic when one is closed. -/
theorem topic_modify (k : Nat) :
    ((handles.modify k fun x => (x.1, true))[h]?).map (·.1) = (handles[h]?).map (·.1) := by
  rw [List.getElem?_modify]
  cases handles[h]? with
  | none => rfl
  | some x =>
    show some (if k = h then (x.1, true) else x).1 = some x.1
    split <;> rfl

end Handles

/-! ## The account of a publish -/

namespace Publishing

/-- The delivery of a publish that has taken an id. -/
def deliveries (p : Publishing) : List Delivery :=
  p.messageId.toList.map fun id => ⟨p.message, p.topic, id⟩

/-- What a publish has waiting. -/
def pending (p : Publishing) : List Delivery :=
  match p.stage with
  | .waiting => p.deliveries
  | _ => []

/-- What a publish has put into the queue. -/
def accepted (p : Publishing) : List Delivery :=
  match p.stage with
  | .ended (.ok _) => p.deliveries
  | _ => []

/-- A publish has an id unless its handle was closed, and answers with it. -/
def Sound (p : Publishing) : Prop :=
  match p.stage with
  | .ended (.ok ack) => p.messageId = some ack.messageId ∧ ack.topic = p.topic
  | .ended (.error (.closed t)) => p.messageId = none ∧ t = p.topic
  | _ => p.messageId.isSome

theorem mem_deliveries {p : Publishing} {d : Delivery} :
    d ∈ p.deliveries ↔
      p.messageId = some d.messageId ∧ d.message = p.message ∧ d.topic = p.topic := by
  obtain ⟨message, topic, id⟩ := d
  rw [deliveries, List.mem_map]
  constructor
  · rintro ⟨id', hid, heq⟩
    cases heq
    exact ⟨Option.mem_toList.1 hid, rfl, rfl⟩
  · rintro ⟨hid, rfl, rfl⟩
    exact ⟨id, Option.mem_toList.2 hid, rfl⟩

theorem length_deliveries (p : Publishing) : p.deliveries.length ≤ 1 := by
  rw [deliveries, List.length_map]
  cases p.messageId <;> simp

theorem mem_pending {p : Publishing} {d : Delivery} :
    d ∈ p.pending ↔ p.stage.isWaiting = true ∧ d ∈ p.deliveries := by
  unfold pending
  cases p.stage with
  | waiting => exact (and_iff_right rfl).symm
  | _ => simp [Stage.isWaiting]

theorem pending_of_not_waiting {p : Publishing} (h : p.stage.isWaiting = false) :
    p.pending = [] := by
  unfold pending
  cases hstage : p.stage with
  | waiting => rw [hstage] at h; cases h
  | ended result => rfl
  | givenUp => rfl

theorem length_pending (p : Publishing) : p.pending.length ≤ 1 := by
  unfold pending
  split
  · exact p.length_deliveries
  · exact Nat.zero_le 1

theorem accepted_of_waiting {p : Publishing} (h : p.stage.isWaiting = true) :
    p.accepted = [] := by
  unfold accepted
  cases hstage : p.stage with
  | waiting => rfl
  | ended result => rw [hstage] at h; cases h
  | givenUp => rfl

theorem length_accepted (p : Publishing) : p.accepted.length ≤ 1 := by
  unfold accepted
  split
  · exact p.length_deliveries
  · exact Nat.zero_le 1

/-- An answered publish has the id of its answer. -/
theorem messageId_of_answer {p : Publishing} (hsound : p.Sound) {ack : Ack}
    (h : p.stage = .ended (.ok ack)) : p.messageId = some ack.messageId := by
  unfold Sound at hsound
  rw [h] at hsound
  exact hsound.1

/-- An answered publish has put one delivery into the queue: its own, with the id of the answer. -/
theorem accepted_of_answer {p : Publishing} (hsound : p.Sound) {ack : Ack}
    (h : p.stage = .ended (.ok ack)) :
    p.accepted = [⟨p.message, p.topic, ack.messageId⟩] ∧ ack.topic = p.topic := by
  rw [accepted, h, deliveries, messageId_of_answer hsound h]
  refine ⟨rfl, ?_⟩
  unfold Sound at hsound
  rw [h] at hsound
  exact hsound.2

theorem accepted_of_no_answer {p : Publishing} (h : ∀ ack, p.stage ≠ .ended (.ok ack)) :
    p.accepted = [] := by
  unfold accepted
  split
  · rename_i ack hstage
    exact absurd hstage (h ack)
  · rfl

/-- The delivery that an answered publish has put into the queue is answered so. -/
theorem answer_of_accepted {p : Publishing} (hsound : p.Sound) {d : Delivery}
    (h : d ∈ p.accepted) : p.stage = .ended (.ok d.ack) := by
  unfold accepted at h
  split at h
  · rename_i ack hstage
    unfold Sound at hsound
    rw [hstage] at hsound
    obtain ⟨hid, htopic⟩ := hsound
    obtain ⟨hid', _, htopic'⟩ := mem_deliveries.1 h
    obtain ⟨messageId, topic⟩ := ack
    obtain rfl := Option.some.inj (hid.symm.trans hid')
    obtain rfl := htopic.trans htopic'.symm
    exact hstage
  · cases h

/-- Only a publish on a closed handle takes no id. -/
theorem messageId_eq_none_iff {p : Publishing} (hsound : p.Sound) :
    p.messageId = none ↔ p.stage = .ended (.error (.closed p.topic)) := by
  unfold Sound at hsound
  split at hsound
  · rename_i ack hstage
    rw [hsound.1, hstage]
    constructor <;> rintro ⟨⟩
  · rename_i t hstage
    rw [hstage, hsound.2]
    exact ⟨fun _ => rfl, fun _ => hsound.1⟩
  · rename_i hclosed
    rw [Option.isSome_iff_ne_none] at hsound
    exact ⟨fun h => absurd h hsound, fun h => absurd h (hclosed _)⟩

end Publishing

theorem Stage.isWaiting_eq_false {stage : Stage} (h : stage ≠ .waiting) :
    stage.isWaiting = false := by
  cases stage with
  | waiting => exact absurd rfl h
  | _ => rfl

namespace ChannelSystem

theorem run_nil (s : ChannelSystem) : s.run [] = s :=
  rfl

theorem run_cons (s : ChannelSystem) (move : ChannelMove) (moves : List ChannelMove) :
    s.run (move :: moves) = (s.step move).run moves :=
  rfl

/-! ## Shares -/

/-- The deliveries of a publish in a list, by the number of the publish. -/
def shareOf (i : Nat) (l : List (Nat × Delivery)) : List Delivery :=
  (l.filter fun e => e.1 == i).map (·.2)

theorem shareOf_append (i : Nat) (l l' : List (Nat × Delivery)) :
    shareOf i (l ++ l') = shareOf i l ++ shareOf i l' := by
  rw [shareOf, List.filter_append, List.map_append]
  rfl

theorem shareOf_singleton (i j : Nat) (d : Delivery) :
    shareOf i [(j, d)] = if j = i then [d] else [] := by
  by_cases h : j = i <;> simp [shareOf, h]

theorem mem_shareOf {i : Nat} {d : Delivery} {l : List (Nat × Delivery)} :
    d ∈ shareOf i l ↔ (i, d) ∈ l := by
  simp [shareOf]

theorem shareOf_withdraw (c : Channel) (i j : Nat) :
    shareOf i (c.withdraw j).waiting = if j = i then [] else shareOf i c.waiting := by
  show shareOf i (c.waiting.filter fun w => w.1 != j) = _
  rw [shareOf, List.filter_filter]
  by_cases h : j = i
  · subst h
    rw [if_pos rfl, List.map_eq_nil_iff, List.filter_eq_nil_iff]
    intro e he
    simp
  · rw [if_neg h, shareOf]
    congr 1
    apply List.filter_congr
    intro e he
    by_cases hi : e.1 = i
    · simp [hi, Ne.symm h]
    · simp [hi]

/-- If every number has at most one delivery in a list, the numbers in it are distinct. -/
theorem nodup_of_shareOf {l : List (Nat × Delivery)} (h : ∀ i, (shareOf i l).length ≤ 1) :
    (l.map (·.1)).Nodup := by
  rw [List.nodup_iff_count_le_one]
  intro i
  have hcount : (l.map (·.1)).count i = (shareOf i l).length := by
    rw [List.count, List.countP_map, List.countP_eq_length_filter, shareOf, List.length_map]
    rfl
  rw [hcount]
  exact h i

/-! ## The invariant -/

/-- What holds at all times: the queue fits; what has entered it was received, lost or is in it, in
this order; what waits and what has entered belongs to the publishes that wait and that were
answered; and the ids of the publishes are those that were handed out. -/
structure Orderly (s : ChannelSystem) : Prop where
  fits : s.channel.queue.length ≤ s.channel.capacity
  passed : s.entered.map (·.2) = s.received ++ s.lost ++ s.channel.queue
  unlost : s.channel.receiving = true → s.lost = []
  pending : ∀ i, shareOf i s.channel.waiting = (s.publishes[i]?).elim [] Publishing.pending
  accepted : ∀ i, shareOf i s.entered = (s.publishes[i]?).elim [] Publishing.accepted
  ids : s.publishes.filterMap (·.messageId) = s.channel.issuer.ids
  housed : ∀ p ∈ s.publishes, (s.handles[p.handle]?).map (·.1) = some p.topic
  sound : ∀ p ∈ s.publishes, p.Sound

theorem orderly_initial (capacity : Nat) (tag : String) : (initial capacity tag).Orderly :=
  ⟨Nat.zero_le _, rfl, fun _ => rfl, fun _ => rfl, fun _ => rfl, rfl, by rintro p ⟨⟩,
    by rintro p ⟨⟩⟩

variable {s : ChannelSystem} {i : Nat} {p : Publishing}

theorem waits_iff :
    s.waits i = true ↔ ∃ p, s.publishes[i]? = some p ∧ p.stage.isWaiting = true := by
  rw [waits, Option.any_eq_true]

theorem Orderly.waits_of_mem (hs : s.Orderly) {d : Delivery} (h : (i, d) ∈ s.channel.waiting) :
    s.waits i = true := by
  rw [← mem_shareOf, hs.pending] at h
  cases hp : s.publishes[i]? with
  | none =>
    rw [hp] at h
    cases h
  | some p =>
    rw [hp, Option.elim_some, Publishing.mem_pending] at h
    exact waits_iff.2 ⟨p, hp, h.1⟩

theorem eq_of_letIn? {c c' : Channel} {d : Delivery} (h : c.letIn? i = some (d, c')) :
    (i, d) ∈ c.waiting ∧ c.queue.length < c.capacity ∧
      c' = { c.withdraw i with queue := c.queue ++ [d] } := by
  unfold Channel.letIn? at h
  split at h
  · cases h
  · rename_i w hfind
    split at h
    · rename_i hroom
      cases h
      have hnumber : w.1 = i := by simpa using List.find?_some hfind
      exact ⟨hnumber ▸ List.mem_of_find?_eq_some hfind, hroom, rfl⟩
    · cases h

theorem getElem?_setStage {stage : Stage} {j : Nat} (hp : s.publishes[i]? = some p) :
    (s.setStage i stage).publishes[j]? =
      if i = j then some { p with stage := stage } else s.publishes[j]? := by
  show (s.publishes.modify i _)[j]? = _
  by_cases h : i = j
  · subst h
    simp [hp]
  · simp [h]

theorem eq_or_mem_of_mem_setStage {stage : Stage} {q : Publishing} (hp : s.publishes[i]? = some p)
    (hq : q ∈ (s.setStage i stage).publishes) :
    q = { p with stage := stage } ∨ q ∈ s.publishes := by
  obtain ⟨j, hj⟩ := List.getElem?_of_mem hq
  rw [getElem?_setStage hp] at hj
  by_cases h : i = j
  · rw [if_pos h] at hj
    exact .inl (Option.some.inj hj).symm
  · rw [if_neg h] at hj
    exact .inr (List.mem_of_getElem? hj)

/-- Setting where a publish stands leaves the ids as they are. -/
theorem messageIds_setStage (s : ChannelSystem) (i : Nat) (stage : Stage) :
    (s.setStage i stage).publishes.filterMap (·.messageId) =
      s.publishes.filterMap (·.messageId) := by
  have hmap : (s.setStage i stage).publishes.map (·.messageId) =
      s.publishes.map (·.messageId) := by
    apply List.ext_getElem?
    intro j
    show ((s.publishes.modify i _).map _)[j]? = _
    rw [List.getElem?_map, List.getElem?_map, List.getElem?_modify]
    cases s.publishes[j]? with
    | none => rfl
    | some p =>
      by_cases h : i = j <;> simp [h]
  have hfilter (l : List Publishing) :
      l.filterMap (·.messageId) = (l.map (·.messageId)).filterMap id := by
    rw [List.filterMap_map]
    rfl
  rw [hfilter, hfilter, hmap]

/-- A publish that waits comes to an end. What it has waiting is gone; whatever has entered the
queue instead is its delivery, if it is answered. -/
theorem Orderly.conclude (hs : s.Orderly) (hp : s.publishes[i]? = some p) {stage : Stage}
    (hwaits : p.stage.isWaiting = true) (hstage : stage.isWaiting = false)
    (hsound : { p with stage := stage : Publishing }.Sound) {c : Channel}
    {entered : List (Nat × Delivery)} (hissuer : c.issuer = s.channel.issuer)
    (hwaiting : c.waiting = (s.channel.withdraw i).waiting)
    (hreceiving : c.receiving = s.channel.receiving)
    (hfits : c.queue.length ≤ c.capacity)
    (hpassed : entered.map (·.2) = s.received ++ s.lost ++ c.queue)
    (hentered : ∀ j, shareOf j entered = shareOf j s.entered ++
      if i = j then { p with stage := stage : Publishing }.accepted else []) :
    ({ s with channel := c, entered := entered }.setStage i stage).Orderly := by
  have hget {j : Nat} : ({ s with channel := c, entered := entered }.setStage i
      stage).publishes[j]? = if i = j then some { p with stage := stage } else s.publishes[j]? :=
    getElem?_setStage (s := { s with channel := c, entered := entered }) hp
  refine ⟨hfits, hpassed, ?_, ?_, ?_, ?_, ?_, ?_⟩
  · intro hreceiving'
    exact hs.unlost (hreceiving ▸ hreceiving')
  · intro j
    rw [hget]
    show shareOf j c.waiting = _
    rw [hwaiting, shareOf_withdraw]
    by_cases h : i = j
    · rw [if_pos h, if_pos h, Option.elim_some, Publishing.pending_of_not_waiting hstage]
    · rw [if_neg h, if_neg h]
      exact hs.pending j
  · intro j
    rw [hget]
    show shareOf j entered = _
    rw [hentered]
    by_cases h : i = j
    · subst h
      rw [if_pos rfl, if_pos rfl, hs.accepted, hp, Option.elim_some, Option.elim_some,
        Publishing.accepted_of_waiting hwaits, List.nil_append]
    · rw [if_neg h, if_neg h, List.append_nil]
      exact hs.accepted j
  · show _ = c.issuer.ids
    rw [hissuer, ← hs.ids, messageIds_setStage]
  · intro q hq
    rcases eq_or_mem_of_mem_setStage hp hq with rfl | hq
    · exact hs.housed p (List.mem_of_getElem? hp)
    · exact hs.housed q hq
  · intro q hq
    rcases eq_or_mem_of_mem_setStage hp hq with rfl | hq
    · exact hsound
    · exact hs.sound q hq

theorem getElem?_concat {j : Nat} : (s.publishes ++ [p])[j]? =
    if s.publishes.length = j then some p else s.publishes[j]? := by
  rw [List.getElem?_append]
  by_cases hj : j < s.publishes.length
  · rw [if_pos hj, if_neg (by omega)]
  · by_cases hj' : s.publishes.length = j
    · subst hj'
      simp
    · rw [if_neg hj, if_neg hj', List.getElem?_eq_none (by simp; omega),
        List.getElem?_eq_none (by omega)]

/-- There is one more publish. What waits and the ids grow by what belongs to it. -/
theorem Orderly.enroll (hs : s.Orderly) {c : Channel} (hqueue : c.queue = s.channel.queue)
    (hcapacity : c.capacity = s.channel.capacity) (hreceiving : c.receiving = s.channel.receiving)
    (hpending : ∀ j, shareOf j c.waiting =
      shareOf j s.channel.waiting ++ if s.publishes.length = j then p.pending else [])
    (haccepted : p.accepted = [])
    (hids : c.issuer.ids = s.channel.issuer.ids ++ p.messageId.toList)
    (hhoused : (s.handles[p.handle]?).map (·.1) = some p.topic) (hsound : p.Sound) :
    ({ s with channel := c, publishes := s.publishes ++ [p] } : ChannelSystem).Orderly := by
  have hnone : s.publishes[s.publishes.length]? = none := List.getElem?_eq_none (Nat.le_refl _)
  refine ⟨?_, ?_, ?_, ?_, ?_, ?_, ?_, ?_⟩
  · show c.queue.length ≤ c.capacity
    rw [hqueue, hcapacity]
    exact hs.fits
  · show _ = s.received ++ s.lost ++ c.queue
    rw [hqueue]
    exact hs.passed
  · intro hreceiving'
    exact hs.unlost (hreceiving ▸ hreceiving')
  · intro j
    show shareOf j c.waiting = ((s.publishes ++ [p])[j]?).elim [] _
    rw [hpending, getElem?_concat, hs.pending]
    by_cases hj : s.publishes.length = j
    · rw [if_pos hj, if_pos hj, ← hj, hnone]
      rfl
    · rw [if_neg hj, if_neg hj, List.append_nil]
  · intro j
    show shareOf j s.entered = ((s.publishes ++ [p])[j]?).elim [] _
    rw [getElem?_concat, hs.accepted]
    by_cases hj : s.publishes.length = j
    · rw [if_pos hj, ← hj, hnone, Option.elim_some, haccepted]
      rfl
    · rw [if_neg hj]
  · show List.filterMap _ (s.publishes ++ [p]) = c.issuer.ids
    rw [List.filterMap_append, hs.ids, hids, List.filterMap_cons]
    cases p.messageId <;> rfl
  · intro q hq
    rcases List.mem_append.1 hq with hq | hq
    · exact hs.housed q hq
    · cases List.mem_singleton.1 hq
      exact hhoused
  · intro q hq
    rcases List.mem_append.1 hq with hq | hq
    · exact hs.sound q hq
    · cases List.mem_singleton.1 hq
      exact hsound

/-- A publish starts, with or without an id. -/
theorem Orderly.start (hs : s.Orderly) (h : Nat) (m : Message) : (s.step (.start h m)).Orderly := by
  simp only [ChannelSystem.step]
  split
  · exact hs
  · rename_i t hhandle
    have hhoused := congrArg (Option.map (·.1)) hhandle
    refine hs.enroll rfl rfl rfl ?_ rfl (List.append_nil _).symm hhoused ⟨rfl, rfl⟩
    intro j
    split <;> exact (List.append_nil _).symm
  · rename_i t hhandle
    have hhoused := congrArg (Option.map (·.1)) hhandle
    refine hs.enroll rfl rfl rfl ?_ rfl (Issuer.ids_next _) hhoused rfl
    intro j
    show shareOf j (s.channel.enlist t s.publishes.length m).2.waiting = _
    rw [Channel.enlist_waiting, shareOf_append, shareOf_singleton]
    rfl

theorem Orderly.enter (hs : s.Orderly) (i : Nat) : (s.step (.enter i)).Orderly := by
  rw [ChannelSystem.step]
  cases hletIn : s.channel.letIn? i with
  | none => exact hs
  | some letIn =>
    obtain ⟨d, c⟩ := letIn
    obtain ⟨hmem, hroom, rfl⟩ := eq_of_letIn? hletIn
    have hpending := hs.pending i
    rw [← mem_shareOf, hpending] at hmem
    cases hp : s.publishes[i]? with
    | none =>
      rw [hp] at hmem
      cases hmem
    | some p =>
      rw [hp, Option.elim_some, Publishing.mem_pending,
        Publishing.mem_deliveries] at hmem
      obtain ⟨hwaits, hid, hmessage, htopic⟩ := hmem
      have hdelivery : p.deliveries = [d] := by
        rw [Publishing.deliveries, hid, ← hmessage, ← htopic]
        rfl
      have hsound : ({ p with stage := .ended (.ok d.ack) } : Publishing).Sound := ⟨hid, htopic⟩
      refine hs.conclude hp hwaits rfl hsound rfl rfl rfl ?_ ?_ ?_
      · show (s.channel.queue ++ [d]).length ≤ s.channel.capacity
        rw [List.length_append]
        exact hroom
      · rw [List.map_append, hs.passed, List.append_assoc]
        rfl
      · intro j
        rw [shareOf_append, shareOf_singleton]
        show _ = _ ++ if i = j then p.deliveries else []
        rw [hdelivery]

/-- A publish that waits ends without an answer. -/
theorem Orderly.withdraw (hs : s.Orderly) (hwaits : s.waits i = true) {stage : Stage}
    (hstage : stage = .givenUp ∨ stage = .ended (.error (.transport Channel.hungUp))) :
    ({ s with channel := s.channel.withdraw i }.setStage i stage).Orderly := by
  obtain ⟨p, hp, hwaits⟩ := waits_iff.1 hwaits
  have hid : p.messageId.isSome := by
    have hsound := hs.sound p (List.mem_of_getElem? hp)
    unfold Publishing.Sound at hsound
    cases hstage : p.stage with
    | waiting => rwa [hstage] at hsound
    | _ => rw [hstage] at hwaits; cases hwaits
  refine hs.conclude hp hwaits ?_ ?_ rfl rfl rfl hs.fits hs.passed ?_
  · rcases hstage with rfl | rfl <;> rfl
  · rcases hstage with rfl | rfl <;> exact hid
  · intro j
    rcases hstage with rfl | rfl
    · simp [Publishing.accepted]
    · simp [Publishing.accepted]

theorem Orderly.receive (hs : s.Orderly) : (s.step .receive).Orderly := by
  rw [ChannelSystem.step]
  split
  · rename_i d c hreceiving htake
    unfold Channel.take? at htake
    split at htake
    · cases htake
    · rename_i d' queue hqueue
      cases htake
      have hpassed := hs.passed
      have hfits := hs.fits
      rw [hqueue] at hpassed hfits
      refine ⟨?_, ?_, hs.unlost, hs.pending, hs.accepted, hs.ids, hs.housed, hs.sound⟩
      · exact Nat.le_of_succ_le hfits
      · rw [hs.unlost hreceiving] at hpassed ⊢
        simpa using hpassed
  · exact hs

theorem Orderly.hangUp (hs : s.Orderly) : (s.step .hangUp).Orderly := by
  refine ⟨Nat.zero_le _, ?_, by rintro ⟨⟩, hs.pending, hs.accepted, hs.ids, hs.housed, hs.sound⟩
  show s.entered.map (·.2) = s.received ++ (s.lost ++ s.channel.queue) ++ []
  rw [hs.passed, List.append_nil, List.append_assoc]

/-- Every move keeps the order. -/
theorem Orderly.step (hs : s.Orderly) (move : ChannelMove) : (s.step move).Orderly := by
  cases move with
  | openHandle t =>
    rw [ChannelSystem.step]
    split
    · exact hs
    · refine ⟨hs.fits, hs.passed, hs.unlost, hs.pending, hs.accepted, hs.ids, ?_, hs.sound⟩
      exact fun p hp => topic_concat (hs.housed p hp) (t, false)
  | close h =>
    refine ⟨hs.fits, hs.passed, hs.unlost, hs.pending, hs.accepted, hs.ids, ?_, hs.sound⟩
    exact fun p hp => (topic_modify h).trans (hs.housed p hp)
  | start h m => exact hs.start h m
  | enter i => exact hs.enter i
  | refuse i =>
    rw [ChannelSystem.step]
    split
    · rename_i hgone
      exact hs.withdraw (Bool.and_eq_true _ _ ▸ hgone).1 (.inr rfl)
    · exact hs
  | giveUp i =>
    rw [ChannelSystem.step]
    split
    · rename_i hwaits
      exact hs.withdraw hwaits (.inl rfl)
    · exact hs
  | receive => exact hs.receive
  | hangUp => exact hs.hangUp

theorem Orderly.run (hs : s.Orderly) (moves : List ChannelMove) : (s.run moves).Orderly := by
  induction moves generalizing s with
  | nil => exact hs
  | cons move moves ih => exact ih (hs.step move)

end ChannelSystem

end EventIngress
