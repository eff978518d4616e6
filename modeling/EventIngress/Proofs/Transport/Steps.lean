import EventIngress.Transport.Channel

/-!
# A channel, step by step

Any number of handles publish into one channel. A publish that has its message id waits until its
delivery enters the queue. Between the two there may be any steps of others: the queue may be full,
the handle may be closed, the publish may be given up, and another one that waits may be served
first, in whatever order room is granted. Nothing is assumed about that order.

`Channel.publish` and `Channel.receive` take several such steps at once, and grant room in the order
of waiting.

Results:

* `Channel.enlist`, `Channel.letIn?`, `Channel.take?`, `Channel.discard`: the parts of a publish, of
  a receive and of the end of the receiving end.
* `Channel.publish_eq`, `Channel.receive_eq`: the functions of the channel are made of these parts.
* `ChannelSystem`, `ChannelMove`, `ChannelSystem.step`: handles, publishes and a receiver around a
  channel, and what can happen there.
-/

namespace EventIngress

namespace Channel

/-! ## The parts -/

/-- Takes a message id and begins to wait for room. -/
def enlist (c : Channel) (topic : TopicId) (ticket : Nat) (m : Message) : Delivery × Channel :=
  let (messageId, issuer) := c.issuer.next
  let d : Delivery := ⟨m, topic, messageId⟩
  (d, { c with issuer := issuer, waiting := c.waiting ++ [(ticket, d)] })

/-- Lets a publish that waits into the queue, if there is room. -/
def letIn? (c : Channel) (ticket : Nat) : Option (Delivery × Channel) :=
  match c.waiting.find? fun w => w.1 == ticket with
  | none => none
  | some w =>
    if c.queue.length < c.capacity then
      some (w.2, { c.withdraw ticket with queue := c.queue ++ [w.2] })
    else none

/-- Takes the oldest delivery out of the queue. -/
def take? (c : Channel) : Option (Delivery × Channel) :=
  match c.queue with
  | [] => none
  | d :: queue => some (d, { c with queue := queue })

/-- Drops the receiving end with what is in the queue. -/
def discard (c : Channel) : Channel :=
  { c with queue := [], receiving := false }

/-! ## The functions of the channel -/

variable {c : Channel} {ticket : Nat}

theorem enlist_waiting (topic : TopicId) (m : Message) :
    (c.enlist topic ticket m).2.waiting =
      c.waiting ++ [(ticket, ⟨m, topic, c.issuer.next.1⟩)] :=
  rfl

/-- Giving up a publish that has just begun to wait leaves the others as they were. -/
theorem withdraw_enlist (h : ∀ w ∈ c.waiting, w.1 ≠ ticket) (topic : TopicId) (m : Message) :
    (c.enlist topic ticket m).2.withdraw ticket = { c with issuer := c.issuer.next.2 } := by
  have hwaiting : (c.enlist topic ticket m).2.waiting.filter (fun w => w.1 != ticket) =
      c.waiting := by
    rw [enlist_waiting, List.filter_append, List.filter_eq_self.2 (by simpa using h)]
    simp
  rw [withdraw, hwaiting]
  rfl

theorem letIn?_enlist (h : ∀ w ∈ c.waiting, w.1 ≠ ticket) (topic : TopicId) (m : Message) :
    (c.enlist topic ticket m).2.letIn? ticket =
      if c.queue.length < c.capacity then
        some (⟨m, topic, c.issuer.next.1⟩, { c with
          issuer := c.issuer.next.2
          queue := c.queue ++ [⟨m, topic, c.issuer.next.1⟩] })
      else none := by
  have hfind : (c.enlist topic ticket m).2.waiting.find? (fun w => w.1 == ticket) =
      some (ticket, ⟨m, topic, c.issuer.next.1⟩) := by
    rw [enlist_waiting, List.find?_append, List.find?_eq_none.2 (by simpa using h),
      Option.none_or, List.find?_singleton, if_pos (by simp)]
  rw [letIn?, hfind]
  dsimp only
  rw [withdraw_enlist h]
  rfl

/-- A publish on an open handle takes an id; then it fails if nobody receives any more, and else it
enters the queue if there is room, and waits if there is none. -/
theorem publish_eq (h : ∀ w ∈ c.waiting, w.1 ≠ ticket) (topic : TopicId) (m : Message) :
    c.publish topic false ticket m =
      match c.receiving, (c.enlist topic ticket m).2.letIn? ticket with
      | false, _ =>
        (.ended (.error (.transport hungUp)), (c.enlist topic ticket m).2.withdraw ticket)
      | true, some (d, c') => (.ended (.ok d.ack), c')
      | true, none => (.waiting, (c.enlist topic ticket m).2) := by
  rw [withdraw_enlist h, letIn?_enlist h]
  obtain ⟨capacity, issuer, queue, waiting, receiving⟩ := c
  cases receiving with
  | false => rfl
  | true =>
    show (if queue.length < capacity then _ else _) = _
    by_cases hroom : queue.length < capacity
    · simp only [if_pos hroom]
      rfl
    · simp only [if_neg hroom]
      rfl

/-- The publish that waits longest is let in where there is room. -/
theorem letIn?_of_head {w : Delivery} {waiting : List (Nat × Delivery)}
    (hwaiting : c.waiting = (ticket, w) :: waiting) (hnodup : (c.waiting.map (·.1)).Nodup)
    (hroom : c.queue.length < c.capacity) :
    c.letIn? ticket = some (w, { c with queue := c.queue ++ [w], waiting := waiting }) := by
  obtain ⟨capacity, issuer, queue, _, receiving⟩ := c
  subst hwaiting
  rw [List.map_cons, List.nodup_cons] at hnodup
  have hothers : ((ticket, w) :: waiting).filter (fun w => w.1 != ticket) = waiting := by
    rw [List.filter_cons_of_neg (by simp), List.filter_eq_self]
    rintro ⟨other, x⟩ hx
    simp only [bne_iff_ne, ne_eq]
    rintro rfl
    exact hnodup.1 (List.mem_map.2 ⟨_, hx, rfl⟩)
  rw [letIn?, List.find?_cons_of_pos (by simp)]
  dsimp only
  rw [if_pos hroom, withdraw, hothers]

/-- Receiving takes the oldest delivery, and then lets in the publish that waits longest. -/
theorem receive_eq (hfits : c.queue.length ≤ c.capacity)
    (hnodup : (c.waiting.map (·.1)).Nodup) :
    c.receive =
      match c.take?, c.waiting with
      | none, _ => (none, none, c)
      | some (d, c'), [] => (some d, none, c')
      | some (d, c'), (ticket, w) :: _ =>
        (some d, some (ticket, w.ack), ((c'.letIn? ticket).map (·.2)).getD c') := by
  obtain ⟨capacity, issuer, queue, waiting, receiving⟩ := c
  cases queue with
  | nil => rfl
  | cons d queue =>
    cases waiting with
    | nil => rfl
    | cons w waiting =>
      obtain ⟨ticket, w⟩ := w
      rw [take?]
      dsimp only
      rw [letIn?_of_head (c := ⟨capacity, issuer, queue, (ticket, w) :: waiting, receiving⟩)
        rfl hnodup hfits]
      rfl

/-- When the receiving end is gone, all publishes that wait are given up. -/
theorem hangUp_eq (c : Channel) :
    c.hangUp = (c.waiting.map (·.1), (c.waiting.map (·.1)).foldl withdraw c.discard) := by
  have hnone : ∀ (tickets : List Nat) (c : Channel), (∀ w ∈ c.waiting, w.1 ∈ tickets) →
      tickets.foldl withdraw c = { c with waiting := [] } := by
    intro tickets
    induction tickets with
    | nil =>
      intro c hall
      have hwaiting : c.waiting = [] := List.eq_nil_iff_forall_not_mem.2 fun w hw => by
        simpa using hall w hw
      rw [List.foldl_nil, ← hwaiting]
    | cons ticket tickets ih =>
      intro c hall
      rw [List.foldl_cons, ih]
      · rfl
      · intro w hw
        obtain ⟨hw, hne⟩ := List.mem_filter.1 hw
        exact (List.mem_cons.1 (hall w hw)).resolve_left (by simpa using hne)
  rw [hnone (c.waiting.map (·.1)) c.discard fun w hw => List.mem_map.2 ⟨w, hw, rfl⟩]
  rfl

end Channel

/-! ## Handles, publishes and a receiver -/

/-- Where a publish stands. -/
inductive Stage where
  /-- It has its message id and waits for room. -/
  | waiting
  | ended (result : Except PublishFault Ack)
  /-- Its time was over, or nobody wanted its result any more. -/
  | givenUp

/-- Whether a publish that stands there waits. -/
def Stage.isWaiting : Stage → Bool
  | waiting => true
  | _ => false

/-- How far a publish has come that was not given up. -/
def Stage.progress? : Stage → Option Progress
  | waiting => some .waiting
  | ended result => some (.ended result)
  | givenUp => none

/-- A publish: its handle with the topic, its message, the id that it took if it took one, and where
it stands. -/
structure Publishing where
  handle : Nat
  topic : TopicId
  message : Message
  messageId : Option String
  stage : Stage

/-- Handles of one factory or of copies of it, with what has become of all publishes on them. A
publish is known by its number. `entered` lists what has entered the queue, each delivery with the
number of its publish; `lost` lists what was in the queue when the receiving end was dropped. -/
structure ChannelSystem where
  channel : Channel
  handles : List (TopicId × Bool) := []
  publishes : List Publishing := []
  entered : List (Nat × Delivery) := []
  received : List Delivery := []
  lost : List Delivery := []

/-- What can happen. -/
inductive ChannelMove where
  /-- A handle is opened. -/
  | openHandle (t : TopicId)
  /-- A handle is closed. -/
  | close (h : Nat)
  /-- A publish starts: it looks whether its handle is closed, and takes a message id. -/
  | start (h : Nat) (m : Message)
  /-- The delivery of a publish enters the queue, and the publish ends. It may have been granted
  room before the receiving end was dropped, and enter after that. -/
  | enter (i : Nat)
  /-- A publish ends because the receiving end is gone. -/
  | refuse (i : Nat)
  /-- A publish that waits is given up. -/
  | giveUp (i : Nat)
  | receive
  /-- The receiving end is dropped. -/
  | hangUp

namespace ChannelSystem

/-- A channel that nobody has used. -/
def initial (capacity : Nat) (tag : String) : ChannelSystem :=
  { channel := { capacity := capacity, issuer := { tag := tag } } }

/-- Sets where a publish stands. -/
def setStage (s : ChannelSystem) (i : Nat) (stage : Stage) : ChannelSystem :=
  { s with publishes := s.publishes.modify i fun p => { p with stage := stage } }

/-- Whether a publish waits. -/
def waits (s : ChannelSystem) (i : Nat) : Bool :=
  s.publishes[i]?.any fun p => p.stage.isWaiting

/-- One move. A move that is not possible changes nothing. -/
def step (s : ChannelSystem) : ChannelMove → ChannelSystem
  | .openHandle t =>
    match s.channel.openFault? with
    | some _ => s
    | none => { s with handles := s.handles ++ [(t, false)] }
  | .close h => { s with handles := s.handles.modify h fun x => (x.1, true) }
  | .start h m =>
    match s.handles[h]? with
    | none => s
    | some (t, true) =>
      { s with publishes := s.publishes ++ [⟨h, t, m, none, .ended (.error (.closed t))⟩] }
    | some (t, false) =>
      let (d, channel) := s.channel.enlist t s.publishes.length m
      { s with
        channel := channel
        publishes := s.publishes ++ [⟨h, t, m, some d.messageId, .waiting⟩] }
  | .enter i =>
    match s.channel.letIn? i with
    | none => s
    | some (d, channel) =>
      { s with
        channel := channel
        entered := s.entered ++ [(i, d)] }.setStage i (.ended (.ok d.ack))
  | .refuse i =>
    if s.waits i && !s.channel.receiving then
      { s with channel := s.channel.withdraw i }.setStage i
        (.ended (.error (.transport Channel.hungUp)))
    else s
  | .giveUp i =>
    if s.waits i then { s with channel := s.channel.withdraw i }.setStage i .givenUp else s
  | .receive =>
    match s.channel.receiving, s.channel.take? with
    | true, some (d, channel) => { s with channel := channel, received := s.received ++ [d] }
    | _, _ => s
  | .hangUp => { s with channel := s.channel.discard, lost := s.lost ++ s.channel.queue }

/-- Some moves, one after another. -/
def run (s : ChannelSystem) (moves : List ChannelMove) : ChannelSystem :=
  moves.foldl step s

end ChannelSystem

end EventIngress
