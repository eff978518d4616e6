import EventIngress.Proofs.Transport.Steps
import EventIngress.Transport.Journal
import EventIngress.Transport.PubSub
import Mathlib.Logic.Function.Basic

/-!
# Transports, turn by turn

All transports publish in the same way. A publish first looks whether its handle is closed. If it is
not, the publish departs: it takes a message id or sends a request. Later it arrives: its message is
queued or written, or the request is answered. Between these turns there may be turns of other
publishes, and handles may be opened and closed.

What departing and arriving mean is up to the transport, and so is what else can happen to what the
handles share.

Results:

* `Carrier`: what a transport is made of; `Carrier.channel`, `Carrier.journal`, `Carrier.pubSub`: the
  three transports.
* `Carrier.publish`: the turns of a publish without any between them; `Carrier.channel_publish`,
  `Carrier.journal_publish`, `Carrier.pubSub_publish`: these make up the publish of each transport.
* `Carrier.System`, `Carrier.Move`, `Carrier.System.step`: handles and publishes, and what can happen.
* `Carrier.System.run_publish`: the turns of a publish, one right after another.
-/

namespace EventIngress

/-- How far a publish has come. -/
inductive Leg (Load : Type) where
  /-- It has found its handle open. -/
  | checked
  /-- It has departed with what it carries. -/
  | underWay (load : Load)
  | ended (result : Except PublishFault Ack)
  /-- It broke down without a result. -/
  | broken
  /-- Nobody wants its result any more. -/
  | givenUp

namespace Leg

variable {Load : Type}

/-- How far a publish is that comes to its end or waits after these turns. -/
def ofProgress (load : Load) : Progress → Leg Load
  | .ended result => .ended result
  | .waiting => .underWay load
  | .broken => .broken

/-- Whether the publish is refused because its handle is closed. -/
def isRefused : Leg Load → Bool
  | ended (.error (.closed _)) => true
  | _ => false

theorem isRefused_iff {leg : Leg Load} :
    leg.isRefused = true ↔ ∃ t, leg = .ended (.error (.closed t)) := by
  constructor
  · intro h
    rcases leg with _ | _ | ((t | _ | _) | _) | _ | _
    · cases h
    · cases h
    · exact ⟨t, rfl⟩
    all_goals cases h
  · rintro ⟨t, rfl⟩
    rfl

theorem isRefused_ended {result : Except PublishFault Ack}
    (h : ∀ t, result ≠ .error (.closed t)) : (ended result : Leg Load).isRefused = false := by
  rw [Bool.eq_false_iff, Ne, isRefused_iff]
  rintro ⟨t, ⟨⟩⟩
  exact h t rfl

end Leg

/-- A transport: what its handles share, what each of them is made of, and the turns of a publish
that has found its handle open (`ensure_open`). A publish is known by its number. -/
structure Carrier where
  Shared : Type
  Data : Type
  /-- What a publish carries. -/
  Load : Type
  /-- The ways to arrive. -/
  Turn : Type
  /-- What else can happen to what the handles share. -/
  Event : Type
  openTopic : Shared → TopicId → Except OpenFault Data
  topic : Data → TopicId
  depart : Shared → Nat → Data → Message → Load × Shared
  arrive : Shared → Nat → Data → Message → Load → Turn → Leg Load × Shared
  happen : Shared → Event → Shared
  /-- Only the look at the handle refuses a publish because its handle is closed. -/
  arrive_isRefused : ∀ s p d m load turn, (arrive s p d m load turn).1.isRefused = false

namespace Carrier

/-- The turns of a publish without any between them. -/
def publish (K : Carrier) (s : K.Shared) (p : Nat) (d : K.Data) (closed : Bool) (m : Message)
    (turn : K.Turn) : Leg K.Load × K.Shared :=
  if closed then (.ended (.error (.closed (K.topic d))), s)
  else K.arrive (K.depart s p d m).2 p d m (K.depart s p d m).1 turn

/-! ## Channels -/

/-- How a publish into a channel may go on. -/
inductive ChannelTurn where
  /-- Its delivery enters the queue if there is room. -/
  | enter
  /-- It ends if the receiving end is gone. -/
  | refuse
  | giveUp

/-- What happens at the other end of a channel. -/
inductive ChannelEvent where
  | receive
  | hangUp

end Carrier

namespace Channel

open Carrier

/-- A publish that waits goes on. -/
def arrive (c : Channel) (ticket : Nat) (d : Delivery) : ChannelTurn → Leg Delivery × Channel
  | .enter =>
    match c.letIn? ticket with
    | some (d, c) => (.ended (.ok d.ack), c)
    | none => (.underWay d, c)
  | .refuse =>
    if c.receiving then (.underWay d, c) else (.ended (.error (.transport hungUp)), c.withdraw ticket)
  | .giveUp => (.givenUp, c.withdraw ticket)

theorem arrive_isRefused (c : Channel) (ticket : Nat) (d : Delivery) (turn : ChannelTurn) :
    (c.arrive ticket d turn).1.isRefused = false := by
  cases turn with
  | enter =>
    rw [arrive]
    split <;> rfl
  | refuse =>
    rw [arrive]
    split <;> rfl
  | giveUp => rfl

/-- Going on changes what waits only by what leaves. -/
theorem arrive_waiting (c : Channel) (ticket : Nat) (d : Delivery) (turn : ChannelTurn) :
    ∀ w ∈ (c.arrive ticket d turn).2.waiting, w ∈ c.waiting := by
  have hwithdraw : ∀ w ∈ (c.withdraw ticket).waiting, w ∈ c.waiting := fun w hw =>
    (List.mem_filter.1 hw).1
  cases turn with
  | enter =>
    rw [arrive, letIn?]
    cases c.waiting.find? fun w => w.1 == ticket with
    | none => exact fun w hw => hw
    | some w =>
      dsimp only
      by_cases hroom : c.queue.length < c.capacity
      · rw [if_pos hroom]
        exact hwithdraw
      · rw [if_neg hroom]
        exact fun w hw => hw
  | refuse =>
    rw [arrive]
    by_cases hreceiving : c.receiving = true
    · rw [if_pos hreceiving]
      exact fun w hw => hw
    · rw [if_neg hreceiving]
      exact hwithdraw
  | giveUp => exact hwithdraw

/-- What the other end does. -/
def happen (c : Channel) : ChannelEvent → Channel
  | .receive =>
    match c.receiving, c.take? with
    | true, some (_, c) => c
    | _, _ => c
  | .hangUp => c.discard

theorem happen_waiting (c : Channel) (e : ChannelEvent) : (c.happen e).waiting = c.waiting := by
  cases e with
  | receive =>
    obtain ⟨capacity, issuer, queue, waiting, receiving⟩ := c
    cases receiving <;> cases queue <;> rfl
  | hangUp => rfl

end Channel

namespace Carrier

/-- A publish into a channel departs with its message id. -/
def channel : Carrier where
  Shared := Channel
  Data := TopicId
  Load := Delivery
  Turn := ChannelTurn
  Event := ChannelEvent
  openTopic c t :=
    match c.openFault? with
    | some fault => .error fault
    | none => .ok t
  topic t := t
  depart c p t m := c.enlist t p m
  arrive c p _ _ d turn := c.arrive p d turn
  happen := Channel.happen
  arrive_isRefused c p _ _ d turn := c.arrive_isRefused p d turn

/-- A publish that is not held up enters the queue at once if there is room. -/
theorem channel_publish {c : Channel} {p : Nat} (h : ∀ w ∈ c.waiting, w.1 ≠ p) (t : TopicId)
    (closed : Bool) (m : Message) :
    channel.publish c p t closed m (if c.receiving then .enter else .refuse) =
      (Leg.ofProgress (c.enlist t p m).1 (c.publish t closed p m).1, (c.publish t closed p m).2) := by
  cases closed with
  | true => rfl
  | false =>
    show (c.enlist t p m).2.arrive p (c.enlist t p m).1 (if c.receiving then .enter else .refuse) = _
    have hstill : (c.enlist t p m).2.receiving = c.receiving := rfl
    rw [Channel.publish_eq h]
    cases hreceiving : c.receiving with
    | false =>
      rw [if_neg Bool.false_ne_true, Channel.arrive, hstill, hreceiving,
        if_neg Bool.false_ne_true]
      rfl
    | true =>
      rw [if_pos rfl, Channel.arrive]
      cases (c.enlist t p m).2.letIn? p <;> rfl

end Carrier

/-! ## Journals -/

namespace Journal

/-- Takes a message id. -/
def takeId (j : Journal) : String × Journal :=
  (j.issuer.next.1, { j with issuer := j.issuer.next.2 })

/-- Appends the line of a message with an id. -/
def append (j : Journal) (topic : TopicId) (messageId : String) (m : Message) :
    Progress × Journal :=
  let line := record topic messageId m
  if j.jammed then (.ended (.error (.transport "log writer lock poisoned")), j)
  else
    match j.mode with
    | .accepts => (.ended (.ok ⟨messageId, topic⟩), { j with written := j.written ++ line ++ [0x0a] })
    | .failsRecord reason => (.ended (.error (.transport reason)), j)
    | .failsLineEnd reason =>
      (.ended (.error (.transport reason)), { j with written := j.written ++ line })
    | .failsFlush reason =>
      (.ended (.error (.transport reason)), { j with written := j.written ++ line ++ [0x0a] })
    | .breaks => (.broken, { j with jammed := true })

theorem publish_eq (j : Journal) (topic : TopicId) (m : Message) :
    j.publish topic false m = j.takeId.2.append topic j.takeId.1 m :=
  rfl

end Journal

namespace Carrier

/-- A publish into a journal departs with its message id, too. How the writer behaves may change at
any time. -/
def journal : Carrier where
  Shared := Journal
  Data := TopicId
  Load := String
  Turn := Unit
  Event := WriterMode
  openTopic _ t := .ok t
  topic t := t
  depart j _ _ _ := j.takeId
  arrive j _ t m id _ := (Leg.ofProgress id (j.append t id m).1, (j.append t id m).2)
  happen j mode := { j with mode := mode }
  arrive_isRefused j _ t m id _ := by
    rw [Journal.append]
    split
    · rfl
    · split <;> rfl

theorem journal_publish (j : Journal) (p : Nat) (t : TopicId) (closed : Bool) (m : Message) :
    journal.publish j p t closed m () =
      (Leg.ofProgress j.takeId.1 (j.publish t closed m).1, (j.publish t closed m).2) := by
  cases closed with
  | true => rfl
  | false =>
    rw [Journal.publish_eq]
    rfl

/-! ## Requests over HTTP -/

/-- How a publish over HTTP may go on. -/
inductive HttpTurn where
  | answer (exchange : Exchange)
  | giveUp

theorem interpret_ne_closed (t : TopicId) (exchange : Exchange) (t' : TopicId) :
    PubSubHandle.interpret t exchange ≠ .error (.closed t') := by
  cases exchange with
  | failed reason => exact nofun
  | answered status body =>
    rw [PubSubHandle.interpret]
    split
    · split <;> exact nofun
    · exact nofun

/-- A publish over HTTP departs with its request. The handles share no more than that all requests
have been sent. -/
def pubSub (f : PubSubFactory) : Carrier where
  Shared := List HttpRequest
  Data := PubSubHandle
  Load := HttpRequest
  Turn := HttpTurn
  Event := Empty
  openTopic _ t := f.openTopic t
  topic d := d.topic
  depart sent _ d m := (d.request m, sent ++ [d.request m])
  arrive sent _ d _ _
    | .answer exchange => (.ended (PubSubHandle.interpret d.topic exchange), sent)
    | .giveUp => (.givenUp, sent)
  happen sent _ := sent
  arrive_isRefused sent _ d _ _ turn := by
    cases turn with
    | answer exchange => exact Leg.isRefused_ended (interpret_ne_closed d.topic exchange)
    | giveUp => rfl

theorem pubSub_publish (f : PubSubFactory) (sent : List HttpRequest) (p : Nat) (d : PubSubHandle)
    (closed : Bool) (m : Message) (exchange : HttpRequest → Exchange) :
    (pubSub f).publish sent p d closed m (.answer (exchange (d.request m))) =
      (.ended (({ d with closed := closed }).publish m exchange).2,
        sent ++ (({ d with closed := closed }).publish m exchange).1.toList) := by
  cases closed with
  | true => exact Prod.ext rfl (List.append_nil sent).symm
  | false => rfl

/-! ## Handles and publishes -/

variable {K : Carrier}

/-- A publish: its handle with what that is made of, its message, and how far it has come. -/
structure Publish (K : Carrier) where
  handle : Nat
  data : K.Data
  message : Message
  leg : Leg K.Load

/-- Handles of one factory, each with what it is made of and whether it is closed (`CloseFlag`), and
the publishes on them by their numbers. -/
@[ext]
structure System (K : Carrier) where
  shared : K.Shared
  handles : List (K.Data × Bool) := []
  publishes : Nat → Option K.Publish := fun _ => none

/-- What can happen. -/
inductive Move (K : Carrier) where
  /-- A handle is opened. -/
  | openHandle (t : TopicId)
  /-- A handle is closed. -/
  | close (h : Nat)
  /-- A publish starts: it looks whether its handle is closed. -/
  | check (p h : Nat) (m : Message)
  /-- A publish that has found its handle open departs. -/
  | depart (p : Nat)
  /-- A publish that is under way goes on. -/
  | arrive (p : Nat) (turn : K.Turn)
  /-- Something else happens. -/
  | happen (e : K.Event)

namespace System

/-- A factory without handles. -/
def initial (shared : K.Shared) : K.System where
  shared := shared

/-- Sets how far a publish has come. -/
def set (s : K.System) (p : Nat) (q : K.Publish) : K.System :=
  { s with publishes := Function.update s.publishes p (some q) }

/-- One move. A move that is not possible changes nothing. -/
def step (s : K.System) : K.Move → K.System
  | .openHandle t =>
    match K.openTopic s.shared t with
    | .error _ => s
    | .ok d => { s with handles := s.handles ++ [(d, false)] }
  | .close h => { s with handles := s.handles.modify h fun x => (x.1, true) }
  | .check p h m =>
    match s.publishes p, s.handles[h]? with
    | none, some (d, true) => s.set p ⟨h, d, m, .ended (.error (.closed (K.topic d)))⟩
    | none, some (d, false) => s.set p ⟨h, d, m, .checked⟩
    | _, _ => s
  | .depart p =>
    match s.publishes p with
    | some ⟨h, d, m, .checked⟩ =>
      let (load, shared) := K.depart s.shared p d m
      { s with shared := shared }.set p ⟨h, d, m, .underWay load⟩
    | _ => s
  | .arrive p turn =>
    match s.publishes p with
    | some ⟨h, d, m, .underWay load⟩ =>
      let (leg, shared) := K.arrive s.shared p d m load turn
      { s with shared := shared }.set p ⟨h, d, m, leg⟩
    | _ => s
  | .happen e => { s with shared := K.happen s.shared e }

/-- Some moves, one after another. -/
def run (s : K.System) (moves : List K.Move) : K.System :=
  moves.foldl step s

variable {s : K.System} {p h : Nat} {d : K.Data} {m : Message}

@[simp] theorem set_publishes (s : K.System) (p : Nat) (q : K.Publish) :
    (s.set p q).publishes p = some q :=
  Function.update_self p _ s.publishes

theorem set_publishes_of_ne (s : K.System) {p' : Nat} (hne : p' ≠ p) (q : K.Publish) :
    (s.set p q).publishes p' = s.publishes p' :=
  Function.update_of_ne hne _ s.publishes

theorem step_close_handles (s : K.System) (h h' : Nat) :
    (s.step (.close h)).handles[h']? =
      (s.handles[h']?).map fun x => (x.1, decide (h = h') || x.2) := by
  show (s.handles.modify h _)[h']? = _
  rw [List.getElem?_modify]
  by_cases hsame : h = h' <;> simp [hsame]

theorem step_check_closed (hnew : s.publishes p = none) (hhandle : s.handles[h]? = some (d, true)) :
    s.step (.check p h m) = s.set p ⟨h, d, m, .ended (.error (.closed (K.topic d)))⟩ := by
  rw [step, hnew, hhandle]

theorem step_check_open (hnew : s.publishes p = none) (hhandle : s.handles[h]? = some (d, false)) :
    s.step (.check p h m) = s.set p ⟨h, d, m, .checked⟩ := by
  rw [step, hnew, hhandle]

/-- A number is taken once. -/
theorem step_check_taken {q : K.Publish} (htaken : s.publishes p = some q) :
    s.step (.check p h m) = s := by
  rw [step, htaken]

theorem step_check_unopened (hhandle : s.handles[h]? = none) : s.step (.check p h m) = s := by
  rw [step, hhandle]
  cases s.publishes p <;> rfl

theorem step_depart (hp : s.publishes p = some ⟨h, d, m, .checked⟩) :
    s.step (.depart p) = { s with shared := (K.depart s.shared p d m).2 }.set p
      ⟨h, d, m, .underWay (K.depart s.shared p d m).1⟩ := by
  rw [step, hp]

theorem step_depart_idle (hp : ∀ h d m, s.publishes p ≠ some ⟨h, d, m, .checked⟩) :
    s.step (.depart p) = s := by
  rw [step]
  split
  · rename_i heq
    exact absurd heq (hp _ _ _)
  · rfl

theorem step_arrive {load : K.Load} (hp : s.publishes p = some ⟨h, d, m, .underWay load⟩)
    (turn : K.Turn) :
    s.step (.arrive p turn) = { s with shared := (K.arrive s.shared p d m load turn).2 }.set p
      ⟨h, d, m, (K.arrive s.shared p d m load turn).1⟩ := by
  rw [step, hp]

theorem step_arrive_idle (hp : ∀ h d m load, s.publishes p ≠ some ⟨h, d, m, .underWay load⟩)
    (turn : K.Turn) : s.step (.arrive p turn) = s := by
  rw [step]
  split
  · rename_i heq
    exact absurd heq (hp _ _ _ _)
  · rfl

/-- The turns of a publish, one right after another. -/
theorem run_publish (hnew : s.publishes p = none) {closed : Bool}
    (hhandle : s.handles[h]? = some (d, closed)) {turn : K.Turn} {leg : Leg K.Load}
    {shared : K.Shared} (hpublish : K.publish s.shared p d closed m turn = (leg, shared)) :
    let s' := s.run [.check p h m, .depart p, .arrive p turn]
    s'.publishes p = some ⟨h, d, m, leg⟩ ∧ s'.shared = shared := by
  simp only [run, List.foldl_cons, List.foldl_nil]
  cases closed with
  | true =>
    cases hpublish
    rw [step_check_closed hnew hhandle, step_depart_idle (by simp), step_arrive_idle (by simp)]
    exact ⟨set_publishes _ _ _, rfl⟩
  | false =>
    have harrive : K.arrive (K.depart s.shared p d m).2 p d m (K.depart s.shared p d m).1 turn =
        (leg, shared) := hpublish
    rw [step_check_open hnew hhandle, step_depart (set_publishes _ _ _),
      step_arrive (set_publishes _ _ _)]
    have hleg := congrArg (fun r => some (⟨h, d, m, r.1⟩ : K.Publish)) harrive
    exact ⟨(set_publishes _ _ _).trans hleg, congrArg Prod.snd harrive⟩

end System

end Carrier

end EventIngress
