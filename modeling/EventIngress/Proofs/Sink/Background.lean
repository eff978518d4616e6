import EventIngress.Proofs.Sink.Sends
import EventIngress.Sink.Bench

/-!
# Sends under a virtual clock

Sends under a virtual clock, in the foreground or in the background, are sends like any other. What
becomes of the cache and of its handles is settled when the handle is there: that a publish ends,
that a timeout passes or that a send is dropped changes neither, and sends that go on in the
background do not disturb the cache for each other.

Results:

* `Bench.start_eq`: a send under a virtual clock starts as `Sink.start` says.
* `Bench.Alike`: the cache and the closed handles are the same; one lemma for each operation.
* `Bench.alike_send`, `Bench.alike_sendInBackground`: what a send leaves, at any time after it.
-/

namespace EventIngress

/-! ## Closed handles -/

namespace World

/-- Which handles are closed, and how often and when they were closed. -/
def closings (w : World) : List (Bool × List Closing) :=
  w.handles.map fun h => (h.closed, h.closings)

theorem closings_modifyHandle (w : World) (h : Nat) {f : Handle → Handle}
    (hf : ∀ x, (f x).closed = x.closed ∧ (f x).closings = x.closings) :
    (w.modifyHandle h f).closings = w.closings := by
  refine List.ext_getElem? fun i => ?_
  rw [closings, closings, List.getElem?_map, List.getElem?_map, modifyHandle, List.getElem?_modify]
  cases w.handles[i]? with
  | none => rfl
  | some x =>
    show some (_, _) = some (_, _)
    split
    · rw [(hf x).1, (hf x).2]
    · rfl

theorem closings_accept (w : World) (h : Nat) (m : Message) :
    (w.accept h m).closings = w.closings :=
  closings_modifyHandle w h fun _ => ⟨rfl, rfl⟩

theorem closings_withdraw (w : World) (h ticket : Nat) :
    (w.withdraw h ticket).closings = w.closings := by
  rw [withdraw]
  split
  · exact closings_modifyHandle w h fun _ => ⟨rfl, rfl⟩
  · rfl
  · rfl

/-- A publish closes no handle. -/
theorem closings_startPublish (w : World) (h ticket : Nat) (m : Message) :
    (w.startPublish h ticket m).2.closings = w.closings := by
  rw [startPublish]
  cases w.handles[h]? with
  | none => rfl
  | some handle =>
    -- The transport takes the message first; what it has answered then decides what is noted.
    cases w.transport with
    | recorders =>
      dsimp only
      have hmodify := closings_modifyHandle w h (f := fun x => { x with
        recorder := (handle.recorder.publish handle.closed w.refusal ticket).2 }) fun _ => ⟨rfl, rfl⟩
      split
      · exact (closings_accept _ _ _).trans hmodify
      · exact hmodify
    | channel c =>
      dsimp only
      split
      · exact closings_accept _ _ _
      · rfl
    | journal j =>
      dsimp only
      split
      · exact closings_accept _ _ _
      · rfl

end World

namespace Bench

/-! ## Starting -/

/-- Where a send under a virtual clock stands; `ticket` is the number of its publish. -/
def Stands (ticket : Nat) : SendState Nat → Started → Prop
  | .ended result, at' => at' = .ended (.ended result)
  | .broken, at' => at' = .ended .broken
  | .waiting _ _ _, at' => at' = .waiting ticket
  | .dropped, _ => False

/-- The publish that waits, if a send waits. -/
def waitingPublish (t : Bench) (name : Option String) : SendState Nat → List WaitingPublish
  | .waiting h m limit =>
    [⟨t.tickets, h, m, name, limit.map fun timeout => (t.deadline timeout, timeout)⟩]
  | _ => []

/-- A send under a virtual clock starts like any other. -/
theorem start_eq (t : Bench) (b : BrokerIdentity) (e : Event) (ctx : SendContext)
    (name : Option String) :
    ∃ state c w, t.sink.start World.collaborators (World.publisher t.tickets) b e ctx
        (t.cache, t.world) = (state, (c, w)) ∧
      (t.start b e ctx name).2.cache = c ∧ (t.start b e ctx name).2.world = w ∧
      Stands t.tickets state (t.start b e ctx name).1 ∧
      (t.start b e ctx name).2.waiting = t.waiting ++ t.waitingPublish name state := by
  rw [start, Sink.start]
  have hrun : t.run (t.sink.prepare World.collaborators b e ctx) =
      ((t.sink.prepare World.collaborators b e ctx (t.cache, t.world)).1,
        { t with
          cache := (t.sink.prepare World.collaborators b e ctx (t.cache, t.world)).2.1
          world := (t.sink.prepare World.collaborators b e ctx (t.cache, t.world)).2.2 }) := rfl
  rw [hrun]
  rcases t.sink.prepare World.collaborators b e ctx (t.cache, t.world) with
    ⟨(f | _) | ⟨h, m⟩, c, w⟩
  · exact ⟨_, _, _, rfl, rfl, rfl, rfl, (List.append_nil _).symm⟩
  · exact ⟨_, _, _, rfl, rfl, rfl, rfl, (List.append_nil _).symm⟩
  · dsimp only [World.publisher]
    rcases w.startPublish h t.tickets m with ⟨result | _ | _, w'⟩
    · exact ⟨_, _, _, rfl, rfl, rfl, rfl, (List.append_nil _).symm⟩
    · exact ⟨_, _, _, rfl, rfl, rfl, rfl, rfl⟩
    · exact ⟨_, _, _, rfl, rfl, rfl, rfl, (List.append_nil _).symm⟩

/-! ## What stays alike -/

/-- What a cache holds and which handles are closed is the same, and so is how often and when they
were closed. -/
structure Alike (t t' : Bench) : Prop where
  cache : t'.cache = t.cache
  closings : t'.world.closings = t.world.closings

theorem Alike.refl (t : Bench) : t.Alike t := ⟨rfl, rfl⟩

theorem Alike.trans {t t' t'' : Bench} (h : t.Alike t') (h' : t'.Alike t'') : t.Alike t'' :=
  ⟨h'.cache.trans h.cache, h'.closings.trans h.closings⟩

theorem alike_note (t : Bench) (name : Option String) (result : SendResult) :
    t.Alike (t.note name result) := by
  cases name <;> exact ⟨rfl, rfl⟩

theorem alike_conclude (t : Bench) (ticket : Nat) (result : Except PublishFault Ack) :
    t.Alike (t.conclude ticket result) := by
  rw [conclude]
  split
  · exact .refl t
  · refine .trans ?_ (alike_note _ _ _)
    refine ⟨rfl, ?_⟩
    cases result with
    | ok ack => exact World.closings_accept _ _ _
    | error fault => rfl

theorem alike_giveUp (t : Bench) (w : WaitingPublish) : t.Alike (t.giveUp w) :=
  ⟨rfl, World.closings_withdraw _ _ _⟩

theorem alike_expire (t : Bench) (w : WaitingPublish) : t.Alike (t.expire w) := by
  rw [expire]
  split
  · exact .refl t
  · exact (alike_giveUp t w).trans (alike_note _ _ _)

theorem alike_foldl {α : Type} {f : Bench → α → Bench} (hf : ∀ (t : Bench) a, t.Alike (f t a))
    (as : List α) (t : Bench) : t.Alike (as.foldl f t) := by
  induction as generalizing t with
  | nil => exact .refl t
  | cons a as ih => exact (hf t a).trans (ih (f t a))

theorem alike_passUntil (t : Bench) (time : Nat) : t.Alike (t.passUntil time) :=
  .trans (alike_foldl alike_expire _ t) ⟨rfl, rfl⟩

theorem alike_takeEnded (t : Bench) (name : String) : t.Alike (t.takeEnded name).2 := by
  rw [takeEnded]
  split <;> exact ⟨rfl, rfl⟩

/-! ## What else happens while a send goes on in the background -/

/-- What may happen to sends that go on in the background. -/
inductive Meanwhile where
  | join (name : String)
  | cancel (name : String)
  | advance (millis : Nat)
  | release (h : Nat)
  | receive
  | hangUp

/-- What a bench is after something has happened. -/
def passBy (t : Bench) : Meanwhile → Bench
  | .join name => (t.join name).2
  | .cancel name => (t.cancel name).getD t
  | .advance millis => t.advance millis
  | .release h => (t.release h).getD t
  | .receive => t.receive.2
  | .hangUp => t.hangUp

theorem alike_join (t : Bench) (name : String) : t.Alike (t.join name).2 := by
  have htake := alike_takeEnded t name
  rw [join]
  split
  · rename_i hended
    rwa [hended] at htake
  · rename_i hended
    rw [hended] at htake
    split
    · exact htake
    · refine htake.trans ?_
      dsimp only
      split <;> rename_i hended' <;>
        exact .trans (alike_passUntil _ _) (hended' ▸ alike_takeEnded _ name)

theorem alike_cancel (t : Bench) (name : String) : t.Alike ((t.cancel name).getD t) := by
  have htake := alike_takeEnded t name
  rw [cancel]
  split
  · rename_i hended
    rwa [hended] at htake
  · rename_i t' hended
    rw [hended] at htake
    cases t'.waiting.find? fun w => w.name == some name with
    | none => exact .refl t
    | some w => exact htake.trans (alike_giveUp _ w)

theorem alike_release (t : Bench) (h : Nat) : t.Alike ((t.release h).getD t) := by
  rw [release]
  cases t.world.handles[h]? with
  | none => exact .refl t
  | some handle =>
    rw [Option.map_some, Option.getD_some]
    rcases handle.recorder.release t.world.refusal with ⟨done, r⟩
    have hreleased : t.Alike
        { t with world := t.world.modifyHandle h fun x => { x with recorder := r } } :=
      ⟨rfl, World.closings_modifyHandle _ _ fun _ => ⟨rfl, rfl⟩⟩
    cases done with
    | none => exact hreleased
    | some done => exact hreleased.trans (alike_conclude _ done.1 done.2)

theorem alike_receive (t : Bench) : t.Alike t.receive.2 := by
  rw [receive]
  split
  · rename_i c _
    rcases c.receive with ⟨d, done, c'⟩
    have hreceived : t.Alike { t with world := { t.world with transport := .channel c' } } :=
      ⟨rfl, rfl⟩
    cases done with
    | none => exact hreceived
    | some done => exact hreceived.trans (alike_conclude _ done.1 (.ok done.2))
  · exact .refl t

theorem alike_hangUp (t : Bench) : t.Alike t.hangUp := by
  rw [hangUp]
  split
  · rename_i c _
    rcases c.hangUp with ⟨tickets, c'⟩
    have hhungUp : t.Alike { t with world := { t.world with transport := .channel c' } } :=
      ⟨rfl, rfl⟩
    exact hhungUp.trans (alike_foldl (fun t ticket => alike_conclude t ticket _) tickets _)
  · exact .refl t

theorem alike_passBy (t : Bench) (x : Meanwhile) : t.Alike (t.passBy x) := by
  cases x with
  | join name => exact alike_join t name
  | cancel name => exact alike_cancel t name
  | advance millis => exact alike_passUntil t _
  | release h => exact alike_release t h
  | receive => exact alike_receive t
  | hangUp => exact alike_hangUp t

/-! ## The cache after a send -/

theorem alike_start (t : Bench) (b : BrokerIdentity) (e : Event) (ctx : SendContext)
    (name : Option String) : (t.get b).2.Alike (t.start b e ctx name).2 := by
  obtain ⟨state, c, w, heq, hcache, hworld, -, -⟩ := start_eq t b e ctx name
  have hkept : c = (t.get b).2.cache ∧ w.closings = (t.get b).2.world.closings := by
    rw [Sink.start_eq] at heq
    show c = (TopicCache.getOrCreate World.collaborators b (t.cache, t.world)).2.1 ∧
      w.closings =
        (TopicCache.getOrCreate World.collaborators b (t.cache, t.world)).2.2.closings
    generalize TopicCache.getOrCreate World.collaborators b (t.cache, t.world) = got at heq
    rcases got with ⟨why | h, c', w'⟩
    · cases heq
      exact ⟨rfl, rfl⟩
    · dsimp only at heq
      cases hencode : t.sink.encoder e ctx.trace with
      | error fault =>
        rw [hencode] at heq
        cases heq
        exact ⟨rfl, rfl⟩
      | ok m =>
        rw [hencode] at heq
        cases heq
        exact ⟨rfl, World.closings_startPublish _ _ _ _⟩
  exact ⟨hcache.trans hkept.1, (congrArg World.closings hworld).trans hkept.2⟩

/-- Under a virtual clock, too, a send leaves the cache and the closed handles as getting the handle
leaves them, although the clock may go on and other sends end meanwhile. -/
theorem alike_send (t : Bench) (b : BrokerIdentity) (e : Event) (ctx : SendContext) :
    (t.get b).2.Alike (t.send b e ctx).2 := by
  have hstart := alike_start t b e ctx none
  rw [send]
  split
  · rename_i hended
    rwa [hended] at hstart
  · rename_i hwaiting
    rw [hwaiting] at hstart
    split
    · exact hstart
    · exact hstart.trans (alike_passUntil _ _)

/-- So does a send that goes on in the background, at any time and whatever happens to it. -/
theorem alike_sendInBackground (t : Bench) (name : String) (b : BrokerIdentity) (e : Event)
    (ctx : SendContext) (later : List Meanwhile) :
    (t.get b).2.Alike (later.foldl passBy (t.sendInBackground name b e ctx)) := by
  refine .trans ?_ (alike_foldl alike_passBy later _)
  have hstart := alike_start t b e ctx (some name)
  rw [sendInBackground]
  split
  · rename_i hended
    rw [hended] at hstart
    exact hstart.trans (alike_note _ _ _)
  · rename_i hwaiting
    rw [hwaiting] at hstart
    exact hstart.trans (alike_passUntil _ _)

end Bench

end EventIngress
