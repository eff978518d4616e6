import EventIngress.Proofs.Cache.Parts
import EventIngress.Transport.Progress

/-!
# What getting a handle asks for

A cache works by requests: it asks the routing table for a route, the factory for a handle, and a
handle to close. A record of these requests, with the replies to them, shows what a use of the cache
does to its surroundings. There are few ways to get a handle, and each of them has its own record.

Results:

* `Request`, `Collaborators.traced`: the record.
* `TopicCache.Installs`, `TopicCache.Gets`: all ways to get a handle, under the exclusive lock and
  altogether; `TopicCache.getOrCreate_gets`: there are no others.
-/

namespace EventIngress

/-! ## The record -/

/-- What is asked of the surroundings of a cache. -/
inductive Request (η : Type) where
  /-- The route of a broker. -/
  | route (b : BrokerIdentity) (reply : Reply (Option BrokerRoute))
  /-- A handle for a topic. -/
  | opening (t : TopicId) (reply : Reply (Except OpenFault η))
  /-- That a handle closes. The cache has these entries at that moment. -/
  | closing (entries : SortedMap BrokerIdentity (CacheEntry η)) (h : η)
  /-- That a handle publishes a message. -/
  | publishing (h : η) (m : Message) (progress : Progress)

namespace Request

variable {η : Type}

/-- The topic of which a handle was asked for, with the reply. -/
def opening? : Request η → Option (TopicId × Reply (Except OpenFault η))
  | opening t reply => some (t, reply)
  | _ => none

/-- The handle that was closed, with the entries at that moment. -/
def closing? : Request η → Option (SortedMap BrokerIdentity (CacheEntry η) × η)
  | closing entries h => some (entries, h)
  | _ => none

/-- The handle that was to publish, with the message. -/
def publishing? : Request η → Option (η × Message)
  | publishing h m _ => some (h, m)
  | _ => none

/-- The topics of which handles were asked for, in order. -/
def openings (requests : List (Request η)) : List (TopicId × Reply (Except OpenFault η)) :=
  requests.filterMap opening?

/-- The handles that were closed, in order. -/
def closings (requests : List (Request η)) :
    List (SortedMap BrokerIdentity (CacheEntry η) × η) :=
  requests.filterMap closing?

/-- The messages that were to be published, in order. -/
def publishings (requests : List (Request η)) : List (η × Message) :=
  requests.filterMap publishing?

end Request

namespace Collaborators

variable {η σ : Type}

/-- Collaborators that keep a record of the requests. -/
def traced (k : Collaborators η σ) : Collaborators η (σ × List (Request η)) where
  route b s := ((k.route b s.1).1, ((k.route b s.1).2, s.2 ++ [.route b (k.route b s.1).1]))
  openTopic t s :=
    ((k.openTopic t s.1).1, ((k.openTopic t s.1).2, s.2 ++ [.opening t (k.openTopic t s.1).1]))
  close c h s := (k.close c h s.1, s.2 ++ [.closing c.entries h])
  report e s := (k.report e s.1, s.2)
  visit entries s := k.visit entries s.1

/-- The routing table may reply so for a broker. -/
def Replies (k : Collaborators η σ) (b : BrokerIdentity) (reply : Reply (Option BrokerRoute)) :
    Prop :=
  ∃ s, (k.route b s).1 = reply

theorem traced_reportAll (k : Collaborators η σ) (entries : List LogEntry) (w : σ)
    (rs : List (Request η)) :
    k.traced.reportAll entries (w, rs) = (k.reportAll entries w, rs) := by
  induction entries generalizing w with
  | nil => rfl
  | cons e entries ih => exact ih (k.report e w)

theorem traced_route {k : Collaborators η σ} {b : BrokerIdentity} {w w' : σ}
    {reply : Reply (Option BrokerRoute)} (h : k.route b w = (reply, w')) (rs : List (Request η)) :
    k.traced.route b (w, rs) = (reply, (w', rs ++ [.route b reply])) := by
  simp only [traced, h]

theorem traced_openTopic {k : Collaborators η σ} {t : TopicId} {w w' : σ}
    {reply : Reply (Except OpenFault η)} (h : k.openTopic t w = (reply, w'))
    (rs : List (Request η)) :
    k.traced.openTopic t (w, rs) = (reply, (w', rs ++ [.opening t reply])) := by
  simp only [traced, h]

theorem traced_visit (k : Collaborators η σ) (entries : List (BrokerIdentity × CacheEntry η))
    (w : σ) (rs : List (Request η)) : k.traced.visit entries (w, rs) = k.visit entries w :=
  rfl

end Collaborators

/-! ## All ways to get a handle -/

namespace TopicCache

open CacheUse

variable {η σ : Type}

/-- All ways to get the handle of a broker under the exclusive lock: what is asked for, the result,
and the cache afterwards. -/
inductive Installs (k : Collaborators η σ) (c : TopicCache η) (b : BrokerIdentity) :
    List (Request η) → Except Stop η → TopicCache η → Prop where
  | lookUpBreaks (hreply : k.Replies b .broken) :
      Installs k c b [.route b .broken] (.error .broken) c.poison
  | unrouted {a : Option BrokerRoute} {f : Failure} (hreply : k.Replies b (.answer a))
      (hroute : topicOf b a = .error f) :
      Installs k c b [.route b (.answer a)] (.error (.failure f)) c
  | found {a : Option BrokerRoute} {t : TopicId} {h : η} (hreply : k.Replies b (.answer a))
      (hroute : topicOf b a = .ok t) (hhit : c.entries.find? b = some ⟨h, t⟩) :
      Installs k c b [.route b (.answer a)] (.ok h) c
  | openingBreaks {a : Option BrokerRoute} {t : TopicId} (hreply : k.Replies b (.answer a))
      (hroute : topicOf b a = .ok t) :
      Installs k c b [.route b (.answer a), .opening t .broken] (.error .broken) c.poison
  | refused {a : Option BrokerRoute} {t : TopicId} {fault : OpenFault}
      (hreply : k.Replies b (.answer a)) (hroute : topicOf b a = .ok t) :
      Installs k c b [.route b (.answer a), .opening t (.answer (.error fault))]
        (.error (.failure (.handleOpen fault))) c
  | opened {a : Option BrokerRoute} {t : TopicId} {h : η} (hreply : k.Replies b (.answer a))
      (hroute : topicOf b a = .ok t) (hnone : c.entries.find? b = none) :
      Installs k c b [.route b (.answer a), .opening t (.answer (.ok h))] (.ok h)
        (c.bind b ⟨h, t⟩).2
  | rotated {a : Option BrokerRoute} {t : TopicId} {h : η} {e : CacheEntry η}
      (hreply : k.Replies b (.answer a)) (hroute : topicOf b a = .ok t)
      (hold : c.entries.find? b = some e) (hother : e.topic ≠ t) :
      Installs k c b
        [.route b (.answer a), .opening t (.answer (.ok h)),
          .closing (c.bind b ⟨h, t⟩).2.entries e.handle]
        (.ok h) (c.bind b ⟨h, t⟩).2

/-- All ways to get the handle of a broker: what is asked for, the result, and the cache
afterwards. -/
inductive Gets (k : Collaborators η σ) (c : TopicCache η) (b : BrokerIdentity) :
    List (Request η) → Except Stop η → TopicCache η → Prop where
  | lookUpBreaks (hreply : k.Replies b .broken) :
      Gets k c b [.route b .broken] (.error .broken) c
  | unrouted {a : Option BrokerRoute} {f : Failure} (hreply : k.Replies b (.answer a))
      (hroute : topicOf b a = .error f) :
      Gets k c b [.route b (.answer a)] (.error (.failure f)) c
  | poisoned {a : Option BrokerRoute} {t : TopicId} (hreply : k.Replies b (.answer a))
      (hroute : topicOf b a = .ok t) (hpoisoned : c.poisoned = true) :
      Gets k c b [.route b (.answer a)] (.error (.failure LockMode.read.failure)) c
  | found {a : Option BrokerRoute} {t : TopicId} {h : η} (hreply : k.Replies b (.answer a))
      (hroute : topicOf b a = .ok t) (hhit : c.entries.find? b = some ⟨h, t⟩) :
      Gets k c b [.route b (.answer a)] (.ok h) c
  | missed {a : Option BrokerRoute} {t : TopicId} {requests : List (Request η)}
      {result : Except Stop η} {c' : TopicCache η} (hreply : k.Replies b (.answer a))
      (hroute : topicOf b a = .ok t) (hmiss : ∀ h, c.entries.find? b ≠ some ⟨h, t⟩)
      (hinstall : Installs k c b requests result c') :
      Gets k c b (.route b (.answer a) :: requests) result c'

/-- What is done under the exclusive lock, and the closing of what it displaced. -/
def installAndClose (k : Collaborators η σ) (b : BrokerIdentity) : CacheUse η σ η := do
  let (h, displaced) ← install k b
  closeEach k displaced
  return h

theorem closeEach_singleton (k : Collaborators η σ) (r : Removed η) (x : TopicCache η × σ) :
    closeEach k [r] x = (.ok (), (x.1, k.close x.1 r.handle (k.reportAll r.reports x.2))) :=
  rfl

variable (k : Collaborators η σ) (b : BrokerIdentity) {c : TopicCache η} (w : σ)
  (rs : List (Request η))

/-- There are no other ways under the exclusive lock, and the record shows the way that was
taken. -/
theorem installAndClose_installs (hpoisoned : c.poisoned = false) :
    ∃ requests result c' w', installAndClose k b (c, w) = (result, (c', w')) ∧
      installAndClose k.traced b (c, (w, rs)) = (result, (c', (w', rs ++ requests))) ∧
      Installs k c b requests result c' := by
  simp only [installAndClose, bind_apply, install_apply, createUnderLock_apply, resolve_apply,
    hpoisoned, Bool.false_eq_true, if_false]
  rcases hroute : k.route b w with ⟨a | _, w₁⟩
  · have hreply : k.Replies b (.answer a) := ⟨w, by rw [hroute]⟩
    simp only [Collaborators.traced_route hroute, Collaborators.traced_reportAll]
    cases htopic : topicOf b a with
    | error f => exact ⟨_, _, _, _, rfl, rfl, .unrouted hreply htopic⟩
    | ok t =>
      dsimp only
      cases hhit : c.hit? b t with
      | some h =>
        exact ⟨_, _, _, _, rfl, rfl, .found hreply htopic (hit?_eq_some_iff.1 hhit)⟩
      | none =>
        simp only [Collaborators.traced_reportAll]
        rcases hopen : k.openTopic t _ with ⟨(fault | h) | _, w₂⟩
        · rw [Collaborators.traced_openTopic hopen, List.append_assoc]
          exact ⟨_, _, _, _, rfl, rfl, .refused hreply htopic⟩
        · rw [Collaborators.traced_openTopic hopen, List.append_assoc]
          cases hold : c.entries.find? b with
          | none =>
            simp only [Collaborators.traced_reportAll]
            exact ⟨_, _, _, _, rfl, rfl, .opened hreply htopic hold⟩
          | some e =>
            have hother : e.topic ≠ t := fun h => hit?_eq_none_iff.1 hhit e.handle (h ▸ hold)
            simp only [closeEach_singleton, Collaborators.traced_reportAll]
            refine ⟨_, _, _, _, rfl, ?_, .rotated hreply htopic hold hother⟩
            simp only [Collaborators.traced, List.append_assoc]
            rfl
        · rw [Collaborators.traced_openTopic hopen, List.append_assoc]
          exact ⟨_, _, _, _, rfl, rfl, .openingBreaks hreply htopic⟩
  · simp only [Collaborators.traced_route hroute]
    exact ⟨_, _, _, _, rfl, rfl, .lookUpBreaks ⟨w, by rw [hroute]⟩⟩

/-- A handle is looked up first, and the exclusive lock is only taken if there is none. -/
theorem getOrCreate_apply (x : TopicCache η × σ) :
    getOrCreate k b x =
      match resolve k b x with
      | (.error e, y) => (.error e, y)
      | (.ok t, y) =>
        match peek k b t y with
        | (.error e, z) => (.error e, z)
        | (.ok (some h), z) => (.ok h, z)
        | (.ok none, z) => installAndClose k b z := by
  rw [getOrCreate, bind_apply]
  rcases resolve k b x with ⟨e | t, y⟩
  · rfl
  · dsimp only
    rw [bind_apply]
    rcases peek k b t y with ⟨e | (_ | h), z⟩ <;> rfl

/-- There are no other ways to get a handle, and the record shows the way that was taken. -/
theorem getOrCreate_gets (c : TopicCache η) :
    ∃ requests result c' w', getOrCreate k b (c, w) = (result, (c', w')) ∧
      getOrCreate k.traced b (c, (w, rs)) = (result, (c', (w', rs ++ requests))) ∧
      Gets k c b requests result c' := by
  simp only [getOrCreate_apply, resolve_apply]
  rcases hroute : k.route b w with ⟨a | _, w₁⟩
  · have hreply : k.Replies b (.answer a) := ⟨w, by rw [hroute]⟩
    simp only [Collaborators.traced_route hroute, Collaborators.traced_reportAll]
    cases htopic : topicOf b a with
    | error f => exact ⟨_, _, _, _, rfl, rfl, .unrouted hreply htopic⟩
    | ok t =>
      simp only [peek_apply]
      cases hpoisoned : c.poisoned with
      | true =>
        simp only [if_true, Collaborators.traced_reportAll]
        exact ⟨_, _, _, _, rfl, rfl, .poisoned hreply htopic hpoisoned⟩
      | false =>
        simp only [Bool.false_eq_true, if_false]
        cases hhit : c.hit? b t with
        | some h =>
          exact ⟨_, _, _, _, rfl, rfl, .found hreply htopic (hit?_eq_some_iff.1 hhit)⟩
        | none =>
          obtain ⟨requests, result, c', w', heq, htraced, hinstall⟩ :=
            installAndClose_installs k b _ (rs ++ [.route b (.answer a)]) hpoisoned
          rw [List.append_assoc] at htraced
          exact ⟨_, _, _, _, heq, htraced,
            .missed hreply htopic (hit?_eq_none_iff.1 hhit) hinstall⟩
  · simp only [Collaborators.traced_route hroute]
    exact ⟨_, _, _, _, rfl, rfl, .lookUpBreaks ⟨w, by rw [hroute]⟩⟩

end TopicCache

end EventIngress
