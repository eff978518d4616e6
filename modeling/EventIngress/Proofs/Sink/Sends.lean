import EventIngress.Proofs.Cache.Requests
import EventIngress.Sink.Basic
import EventIngress.Sink.World

/-!
# What a send does besides getting a handle

A send gets the handle of its broker, and from there on has nothing to do with the cache any more:
it encodes, publishes once, and waits for the end of the publish. How the encoder and the handle
behave, which timeouts there are, and what happens while the send waits is arbitrary.

Results:

* `Publisher`, `Sink.start`, `SendState.next`: a send over arbitrary collaborators, up to where it
  waits and from there on.
* `Sink.Sends`: all ways that a send goes after it has got its handle or not.
* `SendState.foldl_next`: of all that happens to a send that waits, one thing decides it.
* `Sink.Sends.source`: where the result of a send comes from.
* `Sink.send_spares_cache`: what a send leaves of the cache, how often it publishes, and what its
  result is.
-/

namespace EventIngress

open Request

variable {η σ : Type}

/-! ## Sends over arbitrary collaborators -/

/-- The other side of the handles (`TopicHandle.publish`): how far a publish gets at once. -/
abbrev Publisher (η σ : Type) := η → Message → σ → Progress × σ

/-- A publisher that keeps a record of the requests. -/
def Publisher.traced (publish : Publisher η σ) : Publisher η (σ × List (Request η)) := fun h m s =>
  ((publish h m s.1).1, ((publish h m s.1).2, s.2 ++ [.publishing h m (publish h m s.1).1]))

/-- The handles of the scripted collaborators; `ticket` is the number of the publish. -/
def World.publisher (ticket : Nat) : Publisher Nat World := fun h m w => w.startPublish h ticket m

/-- Where a send stands. -/
inductive SendState (η : Type) where
  | ended (result : Except Failure Ack)
  /-- A collaborator broke down. -/
  | broken
  /-- The publish waits, with the timeout if there is one. -/
  | waiting (h : η) (m : Message) (limit : Option Span)
  /-- The send was dropped while it waited. -/
  | dropped

/-- What may happen to a send while it waits in `send_to`. -/
inductive Happening where
  /-- The publish comes to an end. -/
  | answered (result : Except PublishFault Ack)
  /-- The publish breaks down. -/
  | brokeDown
  /-- The time of the timeout has passed. -/
  | expired
  /-- The send is dropped. -/
  | dropped

namespace SendState

/-- Where a send stands that got no handle, or no message. -/
def ofStop : Stop → SendState η
  | .failure f => .ended (.error f)
  | .broken => .broken

/-- Where a send stands after something has happened. Without a timeout, time does not matter. -/
def next : SendState η → Happening → SendState η
  | waiting _ _ _, .answered result => .ended (Sink.outcome result)
  | waiting _ _ _, .brokeDown => .broken
  | waiting _ _ (some timeout), .expired => .ended (.error (.cancelled timeout))
  | waiting h m none, .expired => .waiting h m none
  | waiting _ _ _, .dropped => .dropped
  | state, _ => state

/-- Whether a send waits. -/
def waits : SendState η → Bool
  | waiting _ _ _ => true
  | _ => false

/-- The timeout that has cancelled a send. -/
def cancelledAfter? : SendState η → Option Span
  | ended (.error (.cancelled timeout)) => some timeout
  | _ => none

theorem eq_of_cancelledAfter? {state : SendState η} {timeout : Span}
    (h : state.cancelledAfter? = some timeout) : state = .ended (.error (.cancelled timeout)) := by
  unfold cancelledAfter? at h
  split at h
  · rw [Option.some.inj h]
  · cases h

end SendState

namespace Sink

/-- Where a send stands after its publish has started. -/
def started (s : Sink) (ctx : SendContext) (h : η) (m : Message) : Progress → SendState η
  | .ended result => .ended (outcome result)
  | .broken => .broken
  | .waiting => .waiting h m (s.timeoutFor ctx)

/-- Starts a send: `send_to` up to its wait. -/
def start (s : Sink) (k : Collaborators η σ) (publish : Publisher η σ) (b : BrokerIdentity)
    (e : Event) (ctx : SendContext) (x : TopicCache η × σ) : SendState η × (TopicCache η × σ) :=
  match s.prepare k b e ctx x with
  | (.error why, y) => (.ofStop why, y)
  | (.ok (h, m), (c, w)) => (s.started ctx h m (publish h m w).1, (c, (publish h m w).2))

/-! ## All ways of a send -/

/-- All ways that a send goes after the attempt to get a handle: what is asked of the handle, and
where the send stands. -/
inductive Sends (s : Sink) (e : Event) (ctx : SendContext) :
    Except Stop η → List (Request η) → SendState η → Prop where
  | handleless {why : Stop} : Sends s e ctx (.error why) [] (.ofStop why)
  | unencodable {h : η} {fault : EncodeFault} (hencode : s.encoder e ctx.trace = .error fault) :
      Sends s e ctx (.ok h) [] (.ended (.error (.encode fault)))
  | published {h : η} {m : Message} {progress : Progress}
      (hencode : s.encoder e ctx.trace = .ok m) :
      Sends s e ctx (.ok h) [.publishing h m progress] (s.started ctx h m progress)

/-- What there is to publish after the attempt to get a handle. -/
def due (s : Sink) (e : Event) (ctx : SendContext) : Except Stop η → List (η × Message)
  | .error _ => []
  | .ok h =>
    match s.encoder e ctx.trace with
    | .error _ => []
    | .ok m => [(h, m)]

variable (s : Sink) (k : Collaborators η σ) (publish : Publisher η σ) (b : BrokerIdentity)
  (e : Event) (ctx : SendContext)

/-- A send gets the handle, and then leaves the cache as it is. -/
theorem start_eq (x : TopicCache η × σ) :
    s.start k publish b e ctx x =
      match TopicCache.getOrCreate k b x with
      | (.error why, y) => (.ofStop why, y)
      | (.ok h, (c, w)) =>
        match s.encoder e ctx.trace with
        | .error fault => (.ended (.error (.encode fault)), (c, w))
        | .ok m => (s.started ctx h m (publish h m w).1, (c, (publish h m w).2)) := by
  rw [start, prepare, CacheUse.bind_apply]
  rcases TopicCache.getOrCreate k b x with ⟨why | h, c, w⟩
  · rfl
  · dsimp only
    cases s.encoder e ctx.trace <;> rfl

/-- There are no other ways of a send, and the record shows the way that was taken. -/
theorem start_sends {c c' : TopicCache η} {w w₁ : σ} {got : Except Stop η}
    {requests : List (Request η)} (hget : TopicCache.getOrCreate k b (c, w) = (got, (c', w₁)))
    (htraced : TopicCache.getOrCreate k.traced b (c, (w, [])) = (got, (c', (w₁, requests)))) :
    ∃ published state w₂, s.start k publish b e ctx (c, w) = (state, (c', w₂)) ∧
      s.start k.traced publish.traced b e ctx (c, (w, [])) =
        (state, (c', (w₂, requests ++ published))) ∧
      s.Sends e ctx got published state := by
  rw [start_eq, start_eq, hget, htraced]
  cases got with
  | error why => exact ⟨[], _, _, rfl, by rw [List.append_nil], .handleless⟩
  | ok h =>
    dsimp only
    cases hencode : s.encoder e ctx.trace with
    | error fault => exact ⟨[], _, _, rfl, by rw [List.append_nil], .unencodable hencode⟩
    | ok m => exact ⟨_, _, _, rfl, rfl, .published hencode⟩

variable {s e ctx} {got : Except Stop η} {published : List (Request η)} {state : SendState η}

theorem Sends.closings (hs : s.Sends e ctx got published state) :
    Request.closings published = [] := by
  cases hs <;> rfl

theorem Sends.publishings (hs : s.Sends e ctx got published state) :
    Request.publishings published = s.due e ctx got := by
  cases hs with
  | handleless => rfl
  | unencodable hencode =>
    rw [due, hencode]
    rfl
  | published hencode =>
    rw [due, hencode]
    rfl

end Sink

/-! ## What happens to a send that waits -/

namespace SendState

/-- Of all that happens to a send, `x` comes while the send still stands as at the start. -/
def Meets (state : SendState η) (later : List Happening) (x : Happening) : Prop :=
  ∃ before after, later = before ++ x :: after ∧ before.foldl next state = state

theorem next_of_not_waits {state : SendState η} (h : state.waits = false) (x : Happening) :
    state.next x = state := by
  cases state with
  | waiting => cases h
  | _ => rfl

theorem foldl_next_of_not_waits {state : SendState η} (h : state.waits = false)
    (later : List Happening) : later.foldl next state = state := by
  induction later with
  | nil => rfl
  | cons x later ih => rw [List.foldl_cons, next_of_not_waits h, ih]

/-- Whatever happens first and is the end of the wait decides the send. -/
theorem Meets.foldl {state : SendState η} {later : List Happening} {x : Happening}
    (hm : state.Meets later x) (hx : (state.next x).waits = false) :
    later.foldl next state = state.next x := by
  obtain ⟨before, after, rfl, hbefore⟩ := hm
  rw [List.foldl_append, hbefore, List.foldl_cons, foldl_next_of_not_waits hx]

theorem next_eq_self_or_not_waits (state : SendState η) (x : Happening) :
    state.next x = state ∨ (state.next x).waits = false := by
  cases state with
  | waiting h m limit =>
    cases x with
    | expired => cases limit <;> simp [next, waits]
    | _ => exact .inr rfl
  | _ => exact .inl rfl

/-- A send waits on, or one thing has happened that decided it. -/
theorem foldl_next (state : SendState η) (later : List Happening) :
    later.foldl next state = state ∨
      ∃ x, state.Meets later x ∧ later.foldl next state = state.next x := by
  induction later with
  | nil => exact .inl rfl
  | cons x later ih =>
    rw [List.foldl_cons]
    rcases next_eq_self_or_not_waits state x with hself | hend
    · rw [hself]
      refine ih.imp_right ?_
      rintro ⟨y, ⟨before, after, rfl, hbefore⟩, heq⟩
      exact ⟨y, ⟨x :: before, after, rfl, by rw [List.foldl_cons, hself, hbefore]⟩, heq⟩
    · exact .inr ⟨x, ⟨[], later, rfl, rfl⟩, foldl_next_of_not_waits hend later⟩

/-- The result of the publish of a send, whether it came at once or while the send waited. -/
inductive Answered (published : List (Request η)) (state : SendState η) (later : List Happening)
    (result : Except PublishFault Ack) : Prop where
  | atOnce {h : η} {m : Message} (hpublished : published = [.publishing h m (.ended result)])
  | later {h : η} {m : Message} (hpublished : published = [.publishing h m .waiting])
      (hmeets : state.Meets later (.answered result))

end SendState

/-! ## The failures of the cache -/

/-- Whether getting a handle may fail so. -/
def Failure.ofCache : Failure → Bool
  | notFound _ => true
  | notReady _ => true
  | incomplete _ _ => true
  | handleOpen _ => true
  | internal _ => true
  | _ => false

theorem topicOf_ofCache {b : BrokerIdentity} {route : Option BrokerRoute} {f : Failure}
    (h : topicOf b route = .error f) : f.ofCache = true := by
  rcases route with _ | ⟨_ | _, topic⟩
  · cases h
    rfl
  · cases h
    rfl
  · rw [topicOf] at h
    split at h <;> cases h
    rfl

namespace TopicCache

variable {k : Collaborators η σ} {c c' : TopicCache η} {b : BrokerIdentity}
  {requests : List (Request η)} {result : Except Stop η} {f : Failure}

theorem Installs.ofCache (hi : Installs k c b requests result c')
    (hf : result = .error (.failure f)) : f.ofCache = true := by
  cases hi with
  | unrouted hreply hroute =>
    cases hf
    exact topicOf_ofCache hroute
  | refused hreply hroute =>
    cases hf
    rfl
  | _ => cases hf

theorem Gets.ofCache (hg : Gets k c b requests result c') (hf : result = .error (.failure f)) :
    f.ofCache = true := by
  cases hg with
  | unrouted hreply hroute =>
    cases hf
    exact topicOf_ofCache hroute
  | poisoned hreply hroute hpoisoned =>
    cases hf
    rfl
  | missed hreply hroute hmiss hinstall => exact hinstall.ofCache hf
  | _ => cases hf

theorem Installs.publishings (hi : Installs k c b requests result c') :
    Request.publishings requests = [] := by
  cases hi <;> rfl

theorem Gets.publishings (hg : Gets k c b requests result c') :
    Request.publishings requests = [] := by
  cases hg with
  | missed hreply hroute hmiss hinstall => exact hinstall.publishings
  | _ => rfl

end TopicCache

/-! ## What a send leaves and what it results in -/

namespace Sink

open SendState

variable {s : Sink} {e : Event} {ctx : SendContext} {got : Except Stop η}
  {published : List (Request η)} {state : SendState η} {later : List Happening}

/-- The result of the publish is the result of the send. -/
theorem Sends.of_answered (hs : s.Sends e ctx got published state)
    {result : Except PublishFault Ack} (ha : Answered published state later result) :
    later.foldl next state = .ended (outcome result) := by
  cases ha with
  | atOnce hpublished =>
    cases hs with
    | published hencode =>
      cases hpublished
      exact foldl_next_of_not_waits rfl later
    | _ => cases hpublished
  | later hpublished hmeets =>
    cases hs with
    | published hencode =>
      cases hpublished
      exact hmeets.foldl rfl
    | _ => cases hpublished

/-- A timeout that passes while the publish waits is the end of the send. -/
theorem Sends.of_expired (hs : s.Sends e ctx got published state) {h : η} {m : Message}
    (hpublished : published = [.publishing h m .waiting]) {timeout : Span}
    (htimeout : s.timeoutFor ctx = some timeout) (hmeets : state.Meets later .expired) :
    later.foldl next state = .ended (.error (.cancelled timeout)) := by
  cases hs with
  | published hencode =>
    cases hpublished
    have hstate : s.started ctx h m .waiting = .waiting h m (some timeout) := by
      rw [started, htimeout]
    rw [hstate] at hmeets ⊢
    exact hmeets.foldl rfl
  | _ => cases hpublished

/-- Where the result of a send comes from: from the cache, the encoder, the publish, or the
timeout. -/
inductive Source (s : Sink) (e : Event) (ctx : SendContext) (got : Except Stop η)
    (published : List (Request η)) (state : SendState η) (later : List Happening) :
    Except Failure Ack → Prop where
  | cache {f : Failure} (hgot : got = .error (.failure f)) (hcache : f.ofCache = true) :
      Source s e ctx got published state later (.error f)
  | encoder {h : η} {fault : EncodeFault} (hgot : got = .ok h)
      (hencode : s.encoder e ctx.trace = .error fault) :
      Source s e ctx got published state later (.error (.encode fault))
  | publish {result : Except PublishFault Ack} (ha : Answered published state later result) :
      Source s e ctx got published state later (outcome result)
  | timeout {h : η} {m : Message} {timeout : Span}
      (hpublished : published = [.publishing h m .waiting])
      (htimeout : s.timeoutFor ctx = some timeout) (hmeets : state.Meets later .expired) :
      Source s e ctx got published state later (.error (.cancelled timeout))

/-- There is no other result. -/
theorem Sends.source (hs : s.Sends e ctx got published state)
    (hcache : ∀ f, got = .error (.failure f) → f.ofCache = true) {result : Except Failure Ack}
    (hend : later.foldl next state = .ended result) :
    Source s e ctx got published state later result := by
  cases hs with
  | @handleless why =>
    cases why with
    | failure f =>
      rw [foldl_next_of_not_waits rfl] at hend
      cases hend
      exact .cache rfl (hcache f rfl)
    | broken =>
      rw [foldl_next_of_not_waits rfl] at hend
      cases hend
  | unencodable hencode =>
    rw [foldl_next_of_not_waits rfl] at hend
    cases hend
    exact .encoder rfl hencode
  | @published h m progress hencode =>
    cases progress with
    | ended result' =>
      rw [foldl_next_of_not_waits rfl] at hend
      cases hend
      exact .publish (.atOnce rfl)
    | broken =>
      rw [foldl_next_of_not_waits rfl] at hend
      cases hend
    | waiting =>
      rcases foldl_next (s.started ctx h m .waiting) later with hself | ⟨x, hmeets, hx⟩
      · rw [hself] at hend
        cases hend
      · rw [hx, started] at hend
        cases x with
        | answered result' =>
          cases hend
          exact .publish (.later rfl hmeets)
        | expired =>
          cases htimeout : s.timeoutFor ctx with
          | none =>
            rw [htimeout] at hend
            cases hend
          | some timeout =>
            rw [htimeout] at hend
            cases hend
            exact .timeout rfl htimeout hmeets
        | _ => cases hend

variable {result : Except Failure Ack}

theorem Source.of_ok (hs : Source s e ctx got published state later result) {ack : Ack}
    (hr : result = .ok ack) : Answered published state later (.ok ack) := by
  cases hs with
  | @publish result' ha =>
    cases result' with
    | ok ack' =>
      cases hr
      exact ha
    | error fault => cases hr
  | _ => cases hr

theorem Source.of_publish (hs : Source s e ctx got published state later result)
    {fault : PublishFault} (hr : result = .error (.publish fault)) :
    Answered published state later (.error fault) := by
  cases hs with
  | @publish result' ha =>
    cases result' with
    | ok ack => cases hr
    | error fault' =>
      cases hr
      exact ha
  | cache hgot hcache =>
    cases hr
    cases hcache
  | _ => cases hr

theorem Source.of_encode (hs : Source s e ctx got published state later result)
    {fault : EncodeFault} (hr : result = .error (.encode fault)) :
    ∃ h, got = .ok h ∧ s.encoder e ctx.trace = .error fault := by
  cases hs with
  | encoder hgot hencode =>
    cases hr
    exact ⟨_, hgot, hencode⟩
  | cache hgot hcache =>
    cases hr
    cases hcache
  | @publish result' ha => cases result' <;> cases hr
  | timeout hpublished htimeout hmeets => cases hr

theorem Source.of_cancelled (hs : Source s e ctx got published state later result) {timeout : Span}
    (hr : result = .error (.cancelled timeout)) :
    s.timeoutFor ctx = some timeout ∧ state.Meets later .expired ∧
      ∃ h m, published = [.publishing h m .waiting] := by
  cases hs with
  | timeout hpublished htimeout hmeets =>
    cases hr
    exact ⟨htimeout, hmeets, _, _, hpublished⟩
  | cache hgot hcache =>
    cases hr
    cases hcache
  | @publish result' ha => cases result' <;> cases hr
  | encoder hgot hencode => cases hr

/-- The timeout of a send is the one that comes with it, or else the one of the sink. -/
theorem timeoutFor_eq_some_iff {timeout : Span} :
    s.timeoutFor ctx = some timeout ↔
      ctx.timeout = some timeout ∨ ctx.timeout = none ∧ s.timeout = some timeout := by
  rw [timeoutFor]
  cases ctx.timeout <;> simp

/-- A send, whatever is in the cache, however its collaborators, its encoder and its handle behave,
and whatever happens to it later. The cache is left as getting the handle leaves it, and no other
handle is closed. The message that the encoder makes of the event is published on the handle, once;
without a handle or a message, nothing is. Failures of the cache, the encoder and the publish are
the result as they are, and the message id of a message that was taken comes from this one publish.
A send is only given up because of its own timeout, or else the one of the sink, when this has
passed before the publish came to an end. -/
theorem send_spares_cache (s : Sink) (k : Collaborators η σ) (publish : Publisher η σ)
    (b : BrokerIdentity) (e : Event) (ctx : SendContext) (c : TopicCache η) (w : σ)
    (later : List Happening) :
    ∃ got c' w₁ requests state w₂ published final,
      TopicCache.getOrCreate k b (c, w) = (got, (c', w₁)) ∧
      TopicCache.getOrCreate k.traced b (c, (w, [])) = (got, (c', (w₁, requests))) ∧
      s.start k publish b e ctx (c, w) = (state, (c', w₂)) ∧
      s.start k.traced publish.traced b e ctx (c, (w, [])) =
        (state, (c', (w₂, requests ++ published))) ∧
      later.foldl next state = final ∧
      closings (requests ++ published) = closings requests ∧
      publishings (requests ++ published) = s.due e ctx got ∧
      (∀ f, got = .error (.failure f) → final = .ended (.error f)) ∧
      (∀ h fault, got = .ok h → s.encoder e ctx.trace = .error fault →
        final = .ended (.error (.encode fault))) ∧
      (∀ ack, Answered published state later (.ok ack) → final = .ended (.ok ack)) ∧
      (∀ fault, Answered published state later (.error fault) →
        final = .ended (.error (.publish fault))) ∧
      (∀ h m timeout, published = [.publishing h m .waiting] →
        (ctx.timeout = some timeout ∨ ctx.timeout = none ∧ s.timeout = some timeout) →
        state.Meets later .expired → final = .ended (.error (.cancelled timeout))) ∧
      (∀ ack, final = .ended (.ok ack) → Answered published state later (.ok ack)) ∧
      (∀ fault, final = .ended (.error (.publish fault)) →
        Answered published state later (.error fault)) ∧
      (∀ fault, final = .ended (.error (.encode fault)) →
        ∃ h, got = .ok h ∧ s.encoder e ctx.trace = .error fault) ∧
      ∀ timeout, final = .ended (.error (.cancelled timeout)) →
        (ctx.timeout = some timeout ∨ ctx.timeout = none ∧ s.timeout = some timeout) ∧
          state.Meets later .expired ∧ ∃ h m, published = [.publishing h m .waiting] := by
  obtain ⟨requests, got, c', w₁, hget, htraced, hgets⟩ :=
    TopicCache.getOrCreate_gets k b w [] c
  rw [List.nil_append] at htraced
  obtain ⟨published, state, w₂, hstart, hstarttraced, hs⟩ :=
    start_sends s k publish b e ctx hget htraced
  have hsource {result : Except Failure Ack} (hend : later.foldl next state = .ended result) :=
    hs.source (fun f => hgets.ofCache) hend
  refine ⟨got, c', w₁, requests, state, w₂, published, _, hget, htraced, hstart, hstarttraced, rfl,
    ?_, ?_, ?_, ?_, fun ack => hs.of_answered, fun fault => hs.of_answered,
    fun h m timeout hp ht hm => hs.of_expired hp (timeoutFor_eq_some_iff.2 ht) hm,
    fun ack hend => (hsource hend).of_ok rfl, fun fault hend => (hsource hend).of_publish rfl,
    fun fault hend => (hsource hend).of_encode rfl,
    fun timeout hend => ((hsource hend).of_cancelled rfl).imp_left timeoutFor_eq_some_iff.1⟩
  · rw [closings, List.filterMap_append]
    exact (congrArg (closings requests ++ ·) hs.closings).trans (List.append_nil _)
  · rw [publishings, List.filterMap_append]
    exact (congrArg (· ++ publishings published) hgets.publishings).trans hs.publishings
  · rintro f rfl
    cases hs
    exact foldl_next_of_not_waits rfl later
  · rintro h fault rfl hencode
    cases hs with
    | unencodable hencode' =>
      rw [hencode] at hencode'
      cases hencode'
      exact foldl_next_of_not_waits rfl later
    | published hencode' =>
      rw [hencode] at hencode'
      cases hencode'

/-- A world where a broker is ready, and where the first handle holds its messages at a gate. -/
def gated : World where
  table := .ofList [(⟨"team", "orders"⟩, ⟨.ready, "orders-topic"⟩)]
  gateNext := true

/-- A send that is given up because of its own timeout, not the one of the sink, after its handle
was opened and its message was published. -/
theorem send_spares_cache_expired :
    let s : Sink := { timeout := some (.ofMillis 5000) }
    let b : BrokerIdentity := ⟨"team", "orders"⟩
    let e : Event := { id := "1", source := "shop", eventType := "created" }
    let ctx : SendContext := { timeout := some (.ofMillis 1) }
    ∃ c' w₁ requests state w₂ published m,
      TopicCache.getOrCreate World.collaborators.traced b ({}, (gated, [])) =
        (.ok 0, (c', (w₁, requests))) ∧
      s.start World.collaborators.traced (World.publisher 0).traced b e ctx ({}, (gated, [])) =
        (state, (c', (w₂, requests ++ published))) ∧
      publishings (requests ++ published) = [(0, m)] ∧
      [Happening.expired].foldl next state = .ended (.error (.cancelled (.ofMillis 1))) := by
  intro s b e ctx
  obtain ⟨got, c', w₁, requests, state, w₂, published, final, hget, hgettraced, hstart,
    hstarttraced, hfinal, -, hpublishings, -⟩ :=
    send_spares_cache s World.collaborators (World.publisher 0) b e ctx {} gated [.expired]
  have hgot : (TopicCache.getOrCreate World.collaborators b ({}, gated)).1.toOption = some 0 := by
    decide +kernel
  have hstate : ([Happening.expired].foldl next
      (s.start World.collaborators (World.publisher 0) b e ctx ({}, gated)).1).cancelledAfter? =
        some (.ofMillis 1) := by
    decide +kernel
  rw [hget] at hgot
  rw [hstart, hfinal] at hstate
  cases got with
  | error why => cases hgot
  | ok h =>
    cases hgot
    refine ⟨c', w₁, requests, state, w₂, published, _, hgettraced, hstarttraced, hpublishings, ?_⟩
    rw [hfinal]
    exact SendState.eq_of_cancelledAfter? hstate

end Sink

end EventIngress
