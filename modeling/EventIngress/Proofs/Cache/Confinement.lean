import EventIngress.Proofs.Cache.Requests
import EventIngress.Sink.World

/-!
# Getting a handle touches one broker

Whatever the routing table and the factory reply, getting the handle of a broker changes at most the
entry of this broker, and closes at most the handle that this entry had. The factory is asked at
most once, after the second look at the route and for the topic that it names. Without a handle as
the result, nothing has changed at all.

Results:

* `TopicCache.Rebinds`, `TopicCache.Gets.rebinds`: what becomes of the cache, and what is closed.
* `TopicCache.Gets.opening`, `TopicCache.Gets.of_unrouted`: when the factory is asked, and for what.
* `TopicCache.getOrCreate_touches_one_broker`: all of this, for every use of a cache.
-/

namespace EventIngress.TopicCache

open Request

variable {η σ : Type} {k : Collaborators η σ} {c c' : TopicCache η} {b : BrokerIdentity}
  {requests : List (Request η)} {result : Except Stop η}

/-! ## What becomes of the cache -/

/-- What getting the handle of a broker makes of a cache, and which handles were closed on the way:
the entries are as they were, or the broker has a new one with the handle that is the result. The
handle that this one displaces is closed after the change. -/
inductive Rebinds (c : TopicCache η) (b : BrokerIdentity) (requests : List (Request η))
    (result : Except Stop η) (c' : TopicCache η) : Prop where
  | kept (hentries : c'.entries = c.entries) (hclosings : closings requests = [])
      (hresult : ∀ h, result = .ok h → ∃ t, c.entries.find? b = some ⟨h, t⟩)
  | opened {h : η} {t : TopicId} (hnone : c.entries.find? b = none)
      (hentries : c'.entries = c.entries.insert b ⟨h, t⟩) (hclosings : closings requests = [])
      (hresult : result = .ok h)
  | rotated {h : η} {t : TopicId} {e : CacheEntry η} (hold : c.entries.find? b = some e)
      (hother : e.topic ≠ t) (hentries : c'.entries = c.entries.insert b ⟨h, t⟩)
      (hclosings : closings requests = [(c'.entries, e.handle)]) (hresult : result = .ok h)

theorem Installs.rebinds (hi : Installs k c b requests result c') :
    Rebinds c b requests result c' := by
  cases hi with
  | found hreply hroute hhit =>
    refine .kept rfl rfl ?_
    rintro _ ⟨⟩
    exact ⟨_, hhit⟩
  | opened hreply hroute hnone => exact .opened hnone rfl rfl rfl
  | rotated hreply hroute hold hother => exact .rotated hold hother rfl rfl rfl
  | _ => exact .kept rfl rfl (by rintro _ ⟨⟩)

theorem Gets.rebinds (hg : Gets k c b requests result c') : Rebinds c b requests result c' := by
  cases hg with
  | found hreply hroute hhit =>
    refine .kept rfl rfl ?_
    rintro _ ⟨⟩
    exact ⟨_, hhit⟩
  | missed hreply hroute hmiss hinstall =>
    cases hinstall.rebinds with
    | kept hentries hclosings hresult => exact .kept hentries hclosings hresult
    | opened hnone hentries hclosings hresult => exact .opened hnone hentries hclosings hresult
    | rotated hold hother hentries hclosings hresult =>
      exact .rotated hold hother hentries hclosings hresult
  | _ => exact .kept rfl rfl (by rintro _ ⟨⟩)

namespace Rebinds

variable (hr : Rebinds c b requests result c')
include hr

/-- Other brokers keep their entries. -/
theorem find?_of_ne {b' : BrokerIdentity} (hb : b' ≠ b) :
    c'.entries.find? b' = c.entries.find? b' := by
  cases hr with
  | kept hentries hclosings hresult => rw [hentries]
  | opened hnone hentries hclosings hresult => rw [hentries, SortedMap.find?_insert, if_neg hb]
  | rotated hold hother hentries hclosings hresult =>
    rw [hentries, SortedMap.find?_insert, if_neg hb]

/-- Without a handle as the result, nothing has changed. -/
theorem of_error {why : Stop} (h : result = .error why) :
    c'.entries = c.entries ∧ closings requests = [] := by
  subst h
  cases hr with
  | kept hentries hclosings hresult => exact ⟨hentries, hclosings⟩
  | opened hnone hentries hclosings hresult => cases hresult
  | rotated hold hother hentries hclosings hresult => cases hresult

/-- The handle that is the result is the one of the broker. -/
theorem of_ok {h : η} (hok : result = .ok h) : ∃ t, c'.entries.find? b = some ⟨h, t⟩ := by
  subst hok
  cases hr with
  | kept hentries hclosings hresult =>
    rw [hentries]
    exact hresult h rfl
  | opened hnone hentries hclosings hresult =>
    cases hresult
    exact ⟨_, by rw [hentries, SortedMap.find?_insert, if_pos rfl]⟩
  | rotated hold hother hentries hclosings hresult =>
    cases hresult
    exact ⟨_, by rw [hentries, SortedMap.find?_insert, if_pos rfl]⟩

/-- A handle that is closed was the one of the broker, and it was closed when the broker had another
entry. -/
theorem of_closing {entries : SortedMap BrokerIdentity (CacheEntry η)} {h : η}
    (hmem : (entries, h) ∈ closings requests) :
    ∃ e, c.entries.find? b = some e ∧ e.handle = h := by
  cases hr with
  | rotated hold hother hentries hclosings hresult =>
    rw [hclosings, List.mem_singleton] at hmem
    cases hmem
    exact ⟨_, hold, rfl⟩
  | kept hentries hclosings hresult => simp [hclosings] at hmem
  | opened hnone hentries hclosings hresult => simp [hclosings] at hmem

/-- If the broker had an entry and has another one now, the old handle was closed once, when the
new entry was there. -/
theorem of_rotated {e : CacheEntry η} (hold : c.entries.find? b = some e)
    (hnew : c'.entries.find? b ≠ some e) : closings requests = [(c'.entries, e.handle)] := by
  cases hr with
  | kept hentries hclosings hresult => exact absurd hold (hentries ▸ hnew)
  | opened hnone hentries hclosings hresult => simp [hnone] at hold
  | rotated hold' hother hentries hclosings hresult =>
    rw [hold] at hold'
    cases hold'
    exact hclosings

/-- Otherwise none was closed. -/
theorem of_not_rotated (h : ∀ e, c.entries.find? b = some e → c'.entries.find? b = some e) :
    closings requests = [] := by
  cases hr with
  | kept hentries hclosings hresult => exact hclosings
  | opened hnone hentries hclosings hresult => exact hclosings
  | rotated hold hother hentries hclosings hresult =>
    have hsame := h _ hold
    rw [hentries, SortedMap.find?_insert, if_pos rfl] at hsame
    cases hsame
    exact absurd rfl hother

end Rebinds

/-! ## What the factory is asked for -/

/-- The factory was not asked; or the routing table was asked twice before, each time it named a
usable topic, and the factory was asked once, for the second topic. Its reply decides the result. -/
theorem Gets.opening (hg : Gets k c b requests result c') :
    openings requests = [] ∨
      ∃ a₁ t₁ a₂ t reply, topicOf b a₁ = .ok t₁ ∧ topicOf b a₂ = .ok t ∧
        [.route b (.answer a₁), .route b (.answer a₂), .opening t reply] <+: requests ∧
        openings requests = [(t, reply)] ∧
        (∀ fault, reply = .answer (.error fault) →
          result = .error (.failure (.handleOpen fault))) ∧
        ∀ h, reply = .answer (.ok h) → result = .ok h ∧ c'.entries.find? b = some ⟨h, t⟩ := by
  have hbound (h : η) (t : TopicId) : (c.bind b ⟨h, t⟩).2.entries.find? b = some ⟨h, t⟩ := by
    show (c.entries.insert b ⟨h, t⟩).find? b = _
    rw [SortedMap.find?_insert, if_pos rfl]
  cases hg with
  | missed hreply hroute hmiss hinstall =>
    cases hinstall with
    | openingBreaks hreply' hroute' =>
      exact .inr ⟨_, _, _, _, _, hroute, hroute', ⟨[], rfl⟩, rfl, by rintro _ ⟨⟩, by rintro _ ⟨⟩⟩
    | refused hreply' hroute' =>
      refine .inr ⟨_, _, _, _, _, hroute, hroute', ⟨[], rfl⟩, rfl, ?_, by rintro _ ⟨⟩⟩
      rintro _ ⟨⟩
      rfl
    | opened hreply' hroute' hnone =>
      refine .inr ⟨_, _, _, _, _, hroute, hroute', ⟨[], rfl⟩, rfl, by rintro _ ⟨⟩, ?_⟩
      rintro _ ⟨⟩
      exact ⟨rfl, hbound _ _⟩
    | rotated hreply' hroute' hold hother =>
      refine .inr ⟨_, _, _, _, _, hroute, hroute', ⟨[_], rfl⟩, rfl, by rintro _ ⟨⟩, ?_⟩
      rintro _ ⟨⟩
      exact ⟨rfl, hbound _ _⟩
    | _ => exact .inl rfl
  | _ => exact .inl rfl

theorem Installs.of_unrouted (hi : Installs k c b requests result c') {a : Option BrokerRoute}
    {f : Failure} (hmem : .route b (.answer a) ∈ requests) (hf : topicOf b a = .error f) :
    openings requests = [] ∧ result = .error (.failure f) := by
  cases hi with
  | lookUpBreaks => simp at hmem
  | unrouted hreply hroute =>
    obtain rfl := by simpa using hmem
    rw [hf] at hroute
    cases hroute
    exact ⟨rfl, rfl⟩
  | _ hreply hroute =>
    obtain rfl := by simpa using hmem
    rw [hf] at hroute
    cases hroute

/-- A look-up that names no usable topic, be it the first or the second, is the end: the factory is
not asked, and the failure that the route stands for is the result. -/
theorem Gets.of_unrouted (hg : Gets k c b requests result c') {a : Option BrokerRoute}
    {f : Failure} (hmem : .route b (.answer a) ∈ requests) (hf : topicOf b a = .error f) :
    openings requests = [] ∧ result = .error (.failure f) := by
  cases hg with
  | lookUpBreaks => simp at hmem
  | unrouted hreply hroute =>
    obtain rfl := by simpa using hmem
    rw [hf] at hroute
    cases hroute
    exact ⟨rfl, rfl⟩
  | missed hreply hroute hmiss hinstall =>
    rcases List.mem_cons.1 hmem with heq | hmem
    · cases heq
      rw [hf] at hroute
      cases hroute
    · exact hinstall.of_unrouted hmem hf
  | _ hreply hroute =>
    obtain rfl := by simpa using hmem
    rw [hf] at hroute
    cases hroute

/-! ## Getting a handle -/

/-- Getting the handle of a broker, whatever is in the cache and whatever the collaborators reply.
The other brokers keep their entries, and their handles are not closed. Without a handle as the
result, all entries are as they were and nothing was closed. The factory is asked at most once,
after the second look-up has named a usable topic and for that topic; a look-up that stands for a
failure ends the use with this failure, and what the factory refuses is reported as it is. A handle
that is the result is the one of the broker afterwards. If it takes the place of another one, that
one is closed once, when the new entry is in the cache; otherwise nothing is closed. -/
theorem getOrCreate_touches_one_broker (k : Collaborators η σ) (b : BrokerIdentity)
    (c : TopicCache η) (w : σ) :
    ∃ requests result c' w', getOrCreate k b (c, w) = (result, (c', w')) ∧
      getOrCreate k.traced b (c, (w, [])) = (result, (c', (w', requests))) ∧
      (∀ b', b' ≠ b → c'.entries.find? b' = c.entries.find? b' ∧
        ∀ e', c.entries.find? b' = some e' →
          (∀ e, c.entries.find? b = some e → e.handle ≠ e'.handle) →
            ∀ entries, (entries, e'.handle) ∉ closings requests) ∧
      (∀ why, result = .error why → c'.entries = c.entries ∧ closings requests = []) ∧
      (openings requests = [] ∨
        ∃ a₁ t₁ a₂ t reply, topicOf b a₁ = .ok t₁ ∧ topicOf b a₂ = .ok t ∧
          [.route b (.answer a₁), .route b (.answer a₂), .opening t reply] <+: requests ∧
          openings requests = [(t, reply)] ∧
          (∀ fault, reply = .answer (.error fault) →
            result = .error (.failure (.handleOpen fault))) ∧
          ∀ h, reply = .answer (.ok h) → result = .ok h ∧ c'.entries.find? b = some ⟨h, t⟩) ∧
      (∀ a f, .route b (.answer a) ∈ requests → topicOf b a = .error f →
        openings requests = [] ∧ result = .error (.failure f)) ∧
      (∀ h, result = .ok h → ∃ t, c'.entries.find? b = some ⟨h, t⟩) ∧
      (∀ e, c.entries.find? b = some e → c'.entries.find? b ≠ some e →
        closings requests = [(c'.entries, e.handle)]) ∧
      ((∀ e, c.entries.find? b = some e → c'.entries.find? b = some e) →
        closings requests = []) := by
  obtain ⟨requests, result, c', w', heq, htraced, hgets⟩ := getOrCreate_gets k b w [] c
  have hr := hgets.rebinds
  refine ⟨requests, result, c', w', heq, htraced, ?_, fun why => hr.of_error, hgets.opening,
    fun a f => hgets.of_unrouted, fun h => hr.of_ok, fun e => hr.of_rotated, hr.of_not_rotated⟩
  intro b' hb
  refine ⟨hr.find?_of_ne hb, fun e' _ hown entries hmem => ?_⟩
  obtain ⟨e, hold, hhandle⟩ := hr.of_closing hmem
  exact hown e hold hhandle

/-- Two brokers with one text form, each with a handle for the topic `first`. -/
def namesakes : TopicCache Nat where
  entries := .ofList
    [(⟨"team/eu", "orders"⟩, ⟨0, .bare "first" (by decide)⟩),
      (⟨"team", "eu/orders"⟩, ⟨1, .bare "first" (by decide)⟩)]

/-- Their surroundings: the routing table names `second` at the first look-up and `third` at the
second one. -/
def changing : World :=
  let first := TopicId.bare "first" (by decide)
  { script := [some ⟨.ready, "second"⟩, some ⟨.ready, "third"⟩]
    handles := [{ topic := first, recorder := { topic := first } },
      { topic := first, recorder := { topic := first } }] }

theorem getOrCreate_touches_one_broker_namesakes :
    let b : BrokerIdentity := ⟨"team/eu", "orders"⟩
    let b' : BrokerIdentity := ⟨"team", "eu/orders"⟩
    let third := TopicId.bare "third" (by decide)
    (b'.text = b.text ∧ b' ≠ b) ∧
      ∃ requests result c' w',
        getOrCreate World.collaborators.traced b (namesakes, (changing, [])) =
          (result, (c', (w', requests))) ∧
        c'.entries.find? b = some ⟨2, third⟩ ∧
        c'.entries.find? b' = namesakes.entries.find? b' ∧
        closings requests = [(c'.entries, 0)] := by
  intro b b' third
  obtain ⟨requests, result, c', w', -, htraced, hothers, -, -, -, -, hrotated, -⟩ :=
    getOrCreate_touches_one_broker World.collaborators b namesakes changing
  have hnew : (getOrCreate World.collaborators.traced b
      (namesakes, (changing, []))).2.1.entries.find? b = some ⟨2, third⟩ := by
    decide +kernel
  rw [htraced] at hnew
  have hold : namesakes.entries.find? b = some ⟨0, .bare "first" (by decide)⟩ := by
    decide +kernel
  refine ⟨⟨by decide, by decide⟩, requests, result, c', w', htraced, hnew,
    (hothers b' (by decide)).1, hrotated _ hold ?_⟩
  rw [hnew]
  intro hsame
  cases hsame

end EventIngress.TopicCache
