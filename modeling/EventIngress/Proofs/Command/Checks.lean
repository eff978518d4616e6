import EventIngress.Command.Run
import EventIngress.Proofs.Routing.Listings
import EventIngress.Proofs.Sink.Sends
import EventIngress.Proofs.Topic.Grammar

/-!
# Checks of routing documents

The check of a routing document says of each broker what would become of a send to it while the
document is the routing table: which topic would be opened, or why none would. So a document passes
the check exactly if no send to one of its brokers fails for good because of its route.

Results:

* `Collaborators.over`: collaborators whose routing table is a document.
* `TopicCache.Gets.over_error`, `TopicCache.Gets.over_opens`, `TopicCache.Gets.over_failure`:
  getting a handle over a document.
* `routeLine_eq_ready_iff` and its siblings: what a line says.
* `checkRoutes_predicts_sends`: what the check leaves, and what it tells.
-/

namespace EventIngress

open Request

variable {η σ : Type}

/-! ## Over a document -/

/-- The collaborators with a document as the routing table. -/
def Collaborators.over (k : Collaborators η σ) (d : RoutingDocument) : Collaborators η σ :=
  { k with route := fun b s => (.answer (d.route? b), s) }

theorem Collaborators.eq_of_replies_over {k : Collaborators η σ} {d : RoutingDocument}
    {b : BrokerIdentity} {reply : Reply (Option BrokerRoute)} (h : (k.over d).Replies b reply) :
    reply = .answer (d.route? b) := by
  obtain ⟨s, rfl⟩ := h
  rfl

namespace TopicCache

variable {k : Collaborators η σ} {d : RoutingDocument} {c c' : TopicCache η} {b : BrokerIdentity}
  {requests : List (Request η)} {result : Except Stop η} {f : Failure} {t : TopicId}

/-- A broker whose route leads to no topic fails so, and nothing is opened for it. -/
theorem Gets.over_error (hg : Gets (k.over d) c b requests result c')
    (hf : topicOf b (d.route? b) = .error f) :
    result = .error (.failure f) ∧ openings requests = [] := by
  cases hg with
  | lookUpBreaks hreply => cases Collaborators.eq_of_replies_over hreply
  | unrouted hreply hroute =>
    cases Collaborators.eq_of_replies_over hreply
    rw [hf] at hroute
    cases hroute
    exact ⟨rfl, rfl⟩
  | _ hreply hroute =>
    cases Collaborators.eq_of_replies_over hreply
    rw [hf] at hroute
    cases hroute

/-- If the cache is empty, the topic that the route leads to is the one that is opened. -/
theorem Gets.over_opens (hg : Gets (k.over d) {} b requests result c')
    (ht : topicOf b (d.route? b) = .ok t) : (openings requests).map (·.1) = [t] := by
  have heq {t' : TopicId} {a : Option BrokerRoute} (hreply : (k.over d).Replies b (.answer a))
      (hroute : topicOf b a = .ok t') : t' = t := by
    cases Collaborators.eq_of_replies_over hreply
    rw [ht] at hroute
    exact (Except.ok.inj hroute).symm
  cases hg with
  | lookUpBreaks hreply => cases Collaborators.eq_of_replies_over hreply
  | unrouted hreply hroute =>
    cases Collaborators.eq_of_replies_over hreply
    rw [ht] at hroute
    cases hroute
  | poisoned hreply hroute hpoisoned => cases hpoisoned
  | found hreply hroute hhit => cases hhit
  | missed hreply hroute hmiss hinstall =>
    cases hinstall with
    | lookUpBreaks hreply => cases Collaborators.eq_of_replies_over hreply
    | unrouted hreply' hroute' =>
      cases Collaborators.eq_of_replies_over hreply'
      rw [ht] at hroute'
      cases hroute'
    | found hreply' hroute' hhit => cases hhit
    | rotated hreply' hroute' hold => cases hold
    | _ hreply' hroute' => exact congrArg (fun t => [t]) (heq hreply' hroute')

/-- A failure that comes from neither the factory nor the lock is the one that the route stands
for. -/
theorem Gets.over_failure (hg : Gets (k.over d) c b requests result c')
    (hf : result = .error (.failure f)) (hopen : ∀ fault, f ≠ .handleOpen fault)
    (hlock : ∀ reason, f ≠ .internal reason) : topicOf b (d.route? b) = .error f := by
  cases hg with
  | unrouted hreply hroute =>
    cases Collaborators.eq_of_replies_over hreply
    cases hf
    exact hroute
  | poisoned hreply hroute hpoisoned =>
    cases hf
    exact absurd rfl (hlock _)
  | missed hreply hroute hmiss hinstall =>
    cases hinstall with
    | unrouted hreply' hroute' =>
      cases Collaborators.eq_of_replies_over hreply'
      cases hf
      exact hroute'
    | refused hreply' hroute' =>
      cases hf
      exact absurd rfl (hopen _)
    | _ => cases hf
  | _ => cases hf

end TopicCache

/-! ## Lines -/

theorem TopicId.text_injective {t t' : TopicId} (h : t.text = t'.text) : t = t' := by
  have hparse := parse_text t
  rw [h, parse_text] at hparse
  exact (Except.ok.inj hparse).symm

/-- What a line says after the broker. -/
def routeVerdict (result : Except Failure TopicId) : List Char :=
  '\t' :: (routeLabel result).toList ++
    match result with
    | .ok t => '\t' :: t.text.toList
    | .error _ => []

theorem routeLine_eq_iff {b : BrokerIdentity} {result : Except Failure TopicId} {s : String} :
    routeLine b result = b.text ++ s ↔ routeVerdict result = s.toList := by
  have hline : (routeLine b result).toList = b.text.toList ++ routeVerdict result := by
    cases result <;> simp [routeLine, routeVerdict]
  rw [← String.toList_inj, hline, String.toList_append, List.append_cancel_left_eq]

variable {b : BrokerIdentity} {route : Option BrokerRoute} {t : TopicId}

/-- A route that leads to no topic is missing, not ready, or names no usable topic. -/
theorem topicOf_error_cases {f : Failure} (h : topicOf b route = .error f) :
    f = .notFound b ∨ f = .notReady b ∨ ∃ reason, f = .incomplete b reason := by
  rcases route with _ | ⟨_ | _, topic⟩
  · cases h
    exact .inl rfl
  · cases h
    exact .inr (.inl rfl)
  · rw [topicOf] at h
    split at h <;> cases h
    exact .inr (.inr ⟨_, rfl⟩)

theorem routeLine_eq_ready_iff :
    routeLine b (topicOf b route) = b.text ++ ("\tready\t" ++ t.text) ↔
      topicOf b route = .ok t := by
  rw [routeLine_eq_iff, String.toList_append]
  cases h : topicOf b route with
  | ok t' =>
    have hcancel : routeVerdict (.ok t') = "\tready\t".toList ++ t.text.toList ↔
        t'.text.toList = t.text.toList := by simp [routeVerdict, routeLabel]
    rw [hcancel, String.toList_inj, Except.ok.injEq]
    exact ⟨TopicId.text_injective, congrArg _⟩
  | error f =>
    rcases topicOf_error_cases h with rfl | rfl | ⟨reason, rfl⟩ <;>
      simp [routeVerdict, routeLabel]

theorem routeLine_eq_notReady_iff :
    routeLine b (topicOf b route) = b.text ++ "\tnot_ready" ↔
      topicOf b route = .error (.notReady b) := by
  rw [routeLine_eq_iff]
  cases h : topicOf b route with
  | ok t => simp [routeVerdict, routeLabel]
  | error f =>
    rcases topicOf_error_cases h with rfl | rfl | ⟨reason, rfl⟩ <;>
      simp [routeVerdict, routeLabel]

theorem routeLine_eq_incomplete_iff :
    routeLine b (topicOf b route) = b.text ++ "\tincomplete" ↔
      ∃ reason, topicOf b route = .error (.incomplete b reason) := by
  rw [routeLine_eq_iff]
  cases h : topicOf b route with
  | ok t => simp [routeVerdict, routeLabel]
  | error f =>
    rcases topicOf_error_cases h with rfl | rfl | ⟨reason, rfl⟩ <;>
      simp [routeVerdict, routeLabel]

theorem isIncomplete_iff :
    isIncomplete (topicOf b route) = true ↔
      ∃ reason, topicOf b route = .error (.incomplete b reason) := by
  cases h : topicOf b route with
  | ok t => simp [isIncomplete]
  | error f =>
    rcases topicOf_error_cases h with rfl | rfl | ⟨reason, rfl⟩ <;> simp [isIncomplete]

/-! ## Sends over a document -/

/-- A send over a document fails for an incomplete route exactly if the route is incomplete, however
its collaborators behave otherwise. -/
theorem Sink.start_over_incomplete_iff (s : Sink) (k : Collaborators η σ) (d : RoutingDocument)
    (publish : Publisher η σ) (b : BrokerIdentity) (e : Event) (ctx : SendContext)
    (c : TopicCache η) (w : σ) (later : List Happening) (reason : String) :
    later.foldl SendState.next (s.start (k.over d) publish b e ctx (c, w)).1 =
        .ended (.error (.incomplete b reason)) ↔
      topicOf b (d.route? b) = .error (.incomplete b reason) := by
  obtain ⟨requests, got, c', w₁, hget, htraced, hgets⟩ :=
    TopicCache.getOrCreate_gets (k.over d) b w [] c
  obtain ⟨published, state, w₂, hstart, -, hs⟩ :=
    Sink.start_sends s (k.over d) publish b e ctx hget htraced
  rw [hstart]
  constructor
  · intro hend
    generalize hresult : (Except.error (.incomplete b reason) : Except Failure Ack) = result at hend
    cases hs.source (fun f => hgets.ofCache) hend with
    | cache hgot _ =>
      cases hresult
      exact hgets.over_failure hgot (fun _ => Failure.noConfusion) (fun _ => Failure.noConfusion)
    | @publish result' ha => cases result' <;> cases hresult
    | _ => cases hresult
  · intro hroute
    obtain ⟨rfl, -⟩ := hgets.over_error hroute
    cases hs
    exact SendState.foldl_next_of_not_waits rfl later

/-! ## The check -/

/-- What the check of a document leaves, by look-ups. -/
theorem checkDocument_eq (d : RoutingDocument) :
    (checkDocument d).output = d.brokers.map (fun b => routeLine b (topicOf b (d.route? b))) ∧
      (checkDocument d).status =
        if d.brokers.any fun b => isIncomplete (topicOf b (d.route? b)) then .failure
        else .success := by
  have hresults := d.map_routes fun b route => (b, topicOf b route)
  have hlines := d.map_routes fun b route => routeLine b (topicOf b route)
  constructor
  · rw [checkDocument, List.map_map]
    exact hlines
  · rw [checkDocument]
    dsimp only
    rw [hresults, List.any_map]
    rfl

/-- The lines of a document, the end of its check, and the routes that decide it. -/
theorem checkRoutes_of_load {files : FileTree} {file : String} {maxBytes : Nat}
    {d : RoutingDocument} (hload : RoutingDocument.load files file maxBytes = .ok d)
    (env : Environment) (exchange : HttpRequest → Exchange) :
    ∃ status, ((Command.checkRoutes file maxBytes).run files env exchange).status = status ∧
      ((Command.checkRoutes file maxBytes).run files env exchange).output =
        d.brokers.map (fun b => routeLine b (topicOf b (d.route? b))) ∧
      (status = .success ∨ status = .failure) ∧
      (status = .success ↔
        ∀ b ∈ d.brokers, ∀ reason, topicOf b (d.route? b) ≠ .error (.incomplete b reason)) := by
  obtain ⟨houtput, hstatus⟩ := checkDocument_eq d
  rw [Command.run, checkRoutes, hload]
  refine ⟨_, hstatus, houtput, ?_, ?_⟩
  · split
    · exact .inr rfl
    · exact .inl rfl
  · have hany : (d.brokers.any fun b => isIncomplete (topicOf b (d.route? b))) = true ↔
        ∃ b ∈ d.brokers, ∃ reason, topicOf b (d.route? b) = .error (.incomplete b reason) := by
      rw [List.any_eq_true]
      exact exists_congr fun b => and_congr_right fun _ => isIncomplete_iff
    split
    · rename_i hincomplete
      obtain ⟨b, hb, reason, hroute⟩ := hany.1 hincomplete
      exact ⟨fun h => ExitStatus.noConfusion h, fun h => absurd hroute (h b hb reason)⟩
    · rename_i hcomplete
      refine ⟨fun _ b hb reason hroute => hcomplete (hany.2 ⟨b, hb, reason, hroute⟩), fun _ => rfl⟩

/-- A line tells how a handle would be got over the document with an empty cache. -/
theorem routeLine_predicts (d : RoutingDocument) (b : BrokerIdentity) (k : Collaborators η σ)
    (w : σ) :
    ∃ requests result c' w',
      TopicCache.getOrCreate (k.over d).traced b ({}, (w, [])) = (result, (c', (w', requests))) ∧
      (∀ t : TopicId, topicOf b (d.route? b) = .ok t ↔ (openings requests).map (·.1) = [t]) ∧
      (∀ f, (∀ fault, f ≠ .handleOpen fault) → (∀ reason, f ≠ .internal reason) →
        (topicOf b (d.route? b) = .error f ↔ result = .error (.failure f))) := by
  obtain ⟨requests, result, c', w', -, htraced, hgets⟩ :=
    TopicCache.getOrCreate_gets (k.over d) b w [] {}
  refine ⟨requests, result, c', w', htraced, fun t => ⟨hgets.over_opens, fun hopen => ?_⟩,
    fun f hopen hlock => ⟨fun hroute => (hgets.over_error hroute).1,
      fun hresult => hgets.over_failure hresult hopen hlock⟩⟩
  cases hroute : topicOf b (d.route? b) with
  | ok t' =>
    rw [hgets.over_opens hroute, List.singleton_inj] at hopen
    rw [hopen]
  | error f =>
    rw [(hgets.over_error hroute).2] at hopen
    cases hopen

/-- The check of a routing document that can be loaded. There is one line for each of its brokers,
in the order of the bytes of namespaces and names. A line tells how a handle for the broker would be
got over the document with an empty cache: for which topic it would be opened, or that the broker is
not ready, or that its route is incomplete. The command ends well exactly if no line tells of an
incomplete route, which is to say that no send to any broker of the document can fail for one. -/
theorem checkRoutes_predicts_sends (files : FileTree) (env : Environment)
    (exchange : HttpRequest → Exchange) (file : String) (maxBytes : Nat) (d : RoutingDocument)
    (hload : RoutingDocument.load files file maxBytes = .ok d) :
    ∃ status, ∃ brokers : List BrokerIdentity, ∃ line : BrokerIdentity → String,
      ((Command.checkRoutes file maxBytes).run files env exchange).status = status ∧
      ((Command.checkRoutes file maxBytes).run files env exchange).output = brokers.map line ∧
      brokers.Pairwise (fun a b => Bytes.ofText a.ns < Bytes.ofText b.ns ∨
        a.ns = b.ns ∧ Bytes.ofText a.name < Bytes.ofText b.name) ∧
      (∀ b, b ∈ brokers ↔ (d.route? b).isSome = true) ∧
      (status = .success ∨ status = .failure) ∧
      (status = .success ↔ ∀ b ∈ brokers, line b ≠ b.text ++ "\tincomplete") ∧
      (∀ b ∈ brokers, ∀ {η σ : Type} (k : Collaborators η σ) (w : σ),
        ∃ requests result c' w',
          TopicCache.getOrCreate (k.over d).traced b ({}, (w, [])) =
            (result, (c', (w', requests))) ∧
          (∀ t : TopicId, line b = b.text ++ ("\tready\t" ++ t.text) ↔
            (openings requests).map (·.1) = [t]) ∧
          (line b = b.text ++ "\tnot_ready" ↔ result = .error (.failure (.notReady b))) ∧
          (line b = b.text ++ "\tincomplete" ↔
            ∃ reason, result = .error (.failure (.incomplete b reason)))) ∧
      (status = .success ↔
        ∀ b ∈ brokers, ∀ {η σ : Type} (s : Sink) (k : Collaborators η σ) (publish : Publisher η σ)
          (e : Event) (ctx : SendContext) (c : TopicCache η) (w : σ) (later : List Happening)
          (reason : String),
          later.foldl SendState.next (s.start (k.over d) publish b e ctx (c, w)).1 ≠
            .ended (.error (.incomplete b reason))) := by
  obtain ⟨status, hstatus, houtput, hend, hsuccess⟩ := checkRoutes_of_load hload env exchange
  refine ⟨status, d.brokers, _, hstatus, houtput,
    d.ascending_brokers.imp BrokerIdentity.lt_iff.1, fun b => RoutingDocument.mem_brokers_iff,
    hend, ?_, ?_, ?_⟩
  · rw [hsuccess]
    refine forall₂_congr fun b _ => ?_
    rw [ne_eq, routeLine_eq_incomplete_iff, not_exists]
  · intro b _ η σ k w
    obtain ⟨requests, result, c', w', htraced, hopens, hfails⟩ := routeLine_predicts d b k w
    refine ⟨requests, result, c', w', htraced, fun t => routeLine_eq_ready_iff.trans (hopens t),
      routeLine_eq_notReady_iff.trans
        (hfails _ (fun _ => Failure.noConfusion) (fun _ => Failure.noConfusion)),
      routeLine_eq_incomplete_iff.trans (exists_congr fun reason =>
        hfails _ (fun _ => Failure.noConfusion) (fun _ => Failure.noConfusion))⟩
  · rw [hsuccess]
    constructor
    · intro hcomplete b hb η σ s k publish e ctx c w later reason hfail
      exact hcomplete b hb reason
        ((Sink.start_over_incomplete_iff s k d publish b e ctx c w later reason).1 hfail)
    · intro hsends b hb reason hroute
      -- Any send will do.
      let e : Event := { id := "1", source := "check", eventType := "check" }
      refine hsends b hb {} World.collaborators (World.publisher 0) e {} {} {} [] reason ?_
      exact (Sink.start_over_incomplete_iff {} World.collaborators d _ b e {} {} {} [] reason).2
        hroute

/-- A document with a broker that is ready, one that is not, and one whose topic is too short. -/
def RoutingDocument.mixed : RoutingDocument :=
  ⟨.ofList
    [("team", .ofList [("orders", ⟨.ready, some ⟨"orders-topic", ""⟩⟩), ("invoices", {})]),
      ("eu", .ofList [("users", ⟨.ready, some ⟨"eu", ""⟩⟩)])]⟩

/-- The check fails, and there is a send that fails for the route of the third broker. -/
theorem checkRoutes_predicts_sends_mixed :
    let files := FileTree.empty.put "targets.json" RoutingDocument.mixed.write
    RoutingDocument.load files "targets.json" 4096 = .ok .mixed ∧
      ((Command.checkRoutes "targets.json" 4096).run files .empty fun _ => .failed "").output =
        ["eu/users\tincomplete", "team/invoices\tnot_ready", "team/orders\tready\torders-topic"] ∧
      ∃ (b : BrokerIdentity) (η σ : Type) (s : Sink) (k : Collaborators η σ)
        (publish : Publisher η σ) (e : Event) (ctx : SendContext) (c : TopicCache η) (w : σ)
        (later : List Happening) (reason : String),
        later.foldl SendState.next (s.start (k.over .mixed) publish b e ctx (c, w)).1 =
          .ended (.error (.incomplete b reason)) := by
  intro files
  have hload : RoutingDocument.load files "targets.json" 4096 = .ok .mixed := by decide +kernel
  refine ⟨hload, by decide +kernel, ?_⟩
  obtain ⟨status, brokers, line, hstatus, -, -, -, -, -, -, hsends⟩ :=
    checkRoutes_predicts_sends files .empty (fun _ => .failed "") "targets.json" 4096 .mixed hload
  have hfailure : status ≠ .success := by
    rw [← hstatus]
    decide +kernel
  refine Classical.byContradiction fun hnone => ?_
  refine hfailure (hsends.2 fun b _ {η σ} s k publish e ctx c w later reason hfail => hnone ?_)
  exact ⟨b, η, σ, s, k, publish, e, ctx, c, w, later, reason, hfail⟩

end EventIngress
