import EventIngress.Transport.Progress

/-!
# Recording what is published

A recorder takes messages and numbers them. It may be gated: then each publish waits until a permit
arrives, and permits go to the publishes in the order in which they started to wait. Once past the
gate, a publish may be refused.

Results:

* `Recorder.publish`, `Recorder.withdraw`: the start and the giving up of a publish.
* `Recorder.release`: adds a permit.
-/

namespace EventIngress

/-- Why a recorder refuses messages. -/
inductive Refusal where
  | transport (reason : String)
  | rejected (status : Nat) (reason : String)
  deriving DecidableEq, Repr

/-- The fault of a refused publish. -/
def Refusal.fault : Refusal → PublishFault
  | transport reason => .transport reason
  | rejected status reason => .rejected status reason

/-- A gate: free permits, and the numbers of the publishes that wait. -/
structure Gate where
  permits : Nat := 0
  waiting : List Nat := []
  deriving DecidableEq, Repr

/-- A recorder of the messages of one handle. -/
structure Recorder where
  topic : TopicId
  taken : Nat := 0
  gate : Option Gate := none

namespace Recorder

/-- Ends a publish that is past the gate. -/
def conclude (r : Recorder) (refusal : Option Refusal) : Except PublishFault Ack × Recorder :=
  match refusal with
  | some why => (.error why.fault, r)
  | none =>
    (.ok ⟨r.topic.text ++ "-" ++ toString (r.taken + 1), r.topic⟩, { r with taken := r.taken + 1 })

/-- Starts a publish. `ticket` is the number of the publish. -/
def publish (r : Recorder) (closed : Bool) (refusal : Option Refusal) (ticket : Nat) :
    Progress × Recorder :=
  if closed then (.ended (.error (.closed r.topic)), r)
  else
    match r.gate with
    | some ⟨0, waiting⟩ => (.waiting, { r with gate := some ⟨0, waiting ++ [ticket]⟩ })
    | some ⟨permits + 1, waiting⟩ =>
      let (result, r) := conclude { r with gate := some ⟨permits, waiting⟩ } refusal
      (.ended result, r)
    | none =>
      let (result, r) := conclude r refusal
      (.ended result, r)

/-- Gives up a waiting publish. -/
def withdraw (r : Recorder) (ticket : Nat) : Recorder :=
  { r with gate := r.gate.map fun g => { g with waiting := g.waiting.filter (· != ticket) } }

/-- Adds a permit. It goes to the publish that waits longest, which is thereby ended; its number
and its result are yielded. Without a gate nothing happens. -/
def release (r : Recorder) (refusal : Option Refusal) :
    Option (Nat × Except PublishFault Ack) × Recorder :=
  match r.gate with
  | none => (none, r)
  | some ⟨permits, []⟩ => (none, { r with gate := some ⟨permits + 1, []⟩ })
  | some ⟨permits, ticket :: waiting⟩ =>
    let (result, r) := conclude { r with gate := some ⟨permits, waiting⟩ } refusal
    (some (ticket, result), r)

end Recorder

end EventIngress
