import EventIngress.Failure
import EventIngress.Message

/-!
# The progress of a publish

Publishing a message on a handle first looks whether the handle is closed. Then it either comes to
an end at once or waits for something.

Results:

* `Progress`: how far a publish has come.
* `Issuer`: message ids in ascending order.
-/

namespace EventIngress

/-- How far a publish has come. -/
inductive Progress where
  /-- The message was taken, or will not be. -/
  | ended (result : Except PublishFault Ack)
  /-- The publish waits. -/
  | waiting
  /-- The publish broke down without a result. -/
  | broken

/-- Hands out message ids (`AckSequence`): a tag and a number that counts from one. The number is not
bounded here. The counter that it stands for has 64 bits and agrees with it up to the number
`2^64 - 1`; so there, too, the ids are all different as long as fewer than `2^64` have been handed
out. -/
structure Issuer where
  tag : String
  issued : Nat := 0
  deriving DecidableEq

namespace Issuer

/-- The next id, and the issuer after it (`AckSequence.next_id`). -/
def next (i : Issuer) : String × Issuer :=
  (i.tag ++ "-" ++ toString (i.issued + 1), { i with issued := i.issued + 1 })

end Issuer

end EventIngress
