import EventIngress.SortedMap
import EventIngress.Text.Cut
import EventIngress.Text.Quoted

/-!
# Brokers

A logical broker is known by its namespace and its name. Its text form joins the two with a `/`.

Results:

* `BrokerIdentity`: the pair, ordered by namespace and then by name.
* `BrokerIdentity.text`, `BrokerIdentity.parse`: the text form and its reading.
-/

namespace EventIngress

/-- The namespace and the name of a logical broker. -/
structure BrokerIdentity where
  ns : String
  name : String
  deriving DecidableEq, Repr, Inhabited

/-- Why a text names no broker (`IdentityError`). -/
inductive BrokerFault where
  /-- The text is not of the form `namespace/name`. -/
  | malformed (text : String)
  deriving DecidableEq, Repr

namespace BrokerFault

/-- The wording of the fault. -/
def message : BrokerFault → String
  | malformed text =>
    "malformed broker identity " ++ Text.quoteText text ++ ": expected namespace/name"

end BrokerFault

namespace BrokerIdentity

/-- The form `namespace/name` (`BrokerIdentity.fmt`). -/
def text (b : BrokerIdentity) : String :=
  b.ns ++ "/" ++ b.name

/-- Reads the form `namespace/name` (`BrokerIdentity.parse`): exactly one `/`, with something on
each side of it. -/
def parse (s : String) : Except BrokerFault BrokerIdentity :=
  match Text.cut? '/' s.toList with
  | some (ns, name) =>
    if ns.isEmpty || name.isEmpty || name.contains '/' then .error (.malformed s)
    else .ok ⟨String.ofList ns, String.ofList name⟩
  | none => .error (.malformed s)

/-! ## Order -/

/-- Namespaces are compared first, then names. -/
def Precedes (a b : BrokerIdentity) : Prop :=
  a.ns < b.ns ∨ (a.ns = b.ns ∧ a.name < b.name)

instance (a b : BrokerIdentity) : Decidable (Precedes a b) :=
  inferInstanceAs (Decidable (_ ∨ _))

instance keyOrder : KeyOrder BrokerIdentity where
  lt := Precedes
  decLt := fun _ _ => inferInstanceAs (Decidable (Precedes _ _))
  irrefl := fun a h => h.elim (String.lt_irrefl a.ns) fun h => String.lt_irrefl a.name h.2
  trans := by
    intro a b c hab hbc
    rcases hab with hab | ⟨hab, hab'⟩
    · rcases hbc with hbc | ⟨hbc, -⟩
      · exact .inl (String.lt_trans hab hbc)
      · exact .inl (hbc ▸ hab)
    · rcases hbc with hbc | ⟨hbc, hbc'⟩
      · exact .inl (hab ▸ hbc)
      · exact .inr ⟨hab.trans hbc, String.lt_trans hab' hbc'⟩
  total := by
    intro a b hab hba
    have hns : a.ns = b.ns :=
      KeyOrder.total (fun h => hab (.inl h)) (fun h => hba (.inl h))
    have hname : a.name = b.name :=
      KeyOrder.total (fun h => hab (.inr ⟨hns, h⟩)) (fun h => hba (.inr ⟨hns.symm, h⟩))
    cases a; cases b
    cases hns; cases hname
    rfl

/-- The brokers of a list in order, each once. -/
def sorted (brokers : List BrokerIdentity) : List BrokerIdentity :=
  (SortedMap.ofList (brokers.map fun b => (b, ()))).toList.map (·.1)

end BrokerIdentity

end EventIngress
