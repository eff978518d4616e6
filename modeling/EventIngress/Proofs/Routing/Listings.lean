import EventIngress.Proofs.Text.Utf8
import EventIngress.Routing.Document

/-!
# The listing of a routing document

A routing document lists its brokers with their routes, namespace by namespace. The listing is in
the order of the bytes of namespaces and names, no broker is in it twice, and it says of each broker
what a look-up of the broker says.

Results:

* `BrokerIdentity.lt_iff`: the order of brokers, by the bytes of their texts.
* `RoutingDocument.ascending_routes`: the listing is in this order.
* `RoutingDocument.mem_routes_iff_holds`, `RoutingDocument.mem_routes_iff`: the listing says what the
  document holds, and agrees with the look-up.
* `RoutingDocument.length_routes`: it is as long as the document has brokers.
-/

namespace EventIngress

/-- Brokers are ordered by the bytes of their namespaces, and then by the bytes of their names. -/
theorem BrokerIdentity.lt_iff {a b : BrokerIdentity} :
    a < b ↔ Bytes.ofText a.ns < Bytes.ofText b.ns ∨
      a.ns = b.ns ∧ Bytes.ofText a.name < Bytes.ofText b.name := by
  rw [Bytes.ofText_lt_iff, Bytes.ofText_lt_iff]
  rfl

namespace RoutingDocument

variable {d : RoutingDocument} {b : BrokerIdentity} {r : BrokerRoute}

/-- The listing is in order, and no broker is in it twice. -/
theorem ascending_routes (d : RoutingDocument) : Ascending d.routes := by
  refine List.pairwise_flatMap.2 ⟨?_, ?_⟩
  · intro ns _
    rw [List.pairwise_map]
    exact ns.2.ascending.imp fun h => .inr ⟨rfl, h⟩
  · refine d.namespaces.ascending.imp ?_
    intro ns ns' hlt x hx y hy
    obtain ⟨_, -, rfl⟩ := List.mem_map.1 hx
    obtain ⟨_, -, rfl⟩ := List.mem_map.1 hy
    exact .inl hlt

/-- A document says this about a broker: it has the namespace, and the broker in it. -/
def Holds (d : RoutingDocument) (b : BrokerIdentity) (t : BrokerTarget) : Prop :=
  ∃ brokers, (b.ns, brokers) ∈ d.namespaces.toList ∧ (b.name, t) ∈ brokers.toList

theorem mem_routes_iff_holds : (b, r) ∈ d.routes ↔ ∃ t, d.Holds b t ∧ t.route = r := by
  simp only [routes, List.mem_flatMap, List.mem_map, Holds]
  constructor
  · rintro ⟨⟨ns, brokers⟩, hns, ⟨name, t⟩, hname, heq⟩
    cases heq
    exact ⟨t, ⟨brokers, hns, hname⟩, rfl⟩
  · rintro ⟨t, ⟨brokers, hns, hname⟩, rfl⟩
    exact ⟨(b.ns, brokers), hns, (b.name, t), hname, rfl⟩

theorem route?_eq_some_iff : d.route? b = some r ↔ ∃ t, d.Holds b t ∧ t.route = r := by
  simp only [route?, Option.map_eq_some_iff, Option.bind_eq_some_iff, SortedMap.find?_eq_some_iff,
    Holds]

theorem mem_routes_iff : (b, r) ∈ d.routes ↔ d.route? b = some r :=
  mem_routes_iff_holds.trans route?_eq_some_iff.symm

/-- The brokers of a document, in the order of the listing. -/
def brokers (d : RoutingDocument) : List BrokerIdentity :=
  d.routes.map (·.1)

theorem mem_brokers_iff : b ∈ d.brokers ↔ (d.route? b).isSome = true := by
  rw [brokers, List.mem_map, Option.isSome_iff_exists]
  constructor
  · rintro ⟨⟨_, r⟩, hmem, rfl⟩
    exact ⟨r, mem_routes_iff.1 hmem⟩
  · rintro ⟨r, hr⟩
    exact ⟨(b, r), mem_routes_iff.2 hr, rfl⟩

theorem ascending_brokers (d : RoutingDocument) : d.brokers.Pairwise (· < ·) :=
  List.pairwise_map.2 d.ascending_routes

/-- A document has as many brokers as it lists. -/
theorem length_routes (d : RoutingDocument) : d.routes.length = d.count := by
  rw [routes, count]
  induction d.namespaces.toList with
  | nil => rfl
  | cons ns rest ih =>
    rw [List.flatMap_cons, List.length_append, List.length_map, List.foldr_cons, ih]
    rfl

/-- What is made of the listing can be made of look-ups. -/
theorem map_routes {α : Type} (d : RoutingDocument) (f : BrokerIdentity → Option BrokerRoute → α) :
    (d.routes.map fun entry => f entry.1 (some entry.2)) =
      d.brokers.map fun b => f b (d.route? b) := by
  rw [brokers, List.map_map]
  refine List.map_congr_left fun entry hmem => ?_
  exact congrArg (f entry.1) (mem_routes_iff.1 hmem).symm

end RoutingDocument

end EventIngress
