import EventIngress.Proofs.Routing.Listings
import EventIngress.Proofs.Routing.RoundTrips

/-!
# Repeated names in a routing document

In the text of a routing document a namespace may come several times, and so may a broker in a
namespace. The last one counts, as a whole: what an earlier namespace says about its brokers is gone,
also for brokers that the last one leaves out. To say so for every text, the texts are also read
without a loss, as all namespaces and brokers in the order in which they stand.

Results:

* `RoutingDocument.ofEntries`, `RoutingDocument.route?_ofEntries_iff`: the document of some entries.
* `RoutingDocument.entriesOf`: the entries that stand in a text.
* `RoutingDocument.ofJson_eq`: every text is read as the document of its entries.
* `RoutingDocument.views_agree`: what the three views say of a document, and of one that was read.
-/

namespace EventIngress.RoutingDocument

open Json (ReadsBack)

/-- What a document says about the brokers of its namespaces, each name as often as it comes. -/
abbrev Entries : Type :=
  List (String × List (String × BrokerTarget))

/-! ## The document of some entries -/

/-- The document of some entries: the last one of a namespace counts, and in it the last one of a
broker. -/
def ofEntries (es : Entries) : RoutingDocument :=
  ⟨Json.mapOf SortedMap.ofList es⟩

/-- A broker has the route of its last entry in the last entry of its namespace. -/
theorem route?_ofEntries_iff {es : Entries} {b : BrokerIdentity} {r : BrokerRoute} :
    (ofEntries es).route? b = some r ↔
      ∃ brokers target, SortedMap.IsLastEntry es b.ns brokers ∧
        SortedMap.IsLastEntry brokers b.name target ∧ target.route = r := by
  simp only [route?, ofEntries, Json.mapOf, SortedMap.find?_ofList_map, Option.map_eq_some_iff,
    Option.bind_eq_some_iff, SortedMap.find?_ofList_eq_some_iff]
  constructor
  · rintro ⟨target, ⟨_, ⟨brokers, hbrokers, rfl⟩, htarget⟩, hroute⟩
    exact ⟨brokers, target, hbrokers, SortedMap.find?_ofList_eq_some_iff.1 htarget, hroute⟩
  · rintro ⟨brokers, target, hbrokers, htarget, hroute⟩
    exact ⟨target, ⟨_, ⟨brokers, hbrokers, rfl⟩, SortedMap.find?_ofList_eq_some_iff.2 htarget⟩,
      hroute⟩

/-! ## The entries in a text -/

/-- The shape of a namespace that is read without a loss. -/
def namespaceEntriesShape : Json.Record (List (String × BrokerTarget)) where
  name := "NamespaceTargets"
  fields := [.part "brokers" false (Json.listMap (BrokerTarget.shape.read {})) fun a _ => a]

/-- The shape of a document that is read without a loss. -/
def entriesShape : Json.Record Entries where
  name := "RoutingSnapshot"
  fields := [.part "namespaces" false (Json.listMap (namespaceEntriesShape.read [])) fun a _ => a]

/-- The entries that stand in the text of a document. -/
def entriesOf (text : Bytes) : Except Json.Fault Entries :=
  Json.finish (entriesShape.read [] text)

theorem namespace_corresponds :
    namespaceShape.Corresponds SortedMap.ofList namespaceEntriesShape where
  name := rfl
  fields := by
    refine .cons (.part "brokers" false (Json.inStep_listMap _) ?_) .nil
    intro brokers entries h _
    exact h
  other := fun _ => Json.inStep_skipValue
  listed := rfl

theorem document_corresponds : shape.Corresponds ofEntries entriesShape where
  name := rfl
  fields := by
    refine .cons (.part "namespaces" false (Json.inStep_readMap (namespace_corresponds.read [])) ?_)
      .nil
    intro namespaces entries h _
    exact congrArg RoutingDocument.mk h
  other := fun _ => Json.inStep_skipValue
  listed := rfl

/-- Every text is read as the document of the entries that stand in it; where there are none, both
readings stop with the same fault. -/
theorem ofJson_eq (text : Bytes) : ofJson text = (entriesOf text).map ofEntries :=
  (document_corresponds.read [] text).finish

/-! ## Written entries -/

/-- The JSON form of the entries of a namespace. -/
def writeBrokers (brokers : List (String × BrokerTarget)) : Bytes :=
  Json.writeObject [("brokers", Json.writeEntries BrokerTarget.write brokers)]

/-- The JSON form of some entries, in the order given. -/
def writeEntries (es : Entries) : Bytes :=
  Json.writeObject [("namespaces", Json.writeEntries writeBrokers es)]

theorem readsBack_writeBrokers (brokers : List (String × BrokerTarget)) :
    ReadsBack (namespaceEntriesShape.read []) (writeBrokers brokers) brokers := by
  have hbrokers := Json.readsBack_listMap BrokerTarget.readsBack_write brokers
  have hsingle := Json.Record.readsBack_single (r := namespaceEntriesShape) rfl hbrokers []
  exact hsingle

/-- All entries are read back, in their order. -/
theorem readsBack_writeEntries (es : Entries) :
    ReadsBack (entriesShape.read []) (writeEntries es) es := by
  have hnamespaces := Json.readsBack_listMap readsBack_writeBrokers es
  have hsingle := Json.Record.readsBack_single (r := entriesShape) rfl hnamespaces []
  exact hsingle

/-! ## Views -/

/-- The listing of a document has each of its brokers once, with its route, in the order of the bytes
of namespaces and names. It is as long as the number of brokers says, and a look-up finds exactly
what is listed. A text is read as the document of the entries that stand in it, and all entries that
are written stand in what is written. Of these, the last entry of a broker in the last entry of its
namespace gives its route, and no other entry does. -/
theorem views_agree :
    (∀ d : RoutingDocument,
      d.brokers.Pairwise (fun a b => Bytes.ofText a.ns < Bytes.ofText b.ns ∨
        a.ns = b.ns ∧ Bytes.ofText a.name < Bytes.ofText b.name) ∧
      d.brokers.Nodup ∧
      (∀ b r, (b, r) ∈ d.routes ↔ ∃ t, d.Holds b t ∧ t.route = r) ∧
      d.routes.length = d.count ∧
      (∀ b r, d.route? b = some r ↔ (b, r) ∈ d.routes) ∧
      ∀ b, d.route? b = none ↔ b ∉ d.brokers) ∧
    (∀ text, ofJson text = (entriesOf text).map ofEntries) ∧
    (∀ es, entriesOf (writeEntries es) = .ok es) ∧
    ∀ es b r, (ofEntries es).route? b = some r ↔
      ∃ brokers target, SortedMap.IsLastEntry es b.ns brokers ∧
        SortedMap.IsLastEntry brokers b.name target ∧ target.route = r := by
  refine ⟨?_, ofJson_eq, ?_, ?_⟩
  · intro d
    have hascending := d.ascending_brokers
    refine ⟨?_, ?_, fun _ _ => mem_routes_iff_holds, d.length_routes,
      fun _ _ => mem_routes_iff.symm, ?_⟩
    · exact hascending.imp BrokerIdentity.lt_iff.1
    · exact hascending.imp KeyOrder.ne_of_lt
    · intro b
      rw [mem_brokers_iff, Option.not_isSome_iff_eq_none]
  · intro es
    exact (readsBack_writeEntries es).finish
  · intro es b r
    exact route?_ofEntries_iff

example : (ofJson (writeEntries [("ns", [("a", {}), ("b", {})]), ("ns", [("b", {})])])).toOption.map
    (·.brokers) = some [⟨"ns", "b"⟩] := by decide +kernel

end EventIngress.RoutingDocument
