import EventIngress.Decimal.Binary64
import EventIngress.SortedMap

/-!
# JSON values

A number is an integer where it has no fraction, no exponent and a place among the 64-bit integers
of either kind; every other number is of double precision. The members of an object are listed in
ascending order of their names, each name once.

Results:

* `Json.Number`, `Json.Tree`: the shapes of values.
* `Json.Tree.Ordered`: all objects inside a tree list their members in ascending order.
* `Json.Value`: the ordered trees, with a constructor function for each shape.
-/

namespace EventIngress.Json

/-! ## Numbers -/

/-- A number: an integer in the range of the signed or unsigned 64-bit integers, or a number of
double precision. -/
inductive Number where
  | integer (value : Int)
    (fits : -0x8000000000000000 ≤ value ∧ value < 0x10000000000000000)
  | real (value : Binary64)
  deriving DecidableEq

/-! ## Trees -/

/-- The shapes of values. -/
inductive Tree where
  | null
  | boolean (value : Bool)
  | number (value : Number)
  | string (value : String)
  | array (items : List Tree)
  | object (members : List (String × Tree))

mutual

/-- All objects list their members in ascending order of the names, each name once. -/
def Tree.Ordered : Tree → Prop
  | .array items => Tree.ItemsOrdered items
  | .object members => Ascending members ∧ Tree.MembersOrdered members
  | _ => True

/-- All items of an array are ordered. -/
def Tree.ItemsOrdered : List Tree → Prop
  | [] => True
  | item :: items => item.Ordered ∧ Tree.ItemsOrdered items

/-- All values of an object are ordered. -/
def Tree.MembersOrdered : List (String × Tree) → Prop
  | [] => True
  | (_, value) :: members => value.Ordered ∧ Tree.MembersOrdered members

end

namespace Tree

theorem itemsOrdered_iff {items : List Tree} :
    ItemsOrdered items ↔ ∀ item ∈ items, item.Ordered := by
  induction items with
  | nil => simp [ItemsOrdered]
  | cons item items ih => simp [ItemsOrdered, ih]

theorem membersOrdered_iff {members : List (String × Tree)} :
    MembersOrdered members ↔ ∀ member ∈ members, member.2.Ordered := by
  induction members with
  | nil => simp [MembersOrdered]
  | cons member members ih => cases member; simp [MembersOrdered, ih]

end Tree

/-! ## Values -/

/-- A JSON value. -/
structure Value where
  tree : Tree
  ordered : tree.Ordered

namespace Value

/-- The value `null`. -/
def null : Value := ⟨.null, by simp [Tree.Ordered]⟩

/-- A truth value. -/
def boolean (value : Bool) : Value := ⟨.boolean value, by simp [Tree.Ordered]⟩

/-- A number. -/
def number (value : Number) : Value := ⟨.number value, by simp [Tree.Ordered]⟩

/-- A text. -/
def string (value : String) : Value := ⟨.string value, by simp [Tree.Ordered]⟩

/-- A list of values. -/
def array (items : List Value) : Value :=
  ⟨.array (items.map (·.tree)), by
    simp only [Tree.Ordered, Tree.itemsOrdered_iff, List.mem_map]
    rintro _ ⟨item, -, rfl⟩
    exact item.ordered⟩

/-- An object with the members of a map. -/
def object (members : SortedMap String Value) : Value :=
  ⟨.object (members.mapValues (·.tree)).toList, by
    refine ⟨(members.mapValues (·.tree)).ascending, Tree.membersOrdered_iff.2 ?_⟩
    simp only [SortedMap.toList, SortedMap.mapValues, List.mem_map]
    rintro _ ⟨member, -, rfl⟩
    exact member.2.ordered⟩

instance : Inhabited Value := ⟨null⟩

end Value

end EventIngress.Json
