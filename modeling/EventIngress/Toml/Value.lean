import EventIngress.SortedMap

/-!
# TOML values

The members of a table are listed in ascending order of their names. A table remembers how it came
about, because that decides what later lines of a document may still add to it.

Results:

* `Toml.Value`: the shapes of values.
* `Toml.change?`: changes the table at the end of a path, and makes the tables that are missing on
  the way.
* `Toml.put?`, `Toml.openTable?`, `Toml.openItem?`: the three changes that a document makes.
-/

namespace EventIngress.Toml

/-! ## Shapes -/

/-- A number with a fraction or an exponent. -/
inductive Real where
  /-- The number `digits * 10^exponent` with a sign. -/
  | finite (negative : Bool) (digits : Nat) (exponent : Int)
  | infinite (negative : Bool)
  | undefined
  deriving DecidableEq, Repr

/-- The least number that rounds beyond double precision: halfway between the largest finite number
and the next power of two. -/
def realLimit : Nat := Nat.pow 2 1024 - Nat.pow 2 970

/-- Whether a number is finite in double precision, or written as infinite. -/
def Real.storable : Real → Bool
  | .finite _ digits exponent =>
    if digits = 0 then true
    else if (Nat.log2 digits / 3 + 1 : Int) + exponent < 300 then true
    else if 400 < (Nat.log2 digits / 4 : Int) + exponent then false
    else if exponent < 0 then digits < realLimit * Nat.pow 10 exponent.natAbs
    else digits * Nat.pow 10 exponent.toNat < realLimit
  | .infinite _ | .undefined => true

/-- How a table came about. -/
inductive Origin where
  /-- It lies on the way to a table with a header. -/
  | implied
  /-- It lies on the way of a dotted key. -/
  | dotted
  /-- It has a header, or is the document. -/
  | header
  /-- It is written in braces. -/
  | braces
  deriving DecidableEq, Repr

/-- A value. -/
inductive Value where
  | string (value : String)
  | integer (value : Int)
  | real (value : Real)
  | boolean (value : Bool)
  | dateTime (text : String)
  /-- A list; `growing` if its items are tables that have a header each. -/
  | array (growing : Bool) (items : List Value)
  | table (origin : Origin) (members : List (String × Value))

/-- The members of a table. -/
abbrev Members := List (String × Value)

/-! ## Changes -/

/-- The origin of a table that is made on the way. -/
def madeOn (dotted : Bool) : Origin :=
  if dotted then .dotted else .implied

/-- Whether a way may lead through a table: a table in braces is complete, and a table with a header
is not extended by dotted keys. -/
def Origin.isOpen (dotted : Bool) : Origin → Bool
  | .braces => false
  | .header => !dotted
  | .implied | .dotted => true

/-- Changes the table at the end of a path that starts in a table of the given origin. Tables that
are missing on the way are made; a list of tables is followed into its last item. -/
def change? (dotted : Bool) (change : Origin → Members → Option Members) :
    Origin → List String → Members → Option Members
  | origin, [], members => change origin members
  | _, name :: path, members =>
    match valueAt? name members with
    | none =>
      (change? dotted change (madeOn dotted) path []).map fun inner =>
        insertEntry name (.table (madeOn dotted) inner) members
    | some (.table origin inner) =>
      if origin.isOpen dotted then
        (change? dotted change origin path inner).map fun inner =>
          insertEntry name (.table origin inner) members
      else none
    | some (.array true items) =>
      match items.getLast? with
      | some (.table origin inner) =>
        (change? dotted change origin path inner).map fun inner =>
          insertEntry name (.array true (items.dropLast ++ [.table origin inner])) members
      | _ => none
    | some _ => none

/-- Puts a value that is not there yet under a dotted key. A table that dotted keys have made takes
values by dotted keys only, and any other table by plain keys only. -/
def put? (origin : Origin) (path : List String) (name : String) (value : Value) :
    Members → Option Members :=
  change? true
    (fun origin members =>
      if (origin == .dotted) == path.isEmpty then none
      else if (valueAt? name members).isSome then none
      else some (insertEntry name value members))
    origin path

/-- Gives a table its header; it must not have come about in any other way than as a step to
tables with headers. -/
def openTable? (path : List String) (name : String) : Members → Option Members :=
  change? false
    (fun _ members =>
      match valueAt? name members with
      | none => some (insertEntry name (.table .header []) members)
      | some (.table .implied inner) => some (insertEntry name (.table .header inner) members)
      | some _ => none)
    .header path

/-- Adds a table to a list of tables. -/
def openItem? (path : List String) (name : String) : Members → Option Members :=
  change? false
    (fun _ members =>
      match valueAt? name members with
      | none => some (insertEntry name (.array true [.table .header []]) members)
      | some (.array true items) =>
        some (insertEntry name (.array true (items ++ [.table .header []])) members)
      | some _ => none)
    .header path

end EventIngress.Toml
