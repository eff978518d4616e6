import EventIngress.Text.Alternatives
import EventIngress.Toml.Value

/-!
# TOML values of a known shape

Texts, numbers, choices and records. The members of a table are looked at in the order of their
names, and the first difference from the shape decides.

Results:

* `Toml.Mismatch`: how a value differs from what was asked for.
* `Toml.textOf`, `Toml.countOf`, `Toml.choiceOf`: values of a shape.
* `Toml.Record.decode`: a table with known members, or the list of their values;
  `decodeMembers_error_iff` says which members make a table be refused, and `decodeTable_unknown`
  that a strict record takes no other member.
-/

namespace EventIngress.Toml

/-- How a value differs from what was asked for. -/
inductive Mismatch where
  /-- A member that has to be there is not. -/
  | missingField (name : String)
  /-- A strict record has no member of this name. -/
  | unknownField (name : String) (known : List String)
  /-- A text is not one of the words that are known. -/
  | unknownVariant (text : String) (known : List String)
  /-- The value is of another kind, or out of range. -/
  | wrongKind
  deriving DecidableEq, Repr

/-- The wording of the difference. -/
def Mismatch.message : Mismatch → String
  | missingField name => "missing field " ++ Text.ticked name
  | unknownField name known => "unknown field " ++ Text.ticked name ++ ", " ++ Text.alternatives known
  | unknownVariant text known =>
    "unknown variant " ++ Text.ticked text ++ ", " ++ Text.alternatives known
  | wrongKind => "invalid type"

/-! ## Kinds -/

/-- The name under which a point in time offers its text where a table is asked for. -/
def dateTimeName : String := "$__toml_private_datetime"

/-- The members that a value offers where a table is asked for. -/
def Value.members? : Value → Option Members
  | .table _ members => some members
  | .dateTime text => some [(dateTimeName, .string text)]
  | _ => none

/-- A text. -/
def textOf : Value → Except Mismatch String
  | .string s => .ok s
  | _ => .error .wrongKind

/-- A number of things, below `2^64`. -/
def countOf : Value → Except Mismatch Nat
  | .integer n => if 0 ≤ n ∧ n < 0x10000000000000000 then .ok n.toNat else .error .wrongKind
  | _ => .error .wrongKind

/-- The choice with a name. -/
def chosen {α : Type} (choices : List (String × α)) (name : String) : Except Mismatch α :=
  match choices.lookup name with
  | some a => .ok a
  | none => .error (.unknownVariant name (choices.map (·.1)))

/-- One of several words, or a table with that word as its one member and nothing in it. -/
def choiceOf {α : Type} (choices : List (String × α)) : Value → Except Mismatch α
  | .string name => chosen choices name
  | .table _ [(name, value)] =>
    match chosen choices name, value with
    | .ok a, .table _ [] => .ok a
    | .ok a, .array _ [] => .ok a
    | .ok _, _ => .error .wrongKind
    | .error difference, _ => .error difference
  | _ => .error .wrongKind

/-! ## Records -/

/-- A known member of a record. Its value is the change that it makes to the record. -/
structure Field (σ : Type) where
  name : String
  /-- Whether the member has to be there. -/
  required : Bool
  decode : Value → Except Mismatch (σ → σ)

/-- A member that sets one part. -/
def Field.part {σ α : Type} (name : String) (required : Bool) (decode : Value → Except Mismatch α)
    (set : α → σ → σ) : Field σ :=
  ⟨name, required, fun value => (decode value).map set⟩

/-- The shape of a record with parts `σ`. -/
structure Record (σ : Type) where
  fields : List (Field σ)
  /-- Whether other members are refused. -/
  strict : Bool := true

namespace Record

variable {σ : Type}

/-- The names of the known members. -/
def names (r : Record σ) : List String :=
  r.fields.map (·.name)

/-- The known member of a name. -/
def field? (r : Record σ) (name : String) : Option (Field σ) :=
  r.fields.find? fun field => field.name == name

/-- The first member that has to be there and is not among the names seen. -/
def missing? (r : Record σ) (seen : List String) : Option String :=
  (r.fields.find? fun field => field.required && !seen.contains field.name).map (·.name)

/-- Takes the members of a table one after the other. -/
def decodeMembers (r : Record σ) : Members → σ → Except Mismatch σ
  | [], parts => .ok parts
  | (name, value) :: members, parts =>
    match r.field? name with
    | some field =>
      match field.decode value with
      | .error difference => .error difference
      | .ok change => r.decodeMembers members (change parts)
    | none =>
      if r.strict then .error (.unknownField name r.names) else r.decodeMembers members parts

/-- Takes a table: each member for itself, then whether all are there that have to be. -/
def decodeTable (r : Record σ) (start : σ) (members : Members) : Except Mismatch σ :=
  match r.decodeMembers members start with
  | .error difference => .error difference
  | .ok parts =>
    match r.missing? (members.map (·.1)) with
    | some name => .error (.missingField name)
    | none => .ok parts

/-- Takes the values of a record in the order of its members; the last ones may be left out if they
need not be there. Yields the values that are left over. -/
def decodeListed : List (Field σ) → List Value → σ → Except Mismatch (σ × List Value)
  | [], rest, parts => .ok (parts, rest)
  | field :: fields, [], parts =>
    if field.required then .error .wrongKind else decodeListed fields [] parts
  | field :: fields, value :: values, parts =>
    match field.decode value with
    | .error difference => .error difference
    | .ok change => decodeListed fields values (change parts)

/-- Takes a record; `start` holds the parts that are not there. What a list has left over does not
count. -/
def decode (r : Record σ) (start : σ) (value : Value) : Except Mismatch σ :=
  match value with
  | .array _ items => (decodeListed r.fields items start).map (·.1)
  | _ =>
    match value.members? with
    | some members => r.decodeTable start members
    | none => .error .wrongKind

/-- The record does not take a member: its value is not of the member's shape, or there is no such
member in a strict record. -/
def Refuses (r : Record σ) (member : String × Value) : Prop :=
  match r.field? member.1 with
  | some field => ∃ difference, field.decode member.2 = .error difference
  | none => r.strict = true

theorem field?_eq_none_iff {r : Record σ} {name : String} :
    r.field? name = none ↔ name ∉ r.names := by
  simp [field?, names]

/-- A list of members is refused exactly for one of its members, whatever the others are. -/
theorem decodeMembers_error_iff {r : Record σ} {members : Members} {start : σ} :
    (∃ difference, r.decodeMembers members start = .error difference) ↔
      ∃ member ∈ members, r.Refuses member := by
  induction members generalizing start with
  | nil => simp [decodeMembers]
  | cons member members ih =>
    obtain ⟨name, value⟩ := member
    simp only [List.mem_cons, exists_eq_or_imp]
    rw [decodeMembers, Refuses]
    cases hname : r.field? name with
    | some field =>
      cases hvalue : field.decode value with
      | error difference => simp [hvalue]
      | ok change => simp [hvalue, ih]
    | none =>
      cases hstrict : r.strict with
      | true => simp
      | false => simp [ih]

theorem decodeTable_refused {r : Record σ} {members : Members} {start : σ}
    (h : ∃ member ∈ members, r.Refuses member) :
    ∃ difference, r.decodeTable start members = .error difference := by
  obtain ⟨difference, hmembers⟩ : ∃ difference, r.decodeMembers members start = .error difference :=
    decodeMembers_error_iff.2 h
  exact ⟨difference, by rw [decodeTable, hmembers]⟩

/-- A strict record takes no table with a member that it does not know. -/
theorem decodeTable_unknown {r : Record σ} (hstrict : r.strict = true) {members : Members}
    {name : String} (hmem : name ∈ members.map (·.1)) (hname : name ∉ r.names) (start : σ) :
    ∃ difference, r.decodeTable start members = .error difference := by
  obtain ⟨member, hmember, rfl⟩ := List.mem_map.1 hmem
  refine decodeTable_refused ⟨member, hmember, ?_⟩
  rw [Refuses, field?_eq_none_iff.2 hname]
  exact hstrict

end Record

/-! ## Values that are set aside -/

mutual

/-- Whether a value can be set aside until its use is known: its integers have 64 bits, and its
other numbers are finite in double precision unless they are written as infinite. -/
def Value.storable : Value → Bool
  | .integer n => decide (-0x8000000000000000 ≤ n ∧ n < 0x10000000000000000)
  | .real x => x.storable
  | .array _ items => itemsStorable items
  | .table _ members => membersStorable members
  | .string _ | .boolean _ | .dateTime _ => true

/-- Whether all items can be set aside. -/
def itemsStorable : List Value → Bool
  | [] => true
  | item :: items => item.storable && itemsStorable items

/-- Whether all members can be set aside. -/
def membersStorable : List (String × Value) → Bool
  | [] => true
  | (_, value) :: members => value.storable && membersStorable members

end

end EventIngress.Toml
