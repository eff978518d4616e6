import EventIngress.Json.Shape
import Mathlib.Data.List.Forall2

/-!
# The entries of a map as they stand

An object of a JSON text may have several members of one name. A map that is read from it keeps the
last of them. Here the same objects are read without a loss, as the list of their members in the
order in which they stand, and the map that is kept is the one that is made of this list.

What is read in two ways is compared step by step: two readings keep in step if they stop with the
same fault, or at the same place.

Results:

* `Json.InStep`: two readings keep in step.
* `Json.listMap`: reads a map as the list of its entries.
* `Json.inStep_readMap`: a map is read in step with its list, and is made of it.
* `Json.Record.Corresponds.read`: records with corresponding members are read in step.
-/

namespace EventIngress.Json

/-! ## Readings in step -/

section InStep

variable {α β γ δ : Type} {R : α → β → Prop} {x : Scan α} {y : Scan β}

/-- Two readings keep in step: they stop with the same fault, or they end at the same place with
results that belong together. -/
def InStep (R : α → β → Prop) (x : Scan α) (y : Scan β) : Prop :=
  (∃ fault, x = .error fault ∧ y = .error fault) ∨
    ∃ a b rest, x = .ok (a, rest) ∧ y = .ok (b, rest) ∧ R a b

theorem InStep.fault (fault : Fault) : InStep R (.error fault) (.error fault) :=
  .inl ⟨fault, rfl, rfl⟩

theorem InStep.refl (x : Scan α) : InStep Eq x x := by
  cases x with
  | error fault => exact .fault fault
  | ok found => exact .inr ⟨found.1, found.1, found.2, rfl, rfl, rfl⟩

/-- What follows the same reading in both keeps in step. -/
theorem InStep.after (f : β → α) (b : β) (scan : Scan γ) :
    InStep (fun a b => a = f b) (scan.map fun (_, rest) => (f b, rest))
      (scan.map fun (_, rest) => (b, rest)) := by
  cases scan with
  | error fault => exact .fault fault
  | ok found => exact .inr ⟨f b, b, found.2, rfl, rfl, rfl⟩

theorem InStep.map {S : γ → δ → Prop} {f : α → γ} {g : β → δ} (h : InStep R x y)
    (hfg : ∀ a b, R a b → S (f a) (g b)) :
    InStep S (x.map fun (a, rest) => (f a, rest)) (y.map fun (b, rest) => (g b, rest)) := by
  rcases h with ⟨fault, hx, hy⟩ | ⟨a, b, rest, hx, hy, hab⟩
  · rw [hx, hy]
    exact .fault fault
  · rw [hx, hy]
    exact .inr ⟨f a, g b, rest, rfl, rfl, hfg a b hab⟩

/-- What is read in step of a whole document differs in nothing but the results. -/
theorem InStep.finish {f : β → α} (h : InStep (fun a b => a = f b) x y) :
    finish x = (finish y).map f := by
  rcases h with ⟨fault, hx, hy⟩ | ⟨a, b, rest, hx, hy, hab⟩
  · rw [hx, hy]
    rfl
  · rw [hx, hy, hab]
    unfold Json.finish
    dsimp only
    split <;> rfl

end InStep

/-! ## Entries -/

section Entries

variable {α β : Type}

/-- Reads the entries of a map up to its end; `taken` holds the entries so far. -/
def listEntries (read : Bytes → Scan α) :
    (steps : Nat) → Bytes → (fresh : Bool) → List (String × α) → Scan (List (String × α))
  | 0, _, _, _ => .error .truncated
  | steps + 1, input, fresh, taken =>
    match scanKey fresh input with
    | .error fault => .error fault
    | .ok (none, rest) => (closeObject rest).map fun (_, rest) => (taken, rest)
    | .ok (some name, rest) =>
      match scanColon rest with
      | .error fault => .error fault
      | .ok (_, rest) =>
        match read rest with
        | .error fault => .error fault
        | .ok (value, rest) => listEntries read steps rest false (taken ++ [(name, value)])

/-- Reads a map from texts as the list of its entries: in the order in which they stand, and each
name as often as it comes. -/
def listMap (read : Bytes → Scan α) (input : Bytes) : Scan (List (String × α)) :=
  match skipBlank input with
  | [] => .error .truncated
  | b :: rest =>
    if glyph b = '{' then listEntries read (rest.length + 1) rest true []
    else .error (wrongKind "a map" input)

/-- The map of some entries whose values have been read in step. -/
def mapOf (f : β → α) (entries : List (String × β)) : SortedMap String α :=
  .ofList (entries.map fun e => (e.1, f e.2))

theorem mapOf_id (entries : List (String × α)) : mapOf id entries = .ofList entries :=
  congrArg SortedMap.ofList (List.map_id entries)

theorem mapOf_concat (f : β → α) (entries : List (String × β)) (name : String) (b : β) :
    mapOf f (entries ++ [(name, b)]) = (mapOf f entries).insert name (f b) := by
  rw [mapOf, List.map_append]
  exact SortedMap.ofList_concat _ name (f b)

variable {f : β → α} {read : Bytes → Scan α} {list : Bytes → Scan β}

/-- Entry for entry, the map that is read is the one made of the entries so far. -/
theorem inStep_readEntries
    (hread : ∀ input, InStep (fun a b => a = f b) (read input) (list input)) (steps : Nat)
    (input : Bytes) (fresh : Bool) (taken : List (String × β)) :
    InStep (fun m entries => m = mapOf f entries)
      (readEntries read steps input fresh (mapOf f taken))
      (listEntries list steps input fresh taken) := by
  induction steps generalizing input fresh taken with
  | zero => exact .fault .truncated
  | succ steps ih =>
    rw [readEntries, listEntries]
    cases scanKey fresh input with
    | error fault => exact .fault fault
    | ok found =>
      obtain ⟨next, rest⟩ := found
      cases next with
      | none => exact .after (mapOf f) taken (closeObject rest)
      | some name =>
        dsimp only
        cases scanColon rest with
        | error fault => exact .fault fault
        | ok found =>
          dsimp only
          rcases hread found.2 with ⟨fault, hx, hy⟩ | ⟨a, b, rest', hx, hy, hab⟩
          · rw [hx, hy]
            exact .fault fault
          · rw [hx, hy, hab]
            dsimp only
            rw [← mapOf_concat]
            exact ih rest' false (taken ++ [(name, b)])

/-- A map is read in step with the list of its entries, and it is made of them. -/
theorem inStep_readMap
    (hread : ∀ input, InStep (fun a b => a = f b) (read input) (list input)) (input : Bytes) :
    InStep (fun m entries => m = mapOf f entries) (readMap read input) (listMap list input) := by
  unfold readMap listMap
  cases skipBlank input with
  | nil => exact .fault .truncated
  | cons b rest =>
    dsimp only
    split
    · exact inStep_readEntries hread (rest.length + 1) rest true []
    · exact .fault _

/-- A map is read in step with the list of its entries where the values are read the same way. -/
theorem inStep_listMap (read : Bytes → Scan α) (input : Bytes) :
    InStep (fun m entries => m = .ofList entries) (readMap read input) (listMap read input) := by
  have hstep := inStep_readMap (f := id) (fun input => InStep.refl (read input)) input
  simpa only [mapOf_id] using hstep

end Entries

/-! ## Records -/

section Records

variable {σ τ : Type} {f : τ → σ}

/-- The changes that two records undergo belong together. -/
def ChangesAlike (f : τ → σ) (change : σ → σ) (change' : τ → τ) : Prop :=
  ∀ parts, change (f parts) = f (change' parts)

/-- Two members of one name are read in step. -/
structure Field.Corresponds (f : τ → σ) (field : Field σ) (field' : Field τ) : Prop where
  name : field.name = field'.name
  required : field.required = field'.required
  read : ∀ input, InStep (ChangesAlike f) (field.read input) (field'.read input)

/-- Two records of one name have corresponding members. -/
structure Record.Corresponds (f : τ → σ) (r : Record σ) (r' : Record τ) : Prop where
  name : r.name = r'.name
  fields : List.Forall₂ (Field.Corresponds f) r.fields r'.fields
  other : ∀ name input, InStep (ChangesAlike f) (r.other name input) (r'.other name input)
  listed : r.listed = r'.listed

/-- Members that set corresponding parts correspond. -/
theorem Field.Corresponds.part {α β : Type} {R : α → β → Prop} {read : Bytes → Scan α}
    {list : Bytes → Scan β} {set : α → σ → σ} {set' : β → τ → τ} (name : String) (required : Bool)
    (hread : ∀ input, InStep R (read input) (list input))
    (hset : ∀ a b, R a b → ChangesAlike f (set a) (set' b)) :
    Corresponds f (.part name required read set) (.part name required list set') := by
  refine ⟨rfl, rfl, ?_⟩
  intro input
  exact (hread input).map hset

/-- Members that are not known are skipped in step. -/
theorem inStep_skipValue (input : Bytes) :
    InStep (ChangesAlike f) ((skipValue input).map fun (_, rest) => (id, rest))
      ((skipValue input).map fun (_, rest) => (id, rest)) :=
  (InStep.refl (skipValue input)).map (f := fun _ => id) (g := fun _ => id) fun _ _ _ _ => rfl

/-- What is looked for among corresponding members is found in both records or in none. -/
theorem find?_corresponds {fields : List (Field σ)} {fields' : List (Field τ)}
    (h : List.Forall₂ (Field.Corresponds f) fields fields') {p : Field σ → Bool}
    {p' : Field τ → Bool} (hp : ∀ a b, Field.Corresponds f a b → p a = p' b) :
    (fields.find? p = none ∧ fields'.find? p' = none) ∨
      ∃ a b, fields.find? p = some a ∧ fields'.find? p' = some b ∧ Field.Corresponds f a b := by
  induction h with
  | nil => exact .inl ⟨rfl, rfl⟩
  | @cons a b fields fields' hab _ ih =>
    rw [List.find?_cons, List.find?_cons, hp a b hab]
    cases p' b with
    | true => exact .inr ⟨a, b, rfl, rfl, hab⟩
    | false => exact ih

namespace Record.Corresponds

variable {r : Record σ} {r' : Record τ}

theorem missing?_eq (h : r.Corresponds f r') (seen : List String) :
    r.missing? seen = r'.missing? seen := by
  unfold missing?
  have hp : ∀ a b, Field.Corresponds f a b →
      (a.required && !seen.contains a.name) = (b.required && !seen.contains b.name) := by
    intro a b hab
    rw [hab.name, hab.required]
  rcases find?_corresponds h.fields hp with ⟨hx, hy⟩ | ⟨a, b, hx, hy, hab⟩
  · rw [hx, hy]
    rfl
  · rw [hx, hy]
    exact congrArg some hab.name

theorem extent_eq (h : r.Corresponds f r') : r.extent = r'.extent := by
  unfold extent
  rw [h.name, h.fields.length_eq]

/-- How the value of a member is read, and whether the member is known. -/
theorem reader_inStep (h : r.Corresponds f r') (name : String) (input : Bytes) :
    let known := r.fields.find? fun field => field.name == name
    let known' := r'.fields.find? fun field => field.name == name
    known.isSome = known'.isSome ∧
      InStep (ChangesAlike f) (known.elim (r.other name) (·.read) input)
        (known'.elim (r'.other name) (·.read) input) := by
  have hp : ∀ a b, Field.Corresponds f a b → (a.name == name) = (b.name == name) := by
    intro a b hab
    rw [hab.name]
  rcases find?_corresponds h.fields hp with ⟨hx, hy⟩ | ⟨a, b, hx, hy, hab⟩
  · rw [hx, hy]
    exact ⟨rfl, h.other name input⟩
  · rw [hx, hy]
    exact ⟨rfl, hab.read input⟩

theorem readMembers (h : r.Corresponds f r') (steps : Nat) (input : Bytes) (fresh : Bool)
    (seen : List String) (parts : τ) :
    InStep (fun s t => s = f t) (r.readMembers steps input fresh seen (f parts))
      (r'.readMembers steps input fresh seen parts) := by
  induction steps generalizing input fresh seen parts with
  | zero => exact .fault .truncated
  | succ steps ih =>
    rw [Record.readMembers, Record.readMembers, h.missing?_eq]
    cases scanKey fresh input with
    | error fault => exact .fault fault
    | ok found =>
      obtain ⟨next, rest⟩ := found
      cases next with
      | none =>
        dsimp only
        cases r'.missing? seen with
        | some name => exact .fault _
        | none => exact .after f parts (closeObject rest)
      | some name =>
        dsimp only
        split
        · exact .fault _
        · cases scanColon rest with
          | error fault => exact .fault fault
          | ok found =>
            dsimp only
            obtain ⟨hknown, hread⟩ := h.reader_inStep name found.2
            rw [hknown]
            rcases hread with ⟨fault, hx, hy⟩ | ⟨change, change', rest', hx, hy, hchange⟩
            · rw [hx, hy]
              exact .fault fault
            · rw [hx, hy]
              dsimp only
              rw [hchange parts]
              exact ih rest' false _ (change' parts)

theorem readListed (h : r.Corresponds f r') {fields : List (Field σ)} {fields' : List (Field τ)}
    (hfields : List.Forall₂ (Field.Corresponds f) fields fields') (count : Nat) (input : Bytes)
    (fresh : Bool) (parts : τ) :
    InStep (fun s t => s = f t) (r.readListed fields count input fresh (f parts))
      (r'.readListed fields' count input fresh parts) := by
  induction hfields generalizing count input fresh parts with
  | nil =>
    rw [Record.readListed, Record.readListed]
    exact .after f parts (closeArray input)
  | @cons field field' fields fields' hfield _ ih =>
    rw [Record.readListed, Record.readListed, hfield.required, h.extent_eq]
    cases scanItem fresh input with
    | error fault => exact .fault fault
    | ok found =>
      obtain ⟨next, rest⟩ := found
      cases next with
      | false =>
        dsimp only
        split
        · exact .fault _
        · exact ih (count + 1) rest fresh parts
      | true =>
        dsimp only
        rcases hfield.read rest with ⟨fault, hx, hy⟩ | ⟨change, change', rest', hx, hy, hchange⟩
        · rw [hx, hy]
          exact .fault fault
        · rw [hx, hy]
          dsimp only
          rw [hchange parts]
          exact ih (count + 1) rest' false (change' parts)

/-- Records with corresponding members are read in step, whichever way they are written. -/
theorem read (h : r.Corresponds f r') (start : τ) (input : Bytes) :
    InStep (fun s t => s = f t) (r.read (f start) input) (r'.read start input) := by
  unfold Record.read
  rw [h.listed, h.name]
  cases skipBlank input with
  | nil => exact .fault .truncated
  | cons b rest =>
    dsimp only
    split
    · exact h.readMembers (rest.length + 1) rest true [] start
    · split
      · exact h.readListed h.fields 0 rest true start
      · exact .fault _

end Record.Corresponds

end Records

end EventIngress.Json
