import EventIngress.Json.Shape
import EventIngress.Proofs.Json.Entries
import EventIngress.Proofs.Json.Values

/-!
# Values of a known shape in JSON

A written text, word or map is read back. A record whose members are written one after another is
read back, too: each member makes its change, in the order in which they stand. What every change
keeps is kept by the whole.

Results:

* `Json.ReadsBack`: a reader takes exactly what was written.
* `Json.readsBack_listMap`, `Json.readsBack_readMap`: the entries of a map, and a map, are read back
  if its values are.
* `Json.Record.read_write`, `Json.Record.readsBack_single`: a record of written members is read back.
* `Json.Record.of_read`: what all members keep holds of a record that was read.
-/

namespace EventIngress.Json

/-! ## Readers -/

/-- A reader takes a value from what was written for it, and nothing of what may follow a value. -/
def ReadsBack {α : Type} (read : Bytes → Scan α) (written : Bytes) (a : α) : Prop :=
  ∀ rest, Delimited rest → read (written ++ rest) = .ok (a, rest)

theorem readsBack_readText (s : String) : ReadsBack readText (writeText s) s := by
  intro rest _
  rw [writeText_append]
  show scanString _ = _
  exact scanString_writeText s rest

theorem ReadsBack.optional {α : Type} {read : Bytes → Scan α} {b : UInt8} {w : Bytes} {a : α}
    (h : ReadsBack read (b :: w) a) (hblank : isBlankByte b = false) (hnull : glyph b ≠ 'n') :
    ReadsBack (readOptional read) (b :: w) (some a) := by
  intro rest hrest
  have hread := h rest hrest
  rw [List.cons_append] at hread ⊢
  rw [readOptional, skipBlank_cons hblank]
  dsimp only
  rw [if_neg hnull, hread]
  rfl

theorem readsBack_optionalText (s : String) :
    ReadsBack (readOptional readText) (writeText s) (some s) :=
  (readsBack_readText s).optional (by decide) (by decide)

/-- A member that sets a part is read back as that change. -/
theorem readsBack_part {σ α : Type} {read : Bytes → Scan α} {w : Bytes} {a : α}
    (h : ReadsBack read w a) (name : String) (required : Bool) (set : α → σ → σ) :
    ReadsBack (Field.part name required read set).read w (set a) := by
  intro rest hrest
  show (read (w ++ rest)).map _ = _
  rw [h rest hrest]
  rfl

theorem readsBack_readValue {v : Value} (hintegral : v.tree.Integral) {depth : Nat}
    (hdepth : v.tree.nesting ≤ depth) : ReadsBack (readValue depth) v.write v :=
  fun _ hrest => readValue_write hintegral hdepth hrest

theorem readsBack_optionalValue {v : Value} (hintegral : v.tree.Integral) {depth : Nat}
    (hdepth : v.tree.nesting ≤ depth) (hnull : v.tree ≠ .null) :
    ReadsBack (readOptional (readValue depth)) v.write (some v) := by
  have hread := readsBack_readValue hintegral hdepth
  obtain ⟨b, w, hw, hblank, _, hn⟩ := exists_write_eq_cons hintegral
  rw [Value.write, hw] at hread ⊢
  exact hread.optional hblank (hn hnull)

/-- What is read back is all there is to a document. -/
theorem ReadsBack.finish {α : Type} {read : Bytes → Scan α} {written : Bytes} {a : α}
    (h : ReadsBack read written a) : finish (read written) = .ok a := by
  have hread := h [] (by rintro _ ⟨⟩)
  rw [List.append_nil] at hread
  rw [hread]
  rfl

/-- A word among those that are known is read as what it stands for. -/
theorem readsBack_readChoice {α : Type} {choices : List (String × α)} {word : String} {a : α}
    (h : choices.lookup word = some a) : ReadsBack (readChoice choices) (writeText word) a := by
  intro rest _
  have hscan := scanString_writeText word rest
  rw [writeText_append, readChoice, skipBlank_cons (by decide)]
  dsimp only
  rw [if_pos (by decide), hscan]
  dsimp only
  rw [chosen, h]

/-! ## Maps -/

section Maps

variable {α : Type} {read : Bytes → Scan α} {write : α → Bytes}

/-- A written entry of a map. -/
def writeEntry (write : α → Bytes) (e : String × α) : Bytes :=
  writeText e.1 ++ 0x3a :: write e.2

/-- The written entries of a map, in the order given and each name as often as it comes. -/
def writeEntries (write : α → Bytes) (entries : List (String × α)) : Bytes :=
  writeObject (entries.map fun e => (e.1, write e.2))

theorem writeEntries_eq (entries : List (String × α)) :
    writeEntries write entries =
      0x7b :: (commaSeparated (entries.map (writeEntry write)) ++ [0x7d]) := by
  rw [writeEntries, writeObject, List.map_map]
  rfl

theorem listEntries_next {steps : Nat} {input rest rest' : Bytes} {fresh : Bool}
    {taken : List (String × α)} {name : String} {a : α}
    (hscan : scanKey fresh input = .ok (some name, 0x3a :: rest))
    (hread : read rest = .ok (a, rest')) :
    listEntries read (steps + 1) input fresh taken =
      listEntries read steps rest' false (taken ++ [(name, a)]) := by
  rw [listEntries, hscan]
  dsimp only
  rw [scanColon_colon]
  dsimp only
  rw [hread]

/-- From the first name on, the entries that are left are read back one by one. -/
theorem listEntries_write (hread : ∀ a, ReadsBack read (write a) a) {e : String × α}
    {entries : List (String × α)} {steps : Nat} {input rest : Bytes} {fresh : Bool}
    {taken : List (String × α)}
    (hscan : scanKey fresh input = .ok (some e.1, 0x3a :: (write e.2 ++
      (continued (entries.map (writeEntry write)) ++ 0x7d :: rest))))
    (hsteps : entries.length < steps) :
    listEntries read (steps + 1) input fresh taken = .ok (taken ++ e :: entries, rest) := by
  induction entries generalizing e steps input fresh taken with
  | nil =>
    obtain ⟨steps, rfl⟩ : ∃ k, steps = k + 1 := ⟨steps - 1, by omega⟩
    have hvalue := hread e.2 _ (delimited_continued (.inr rfl) [] rest)
    rw [listEntries_next hscan hvalue]
    rfl
  | cons next entries ih =>
    obtain ⟨steps, rfl⟩ : ∃ k, steps = k + 1 := ⟨steps - 1, by omega⟩
    have hvalue := hread e.2 _
      (delimited_continued (.inr rfl) ((next :: entries).map (writeEntry write)) rest)
    have hkey := (scanKey_write next.1 (0x3a :: (write next.2 ++
      (continued (entries.map (writeEntry write)) ++ 0x7d :: rest)))).2
    rw [listEntries_next hscan hvalue, List.map_cons, continued_cons, writeEntry,
      List.append_assoc, List.cons_append, ih hkey (Nat.lt_of_succ_lt_succ hsteps),
      List.append_assoc, List.singleton_append]

/-- All entries are read back if their values are, also those of one name. -/
theorem readsBack_listMap (hread : ∀ a, ReadsBack read (write a) a)
    (entries : List (String × α)) :
    ReadsBack (listMap read) (writeEntries write entries) entries := by
  intro rest _
  rw [writeEntries_eq]
  cases entries with
  | nil => rfl
  | cons e entries =>
    have hinput : commaSeparated ((e :: entries).map (writeEntry write)) ++ [0x7d] ++ rest =
        writeText e.1 ++ 0x3a :: (write e.2 ++
          (continued (entries.map (writeEntry write)) ++ 0x7d :: rest)) := by
      rw [List.map_cons, commaSeparated_cons, writeEntry]
      simp only [List.cons_append, List.append_assoc, List.nil_append]
    have hcount := length_le_length_continued (entries.map (writeEntry write))
    rw [List.length_map] at hcount
    rw [List.cons_append, hinput]
    show listEntries read _ _ true [] = _
    rw [listEntries_write hread (scanKey_write e.1 _).1, List.nil_append]
    simp only [List.length_append, List.length_cons]
    omega

/-- A map is read back if its values are. -/
theorem readsBack_readMap (hread : ∀ a, ReadsBack read (write a) a) (m : SortedMap String α) :
    ReadsBack (readMap read) (writeMap m write) m := by
  intro rest hrest
  have hlist : listMap read (writeMap m write ++ rest) = .ok (m.toList, rest) :=
    readsBack_listMap hread m.toList rest hrest
  have hmap : SortedMap.ofList m.toList = m := SortedMap.ofList_eq_of_perm (.refl _)
  rcases inStep_listMap read (writeMap m write ++ rest) with
    ⟨fault, -, hfault⟩ | ⟨found, entries, rest', hread, hentries, hfound⟩
  · rw [hlist] at hfault
    cases hfault
  · rw [hlist] at hentries
    cases hentries
    rw [hread, hfound, hmap]

end Maps

/-! ## Records -/

/-- A member as it is written, with the change that reading it makes. -/
structure Written (σ : Type) where
  name : String
  bytes : Bytes
  change : σ → σ

namespace Written

variable {σ : Type}

/-- The name and the value, with the colon between them. -/
def member (w : Written σ) : Bytes :=
  writeText w.name ++ 0x3a :: w.bytes

/-- The changes of some members, one after another. -/
def applyAll (ws : List (Written σ)) (parts : σ) : σ :=
  ws.foldl (fun parts w => w.change parts) parts

theorem applyAll_append (ws ws' : List (Written σ)) (parts : σ) :
    applyAll (ws ++ ws') parts = applyAll ws' (applyAll ws parts) :=
  List.foldl_append

end Written

namespace Record

variable {σ : Type} {r : Record σ}

/-- The known member with a name. -/
def field? (r : Record σ) (name : String) : Option (Field σ) :=
  r.fields.find? fun field => field.name == name

/-- How the value of a member is read. -/
def reader (r : Record σ) (name : String) : Bytes → Scan (σ → σ) :=
  (r.field? name).elim (r.other name) (·.read)

/-- The names seen after a member. -/
def seenAfter (r : Record σ) (name : String) (seen : List String) : List String :=
  if (r.field? name).isSome then name :: seen else seen

theorem mem_seenAfter {name other : String} {seen : List String}
    (h : other ∈ r.seenAfter name seen) : other = name ∨ other ∈ seen := by
  unfold seenAfter at h
  split at h
  · exact List.mem_cons.1 h
  · exact .inr h

theorem seenAfter_or {field : Field σ} (hfield : field ∈ r.fields) {name : String}
    {seen names : List String} (h : field.name ∈ seen ∨ field.name ∈ name :: names) :
    field.name ∈ r.seenAfter name seen ∨ field.name ∈ names := by
  rcases h with hseen | hname
  · left
    unfold seenAfter
    split
    · exact List.mem_cons_of_mem name hseen
    · exact hseen
  · rcases List.mem_cons.1 hname with heq | hname
    · left
      have hknown : (r.field? name).isSome = true :=
        List.find?_isSome.2 ⟨field, hfield, beq_iff_eq.2 heq⟩
      rw [seenAfter, if_pos hknown, heq]
      exact List.mem_cons_self
    · exact .inr hname

theorem readMembers_next {steps : Nat} {input rest rest' : Bytes} {fresh : Bool}
    {seen : List String} {parts : σ} {name : String} {change : σ → σ}
    (hscan : scanKey fresh input = .ok (some name, 0x3a :: rest)) (hnew : name ∉ seen)
    (hread : r.reader name rest = .ok (change, rest')) :
    r.readMembers (steps + 1) input fresh seen parts =
      r.readMembers steps rest' false (r.seenAfter name seen) (change parts) := by
  rw [readMembers, hscan]
  dsimp only
  rw [if_neg (by simpa using hnew), scanColon_colon]
  dsimp only
  rw [reader, field?] at hread
  rw [hread]
  rfl

theorem missing?_eq_none {seen : List String}
    (h : ∀ field ∈ r.fields, field.required = true → field.name ∈ seen) :
    r.missing? seen = none := by
  rw [missing?, Option.map_eq_none_iff, List.find?_eq_none]
  intro field hfield
  cases hrequired : field.required with
  | false => simp
  | true => simpa using h field hfield hrequired

theorem readMembers_close {seen : List String}
    (h : ∀ field ∈ r.fields, field.required = true → field.name ∈ seen) (steps : Nat)
    (fresh : Bool) (rest : Bytes) (parts : σ) :
    r.readMembers (steps + 1) (0x7d :: rest) fresh seen parts = .ok (parts, rest) := by
  rw [readMembers, scanKey_close]
  dsimp only
  rw [missing?_eq_none h]
  rfl

/-- Written members are all there is to say about a record of which some have been seen. -/
structure Fits (r : Record σ) (seen : List String) (ws : List (Written σ)) : Prop where
  read : ∀ w ∈ ws, ReadsBack (r.reader w.name) w.bytes w.change
  new : ∀ w ∈ ws, w.name ∉ seen
  nodup : (ws.map (·.name)).Nodup
  required : ∀ field ∈ r.fields, field.required = true →
    field.name ∈ seen ∨ field.name ∈ ws.map (·.name)

theorem Fits.tail {seen : List String} {w : Written σ} {ws : List (Written σ)}
    (h : r.Fits seen (w :: ws)) : r.Fits (r.seenAfter w.name seen) ws := by
  have hnodup := h.nodup
  rw [List.map_cons, List.nodup_cons] at hnodup
  refine ⟨fun x hx => h.read x (List.mem_cons_of_mem w hx), ?_, hnodup.2, ?_⟩
  · intro x hx hseen
    rcases mem_seenAfter hseen with heq | hseen
    · exact hnodup.1 (List.mem_map.2 ⟨x, hx, heq⟩)
    · exact h.new x (List.mem_cons_of_mem w hx) hseen
  · intro field hfield hrequired
    exact seenAfter_or hfield (h.required field hfield hrequired)

/-- From the first name on, the members that are left are read back. -/
theorem readMembers_write {w : Written σ} {ws : List (Written σ)} {steps : Nat}
    {input rest : Bytes} {fresh : Bool} {seen : List String} {parts : σ}
    (hscan : scanKey fresh input = .ok (some w.name, 0x3a :: (w.bytes ++
      (continued (ws.map (·.member)) ++ 0x7d :: rest))))
    (hfits : r.Fits seen (w :: ws)) (hsteps : ws.length < steps) :
    r.readMembers (steps + 1) input fresh seen parts =
      .ok (Written.applyAll (w :: ws) parts, rest) := by
  induction ws generalizing w steps input fresh seen parts with
  | nil =>
    obtain ⟨steps, rfl⟩ : ∃ k, steps = k + 1 := ⟨steps - 1, by omega⟩
    have hvalue := hfits.read w List.mem_cons_self _ (delimited_continued (.inr rfl) [] rest)
    rw [readMembers_next hscan (hfits.new w List.mem_cons_self) hvalue]
    refine readMembers_close ?_ steps false rest (w.change parts)
    intro field hfield hrequired
    exact (hfits.tail.required field hfield hrequired).resolve_right List.not_mem_nil
  | cons next ws ih =>
    obtain ⟨steps, rfl⟩ : ∃ k, steps = k + 1 := ⟨steps - 1, by omega⟩
    have hvalue := hfits.read w List.mem_cons_self _
      (delimited_continued (.inr rfl) ((next :: ws).map (·.member)) rest)
    have hkey := (scanKey_write next.name (0x3a :: (next.bytes ++
      (continued (ws.map (·.member)) ++ 0x7d :: rest)))).2
    rw [readMembers_next hscan (hfits.new w List.mem_cons_self) hvalue, List.map_cons,
      continued_cons, Written.member, List.append_assoc, List.cons_append,
      ih hkey hfits.tail (Nat.lt_of_succ_lt_succ hsteps)]
    rfl

/-- A record of written members is read back. -/
theorem read_write {ws : List (Written σ)} {members : List (String × Bytes)}
    (hmembers : members = ws.map fun w => (w.name, w.bytes)) (hfits : r.Fits [] ws) (start : σ)
    (rest : Bytes) :
    r.read start (writeObject members ++ rest) = .ok (Written.applyAll ws start, rest) := by
  have hbytes : members.map (fun m => writeText m.1 ++ 0x3a :: m.2) = ws.map (·.member) := by
    rw [hmembers, List.map_map]
    rfl
  rw [writeObject, hbytes]
  cases ws with
  | nil =>
    refine readMembers_close ?_ rest.length.succ true rest start
    intro field hfield hrequired
    exact (hfits.required field hfield hrequired).resolve_right List.not_mem_nil
  | cons w ws =>
    have hinput : commaSeparated ((w :: ws).map (·.member)) ++ [0x7d] ++ rest =
        writeText w.name ++ 0x3a :: (w.bytes ++
          (continued (ws.map (·.member)) ++ 0x7d :: rest)) := by
      rw [List.map_cons, commaSeparated_cons, Written.member]
      simp only [List.cons_append, List.append_assoc, List.nil_append]
    have hcount := length_le_length_continued (ws.map (·.member))
    rw [List.length_map] at hcount
    rw [List.cons_append, hinput]
    refine readMembers_write (scanKey_write w.name _).1 hfits ?_
    simp only [List.length_append, List.length_cons]
    omega

theorem readsBack_write {ws : List (Written σ)} {members : List (String × Bytes)}
    (hmembers : members = ws.map fun w => (w.name, w.bytes)) (hfits : r.Fits [] ws) (start : σ) :
    ReadsBack (r.read start) (writeObject members) (Written.applyAll ws start) :=
  fun rest _ => read_write hmembers hfits start rest

/-- Written members of different names, among them all that have to be there, fit a record. -/
theorem Fits.of_names (names : List String) {ws : List (Written σ)}
    (hnames : ws.map (·.name) = names)
    (hread : ∀ w ∈ ws, ReadsBack (r.reader w.name) w.bytes w.change) (hnodup : names.Nodup)
    (hrequired : ∀ field ∈ r.fields, field.required = true → field.name ∈ names) :
    r.Fits [] ws := by
  subst hnames
  refine ⟨hread, ?_, hnodup, ?_⟩
  · rintro w _ ⟨⟩
  · exact fun field hfield h => .inr (hrequired field hfield h)

/-- A record with one member is read back if the value of the member is. -/
theorem readsBack_single {α : Type} {name : String} {read : Bytes → Scan α} {set : α → σ → σ}
    {w : Bytes} {a : α} (hfields : r.fields = [.part name false read set]) (h : ReadsBack read w a)
    (start : σ) : ReadsBack (r.read start) (writeObject [(name, w)]) (set a start) := by
  let member : Written σ := ⟨name, w, set a⟩
  have hreader : r.reader name = (Field.part name false read set).read := by
    simp [reader, field?, hfields, Field.part]
  have hfits : r.Fits [] [member] := by
    refine .of_names [name] rfl ?_ (List.nodup_singleton name) ?_
    · intro found hfound
      cases List.mem_singleton.1 hfound
      show ReadsBack (r.reader name) w (set a)
      rw [hreader]
      exact readsBack_part h name false set
    · simp [hfields, Field.part]
  exact readsBack_write rfl hfits start

/-! ## What the members keep -/

/-- What holds at the start and is kept by every change holds at the end. -/
theorem of_readMembers {P : σ → Prop} (hkept : ∀ name input change rest,
      r.reader name input = .ok (change, rest) → ∀ parts, P parts → P (change parts))
    {steps : Nat} {input rest : Bytes} {fresh : Bool} {seen : List String} {start parts : σ}
    (hstart : P start) (h : r.readMembers steps input fresh seen start = .ok (parts, rest)) :
    P parts := by
  induction steps generalizing input fresh seen start with
  | zero => cases h
  | succ steps ih =>
    rw [readMembers] at h
    split at h
    · cases h
    · split at h
      · cases h
      · obtain ⟨_, _, hparts⟩ := map_eq_ok h
        cases hparts
        exact hstart
    · split at h
      · cases h
      · split at h
        · cases h
        · dsimp only at h
          split at h
          · cases h
          · rename_i hread
            exact ih (hkept _ _ _ _ hread start hstart) h

theorem of_read {P : σ → Prop} (hlisted : r.listed = false) (hkept : ∀ name input change rest,
      r.reader name input = .ok (change, rest) → ∀ parts, P parts → P (change parts))
    {input rest : Bytes} {start parts : σ} (hstart : P start)
    (h : r.read start input = .ok (parts, rest)) : P parts := by
  rw [read, hlisted] at h
  split at h
  · cases h
  · split at h
    · exact of_readMembers hkept hstart h
    · rw [if_neg (by simp)] at h
      cases h

end Record

end EventIngress.Json
