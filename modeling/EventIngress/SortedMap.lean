/-!
# Maps in the order of their keys

A finite map as the list of its entries in strictly increasing order of the keys, so that two maps
with the same entries are the same map and a map is written in one order only.

Results:

* `find?_empty`, `find?_insert`, `find?_erase`: what each operation does to a look-up.
* `find?_eq_some_iff`: a look-up finds exactly the listed entries.
* `find?_ofList_eq_some_iff`: in a map made of a list, it finds the last entry of a key.
* `ext_find?`: maps with equal look-ups are equal.
* `toList_ofList_perm`, `ofList_eq_of_perm`: a map and the lists that it is made of.
-/

namespace EventIngress

/-! ## Ordered keys -/

/-- A type of keys with a decidable strict total order. -/
class KeyOrder (κ : Type) extends LT κ where
  decLt : ∀ a b : κ, Decidable (a < b)
  irrefl : ∀ a : κ, ¬ a < a
  trans : ∀ {a b c : κ}, a < b → b < c → a < c
  total : ∀ {a b : κ}, ¬ a < b → ¬ b < a → a = b

namespace KeyOrder

instance decidableLt {κ : Type} [KeyOrder κ] (a b : κ) : Decidable (a < b) :=
  decLt a b

instance ofString : KeyOrder String where
  decLt := fun _ _ => inferInstance
  irrefl := String.lt_irrefl
  trans := String.lt_trans
  total := fun {a b} h h' => Std.Trichotomous.trichotomous (r := (· < ·)) a b h h'

theorem ne_of_lt {κ : Type} [KeyOrder κ] {a b : κ} (h : a < b) : a ≠ b :=
  fun heq => irrefl a (heq ▸ h)

theorem asymm {κ : Type} [KeyOrder κ] {a b : κ} (h : a < b) : ¬ b < a :=
  fun h' => irrefl a (trans h h')

end KeyOrder

/-! ## Entry lists -/

/-- The keys of an entry list increase strictly. -/
abbrev Ascending {κ ν : Type} [KeyOrder κ] (entries : List (κ × ν)) : Prop :=
  entries.Pairwise fun a b => a.1 < b.1

/-- Puts an entry at its place; an entry of the same key is replaced. -/
def insertEntry {κ ν : Type} [KeyOrder κ] (k : κ) (v : ν) : List (κ × ν) → List (κ × ν)
  | [] => [(k, v)]
  | e :: rest =>
    if k < e.1 then (k, v) :: e :: rest
    else if e.1 < k then e :: insertEntry k v rest
    else (k, v) :: rest

/-- The value of a key in an entry list in ascending order. -/
def valueAt? {κ ν : Type} [KeyOrder κ] (k : κ) : List (κ × ν) → Option ν
  | [] => none
  | e :: rest =>
    if k < e.1 then none
    else if e.1 < k then valueAt? k rest
    else some e.2

theorem mem_insertEntry {κ ν : Type} [KeyOrder κ] {k : κ} {v : ν} {e : κ × ν}
    {entries : List (κ × ν)} (h : e ∈ insertEntry k v entries) : e = (k, v) ∨ e ∈ entries := by
  induction entries with
  | nil => simpa [insertEntry] using h
  | cons hd tl ih =>
    rw [insertEntry] at h
    split at h
    · simpa using h
    · split at h
      · rcases List.mem_cons.1 h with h | h
        · exact .inr (h ▸ List.mem_cons_self)
        · exact (ih h).imp id (List.mem_cons_of_mem _)
      · rcases List.mem_cons.1 h with h | h
        · exact .inl h
        · exact .inr (List.mem_cons_of_mem _ h)

theorem ascending_insertEntry {κ ν : Type} [KeyOrder κ] (k : κ) (v : ν)
    {entries : List (κ × ν)} (h : Ascending entries) : Ascending (insertEntry k v entries) := by
  induction entries with
  | nil => exact List.pairwise_singleton _ _
  | cons hd tl ih =>
    have htl := List.pairwise_cons.1 h
    rw [insertEntry]
    split
    · rename_i hlt
      refine List.pairwise_cons.2 ⟨fun e he => ?_, h⟩
      rcases List.mem_cons.1 he with rfl | he
      · exact hlt
      · exact KeyOrder.trans hlt (htl.1 e he)
    · split
      · rename_i hlt
        refine List.pairwise_cons.2 ⟨fun e he => ?_, ih htl.2⟩
        rcases mem_insertEntry he with rfl | he
        · exact hlt
        · exact htl.1 e he
      · rename_i hge hle
        have heq := KeyOrder.total hge hle
        exact List.pairwise_cons.2 ⟨fun e he => heq ▸ htl.1 e he, htl.2⟩

theorem valueAt?_insertEntry {κ ν : Type} [KeyOrder κ] [DecidableEq κ] (k k' : κ) (v : ν)
    (entries : List (κ × ν)) (h : Ascending entries) :
    valueAt? k' (insertEntry k v entries) = if k' = k then some v else valueAt? k' entries := by
  induction entries with
  | nil =>
    by_cases heq : k' = k
    · subst heq; simp [insertEntry, valueAt?, KeyOrder.irrefl]
    · simp only [insertEntry, valueAt?, if_neg heq]
      by_cases hlt : k' < k
      · simp [hlt]
      · have : k < k' := Decidable.byContradiction fun hge => heq (KeyOrder.total hlt hge)
        simp [hlt, this]
  | cons hd tl ih =>
    have htl := List.pairwise_cons.1 h
    rw [insertEntry]
    split
    · rename_i hlt
      by_cases heq : k' = k
      · subst heq; simp [valueAt?, KeyOrder.irrefl]
      · simp only [if_neg heq]
        by_cases hlt' : k' < k
        · rw [valueAt?, if_pos hlt', valueAt?, if_pos (KeyOrder.trans hlt' hlt)]
        · have : k < k' := Decidable.byContradiction fun hge => heq (KeyOrder.total hlt' hge)
          rw [valueAt?, if_neg hlt', if_pos this]
    · split
      · rename_i hge hlt
        by_cases heq : k' = k
        · subst heq
          rw [valueAt?, if_neg (KeyOrder.asymm hlt), if_pos hlt, ih htl.2, if_pos rfl, if_pos rfl]
        · rw [valueAt?, ih htl.2, if_neg heq, if_neg heq, valueAt?]
      · rename_i hge hle
        have hk : k = hd.1 := KeyOrder.total hge hle
        by_cases heq : k' = k
        · subst heq; simp [valueAt?, KeyOrder.irrefl]
        · rw [if_neg heq, valueAt?, valueAt?, hk]
          by_cases hlt : k' < hd.1
          · simp [hlt]
          · have : hd.1 < k' :=
              Decidable.byContradiction fun h' => heq (hk ▸ KeyOrder.total hlt h')
            simp [hlt, this]

theorem valueAt?_eq_some_iff {κ ν : Type} [KeyOrder κ] {k : κ} {v : ν}
    {entries : List (κ × ν)} (h : Ascending entries) :
    valueAt? k entries = some v ↔ (k, v) ∈ entries := by
  induction entries with
  | nil => simp [valueAt?]
  | cons hd tl ih =>
    have htl := List.pairwise_cons.1 h
    rw [valueAt?]
    split
    · rename_i hlt
      constructor
      · intro hsome; cases hsome
      · intro hmem
        rcases List.mem_cons.1 hmem with heq | hmem
        · rw [← heq] at hlt; exact absurd hlt (KeyOrder.irrefl k)
        · exact absurd (KeyOrder.trans hlt (htl.1 _ hmem)) (KeyOrder.irrefl k)
    · split
      · rename_i hge hlt
        rw [ih htl.2, List.mem_cons]
        constructor
        · exact .inr
        · rintro (heq | hmem)
          · rw [← heq] at hlt; exact absurd hlt (KeyOrder.irrefl k)
          · exact hmem
      · rename_i hge hle
        have hk := KeyOrder.total hge hle
        rw [List.mem_cons]
        constructor
        · intro hsome; exact .inl (Prod.ext hk (Option.some.inj hsome).symm)
        · rintro (heq | hmem)
          · rw [← heq]
          · exact absurd (hk ▸ htl.1 _ hmem) (KeyOrder.irrefl _)

/-- What an insertion replaces is all that it takes away. -/
theorem insertEntry_perm {κ ν : Type} [KeyOrder κ] (k : κ) (v : ν) (entries : List (κ × ν)) :
    (insertEntry k v entries ++ (valueAt? k entries).toList.map (k, ·)).Perm
      ((k, v) :: entries) := by
  induction entries with
  | nil => exact List.Perm.refl _
  | cons hd tl ih =>
    rw [insertEntry, valueAt?]
    split
    · rw [Option.toList_none, List.map_nil, List.append_nil]
    · split
      · rw [List.cons_append]
        exact (ih.cons hd).trans (List.Perm.swap (k, v) hd tl)
      · rename_i hge hle
        have hk : k = hd.1 := KeyOrder.total hge hle
        subst hk
        rw [List.cons_append]
        exact (List.perm_append_singleton hd tl).cons _

/-- An entry of a key before all others is put at the start. -/
theorem insertEntry_of_first {κ ν : Type} [KeyOrder κ] {k : κ} {entries : List (κ × ν)} (v : ν)
    (h : ∀ e ∈ entries, k < e.1) : insertEntry k v entries = (k, v) :: entries := by
  cases entries with
  | nil => rfl
  | cons hd tl => rw [insertEntry, if_pos (h hd List.mem_cons_self)]

/-! ## Maps -/

/-- A finite map, as its entries in ascending order of the keys. -/
structure SortedMap (κ ν : Type) [KeyOrder κ] where
  entries : List (κ × ν)
  ascending : Ascending entries

namespace SortedMap

variable {κ ν : Type} [KeyOrder κ]

instance [DecidableEq κ] [DecidableEq ν] : DecidableEq (SortedMap κ ν) := fun a b =>
  if h : a.entries = b.entries then
    .isTrue (by cases a; cases b; cases h; rfl)
  else .isFalse fun heq => h (congrArg entries heq)

/-- The map without entries. -/
def empty : SortedMap κ ν := ⟨[], List.Pairwise.nil⟩

instance : EmptyCollection (SortedMap κ ν) := ⟨empty⟩

instance : Inhabited (SortedMap κ ν) := ⟨empty⟩

/-- The value of a key. -/
def find? (m : SortedMap κ ν) (k : κ) : Option ν :=
  valueAt? k m.entries

/-- Whether a key has a value. -/
def contains (m : SortedMap κ ν) (k : κ) : Bool :=
  (m.find? k).isSome

/-- Sets the value of a key. -/
def insert (m : SortedMap κ ν) (k : κ) (v : ν) : SortedMap κ ν :=
  ⟨insertEntry k v m.entries, ascending_insertEntry k v m.ascending⟩

/-- Sets the value of a key that has none yet. -/
def insertIfNew (m : SortedMap κ ν) (k : κ) (v : ν) : SortedMap κ ν :=
  if m.contains k then m else m.insert k v

/-- Keeps the entries that pass a test. -/
def filter (m : SortedMap κ ν) (keep : κ → ν → Bool) : SortedMap κ ν :=
  ⟨m.entries.filter fun e => keep e.1 e.2, m.ascending.filter _⟩

/-- Removes the value of a key. -/
def erase [DecidableEq κ] (m : SortedMap κ ν) (k : κ) : SortedMap κ ν :=
  m.filter fun k' _ => k' != k

/-- The map of a list of entries; of several entries of one key, the last counts. -/
def ofList (entries : List (κ × ν)) : SortedMap κ ν :=
  entries.foldr (fun e m => m.insertIfNew e.1 e.2) empty

/-- The entries in ascending order of the keys. -/
def toList (m : SortedMap κ ν) : List (κ × ν) :=
  m.entries

/-- Number of entries. -/
def size (m : SortedMap κ ν) : Nat :=
  m.entries.length

/-- Whether there are no entries. -/
def isEmpty (m : SortedMap κ ν) : Bool :=
  m.entries.isEmpty

/-- Changes each value; the keys stay. -/
def mapValues {μ : Type} (m : SortedMap κ ν) (f : ν → μ) : SortedMap κ μ :=
  ⟨m.entries.map fun e => (e.1, f e.2), List.pairwise_map.2 m.ascending⟩

/-! ## Look-ups -/

@[simp] theorem find?_empty (k : κ) : (empty : SortedMap κ ν).find? k = none := rfl

theorem find?_insert [DecidableEq κ] (m : SortedMap κ ν) (k k' : κ) (v : ν) :
    (m.insert k v).find? k' = if k' = k then some v else m.find? k' :=
  valueAt?_insertEntry k k' v m.entries m.ascending

theorem find?_eq_some_iff {m : SortedMap κ ν} {k : κ} {v : ν} :
    m.find? k = some v ↔ (k, v) ∈ m.toList :=
  valueAt?_eq_some_iff m.ascending

theorem find?_filter_eq_some_iff {m : SortedMap κ ν} {keep : κ → ν → Bool} {k : κ} {v : ν} :
    (m.filter keep).find? k = some v ↔ m.find? k = some v ∧ keep k v = true := by
  rw [find?_eq_some_iff, find?_eq_some_iff]
  simp [toList, filter]

theorem find?_filter_of_keep {m : SortedMap κ ν} {keep : κ → ν → Bool} {k : κ}
    (h : ∀ v, keep k v = true) : (m.filter keep).find? k = m.find? k := by
  ext v
  rw [find?_filter_eq_some_iff]
  exact and_iff_left (h v)

theorem find?_erase [DecidableEq κ] (m : SortedMap κ ν) (k k' : κ) :
    (m.erase k).find? k' = if k' = k then none else m.find? k' := by
  ext v
  rw [erase, find?_filter_eq_some_iff]
  by_cases h : k' = k <;> simp [h]

theorem find?_insertIfNew [DecidableEq κ] (m : SortedMap κ ν) (k k' : κ) (v : ν) :
    (m.insertIfNew k v).find? k' = if k' = k then some ((m.find? k).getD v) else m.find? k' := by
  rw [insertIfNew, contains]
  cases hk : m.find? k with
  | none => simp [find?_insert]
  | some w =>
    by_cases h : k' = k
    · subst h; simp [hk]
    · simp [h]

/-- Of several entries of one key in a list, the last one is found. -/
theorem find?_ofList [DecidableEq κ] (entries : List (κ × ν)) (k : κ) :
    (ofList entries).find? k = (entries.reverse.find? fun e => e.1 = k).map (·.2) := by
  induction entries with
  | nil => rfl
  | cons e entries ih =>
    show ((ofList entries).insertIfNew e.1 e.2).find? k = _
    rw [find?_insertIfNew, List.reverse_cons, List.find?_append]
    by_cases hk : k = e.1
    · subst hk
      rw [if_pos rfl, ih, List.find?_singleton, if_pos (by simp)]
      cases entries.reverse.find? fun x => x.1 = e.1 <;> rfl
    · rw [if_neg hk, ih, List.find?_singleton, if_neg (by simpa using Ne.symm hk), Option.or_none]

/-- Of the entries of a key in a list, the last one has this value. -/
def IsLastEntry (entries : List (κ × ν)) (k : κ) (v : ν) : Prop :=
  ∃ before after, entries = before ++ (k, v) :: after ∧ ∀ e ∈ after, e.1 ≠ k

/-- The last entry of a key counts, and no other. -/
theorem find?_ofList_eq_some_iff [DecidableEq κ] {entries : List (κ × ν)} {k : κ} {v : ν} :
    (ofList entries).find? k = some v ↔ IsLastEntry entries k v := by
  rw [find?_ofList, Option.map_eq_some_iff]
  constructor
  · intro ⟨e, hfound, hv⟩
    obtain ⟨hk, after, before, hentries, hafter⟩ := List.find?_eq_some_iff_append.1 hfound
    refine ⟨before.reverse, after.reverse, ?_, ?_⟩
    · rw [List.reverse_eq_iff] at hentries
      have he : e = (k, v) := Prod.ext (of_decide_eq_true hk) hv
      simp [hentries, he]
    · intro e' he'
      simpa using hafter e' (List.mem_reverse.1 he')
  · intro ⟨before, after, hentries, hafter⟩
    refine ⟨(k, v), ?_, rfl⟩
    rw [List.find?_eq_some_iff_append]
    refine ⟨decide_eq_true rfl, after.reverse, before.reverse, by simp [hentries], ?_⟩
    intro e he
    simpa using hafter e (List.mem_reverse.1 he)

/-- Changing the values of the entries changes what is found. -/
theorem find?_ofList_map [DecidableEq κ] {μ : Type} (entries : List (κ × ν)) (f : ν → μ) (k : κ) :
    (ofList (entries.map fun e => (e.1, f e.2))).find? k = ((ofList entries).find? k).map f := by
  rw [find?_ofList, find?_ofList, ← List.map_reverse, List.find?_map, Option.map_map,
    Option.map_map]
  rfl

/-- A key is looked for in the second part of a list first. -/
theorem find?_ofList_append [DecidableEq κ] (entries more : List (κ × ν)) (k : κ) :
    (ofList (entries ++ more)).find? k = ((ofList more).find? k).or ((ofList entries).find? k) := by
  rw [find?_ofList, find?_ofList, find?_ofList, List.reverse_append, List.find?_append,
    Option.map_or]

theorem find?_ofList_eq_none [DecidableEq κ] {entries : List (κ × ν)} {k : κ}
    (h : ∀ e ∈ entries, e.1 ≠ k) : (ofList entries).find? k = none := by
  rw [find?_ofList, Option.map_eq_none_iff, List.find?_eq_none]
  intro e he
  simpa using h e (List.mem_reverse.1 he)

/-- Different keys stay apart if they are renamed one to one. -/
theorem find?_ofList_rename [DecidableEq κ] {κ' : Type} [KeyOrder κ'] [DecidableEq κ']
    {rename : κ → κ'} (hrename : ∀ k k', rename k = rename k' → k = k') (entries : List (κ × ν))
    (k : κ) :
    (ofList (entries.map fun e => (rename e.1, e.2))).find? (rename k) =
      (ofList entries).find? k := by
  have hkey (k' : κ) : decide (rename k' = rename k) = decide (k' = k) :=
    decide_eq_decide.2 ⟨hrename k' k, congrArg rename⟩
  rw [find?_ofList, find?_ofList, ← List.map_reverse, List.find?_map, Option.map_map]
  simp only [Function.comp_def, hkey]

theorem toList_insert_perm (m : SortedMap κ ν) (k : κ) (v : ν) :
    ((m.insert k v).toList ++ (m.find? k).toList.map (k, ·)).Perm ((k, v) :: m.toList) :=
  insertEntry_perm k v m.entries

theorem ext_entries {a b : SortedMap κ ν} (h : a.entries = b.entries) : a = b := by
  cases a; cases b; cases h; rfl

theorem ext_find? {a b : SortedMap κ ν} (h : ∀ k, a.find? k = b.find? k) : a = b := by
  apply ext_entries
  have hmem : ∀ e, e ∈ a.entries ↔ e ∈ b.entries := fun e => by
    rw [← valueAt?_eq_some_iff a.ascending, ← valueAt?_eq_some_iff b.ascending]
    exact iff_of_eq (congrArg (· = some e.2) (h e.1))
  have ha := a.ascending
  have hb := b.ascending
  generalize a.entries = xs at hmem ha ⊢
  generalize b.entries = ys at hmem hb ⊢
  clear h
  induction xs generalizing ys with
  | nil =>
    cases ys with
    | nil => rfl
    | cons y ys => exact absurd ((hmem y).2 List.mem_cons_self) List.not_mem_nil
  | cons x xs ih =>
    cases ys with
    | nil => exact absurd ((hmem x).1 List.mem_cons_self) List.not_mem_nil
    | cons y ys =>
      have hx := List.pairwise_cons.1 ha
      have hy := List.pairwise_cons.1 hb
      have hxy : x = y := by
        rcases List.mem_cons.1 ((hmem x).1 List.mem_cons_self) with heq | hxin
        · exact heq
        · rcases List.mem_cons.1 ((hmem y).2 List.mem_cons_self) with heq | hyin
          · exact heq.symm
          · exact absurd (hy.1 x hxin) (KeyOrder.asymm (hx.1 y hyin))
      subst hxy
      congr 1
      refine ih hx.2 ys (fun e => ?_) hy.2
      have he := hmem e
      rw [List.mem_cons, List.mem_cons] at he
      constructor
      · intro hin
        rcases he.1 (.inr hin) with heq | hin'
        · exact absurd (hx.1 e hin) (heq ▸ KeyOrder.irrefl _)
        · exact hin'
      · intro hin
        rcases he.2 (.inr hin) with heq | hin'
        · exact absurd (hy.1 e hin) (heq ▸ KeyOrder.irrefl _)
        · exact hin'

/-- Maps that agree on what passes a test are left alike by it. -/
theorem filter_congr {a b : SortedMap κ ν} {keep : κ → ν → Bool}
    (h : ∀ k v, keep k v = true → a.find? k = b.find? k) : a.filter keep = b.filter keep := by
  apply ext_find?
  intro k
  ext v
  rw [find?_filter_eq_some_iff, find?_filter_eq_some_iff]
  exact and_congr_left fun hkeep => iff_of_eq (congrArg (· = some v) (h k v hkeep))

/-! ## Lists of entries -/

theorem keys_nodup (m : SortedMap κ ν) : (m.toList.map (·.1)).Nodup :=
  (List.pairwise_map.2 m.ascending).imp KeyOrder.ne_of_lt

/-- A map made of entries with different keys has exactly these entries. -/
theorem toList_ofList_perm {entries : List (κ × ν)} (h : (entries.map (·.1)).Nodup) :
    (ofList entries).toList.Perm entries := by
  induction entries with
  | nil => exact List.Perm.refl _
  | cons e entries ih =>
    rw [List.map_cons, List.nodup_cons] at h
    have ih := ih h.2
    have hnew : (ofList entries).find? e.1 = none := by
      rw [Option.eq_none_iff_forall_ne_some]
      intro v hv
      rw [find?_eq_some_iff] at hv
      exact h.1 (List.mem_map.2 ⟨_, ih.mem_iff.1 hv, rfl⟩)
    have hinsert := toList_insert_perm (ofList entries) e.1 e.2
    rw [hnew, Option.toList_none, List.map_nil, List.append_nil] at hinsert
    show ((ofList entries).insertIfNew e.1 e.2).toList.Perm _
    rw [insertIfNew, contains, hnew, if_neg (by simp)]
    exact hinsert.trans (ih.cons e)

/-- A map is made of its entries in any order. -/
theorem ofList_eq_of_perm {entries : List (κ × ν)} {m : SortedMap κ ν}
    (h : entries.Perm m.toList) : ofList entries = m := by
  have hkeys : (entries.map (·.1)).Nodup := (h.map _).nodup_iff.2 m.keys_nodup
  apply ext_find?
  intro k
  ext v
  rw [find?_eq_some_iff, find?_eq_some_iff]
  exact ((toList_ofList_perm hkeys).trans h).mem_iff

/-- Of several entries of one key the last counts, too, when they are inserted one after another. -/
theorem foldl_insert_eq_ofList [DecidableEq κ] (entries : List (κ × ν)) :
    entries.foldl (fun m e => m.insert e.1 e.2) empty = ofList entries := by
  have hfind (es : List (κ × ν)) (k : κ) :
      (es.foldr (fun e m => m.insert e.1 e.2) empty).find? k =
        (es.find? fun e => e.1 = k).map (·.2) := by
    induction es with
    | nil => rfl
    | cons e es ih =>
      rw [List.foldr_cons, find?_insert, ih]
      by_cases hk : k = e.1
      · rw [if_pos hk, List.find?_cons_of_pos (by simpa using hk.symm)]
        rfl
      · rw [if_neg hk, List.find?_cons_of_neg (by simpa using Ne.symm hk)]
  apply ext_find?
  intro k
  rw [List.foldl_eq_foldr_reverse, hfind, find?_ofList]

theorem ofList_concat [DecidableEq κ] (entries : List (κ × ν)) (k : κ) (v : ν) :
    ofList (entries ++ [(k, v)]) = (ofList entries).insert k v := by
  rw [← foldl_insert_eq_ofList, ← foldl_insert_eq_ofList, List.foldl_append]
  rfl

/-- Inserting changed entries one by one is changing all values. -/
theorem foldl_insert_eq_mapValues [DecidableEq κ] {μ : Type} (m : SortedMap κ ν) (f : ν → μ) :
    m.toList.foldl (fun m e => m.insert e.1 (f e.2)) empty = m.mapValues f := by
  have hmap := foldl_insert_eq_ofList (m.toList.map fun e => (e.1, f e.2))
  rw [List.foldl_map] at hmap
  exact hmap.trans (ofList_eq_of_perm (.refl _))

end SortedMap

end EventIngress
