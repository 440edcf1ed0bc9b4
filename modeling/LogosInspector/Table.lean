import Mathlib

/-!
# Tables of records ordered by a key

A *table* is a finite set of records, each of which names its own key: no two
records share a key, and the records are listed by increasing key. Ordered maps, the
rows of a key-ordered database table and vectors searched by bisection are this one
object, `Table`, and the order is carried by the structure: an unsorted table cannot
be built.

Every operation is described by the records it leaves (`Table.mem_insert`,
`Table.mem_erase`, `Table.mem_modifyAll`), and two tables with the same records are equal
(`Table.ext_mem`). So a fact about tables is a fact about membership, and the sorted list
is never looked at outside this file.

The last section is the **difference of two tables**: the records to write and the
keys to delete to get from the one to the other (`Table.applyDiff`).
-/

namespace LogosInspector

variable {α κ : Type} [LinearOrder κ]

/-- A table of records of type `α`, keyed by `key`: its records, by strictly
increasing key. -/
structure Table (key : α → κ) where
  /-- The records, in the order of their keys. -/
  records : List α
  /-- The keys increase strictly; in particular no key occurs twice. -/
  sorted : records.Pairwise (fun a b => key a < key b)

namespace Table

variable {key : α → κ}

instance : Membership α (Table key) := ⟨fun t r => r ∈ t.records⟩

instance [DecidableEq α] : DecidableEq (Table key) := fun t u =>
  decidable_of_iff (t.records = u.records)
    ⟨fun h => by cases t; cases u; cases h; rfl, fun h => h ▸ rfl⟩

variable {t u : Table key} {r r' x : α} {k : κ} {l rs : List α} {f : α → α} {p : α → Bool}
  {ks : List κ}

theorem mem_records : r ∈ t.records ↔ r ∈ t := Iff.rfl

instance [DecidableEq α] (t : Table key) (r : α) : Decidable (r ∈ t) :=
  inferInstanceAs (Decidable (r ∈ t.records))

instance (t : Table key) (p : α → Prop) [DecidablePred p] : Decidable (∀ r ∈ t, p r) :=
  inferInstanceAs (Decidable (∀ r ∈ t.records, p r))

theorem eq_of_key_eq (h : r ∈ t) (h' : r' ∈ t) (hk : key r = key r') : r = r' := by
  refine List.Pairwise.forall_of_forall_of_flip (R := fun a b => key a = key b → a = b)
    (fun _ _ _ => rfl) ?_ ?_ h h' hk
  · exact t.sorted.imp fun hlt heq => absurd heq hlt.ne
  · exact t.sorted.imp fun hlt heq => absurd heq hlt.ne'

theorem nodup (t : Table key) : t.records.Nodup :=
  t.sorted.imp fun hlt heq => absurd (congrArg key heq) hlt.ne

/-- **Two tables with the same records are equal.** -/
theorem ext_mem (h : ∀ r, r ∈ t ↔ r ∈ u) : t = u := by
  have hp : t.records.Perm u.records := (List.perm_ext_iff_of_nodup t.nodup u.nodup).2 h
  have heq : t.records = u.records :=
    hp.eq_of_pairwise (fun a b _ _ hab hba => absurd hab hba.asymm) t.sorted u.sorted
  cases t; cases u; cases heq; rfl

/-! ### Looking up a key -/

/-- The table with no record. -/
def empty : Table key := ⟨[], List.Pairwise.nil⟩

@[simp] theorem not_mem_empty : ¬ r ∈ (empty : Table key) := List.not_mem_nil

/-- The number of records. -/
def size (t : Table key) : Nat := t.records.length

/-- The record of a key, if there is one. -/
def find? (t : Table key) (k : κ) : Option α := t.records.find? (fun r => key r = k)

/-- Whether a key has a record. -/
def contains (t : Table key) (k : κ) : Bool := (t.find? k).isSome

theorem find?_eq_some : t.find? k = some r ↔ r ∈ t ∧ key r = k := by
  constructor
  · intro h
    exact ⟨List.mem_of_find?_eq_some h, by simpa using List.find?_some h⟩
  · rintro ⟨hr, hk⟩
    cases hf : t.find? k with
    | none =>
      have := List.find?_eq_none.1 hf r hr
      simp [hk] at this
    | some r' =>
      have hr' : r' ∈ t := List.mem_of_find?_eq_some hf
      have hk' : key r' = k := by simpa using List.find?_some hf
      rw [eq_of_key_eq hr' hr (hk'.trans hk.symm)]

theorem find?_eq_none : t.find? k = none ↔ ∀ r ∈ t, key r ≠ k := by
  simp [find?, List.find?_eq_none, mem_records]

theorem find?_of_mem (h : r ∈ t) : t.find? (key r) = some r :=
  find?_eq_some.2 ⟨h, rfl⟩

@[simp] theorem find?_empty (k : κ) : (empty : Table key).find? k = none := rfl

theorem contains_iff : t.contains k = true ↔ ∃ r ∈ t, key r = k := by
  rw [contains, Option.isSome_iff_exists]
  simp only [find?_eq_some]

/-- Two tables that answer every lookup alike are equal. -/
theorem ext_find? (h : ∀ k, t.find? k = u.find? k) : t = u := by
  refine ext_mem fun r => ⟨fun hr => ?_, fun hr => ?_⟩
  · exact (find?_eq_some.1 ((h _).symm.trans (find?_of_mem hr))).1
  · exact (find?_eq_some.1 ((h _).trans (find?_of_mem hr))).1

/-! ### Writing and deleting records -/

/-- A record put in its place in a sorted list, in place of the record with its key. -/
def insertSorted (key : α → κ) (r : α) : List α → List α
  | [] => [r]
  | x :: xs =>
    if key r < key x then r :: x :: xs
    else if key x < key r then x :: insertSorted key r xs
    else r :: xs

theorem mem_insertSorted (hl : l.Pairwise (fun a b => key a < key b)) :
    x ∈ insertSorted key r l ↔ x = r ∨ (x ∈ l ∧ key x ≠ key r) := by
  induction l with
  | nil => simp [insertSorted]
  | cons y ys ih =>
    obtain ⟨hy, hys⟩ := List.pairwise_cons.1 hl
    rw [insertSorted]
    split_ifs with h₁ h₂
    · -- the new record goes in front: every key of the list is larger
      have hne : ∀ z ∈ y :: ys, key z ≠ key r := by
        intro z hz
        rcases List.mem_cons.1 hz with rfl | hz
        · exact h₁.ne'
        · exact (h₁.trans (hy z hz)).ne'
      rw [List.mem_cons]
      exact or_congr_right ⟨fun hx => ⟨hx, hne x hx⟩, And.left⟩
    · rw [List.mem_cons, ih hys, List.mem_cons]
      constructor
      · rintro (rfl | rfl | ⟨hx, hk⟩)
        · exact .inr ⟨.inl rfl, h₂.ne⟩
        · exact .inl rfl
        · exact .inr ⟨.inr hx, hk⟩
      · rintro (rfl | ⟨rfl | hx, hk⟩)
        · exact .inr (.inl rfl)
        · exact .inl rfl
        · exact .inr (.inr ⟨hx, hk⟩)
    · -- same key: the old record is replaced
      have hk : key y = key r := le_antisymm (not_lt.1 h₁) (not_lt.1 h₂)
      rw [List.mem_cons, List.mem_cons]
      constructor
      · rintro (rfl | hx)
        · exact .inl rfl
        · exact .inr ⟨.inr hx, fun h => (hy x hx).ne (hk.trans h.symm)⟩
      · rintro (rfl | ⟨rfl | hx, hne⟩)
        · exact .inl rfl
        · exact absurd hk hne
        · exact .inr hx

theorem pairwise_insertSorted (r : α) (hl : l.Pairwise (fun a b => key a < key b)) :
    (insertSorted key r l).Pairwise (fun a b => key a < key b) := by
  induction l with
  | nil => simp [insertSorted]
  | cons y _ ih =>
    obtain ⟨hy, hys⟩ := List.pairwise_cons.1 hl
    rw [insertSorted]
    split_ifs with h₁ h₂
    · refine List.pairwise_cons.2 ⟨fun z hz => ?_, hl⟩
      rcases List.mem_cons.1 hz with rfl | hz
      · exact h₁
      · exact h₁.trans (hy z hz)
    · refine List.pairwise_cons.2 ⟨fun z hz => ?_, ih hys⟩
      rcases (mem_insertSorted hys).1 hz with rfl | ⟨hz, -⟩
      · exact h₂
      · exact hy z hz
    · have hk : key y = key r := le_antisymm (not_lt.1 h₁) (not_lt.1 h₂)
      exact List.pairwise_cons.2 ⟨fun z hz => hk ▸ hy z hz, hys⟩

/-- Write a record, in place of the record with its key. -/
def insert (t : Table key) (r : α) : Table key :=
  ⟨insertSorted key r t.records, pairwise_insertSorted r t.sorted⟩

/-- Delete the record of a key. -/
def erase (t : Table key) (k : κ) : Table key :=
  ⟨t.records.filter (fun r => key r ≠ k), t.sorted.filter _⟩

/-- Rewrite every record, none of which changes its key. -/
def modifyAll (t : Table key) (f : α → α) (hf : ∀ r, key (f r) = key r) : Table key :=
  ⟨t.records.map f, List.pairwise_map.2 (t.sorted.imp fun h => by rwa [hf, hf])⟩

/-- Keep some of the records. -/
def filter (t : Table key) (p : α → Bool) : Table key := ⟨t.records.filter p, t.sorted.filter p⟩

@[simp] theorem mem_insert : x ∈ t.insert r ↔ x = r ∨ (x ∈ t ∧ key x ≠ key r) :=
  mem_insertSorted t.sorted

@[simp] theorem mem_erase : x ∈ t.erase k ↔ x ∈ t ∧ key x ≠ k := by
  change x ∈ t.records.filter _ ↔ _
  simp [mem_records]

@[simp] theorem mem_modifyAll {hf : ∀ r, key (f r) = key r} :
    x ∈ t.modifyAll f hf ↔ ∃ r ∈ t, f r = x := List.mem_map

@[simp] theorem mem_filter : x ∈ t.filter p ↔ x ∈ t ∧ p x = true := List.mem_filter

theorem mem_insert_self (t : Table key) (r : α) : r ∈ t.insert r := mem_insert.2 (.inl rfl)

/-- Of two records with one key the second stays. -/
theorem insert_insert (h : key r = key r') : (t.insert r).insert r' = t.insert r' := by
  refine ext_mem fun x => ?_
  simp only [mem_insert]
  constructor
  · rintro (rfl | ⟨rfl | ⟨hx, -⟩, hne⟩)
    · exact .inl rfl
    · exact absurd h hne
    · exact .inr ⟨hx, hne⟩
  · rintro (rfl | ⟨hx, hne⟩)
    · exact .inl rfl
    · exact .inr ⟨.inr ⟨hx, fun he => hne (he.trans h)⟩, hne⟩

/-- What is written is not affected by what was deleted before. -/
theorem insert_erase (h : key r = k) : (t.erase k).insert r = t.insert r := by
  refine ext_mem fun x => ?_
  simp only [mem_insert, mem_erase]
  constructor
  · rintro (rfl | ⟨⟨hx, -⟩, hne⟩)
    · exact .inl rfl
    · exact .inr ⟨hx, hne⟩
  · rintro (rfl | ⟨hx, hne⟩)
    · exact .inl rfl
    · exact .inr ⟨⟨hx, h ▸ hne⟩, hne⟩

/-- Deleting what is not there changes nothing. -/
theorem erase_of_forall (h : ∀ r ∈ t, key r ≠ k) : t.erase k = t :=
  ext_mem fun _ => ⟨fun hx => (mem_erase.1 hx).1, fun hx => mem_erase.2 ⟨hx, h _ hx⟩⟩

/-- Writing a record that is there changes nothing. -/
theorem insert_self (h : r ∈ t) : t.insert r = t := by
  refine ext_mem fun x => ?_
  rw [mem_insert]
  constructor
  · rintro (rfl | ⟨hx, -⟩)
    · exact h
    · exact hx
  · intro hx
    by_cases hk : key x = key r
    · exact .inl (eq_of_key_eq hx h hk)
    · exact .inr ⟨hx, hk⟩

theorem find?_insert (t : Table key) (r : α) (k : κ) :
    (t.insert r).find? k = if k = key r then some r else t.find? k := by
  split_ifs with h
  · exact find?_eq_some.2 ⟨t.mem_insert_self r, h.symm⟩
  · refine Option.ext fun x => ?_
    rw [find?_eq_some, find?_eq_some, mem_insert]
    constructor
    · rintro ⟨rfl | ⟨hx, -⟩, rfl⟩
      · exact absurd rfl h
      · exact ⟨hx, rfl⟩
    · rintro ⟨hx, rfl⟩
      exact ⟨.inr ⟨hx, h⟩, rfl⟩

theorem find?_erase (t : Table key) (k k' : κ) :
    (t.erase k).find? k' = if k' = k then none else t.find? k' := by
  refine Option.ext fun x => ?_
  split_ifs with h
  · simp only [find?_eq_some, mem_erase, iff_false]
    rintro ⟨⟨-, hne⟩, rfl⟩
    exact hne h
  · simp only [find?_eq_some, mem_erase]
    exact ⟨fun hx => ⟨hx.1.1, hx.2⟩, fun hx => ⟨⟨hx.1, fun he => h (hx.2 ▸ he)⟩, hx.2⟩⟩

theorem find?_modifyAll (t : Table key) (f : α → α) (hf : ∀ r, key (f r) = key r) (k : κ) :
    (t.modifyAll f hf).find? k = (t.find? k).map f := by
  refine Option.ext fun x => ?_
  rw [find?_eq_some, mem_modifyAll, Option.map_eq_some_iff]
  constructor
  · rintro ⟨⟨r, hr, rfl⟩, hk⟩
    exact ⟨r, find?_eq_some.2 ⟨hr, (hf r) ▸ hk⟩, rfl⟩
  · rintro ⟨r, hr, rfl⟩
    obtain ⟨hm, hk⟩ := find?_eq_some.1 hr
    exact ⟨⟨r, hm, rfl⟩, (hf r).trans hk⟩

theorem find?_filter (t : Table key) (p : α → Bool) (k : κ) :
    (t.filter p).find? k = (t.find? k).filter p := by
  refine Option.ext fun x => ?_
  rw [find?_eq_some, mem_filter, Option.filter_eq_some_iff, find?_eq_some]
  tauto

/-! ### Writing and deleting many records -/

/-- Write the records of a list, one after the other. -/
def insertAll (t : Table key) (rs : List α) : Table key := rs.foldl insert t

/-- Delete the records of a list of keys. -/
def eraseAll (t : Table key) (ks : List κ) : Table key := ks.foldl erase t

theorem mem_eraseAll : x ∈ t.eraseAll ks ↔ x ∈ t ∧ key x ∉ ks := by
  induction ks generalizing t with
  | nil => simp [eraseAll]
  | cons k ks ih =>
    change x ∈ (t.erase k).eraseAll ks ↔ _
    rw [ih, mem_erase, List.mem_cons]
    tauto

/-- Writing records of distinct keys leaves them all, and the other records of the
table whose keys are not among theirs. -/
theorem mem_insertAll (hrs : (rs.map key).Nodup) :
    x ∈ t.insertAll rs ↔ x ∈ rs ∨ (x ∈ t ∧ key x ∉ rs.map key) := by
  induction rs generalizing t with
  | nil => simp [insertAll]
  | cons r rs ih =>
    obtain ⟨hr, hrs⟩ := List.nodup_cons.1 hrs
    change x ∈ (t.insert r).insertAll rs ↔ _
    rw [ih hrs, mem_insert, List.map_cons, List.mem_cons, List.mem_cons]
    constructor
    · rintro (h | ⟨rfl | ⟨h, hne⟩, hk⟩)
      · exact .inl (.inr h)
      · exact .inl (.inl rfl)
      · exact .inr ⟨h, fun h' => h'.elim hne hk⟩
    · rintro ((rfl | h) | ⟨h, hk⟩)
      · exact .inr ⟨.inl rfl, hr⟩
      · exact .inl h
      · exact .inr ⟨.inr ⟨h, fun he => hk (.inl he)⟩, fun h' => hk (.inr h')⟩

theorem of_mem_insertAll (h : x ∈ t.insertAll rs) : x ∈ t ∨ x ∈ rs := by
  induction rs generalizing t with
  | nil => exact .inl h
  | cons r _ ih =>
    rcases ih (t := t.insert r) h with h | h
    · exact (mem_insert.1 h).elim (fun he => .inr (he ▸ List.mem_cons_self)) fun h => .inl h.1
    · exact .inr (List.mem_cons_of_mem _ h)

/-- Writing a record for each key of a list, always the same for the same key. -/
theorem mem_insertAll_map {f : κ → α} (hf : ∀ k, key (f k) = k) (ht : ∀ x ∈ t, f (key x) = x) :
    x ∈ t.insertAll (ks.map f) ↔ x ∈ t ∨ x ∈ ks.map f := by
  induction ks generalizing t with
  | nil => simp [insertAll]
  | cons k ks ih =>
    have ht' : ∀ y ∈ t.insert (f k), f (key y) = y := by
      intro y hy
      rcases mem_insert.1 hy with rfl | ⟨hy, -⟩
      · rw [hf]
      · exact ht y hy
    change x ∈ (t.insert (f k)).insertAll (ks.map f) ↔ _
    rw [ih ht', mem_insert, List.map_cons, List.mem_cons]
    constructor
    · rintro ((rfl | ⟨hx, -⟩) | hx)
      · exact .inr (.inl rfl)
      · exact .inl hx
      · exact .inr (.inr hx)
    · rintro (hx | rfl | hx)
      · by_cases hk : key x = key (f k)
        · exact .inl (.inl (by rw [← ht x hx, hk, hf]))
        · exact .inl (.inr ⟨hx, hk⟩)
      · exact .inl (.inl rfl)
      · exact .inr hx

/-- A key has a record after many writes if it had one or one is written. -/
theorem contains_insertAll :
    (t.insertAll rs).contains k = true ↔ t.contains k = true ∨ k ∈ rs.map key := by
  induction rs generalizing t with
  | nil => simp [insertAll]
  | cons r rs ih =>
    change ((t.insert r).insertAll rs).contains k = true ↔ _
    rw [ih, contains, find?_insert, List.map_cons, List.mem_cons, contains]
    split_ifs with h
    · simp [h]
    · simp [h]

/-- Writing some records and deleting others can be done in either order. -/
theorem eraseAll_insertAll (hrs : (rs.map key).Nodup) (hks : ∀ k ∈ ks, k ∉ rs.map key) :
    (t.insertAll rs).eraseAll ks = (t.eraseAll ks).insertAll rs := by
  refine ext_mem fun x => ?_
  rw [mem_eraseAll, mem_insertAll hrs, mem_insertAll hrs, mem_eraseAll]
  constructor
  · rintro ⟨hx | ⟨hx, hk⟩, hnk⟩
    · exact .inl hx
    · exact .inr ⟨⟨hx, hnk⟩, hk⟩
  · rintro (hx | ⟨⟨hx, hnk⟩, hk⟩)
    · exact ⟨.inl hx, fun h => hks _ h (List.mem_map_of_mem hx)⟩
    · exact ⟨.inr ⟨hx, hk⟩, hnk⟩

theorem nodup_keys (t : Table key) : (t.records.map key).Nodup :=
  List.pairwise_map.2 (t.sorted.imp fun h => h.ne)

/-- Writing the records of a table that a function changes is applying the function. -/
theorem insertAll_changed (hf : ∀ r, key (f r) = key r)
    {us : List α} (hnodup : (us.map key).Nodup) (hus : ∀ x ∈ us, ∃ r ∈ t, f r = x)
    (hrest : ∀ r ∈ t, f r ∈ us ∨ f r = r) : t.insertAll us = t.modifyAll f hf := by
  refine ext_mem fun x => ?_
  rw [mem_insertAll hnodup, mem_modifyAll]
  constructor
  · rintro (hx | ⟨hx, hk⟩)
    · exact hus x hx
    · refine ⟨x, hx, (hrest x hx).resolve_left fun h => hk ?_⟩
      exact List.mem_map.2 ⟨f x, h, hf x⟩
  · rintro ⟨r, hr, rfl⟩
    by_cases hu : f r ∈ us
    · exact .inl hu
    · have hfr : f r = r := (hrest r hr).resolve_left hu
      refine .inr ⟨hfr.symm ▸ hr, fun hk => hu ?_⟩
      obtain ⟨y, hy, hyk⟩ := List.mem_map.1 hk
      obtain ⟨_, hr', rfl⟩ := hus y hy
      rw [hf, hf] at hyk
      rwa [eq_of_key_eq hr' hr hyk] at hy

/-- A list of distinct records that are those of a table is a permutation of its records. -/
theorem records_perm (hl : l.Nodup) (h : ∀ x, x ∈ t ↔ x ∈ l) : t.records.Perm l :=
  (List.perm_ext_iff_of_nodup t.nodup hl).2 h

/-- The one record that a test selects. -/
theorem records_filter_eq_singleton (hr : r ∈ t)
    (hp : p r = true) (hu : ∀ x ∈ t, p x = true → x = r) : t.records.filter p = [r] := by
  refine List.perm_singleton.1
    ((List.perm_ext_iff_of_nodup (t.nodup.filter p) (List.nodup_singleton r)).2 fun x => ?_)
  rw [List.mem_filter, List.mem_singleton, mem_records]
  constructor
  · exact fun ⟨hx, hpx⟩ => hu x hx hpx
  · rintro rfl
    exact ⟨hr, hp⟩

/-! ### The difference of two tables -/

section Diff

/-- The keys of `before` that have no record in `after`. -/
def deletes (before after : Table key) : List κ :=
  (before.records.map key).filter (fun k => !after.contains k)

variable {before after : Table key} {r : α}

theorem mem_deletes {k : κ} :
    k ∈ deletes before after ↔ (∃ r ∈ before, key r = k) ∧ ∀ r ∈ after, key r ≠ k := by
  simp only [deletes, List.mem_filter, List.mem_map, mem_records, Bool.not_eq_true',
    ← Bool.not_eq_true, contains_iff, not_exists, not_and, ne_eq]

theorem nodup_deletes (before after : Table key) : (deletes before after).Nodup :=
  before.nodup_keys.sublist List.filter_sublist

variable [DecidableEq α]

/-- The records of `after` that `before` lacks or holds with another value. -/
def upserts (before after : Table key) : List α :=
  after.records.filter (fun r => before.find? (key r) ≠ some r)

theorem mem_upserts : r ∈ upserts before after ↔ r ∈ after ∧ ¬ r ∈ before := by
  simp only [upserts, List.mem_filter, mem_records, ne_eq, decide_not, Bool.not_eq_eq_eq_not,
    Bool.not_true, decide_eq_false_iff_not, find?_eq_some, and_true]

theorem nodup_upserts (before after : Table key) : ((upserts before after).map key).Nodup :=
  after.nodup_keys.sublist (List.filter_sublist.map key)

/-- No key is both written and deleted. -/
theorem disjoint_upserts_deletes (before after : Table key)
    (hr : r ∈ upserts before after) : key r ∉ deletes before after := fun hk =>
  (mem_deletes.1 hk).2 r (mem_upserts.1 hr).1 rfl

/-- **Deleting and writing the difference gives the new table.** -/
theorem applyDiff (before after : Table key) :
    (before.eraseAll (deletes before after)).insertAll (upserts before after) = after := by
  refine ext_mem fun x => ?_
  rw [mem_insertAll (nodup_upserts before after), mem_eraseAll, mem_upserts]
  constructor
  · rintro (⟨h, -⟩ | ⟨⟨hx, hnd⟩, hnu⟩)
    · exact h
    · -- a record left alone: its key has a record in `after`, and that record is itself
      by_contra hxa
      have hk : ∃ r ∈ after, key r = key x := by
        by_contra hno
        exact hnd (mem_deletes.2 ⟨⟨x, hx, rfl⟩, fun r hr he => hno ⟨r, hr, he⟩⟩)
      obtain ⟨r, hr, hrk⟩ := hk
      have hrb : r ∈ before := by
        by_contra hrb
        exact hnu (List.mem_map.2 ⟨r, mem_upserts.2 ⟨hr, hrb⟩, hrk⟩)
      exact hxa (eq_of_key_eq hrb hx hrk ▸ hr)
  · intro hx
    by_cases hb : x ∈ before
    · refine .inr ⟨⟨hb, fun hk => (mem_deletes.1 hk).2 x hx rfl⟩, fun hk => ?_⟩
      obtain ⟨_, hr, hrk⟩ := List.mem_map.1 hk
      obtain ⟨hra, hrb⟩ := mem_upserts.1 hr
      exact hrb (eq_of_key_eq hra hx hrk ▸ hb)
    · exact .inl ⟨hx, hb⟩

end Diff

end Table

end LogosInspector
