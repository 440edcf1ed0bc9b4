import Mathlib

/-!
# Computations that may fail

The source's functions return a `Result`: they run a sequence of checks and
computations, and stop at the first that fails. They are embedded here in `Except`,
with one name for each of the two idioms the source repeats:

* `reject` is `if bad { return Err(e) }`;
* `required` is `value.ok_or(e)?`.

A successful run of such a sequence is taken apart by the lemmas below, one per
construct: `bind_eq_ok` for `?`, `reject_eq_ok` and `required_eq_ok` for the two idioms,
`forM_eq_ok` for a loop of checks. They are simp lemmas, so the inversion of a function –
what is known once it has returned `ok` – is read off its definition by `simp`.
-/

namespace LogosInspector

variable {ε α β σ : Type}

/-- Fail with `e` when `bad` holds. -/
def reject (bad : Prop) [Decidable bad] (e : ε) : Except ε Unit :=
  if bad then .error e else .ok ()

/-- The value of an option, or the error `e`. -/
def required (o : Option α) (e : ε) : Except ε α :=
  match o with
  | some a => .ok a
  | none => .error e

variable {e : ε} {o : Option α} {a : α} {x : Except ε α} {b : β} {l : List α} {u : PUnit}
  {f : σ → α → Except ε σ} {s s' : σ}

@[simp] theorem reject_eq_ok {bad : Prop} [Decidable bad] {u : Unit} :
    reject bad e = .ok u ↔ ¬ bad := by
  unfold reject
  split_ifs with h <;> simp [h]

@[simp] theorem required_eq_ok : required o e = .ok a ↔ o = some a := by
  cases o <;> simp [required]

@[simp] theorem bind_eq_ok {f : α → Except ε β} :
    (x >>= f) = .ok b ↔ ∃ a, x = .ok a ∧ f a = .ok b := by
  cases x with
  | error e => exact ⟨nofun, nofun⟩
  | ok a =>
    refine ⟨fun h => ⟨a, rfl, h⟩, ?_⟩
    rintro ⟨_, ⟨⟩, h⟩
    exact h

@[simp] theorem exists_unit {p : Unit → Prop} : (∃ u, p u) ↔ p () :=
  ⟨fun ⟨_, h⟩ => h, fun h => ⟨(), h⟩⟩

@[simp] theorem pure_eq_ok {b : α} : (pure a : Except ε α) = .ok b ↔ a = b :=
  ⟨fun h => by cases h; rfl, fun h => h ▸ rfl⟩

@[simp] theorem throw_ne_ok {b : α} : ¬ (throw e : Except ε α) = .ok b :=
  fun h => by cases h

@[simp] theorem map_eq_ok {f : α → β} : (f <$> x) = .ok b ↔ ∃ a, x = .ok a ∧ f a = b := by
  cases x with
  | error e => exact ⟨nofun, nofun⟩
  | ok a =>
    constructor
    · rintro ⟨⟩
      exact ⟨a, rfl, rfl⟩
    · rintro ⟨_, ⟨⟩, rfl⟩
      rfl

@[simp] theorem mapError_eq_ok {ε' : Type} {f : ε → ε'} : x.mapError f = .ok a ↔ x = .ok a := by
  cases x <;> simp [Except.mapError]

theorem toOption_eq_some : x.toOption = some a ↔ x = .ok a := by
  cases x <;> simp [Except.toOption]

/-- **A loop of checks succeeds when every check does.** -/
@[simp] theorem forM_eq_ok {f : α → Except ε PUnit} : forM l f = .ok u ↔ ∀ a ∈ l, f a = .ok () := by
  induction l with
  | nil => exact ⟨fun _ _ h => absurd h List.not_mem_nil, fun _ => rfl⟩
  | cons a l ih =>
    rw [List.forM_cons, bind_eq_ok]
    constructor
    · rintro ⟨_, ha, hl⟩ x hx
      rcases List.mem_cons.1 hx with rfl | hx
      · exact ha
      · exact ih.1 hl x hx
    · intro h
      exact ⟨(), h a List.mem_cons_self, ih.2 fun x hx => h x (List.mem_cons_of_mem a hx)⟩

/-- **A loop preserves what each of its rounds preserves.** -/
theorem foldlM_induction {P : σ → Prop} (h : l.foldlM f s = .ok s') (hs : P s)
    (hstep : ∀ t a t', a ∈ l → P t → f t a = .ok t' → P t') : P s' := by
  induction l generalizing s with
  | nil =>
    rw [List.foldlM_nil, pure_eq_ok] at h
    exact h ▸ hs
  | cons a l ih =>
    rw [List.foldlM_cons, bind_eq_ok] at h
    obtain ⟨t, ht, hrest⟩ := h
    exact ih hrest (hstep s a t List.mem_cons_self hs ht)
      fun t b t' hb => hstep t b t' (List.mem_cons_of_mem a hb)

/-- **A loop collects what each of its rounds adds.** -/
theorem foldlM_collect {γ : Type} {I : σ → Prop}
    {H : σ → γ → Prop} {A : α → γ → Prop} (h : l.foldlM f s = .ok s') (hs : I s)
    (hstep : ∀ t a t', a ∈ l → I t → f t a = .ok t' → I t' ∧ ∀ x, H t' x ↔ H t x ∨ A a x) :
    I s' ∧ ∀ x, H s' x ↔ H s x ∨ ∃ a ∈ l, A a x := by
  induction l generalizing s with
  | nil =>
    rw [List.foldlM_nil, pure_eq_ok] at h
    exact h ▸ ⟨hs, fun x => by simp⟩
  | cons a l ih =>
    rw [List.foldlM_cons, bind_eq_ok] at h
    obtain ⟨t, ht, hrest⟩ := h
    obtain ⟨hI, hadds⟩ := hstep s a t List.mem_cons_self hs ht
    obtain ⟨hI', hadds'⟩ := ih hrest hI fun t b t' hb => hstep t b t' (List.mem_cons_of_mem a hb)
    refine ⟨hI', fun x => ?_⟩
    rw [hadds', hadds, or_assoc, List.exists_mem_cons_iff]

/-- A check of an optional value succeeds when the value, if there is one, passes it. -/
@[simp] theorem optionForM_eq_ok {f : α → Except ε PUnit} :
    forM o f = .ok u ↔ ∀ a ∈ o, f a = .ok () := by
  cases o with
  | none => exact ⟨fun _ => nofun, fun _ => rfl⟩
  | some a =>
    refine ⟨?_, fun h => h a rfl⟩
    rintro h _ ⟨⟩
    exact h

/-- **A loop of computations succeeds when every one does.** -/
theorem mapM_eq_ok {f : α → Except ε β} {l' : List β} :
    l.mapM f = .ok l' ↔ List.Forall₂ (fun a b => f a = .ok b) l l' := by
  induction l generalizing l' with
  | nil =>
    rw [List.mapM_nil, pure_eq_ok, List.forall₂_nil_left_iff]
    exact eq_comm
  | cons a l ih =>
    simp only [List.mapM_cons, bind_eq_ok, pure_eq_ok]
    constructor
    · rintro ⟨_, hb, _, hbs, rfl⟩
      exact .cons hb (ih.1 hbs)
    · rintro (_ | ⟨hb, hbs⟩)
      exact ⟨_, hb, _, ih.2 hbs, rfl⟩

end LogosInspector
