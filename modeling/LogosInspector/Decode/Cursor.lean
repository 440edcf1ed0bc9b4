import Mathlib

/-!
# Reading a buffer at an offset

A *cursor* reads a buffer from an offset on and returns a value, with the number of elements it
has consumed. Cursors are put one after the other by `Cursor.bind`, and consume what both consume.

Two properties go through all constructions:

* `Cursor.Local`: the cursor does not run past the end of the buffer, and what it returns depends
  on nothing but the elements it has consumed – not on what stands before or after them, nor on
  where they stand;
* `Cursor.Reads`: a word that stands anywhere in a buffer is read to the end, as a given value.

Elements, errors and values are of any type.
-/

namespace LogosInspector

open List

/-- A computation that reads a buffer from an offset on: its value, and how much it consumes. -/
def Cursor (β ε α : Type) : Type := List β → ℕ → Except ε (α × ℕ)

namespace Cursor

variable {β ε ε' α γ : Type}

/-- Consume nothing. -/
def pure (a : α) : Cursor β ε α := fun _ _ => .ok (a, 0)

/-- Fail, with an error that may name the offset. -/
def fail (e : ℕ → ε) : Cursor β ε α := fun _ offset => .error (e offset)

/-- Read on with what was read. -/
def bind (m : Cursor β ε α) (f : α → Cursor β ε γ) : Cursor β ε γ := fun bytes offset => do
  let (a, consumed) ← m bytes offset
  let (b, consumed') ← f a bytes (offset + consumed)
  .ok (b, consumed + consumed')

/-- The next `n` elements, if there are as many. -/
def take (n : ℕ) (e : ℕ → ε) : Cursor β ε (List β) := fun bytes offset =>
  if offset + n ≤ bytes.length then .ok ((bytes.drop offset).take n, n) else .error (e offset)

/-- Change the error. -/
def mapError (g : ε → ε') (m : Cursor β ε α) : Cursor β ε' α := fun bytes offset =>
  (m bytes offset).mapError g

variable {m : Cursor β ε α} {f : α → Cursor β ε γ} {a : α} {b : γ} {n consumed offset : ℕ}
  {bytes word word' : List β} {e : ℕ → ε}

theorem bind_eq_ok : m.bind f bytes offset = .ok (b, n) ↔ ∃ a consumed consumed',
      m bytes offset = .ok (a, consumed) ∧ f a bytes (offset + consumed) = .ok (b, consumed') ∧
        n = consumed + consumed' := by
  rw [bind]
  rcases m bytes offset with e | ⟨a, consumed⟩
  · exact ⟨nofun, nofun⟩
  · rcases hf : f a bytes (offset + consumed) with _ | ⟨_, consumed'⟩
    · constructor
      · intro h
        simp only [Bind.bind, Except.bind, hf, reduceCtorEq] at h
      · rintro ⟨_, _, _, ⟨⟩, h, -⟩
        rw [hf] at h
        cases h
    · simp only [Bind.bind, Except.bind, hf, Except.ok.injEq, Prod.mk.injEq]
      constructor
      · rintro ⟨rfl, rfl⟩
        exact ⟨a, consumed, consumed', ⟨rfl, rfl⟩, hf, rfl⟩
      · rintro ⟨_, _, _, ⟨rfl, rfl⟩, h, rfl⟩
        rw [hf] at h
        injection h with h
        injection h with hval hcon
        exact ⟨hval, by rw [hcon]⟩

/-! ### What a cursor depends on -/

/-- The elements that a cursor consumes are all that it depends on, and they are there. -/
def Local (m : Cursor β ε α) : Prop :=
  ∀ ⦃bytes : List β⦄ ⦃offset : ℕ⦄ ⦃a : α⦄ ⦃consumed : ℕ⦄,
    m bytes offset = .ok (a, consumed) → consumed ≤ bytes.length - offset ∧
      ∀ ⦃bytes' : List β⦄ ⦃offset' : ℕ⦄, offset' ≤ bytes'.length →
        (bytes'.drop offset').take consumed = (bytes.drop offset).take consumed →
        m bytes' offset' = .ok (a, consumed)

theorem Local.pure : Local (pure a : Cursor β ε α) := by
  rintro _ _ _ _ ⟨⟩
  exact ⟨Nat.zero_le _, fun _ _ _ _ => rfl⟩

theorem Local.fail : Local (fail e : Cursor β ε α) := by
  intro _ _ _ _ h
  cases h

theorem length_slice (h : n ≤ bytes.length - offset) : ((bytes.drop offset).take n).length = n := by
  rw [length_take, length_drop]
  omega

/-- A buffer that has the same elements at an offset reaches as far. -/
theorem le_of_slice_eq {bytes' : List β} {offset' : ℕ} (h : n ≤ bytes.length - offset)
    (ho : offset' ≤ bytes'.length)
    (hslice : (bytes'.drop offset').take n = (bytes.drop offset).take n) :
    offset' + n ≤ bytes'.length := by
  have hlen := congrArg List.length hslice
  rw [length_slice h, length_take, length_drop] at hlen
  omega

theorem Local.take : Local (take n e : Cursor β ε (List β)) := by
  intro bytes offset _ _ h
  rw [Cursor.take] at h
  split_ifs at h with hle
  cases h
  have hle : n ≤ bytes.length - offset := by omega
  refine ⟨hle, fun _ _ ho' hslice => ?_⟩
  rw [Cursor.take, if_pos (le_of_slice_eq hle ho' hslice), hslice]

theorem Local.bind (hm : Local m) (hf : ∀ a, Local (f a)) : Local (m.bind f) := by
  intro bytes offset _ _ h
  obtain ⟨a, consumed, consumed', hfirst, hsecond, rfl⟩ := bind_eq_ok.1 h
  obtain ⟨hmid, hfirst'⟩ := hm hfirst
  obtain ⟨_, hsecond'⟩ := hf a hsecond
  refine ⟨by omega, fun bytes' offset' ho' hs => ?_⟩
  -- The slice of both is the slice of the first, and behind it that of the second.
  have hs₁ : (bytes'.drop offset').take consumed = (bytes.drop offset).take consumed := by
    have := congrArg (List.take consumed) hs
    simpa [take_take] using this
  have hs₂ : (bytes'.drop (offset' + consumed)).take consumed' =
      (bytes.drop (offset + consumed)).take consumed' := by
    have := congrArg (List.drop consumed) hs
    simpa [drop_take, drop_drop] using this
  have hmid' := le_of_slice_eq hmid ho' hs₁
  exact bind_eq_ok.2 ⟨a, consumed, consumed', hfirst' ho' hs₁, hsecond' hmid' hs₂, rfl⟩

variable {g : ε → ε'}

theorem mapError_eq_ok {r : α × ℕ} :
    m.mapError g bytes offset = .ok r ↔ m bytes offset = .ok r := by
  rw [mapError]
  cases m bytes offset <;> simp [Except.mapError]

theorem Local.mapError (hm : Local m) : Local (m.mapError g) := by
  intro _ _ _ _ h
  obtain ⟨hend, honly⟩ := hm (mapError_eq_ok.1 h)
  exact ⟨hend, fun _ _ ho' hslice => mapError_eq_ok.2 (honly ho' hslice)⟩

/-! ### What a cursor reads -/

/-- Wherever the word stands, the cursor consumes it and returns the value. -/
def Reads (m : Cursor β ε α) (word : List β) (a : α) : Prop :=
  ∀ before after, m (before ++ word ++ after) before.length = .ok (a, word.length)

theorem Reads.pure : Reads (pure a : Cursor β ε α) [] a := fun _ _ => rfl

theorem Reads.take : Reads (take word.length e : Cursor β ε (List β)) word word := by
  intro _ _
  rw [Cursor.take, if_pos (by simp), append_assoc, drop_left, take_left]

theorem Reads.bind (hm : Reads m word a) (hf : Reads (f a) word' b) :
    Reads (m.bind f) (word ++ word') b := by
  intro before after
  refine bind_eq_ok.2 ⟨a, word.length, word'.length, ?_, ?_, length_append⟩
  · have := hm before (word' ++ after)
    simpa [append_assoc] using this
  · have := hf (before ++ word) after
    simpa [append_assoc] using this

/-- `Reads.bind` for a word that is given as a whole. -/
theorem Reads.split {whole : List β} (hword : whole = word ++ word') (hm : Reads m word a)
    (hf : Reads (f a) word' b) : Reads (m.bind f) whole b :=
  hword ▸ hm.bind hf

theorem Reads.map {g : α → γ} (hm : Reads m word a) :
    Reads (m.bind fun a => .pure (g a)) word (g a) :=
  .split (append_nil word).symm hm .pure

/-- A check that consumes nothing. -/
theorem Reads.check (hm : Reads m [] a) (hf : Reads (f a) word b) : Reads (m.bind f) word b :=
  hm.bind hf

theorem Reads.mapError (hm : Reads m word a) : Reads (m.mapError g) word a :=
  fun before after => mapError_eq_ok.2 (hm before after)

end Cursor

end LogosInspector
