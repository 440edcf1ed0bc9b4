import LogosInspector.Result

/-!
# Computations that change a state and may fail

A function of the source that takes `&mut σ` and returns a `Result` changes the state as it goes;
when it fails, what it has changed stays changed, unless it puts it back. It is embedded here as a
`Mutation`: a function from the state to an answer or an error, and the state that is left.

Two ways to reason about one. What a run that returns has done is read off the definition by
`simp`, with a lemma for each construct (`Mutation.bind_ok_iff` and so on). What holds of the state
however the run ends is a relation `R` between the state before and the state after: a mutation
*keeps* `R`, and for a preorder `R` there is a rule for each construct (`Mutation.Keeps.bind` and so
on).
-/

namespace LogosInspector

/-- A computation that reads and changes a state of type `σ`, and may fail. -/
abbrev Mutation (σ α : Type) := EStateM String σ α

namespace Mutation

variable {σ τ α β : Type}

/-- The state that a run leaves. -/
def left : EStateM.Result String σ α → σ
  | .ok _ state => state
  | .error _ state => state

@[simp] theorem left_ok (a : α) (s : σ) : left (.ok a s : EStateM.Result String σ α) = s := rfl

/-- A computation that does not touch the state. -/
def ofExcept (x : Except String α) : Mutation σ α := fun s =>
  match x with
  | .ok a => .ok a s
  | .error e => .error e s

/-- Replace the state by what a computation makes of it, or leave it. -/
def attempt (f : σ → Except String σ) : Mutation σ Unit := fun s =>
  match f s with
  | .ok s' => .ok () s'
  | .error e => .error e s

/-- Run, and put the state back if that fails. -/
def restoring (m : Mutation σ α) : Mutation σ α := fun s =>
  match m s with
  | .ok a s' => .ok a s'
  | .error e _ => .error e s

/-- Run, and tidy up if that fails. -/
def onError (m : Mutation σ α) (tidy : σ → σ) : Mutation σ α := fun s =>
  match m s with
  | .ok a s' => .ok a s'
  | .error e s' => .error e (tidy s')

/-- Run, and go on in one way or another. -/
def handle (m : Mutation σ α) (failed : String → Mutation σ β) (returned : α → Mutation σ β) :
    Mutation σ β := fun s =>
  match m s with
  | .ok a s' => returned a s'
  | .error e s' => failed e s'

/-- Run on a part of the state. -/
def zoom (part : σ → τ) (put : σ → τ → σ) (m : Mutation τ α) : Mutation σ α := fun s =>
  match m (part s) with
  | .ok a t => .ok a (put s t)
  | .error e t => .error e (put s t)

/-- A step that can only be taken under a condition. -/
def enabled (p : Prop) [Decidable p] : Mutation σ Unit := if p then pure () else throw "not now"

/-! ### Runs that return -/

variable {m : Mutation σ α} {f : α → Mutation σ β} {s : σ} {a : α} {t : σ}

variable {failed : String → Mutation σ β} {returned : α → Mutation σ β}

section Returns

variable {s' : σ} {b : β}

@[simp] theorem pure_ok_iff {a' : α} : (pure a : Mutation σ α) s = .ok a' s' ↔ a = a' ∧ s = s' := by
  change EStateM.Result.ok a s = _ ↔ _
  simp

@[simp] theorem throw_eq_ok {e : String} : ¬ (throw e : Mutation σ α) s = .ok a s' := nofun

@[simp] theorem bind_ok_iff : (m >>= f) s = .ok b s' ↔ ∃ a t, m s = .ok a t ∧ f a t = .ok b s' := by
  change EStateM.bind m f s = _ ↔ _
  cases h : m s <;> simp [EStateM.bind, h]

variable {u : PUnit} {p : σ → Prop}

@[simp] theorem get_eq_ok : (get : Mutation σ σ) s = .ok t s' ↔ s = t ∧ s = s' := by
  change EStateM.Result.ok s s = _ ↔ _
  simp

@[simp] theorem set_eq_ok : (set t : Mutation σ PUnit) s = .ok u s' ↔ t = s' := by
  change EStateM.Result.ok PUnit.unit t = _ ↔ _
  simp

@[simp] theorem modify_eq_ok {g : σ → σ} :
    (modify g : Mutation σ PUnit) s = .ok u s' ↔ g s = s' := by
  change EStateM.Result.ok PUnit.unit (g s) = _ ↔ _
  simp

@[simp] theorem ofExcept_eq_ok {x : Except String α} :
    (ofExcept x : Mutation σ α) s = .ok a s' ↔ x = .ok a ∧ s = s' := by
  cases x <;> simp [ofExcept]

@[simp] theorem attempt_eq_ok {g : σ → Except String σ} {u : Unit} :
    attempt g s = .ok u s' ↔ g s = .ok s' := by
  cases h : g s <;> simp [attempt, h]

@[simp] theorem restoring_eq_ok : restoring m s = .ok a s' ↔ m s = .ok a s' := by
  cases h : m s <;> simp [restoring, h]

@[simp] theorem onError_eq_ok {tidy : σ → σ} : onError m tidy s = .ok a s' ↔ m s = .ok a s' := by
  cases h : m s <;> simp [onError, h]

@[simp] theorem zoom_eq_ok {part : σ → τ} {put : σ → τ → σ} {n : Mutation τ α} :
    zoom part put n s = .ok a s' ↔ ∃ t, n (part s) = .ok a t ∧ put s t = s' := by
  cases h : n (part s) <;> simp [zoom, h]

@[simp] theorem enabled_eq_ok {p : Prop} [Decidable p] {u : Unit} :
    (enabled p : Mutation σ Unit) s = .ok u s' ↔ p ∧ s = s' := by
  unfold enabled
  split_ifs with h <;> simp [h]

theorem get_bind {f : σ → Mutation σ β} : ((get : Mutation σ σ) >>= f) s = f s s := rfl

theorem enabled_set_eq_ok {p : Prop} [Decidable p] :
    (do enabled p; set t : Mutation σ PUnit) s = .ok u s' ↔ p ∧ t = s' := by
  simp only [bind_ok_iff, enabled_eq_ok, set_eq_ok]
  exact ⟨fun ⟨_, _, ⟨hp, _⟩, hset⟩ => ⟨hp, hset⟩, fun ⟨hp, hset⟩ => ⟨(), s, ⟨hp, rfl⟩, hset⟩⟩

/-- A step that looks at the state, and can only be taken under a condition. -/
theorem guarded_eq_ok [DecidablePred p] {f : σ → Mutation σ β} :
    (do let s ← get; enabled (p s); f s : Mutation σ β) s = .ok b s' ↔ p s ∧ f s s = .ok b s' := by
  simp only [get_bind, bind_ok_iff, enabled_eq_ok]
  exact ⟨fun ⟨_, _, ⟨hp, heq⟩, hf⟩ => ⟨hp, heq ▸ hf⟩, fun ⟨hp, hf⟩ => ⟨(), s, ⟨hp, rfl⟩, hf⟩⟩

theorem guarded_set_eq_ok [DecidablePred p] {f : σ → σ} :
    (do let s ← get; enabled (p s); set (f s) : Mutation σ PUnit) s = .ok u s' ↔
      p s ∧ f s = s' := by
  rw [guarded_eq_ok, set_eq_ok]

theorem handle_eq_ok :
    handle m failed returned s = .ok b s' ↔ (∃ a t, m s = .ok a t ∧ returned a t = .ok b s') ∨
        ∃ e t, m s = .error e t ∧ failed e t = .ok b s' := by
  cases h : m s <;> simp [handle, h]

/-- Whether a run returns and leaves a state that passes a test. -/
def succeedsWith (p : σ → Bool) (m : Mutation σ α) (s : σ) : Bool :=
  match m s with
  | .ok _ s' => p s'
  | .error .. => false

theorem exists_of_succeedsWith {p : σ → Bool} {m : Mutation σ Unit}
    (h : succeedsWith p m s = true) : ∃ s', m s = .ok () s' ∧ p s' = true := by
  unfold succeedsWith at h
  cases hm : m s with rw [hm] at h
  | ok _ s' => exact ⟨s', rfl, h⟩
  | error _ _ => cases h

/-- A computation that fails, and leaves a state with a property. -/
def failsWith (p : σ → Bool) (m : Mutation σ α) (s : σ) : Bool :=
  match m s with
  | .ok .. => false
  | .error _ s' => p s'

theorem exists_of_failsWith {p : σ → Bool}
    (h : failsWith p m s = true) : ∃ e s', m s = .error e s' ∧ p s' = true := by
  unfold failsWith at h
  cases hm : m s with rw [hm] at h
  | ok _ _ => cases h
  | error e s' => exact ⟨e, s', rfl, h⟩

end Returns

/-! ### Runs step by step -/

variable {e : String}

section Steps

theorem bind_of_ok (h : m s = .ok a t) : (m >>= f) s = f a t := by
  change EStateM.bind m f s = _
  simp [EStateM.bind, h]

theorem bind_of_error (h : m s = .error e t) : (m >>= f) s = .error e t := by
  change EStateM.bind m f s = _
  simp [EStateM.bind, h]

/-- Leaving the answer out leaves the same state. -/
theorem left_discard : left ((m >>= fun _ => pure ()) s) = left (m s) := by
  cases h : m s with
  | ok _ _ => rw [bind_of_ok h]; rfl
  | error _ _ => rw [bind_of_error h]; rfl

variable {x : Except String α} {failed : String → Mutation σ β} {returned : α → Mutation σ β}
  {tidy : σ → σ}

theorem ofExcept_of_ok (h : x = .ok a) : (ofExcept x : Mutation σ α) s = .ok a s := by
  rw [h]
  rfl

theorem ofExcept_of_error (h : x = .error e) : (ofExcept x : Mutation σ α) s = .error e s := by
  rw [h]
  rfl

theorem handle_of_ok (h : m s = .ok a t) : handle m failed returned s = returned a t := by
  unfold handle
  rw [h]

theorem handle_of_error (h : m s = .error e t) : handle m failed returned s = failed e t := by
  unfold handle
  rw [h]

theorem onError_of_ok (h : m s = .ok a t) : onError m tidy s = .ok a t := by
  unfold onError
  rw [h]

theorem onError_of_error (h : m s = .error e t) : onError m tidy s = .error e (tidy t) := by
  unfold onError
  rw [h]

/-- A run that puts the state back fails where it began. -/
theorem restoring_error (h : restoring m s = .error e t) : t = s := by
  unfold restoring at h
  cases hm : m s with
  | ok _ _ => simp [hm] at h
  | error _ _ =>
    simp only [hm] at h
    cases h
    rfl

theorem attempt_error {g : σ → Except String σ} (h : attempt g s = .error e t) : t = s := by
  unfold attempt at h
  cases hg : g s with
  | ok _ => simp [hg] at h
  | error _ =>
    simp only [hg] at h
    cases h
    rfl

end Steps

/-! ### What holds however a run ends -/

/-- However a run from `s` ends, the state that it leaves is related to `s`. -/
def KeepsAt (R : σ → σ → Prop) (s : σ) (m : Mutation σ α) : Prop := R s (left (m s))

/-- However a run ends, the state before and the state after are related. -/
def Keeps (R : σ → σ → Prop) (m : Mutation σ α) : Prop := ∀ s, KeepsAt R s m

section KeepsAt

variable {R : σ → σ → Prop}

theorem KeepsAt.of_result (hok : ∀ a t, m s = .ok a t → R s t)
    (herr : ∀ e t, m s = .error e t → R s t) : KeepsAt R s m := by
  unfold KeepsAt
  cases h : m s with
  | ok a t => exact hok a t h
  | error e t => exact herr e t h

theorem KeepsAt.of_ok (h : KeepsAt R s m) (hm : m s = .ok a t) : R s t := by
  unfold KeepsAt at h
  rwa [hm] at h

theorem KeepsAt.of_error (h : KeepsAt R s m) (hm : m s = .error e t) : R s t := by
  unfold KeepsAt at h
  rwa [hm] at h

theorem bind_eq_error {s' : σ} : (m >>= f) s = .error e s' ↔
      m s = .error e s' ∨ ∃ a t, m s = .ok a t ∧ f a t = .error e s' := by
  change EStateM.bind m f s = _ ↔ _
  cases h : m s <;> simp [EStateM.bind, h]

theorem KeepsAt.bind [IsTrans σ R] (hm : KeepsAt R s m)
    (hf : ∀ a t, m s = .ok a t → KeepsAt R t (f a)) : KeepsAt R s (m >>= f) := by
  refine .of_result (fun _ u h => ?_) fun _ _ h => ?_
  · obtain ⟨a, t, hmt, hft⟩ := bind_ok_iff.1 h
    exact IsTrans.trans _ _ _ (hm.of_ok hmt) ((hf a t hmt).of_ok hft)
  · rcases bind_eq_error.1 h with hmu | ⟨a, t, hmt, hft⟩
    · exact hm.of_error hmu
    · exact IsTrans.trans _ _ _ (hm.of_ok hmt) ((hf a t hmt).of_error hft)

/-- A run that may not be possible now. -/
theorem KeepsAt.enabled_bind [Std.Refl R] {p : Prop} [Decidable p] (h : KeepsAt R s m) :
    KeepsAt R s (enabled p >>= fun _ => m) := by
  by_cases hp : p
  · have he : (enabled p : Mutation σ Unit) s = .ok () s := enabled_eq_ok.2 ⟨hp, rfl⟩
    unfold KeepsAt
    rw [bind_of_ok he]
    exact h
  · have he : (enabled p : Mutation σ Unit) s = .error "not now" s := by
      rw [enabled, if_neg hp]
      rfl
    unfold KeepsAt
    rw [bind_of_error he]
    exact Std.Refl.refl s

theorem KeepsAt.handle [IsTrans σ R] (hm : KeepsAt R s m)
    (hfail : ∀ e t, m s = .error e t → KeepsAt R t (failed e))
    (hret : ∀ a t, m s = .ok a t → KeepsAt R t (returned a)) :
    KeepsAt R s (handle m failed returned) := by
  have hleft : ∀ t, R s t → R t (left (Mutation.handle m failed returned s)) →
      KeepsAt R s (Mutation.handle m failed returned) := fun t => IsTrans.trans _ t _
  cases h : m s with
  | ok a t =>
    refine hleft t (hm.of_ok h) ?_
    simp only [Mutation.handle, h]
    exact hret a t h
  | error e t =>
    refine hleft t (hm.of_error h) ?_
    simp only [Mutation.handle, h]
    exact hfail e t h

theorem KeepsAt.onError {tidy : σ → σ} (hm : KeepsAt R s m)
    (htidy : ∀ t, R s t → R s (tidy t)) : KeepsAt R s (onError m tidy) := by
  refine .of_result (fun _ s' h => hm.of_ok (onError_eq_ok.1 h)) fun _ _ h => ?_
  cases hms : m s with
  | ok _ _ => simp [Mutation.onError, hms] at h
  | error _ t =>
    simp only [Mutation.onError, hms] at h
    cases h
    exact htidy t (hm.of_error hms)

theorem KeepsAt.zoom {R' : τ → τ → Prop} {part : σ → τ} {put : σ → τ → σ} {n : Mutation τ α}
    (hn : KeepsAt R' (part s) n) (hput : ∀ t, R' (part s) t → R s (put s t)) :
    KeepsAt R s (zoom part put n) := by
  refine .of_result (fun _ s' h => ?_) fun _ _ h => ?_
  · obtain ⟨t, hnt, rfl⟩ := zoom_eq_ok.1 h
    exact hput t (hn.of_ok hnt)
  · cases hns : n (part s) with
    | ok _ _ => simp [Mutation.zoom, hns] at h
    | error _ t =>
      simp only [Mutation.zoom, hns] at h
      cases h
      exact hput t (hn.of_error hns)

end KeepsAt

section Part

variable {R : τ → τ → Prop} [Std.Refl R] {part : σ → τ}

/-- What leaves a part of the state alone. -/
theorem keeps_set (h : part t = part s) : KeepsAt (Order.Preimage part R) s (set t) := by
  have hleft : R (part s) (part t) := by
    rw [h]
    exact Std.Refl.refl _
  exact hleft

theorem keeps_modify {change : σ → σ} (h : part (change s) = part s) :
    KeepsAt (Order.Preimage part R) s (modify change) :=
  keeps_set h

end Part

namespace Keeps

variable {R : σ → σ → Prop}

theorem bind [IsTrans σ R] (hm : Keeps R m) (hf : ∀ a, Keeps R (f a)) : Keeps R (m >>= f) :=
  fun s => .bind (hm s) fun a t _ => hf a t

/-- A run that begins by reading the state. -/
theorem get_bind {g : σ → Mutation σ β} (hg : ∀ s, KeepsAt R s (g s)) : Keeps R (get >>= g) := hg

theorem modify {g : σ → σ} (hg : ∀ s, R s (g s)) : Keeps R (modify g : Mutation σ PUnit) := hg

theorem attempt [Std.Refl R] {g : σ → Except String σ} (hg : ∀ s t, g s = .ok t → R s t) :
    Keeps R (attempt g) := by
  refine fun s => .of_result (fun _ t h => hg s t (attempt_eq_ok.1 h)) fun _ _ h => ?_
  cases hgs : g s with
  | ok _ => simp [Mutation.attempt, hgs] at h
  | error _ =>
    simp only [Mutation.attempt, hgs] at h
    cases h
    exact Std.Refl.refl s

theorem pure [Std.Refl R] (a : α) : Keeps R (Pure.pure a : Mutation σ α) := fun s =>
  Std.Refl.refl s

theorem throw [Std.Refl R] (e : String) : Keeps R (MonadExcept.throw e : Mutation σ α) := fun s =>
  Std.Refl.refl s

theorem ofExcept [Std.Refl R] (x : Except String α) : Keeps R (ofExcept x : Mutation σ α) := by
  intro s
  cases x <;> exact Std.Refl.refl s

/-- A run that puts the state back keeps what it does when it returns. -/
theorem restoring [Std.Refl R] (hm : ∀ s a t, m s = .ok a t → R s t) : Keeps R (restoring m) := by
  refine fun s => .of_result (fun a t h => hm s a t (restoring_eq_ok.1 h)) fun _ _ h => ?_
  cases hms : m s with
  | ok _ _ => simp [Mutation.restoring, hms] at h
  | error _ _ =>
    simp only [Mutation.restoring, hms] at h
    cases h
    exact Std.Refl.refl s

variable {g : β → Mutation σ PUnit}

theorem forM [Std.Refl R] [IsTrans σ R] {l : List β}
    (hg : ∀ b ∈ l, Keeps R (g b)) : Keeps R (l.forM g) := by
  induction l with
  | nil => exact pure _
  | cons b _ ih =>
    rw [List.forM_eq_forM, List.forM_cons]
    exact bind (hg b List.mem_cons_self) fun _ => ih fun b hb => hg b (List.mem_cons_of_mem _ hb)

theorem optionForM [Std.Refl R] [IsTrans σ R] {o : Option β}
    (hg : ∀ b, Keeps R (g b)) : Keeps R (o.forM g) := by
  cases o with
  | none => exact pure _
  | some b => exact hg b

end Keeps

end Mutation

end LogosInspector
