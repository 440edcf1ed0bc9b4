import LogosInspector.Operations.BackupImport

/-!
# How the registry is used

The supervisor and the imports change the registry only by its calls. What every call keeps is
therefore kept by whatever they do (`Supervisor.keeps_perform`), and inserting is done in one place.
-/

namespace LogosInspector.Operations

open Mutation

variable {ext : OperationExternals}

/-- **A relation between registries that every call keeps** which does not insert. -/
structure KeptByCalls (R : RegistryState ext → RegistryState ext → Prop) : Prop where
  transition : ∀ readings operationId change,
    Mutation.Keeps R (transition readings operationId change)
  ingest : ∀ readings event, Mutation.Keeps R (ingestModuleEventWithSettlement readings event)
  inspect : ∀ readings, Mutation.Keeps R (inspect readings)
  remove : ∀ operationId, Mutation.Keeps R (remove operationId)

namespace Supervisor

/-- The registries of two states are related. -/
abbrev OnRegistry (R : RegistryState ext → RegistryState ext → Prop) :
    Supervisor ext → Supervisor ext → Prop :=
  Order.Preimage Supervisor.registry R

variable {R : RegistryState ext → RegistryState ext → Prop} {s : Supervisor ext}

theorem keeps_onRegistry {α : Type} {m : Mutation (RegistryState ext) α} (h : Keeps R m) :
    Keeps (OnRegistry R) (onRegistry m) :=
  fun s => .zoom (h s.registry) fun _ hr => hr

/-- A call of the registry, and what is done then. -/
theorem keeps_call [IsTrans _ R] {α β : Type} {m : Mutation (RegistryState ext) α}
    {f : α → Mutation (Supervisor ext) β} (hm : Keeps R m)
    (hf : ∀ a s, KeepsAt (OnRegistry R) s (f a)) :
    KeepsAt (OnRegistry R) s (onRegistry m >>= f) :=
  .bind (keeps_onRegistry hm s) fun a t _ => hf a t

/-- An action that looks at the state, and may not be possible now. -/
theorem keeps_guarded [Std.Refl R] {p : Supervisor ext → Prop} [DecidablePred p]
    {g : Supervisor ext → Mutation (Supervisor ext) Unit}
    (h : ∀ s, KeepsAt (OnRegistry R) s (g s)) :
    Keeps (OnRegistry R) (do
      let s ← get
      Mutation.enabled (p s)
      g s) :=
  .get_bind fun s => .enabled_bind (h s)

theorem spawnOperationTask_registry (s : Supervisor ext) (d : TaskDescriptor) :
    (s.spawnOperationTask d).registry = s.registry := by
  unfold spawnOperationTask
  split_ifs <;> rfl

variable [Std.Refl R] [IsTrans _ R] (hR : KeptByCalls R)

include hR

theorem keeps_reduce (readings : Readings ext) (cleanupError : Option Text) :
    Keeps (OnRegistry R) (reduce readings cleanupError) := by
  refine .get_bind fun s => ?_
  cases s.reduction with
  | none => exact Keeps.throw _ s
  | some reduction =>
    cases reduction with
    | awaitingIdle | cleaning => exact .enabled_bind (keeps_set rfl)
    | ending =>
      exact keeps_call (hR.transition _ _ _) fun _ _ => keeps_modify rfl
    | exiting exit d =>
      dsimp only
      cases exitTransition exit d with
      | error _ => exact keeps_set rfl
      | ok _ =>
        refine .bind (Keeps.optionForM (fun _ => ?_) s) fun _ _ _ => keeps_modify rfl
        exact fun s => keeps_call (hR.transition _ _ _) fun _ s => Keeps.pure _ s
    | reading _ d =>
      refine keeps_call (hR.inspect _) fun records _ => ?_
      cases records.find? d.operationId with
      | none | some _ => exact keeps_modify rfl
    | respawning => exact keeps_set (spawnOperationTask_registry _ _)
    | finishing | drained => exact keeps_set rfl

theorem keeps_recover (readings : Readings ext) (op : Text) (cleanupError : Option Text)
    (error : Text) : Keeps (OnRegistry R) (recover readings op cleanupError error) := by
  refine .get_bind fun s => ?_
  cases s.recovery with
  | waiting | finished => exact Keeps.throw _ s
  | closing | aborting | draining => exact keeps_set rfl
  | awaitingIdle => exact .enabled_bind (keeps_set rfl)
  | classifying _ operations =>
    dsimp only
    by_cases hempty : operations = ∅
    · rw [if_pos hempty]
      exact keeps_set rfl
    · rw [if_neg hempty]
      refine .enabled_bind ?_
      exact keeps_call (hR.transition _ _ _) fun _ _ => keeps_modify rfl

/-- **Whatever is done to the operations apart from starting one** keeps what the calls keep. -/
theorem keeps_perform (action : Action ext) (hfree : ImportSystem.isFree action = true) :
    Keeps (OnRegistry R) action.perform := by
  cases action with
  | prepare | insertRecord => cases hfree
  | startRecord =>
    exact keeps_guarded fun s => keeps_call (hR.transition _ _ _) fun _ _ => keeps_modify rfl
  | admitOperation =>
    refine keeps_guarded fun s => ?_
    split_ifs <;> exact keeps_set rfl
  | synchronizeAdmittedControl _ op =>
    refine keeps_guarded fun s => ?_
    split_ifs
    · exact keeps_set rfl
    · refine keeps_call (hR.inspect _) fun records s => ?_
      cases records.find? op with
      | none => exact keeps_modify rfl
      | some _ =>
        dsimp only
        split_ifs
        · exact .bind (keeps_modify rfl) fun _ _ _ => keeps_modify rfl
        · exact keeps_modify rfl
    · exact keeps_set rfl
  | removeRecord =>
    exact keeps_guarded fun s => keeps_call (hR.remove _) fun _ _ => keeps_modify rfl
  | requestCancel =>
    refine fun s => keeps_call (hR.transition _ _ _) fun _ s => keeps_modify ?_
    split_ifs <;> rfl
  | reduceModuleEvent =>
    refine fun s => keeps_call (hR.ingest _ _) fun answer s => keeps_modify ?_
    obtain ⟨result, settled⟩ := answer
    cases settled <;> rfl
  | inspectRegistry => exact .bind (keeps_onRegistry (hR.inspect _)) fun _ => .pure _
  | reportProgress =>
    exact keeps_guarded fun s => keeps_call (hR.transition _ _ _) fun _ s => Keeps.pure _ s
  | drainPendingAdmission =>
    refine keeps_guarded fun s => ?_
    cases s.commands with
    | nil => exact Keeps.throw _ s
    | cons _ _ =>
      exact keeps_call (hR.transition _ _ _) fun _ _ => keeps_modify rfl
  | reduce readings cleanupError => exact keeps_reduce hR readings cleanupError
  | recover readings op cleanupError error =>
    exact keeps_recover hR readings op cleanupError error
  | launchCommand =>
    refine keeps_guarded fun s => ?_
    cases s.commands with
    | nil => exact Keeps.throw _ s
    | cons _ _ => exact keeps_set (spawnOperationTask_registry _ _)
  | exitTask _ joined =>
    refine .get_bind fun s => ?_
    refine .bind (Keeps.ofExcept _ s) fun task t htask => ?_
    obtain ⟨-, rfl⟩ := ofExcept_eq_ok.1 htask
    refine .enabled_bind ?_
    rcases joined with _ | ⟨_, _⟩ | ⟨_, _⟩
    · exact keeps_set rfl
    · exact .enabled_bind (keeps_set rfl)
    · exact .enabled_bind (keeps_set rfl)
  | joinTask taskId =>
    refine keeps_guarded fun s => ?_
    refine .bind (Keeps.ofExcept _ s) fun _ t htask => ?_
    obtain ⟨-, rfl⟩ := ofExcept_eq_ok.1 htask
    refine .bind (Keeps.ofExcept _ s) fun _ _ hjoin => ?_
    obtain ⟨-, rfl⟩ := ofExcept_eq_ok.1 hjoin
    dsimp only
    cases s.descriptors.find? taskId with
    | none => exact keeps_set rfl
    | some _ =>
      dsimp only
      split_ifs <;> exact keeps_set rfl
  | watchSupervisor =>
    refine keeps_guarded fun s => ?_
    cases s.reducer with
    | exited =>
      refine keeps_set ?_
      split_ifs <;> rfl
    | _ => exact Keeps.throw _ s
  | drainController =>
    refine keeps_guarded fun s => ?_
    split_ifs
    · exact keeps_set rfl
    · exact .enabled_bind (keeps_set rfl)
  | cancel | settle =>
    refine keeps_guarded fun s => keeps_set ?_
    split_ifs <;> rfl
  | _ => exact keeps_guarded fun _ => keeps_set rfl

omit hR [IsTrans _ R] in
theorem keeps_prepare (op : Text) (disposableFile : Bool) :
    Keeps (OnRegistry R) (prepare op disposableFile) :=
  keeps_guarded fun _ => keeps_set rfl

omit hR [IsTrans _ R] in
/-- A record is inserted or, if it cannot be, the operation is let go of. -/
theorem keeps_insertRecord {readings : Readings ext} {op : Text}
    {req : RuntimeOperationRequest ext} {now : ℕ}
    (hi : Keeps R (Operations.insert readings (runningRuntimeOperationRecord op req now))) :
    Keeps (OnRegistry R) (insertRecord readings op req now) := by
  refine keeps_guarded fun s => ?_
  have hkept := hi s.registry
  unfold KeepsAt at hkept
  cases hres : Operations.insert readings (runningRuntimeOperationRecord op req now) s.registry with
  | ok _ _ | error _ _ =>
    rw [hres] at hkept
    exact hkept

end Supervisor

namespace ImportSystem

/-- The registries of two states are related. -/
abbrev OnRegistry (R : RegistryState ext → RegistryState ext → Prop) :
    ImportSystem ext → ImportSystem ext → Prop :=
  Order.Preimage (·.operations.registry) R

variable {R : RegistryState ext → RegistryState ext → Prop} {s : ImportSystem ext}

theorem keeps_onOperations {α : Type} {m : Mutation (Supervisor ext) α}
    (h : Keeps (Supervisor.OnRegistry R) m) :
    Keeps (OnRegistry R) (onOperations m) :=
  fun s => .zoom (h s.operations) fun _ ho => ho

variable [Std.Refl R]

theorem setStart_registry (s : ImportSystem ext) (start : Option (StartCall ext)) (who : Option ℕ) :
    (s.setStart start who).operations.registry = s.operations.registry := by
  unfold setStart
  split
  · rfl
  · split
    · rfl
    · split <;> rfl

theorem keeps_requireRecovery (call : ImportCall ext) (transactionId : Option Text) :
    Keeps (OnRegistry R) (requireRecovery call transactionId) := by
  refine .get_bind fun s => .enabled_bind (keeps_set ?_)
  split_ifs
  · cases s.gate <;> rfl
  · rfl

variable [IsTrans _ R]

/-- An action of a call. -/
theorem keeps_callOf {key : ℕ} {f : ImportCall ext → Mutation (ImportSystem ext) Unit}
    (h : ∀ call s, KeepsAt (OnRegistry R) s (f call)) :
    Keeps (OnRegistry R) (callOf key >>= f) := by
  refine .bind (.get_bind fun s => Keeps.ofExcept _ s) h

theorem keeps_waitUntilTerminal (hR : KeptByCalls R) {readings : Readings ext}
    {call : ImportCall ext} {op : Text} {timedOut : Bool}
    {settled : OperationStatus → ImportCall ext} {late : Mutation (ImportSystem ext) Unit}
    (hlate : ∀ t, KeepsAt (OnRegistry R) t late) :
    KeepsAt (OnRegistry R) s (waitUntilTerminal readings call op timedOut settled late) := by
  refine .handle (keeps_onOperations (Supervisor.keeps_onRegistry (hR.inspect _)) s)
    (fun _ t _ => keeps_requireRecovery _ _ t) fun records t _ => ?_
  cases records.find? op with
  | none => exact keeps_requireRecovery _ _ t
  | some _ =>
    dsimp only
    split_ifs
    · exact keeps_modify rfl
    · exact hlate t
    · exact Keeps.pure _ t

/-- **Whatever is done** keeps what the calls of the registry keep. -/
theorem keeps_perform (hR : KeptByCalls R) (hi : ∀ readings op req now, Keeps R
        (Operations.insert readings (runningRuntimeOperationRecord op req now)))
    (catalogue : OperationCatalogue ext) (action : Action ext) :
    Keeps (OnRegistry R) (action.perform catalogue) := by
  cases action with
  | operate action =>
    intro s
    by_cases hfree : isFree action = true
    · exact .enabled_bind (keeps_onOperations (Supervisor.keeps_perform hR action hfree) s)
    · have hnev : (Action.operate action).perform catalogue s = .error "not now" s := by
        refine bind_of_error ?_
        rw [Mutation.enabled, if_neg hfree]
        rfl
      unfold KeepsAt
      rw [hnev]
      exact Std.Refl.refl s
  | operationPermit =>
    refine .get_bind fun s => .enabled_bind ?_
    split_ifs
    · exact Keeps.throw _ s
    · exact Keeps.throw _ s
    · exact keeps_set rfl
  | prepare =>
    refine .get_bind fun s => ?_
    split
    · exact .bind (keeps_onOperations (Supervisor.keeps_prepare _ _) s) fun _ _ _ =>
        keeps_modify (setStart_registry _ _ _)
    · exact Keeps.throw _ s
  | insertRecord =>
    refine .get_bind fun s => ?_
    split
    · exact .enabled_bind (keeps_onOperations (Supervisor.keeps_insertRecord (hi _ _ _ _)) s)
    · exact Keeps.throw _ s
  | endStart =>
    refine .get_bind fun s => ?_
    split
    · exact Keeps.throw _ s
    · exact .enabled_bind (keeps_set (setStart_registry _ _ _))
  | acquire =>
    refine .get_bind fun s => .enabled_bind ?_
    cases s.gate with
    | idle => exact keeps_set rfl
    | _ => exact Keeps.throw _ s
  | allocateImportId =>
    refine keeps_callOf fun call s => ?_
    split
    · refine keeps_modify ?_
      split_ifs <;> rfl
    · exact Keeps.throw _ s
  | preview | restart | unwind =>
    refine keeps_callOf fun call s => ?_
    split
    all_goals first
      | exact keeps_modify rfl
      | exact Keeps.throw _ s
  | plan =>
    refine keeps_callOf fun call s => ?_
    split
    · exact keeps_modify rfl
    · exact .handle (keeps_onOperations (Supervisor.keeps_onRegistry (hR.inspect _)) s)
        (fun _ _ _ => keeps_modify rfl) fun _ _ _ => keeps_modify rfl
    · exact Keeps.throw _ s
  | requestStop =>
    refine keeps_callOf fun call s => ?_
    split
    · exact keeps_modify rfl
    · refine .handle (keeps_onOperations (Supervisor.keeps_onRegistry (hR.transition _ _ _)) s)
        (fun _ t _ => keeps_requireRecovery _ _ t) fun _ t _ => keeps_modify ?_
      change Supervisor.registry (if _ then _ else _) = _
      split_ifs <;> rfl
    · exact Keeps.throw _ s
  | poll =>
    refine keeps_callOf fun call s => ?_
    split
    · exact keeps_modify rfl
    · exact keeps_modify rfl
    · exact keeps_waitUntilTerminal hR fun _ => keeps_modify rfl
    · exact keeps_modify rfl
    · exact keeps_waitUntilTerminal hR fun t => keeps_requireRecovery _ _ t
    · exact Keeps.throw _ s
  | restore =>
    refine keeps_callOf fun call s => ?_
    split
    · split
      · split_ifs
        · exact keeps_modify rfl
        · exact keeps_requireRecovery _ _ s
      · exact keeps_requireRecovery _ _ s
      · exact keeps_modify rfl
    · exact Keeps.throw _ s
  | drop =>
    refine keeps_callOf fun _ s => ?_
    split
    · split_ifs
      · exact keeps_modify rfl
      · exact Keeps.get_bind (fun _ => .enabled_bind (keeps_modify rfl)) s
    · exact Keeps.throw _ s
  | beginClose => exact .get_bind fun _ => .enabled_bind (keeps_set rfl)

end ImportSystem

end LogosInspector.Operations
