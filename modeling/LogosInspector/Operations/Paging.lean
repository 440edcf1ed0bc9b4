import LogosInspector.Operations.Settlement

/-!
# Paging through the history of an operation

A client asks for the events after a cursor (`RuntimeOperationRegistry.events`). It gets the events
that are kept and come after the cursor or, if some that come after it are gone or if the cursor has
not been given out yet, all that are kept, and is told to start again.

What the history keeps is the end of a *log* of all events that were ever added to it, and the
cursors of the log are `1`, `2`, `3` and so on (`Paged`). Everything said of pages follows from
this. The log is not kept anywhere: `Recorded` says which events were added between two records of
an operation.
-/

namespace LogosInspector.Operations

open Mutation List
open RegistryState (initial)

section Paging

variable {ext : OperationExternals} {r r' : RuntimeOperationRecord ext}
  {log new : List (RuntimeOperationEvent ext)}

/-! ### Pages -/

/-- What a client gets that asks for events. -/
structure EventsPage (ext : OperationExternals) where
  operation : RuntimeOperationRecord ext
  events : List (RuntimeOperationEvent ext)
  oldestSeq : ℕ
  nextSeq : ℕ
  eventCursor : ℕ
  droppedCount : ℕ
  coalescedCount : ℕ
  retainedCount : ℕ
  retainedBytes : ℕ
  historyTruncated : Bool
  resetRequired : Bool

def oldestRetainedEventCursor (record : RuntimeOperationRecord ext) : ℕ :=
  (record.events.head?.map (·.cursor)).getD record.nextEventCursor

/-- The page of a record after a cursor. -/
def eventsPage (record : RuntimeOperationRecord ext) (after : ℕ) : EventsPage ext :=
  let oldest := oldestRetainedEventCursor record
  let next := record.nextEventCursor
  -- the cursor that follows may not be representable
  let stale := decide (2 ^ 64 ≤ after + 1 ∨ after + 1 < oldest)
  let future := decide (next ≤ after)
  let resetRequired := stale || future
  { operation := record
    events := record.events.filter fun event => resetRequired || after < event.cursor
    oldestSeq := oldest
    nextSeq := next
    eventCursor := record.operation.eventCursor
    droppedCount := record.droppedEventCount
    coalescedCount := record.coalescedEventCount
    retainedCount := record.events.length
    retainedBytes := record.retainedEventBytes
    historyTruncated := record.historyTruncated
    resetRequired }

/-- Ask for the events of an operation. Like every look at the registry this sweeps it first. -/
def events (readings : Readings ext) (operationId : Text) (after : ℕ) :
    Mutation (RegistryState ext) (EventsPage ext) := do
  let records ← inspect readings
  match records.find? operationId with
  | none => throw ("runtime operation \x60" ++ String.ofList operationId ++ "\x60 was not found")
  | some record => pure (eventsPage record after)

/-! ### Logs -/

/-- The events that are added to a history while a record changes. -/
inductive Recorded : RuntimeOperationRecord ext → List (RuntimeOperationEvent ext) →
    RuntimeOperationRecord ext → Prop
  /-- The history stays as it is: nothing is added, or it is only counted. -/
  | same {record record' : RuntimeOperationRecord ext} (h : SameHistory record record') :
    Recorded record [] record'
  | append {record : RuntimeOperationRecord ext} {event : RuntimeOperationEvent ext}
    (h : record.Fits event) : Recorded record [event] (record.append event)
  | trans {record middle record' : RuntimeOperationRecord ext}
    {new new' : List (RuntimeOperationEvent ext)} (h : Recorded record new middle)
    (h' : Recorded middle new' record') : Recorded record (new ++ new') record'

variable {clock : WallClock ext} {phase : EventPhase} {message : String} {progress : Option ext.F64}
  {result : Option Json} {error : Option Text}

/-- Adding an event adds it to the log, unless it is coalesced with another or comes too late. -/
theorem pushEvent_recorded (h : pushEvent clock r phase message progress result error = .ok r') :
    ∃ new, Recorded r new r' := by
  rcases pushEvent_cases h with ⟨-, hs, -⟩ | ⟨event, -, hfits, rfl, -⟩
  · exact ⟨[], .same hs⟩
  · exact ⟨[event], .append hfits⟩

/-- **What a record keeps of a log.** -/
structure Paged (log : List (RuntimeOperationEvent ext)) (record : RuntimeOperationRecord ext) :
    Prop where
  retained : record.events <:+ log
  cursors : log.map (·.cursor) = List.range' 1 log.length
  next : record.nextEventCursor = log.length + 1
  wire : record.nextEventCursor ≤ maxWireEventCursor
  accounted : Accounted record

theorem Recorded.paged (h : Recorded r new r') (hpage : Paged log r) : Paged (log ++ new) r' := by
  induction h generalizing log with
  | same hs =>
    rw [append_nil]
    exact ⟨hs.events ▸ hpage.retained, hpage.cursors, hs.next.trans hpage.next,
      hs.next ▸ hpage.wire, hpage.accounted.same hs⟩
  | @append _ event hfits =>
    have hcur : event.cursor = log.length + 1 := hfits.cursor.trans hpage.next
    obtain ⟨hacc, _, hevs, hfront⟩ := append_events hpage.accounted hfits.bytes
    refine ⟨?_, ?_, ?_, ?_, hacc⟩
    · rw [hevs]
      obtain ⟨evicted, he⟩ := hfront.trans hpage.retained
      exact ⟨evicted, by rw [← append_assoc, he]⟩
    · rw [map_append, hpage.cursors, length_append, length_singleton,
        List.range'_1_concat, map_singleton, hcur, Nat.add_comm 1]
    · rw [length_append, length_singleton, ← hcur]
      rfl
    · show event.cursor + 1 ≤ maxWireEventCursor
      rw [hfits.cursor]
      exact hfits.wire
  | trans _ _ ih ih' =>
    rw [← append_assoc]
    exact ih' (ih hpage)

theorem running_paged (op : Text) (req : RuntimeOperationRequest ext) (now : ℕ) :
    Paged [] (runningRuntimeOperationRecord op req now) :=
  ⟨suffix_refl _, rfl, rfl, (by decide : 1 ≤ maxWireEventCursor), (running_sound _ _ _).accounted⟩

/-! ### What a page has -/

section Cursors

variable {front back evicted : List (RuntimeOperationEvent ext)}

/-- The cursors of two parts of a log. -/
theorem Paged.cursors_append (h : Paged (front ++ back) r) :
    front.map (·.cursor) = List.range' 1 front.length ∧
      back.map (·.cursor) = List.range' (1 + front.length) back.length := by
  have hcur := h.cursors
  rw [map_append, length_append, ← List.range'_append_1] at hcur
  exact append_inj hcur (by simp)

theorem Paged.cursor_front (h : Paged (front ++ back) r) :
    ∀ event ∈ front, event.cursor ≤ front.length := by
  intro _ hm
  have hcur := mem_range'_1.1 (h.cursors_append.1 ▸ mem_map_of_mem hm)
  omega

theorem Paged.cursor_back (h : Paged (front ++ back) r) :
    ∀ event ∈ back, front.length < event.cursor := by
  intro _ hm
  have hcur := mem_range'_1.1 (h.cursors_append.2 ▸ mem_map_of_mem hm)
  omega

/-- What is gone comes before what is kept. -/
theorem Paged.oldest (h : Paged (evicted ++ r.events) r) :
    oldestRetainedEventCursor r = evicted.length + 1 := by
  unfold oldestRetainedEventCursor
  have hnext := h.next
  have hkept := h.cursors_append.2
  cases hevs : r.events with
  | nil =>
    rw [hevs, append_nil] at hnext
    exact hnext
  | cons _ _ =>
    rw [hevs, length_cons, range'_succ, map_cons] at hkept
    exact (List.cons.inj hkept).1.trans (Nat.add_comm _ _)

/-- Some event after a cursor is gone exactly if the last one that is gone comes after it. -/
theorem Paged.gone_iff (h : Paged (evicted ++ r.events) r) (after : ℕ) :
    (∃ event ∈ evicted, after < event.cursor) ↔ after < evicted.length := by
  constructor
  · rintro ⟨event, hm, hafter⟩
    exact hafter.trans_le (h.cursor_front event hm)
  · intro hafter
    have hlast : evicted.length ∈ evicted.map (·.cursor) := by
      rw [h.cursors_append.1, mem_range'_1]
      omega
    obtain ⟨event, hm, hcur⟩ := mem_map.1 hlast
    exact ⟨event, hm, hcur ▸ hafter⟩

/-- **A page**: a client is told to start again exactly if some event after its cursor is gone or
the cursor has not been given out, and otherwise gets exactly the events after the cursor. -/
theorem Paged.page (h : Paged (evicted ++ r.events) r) (after : ℕ) :
    ((eventsPage r after).resetRequired = true ↔
      (∃ event ∈ evicted, after < event.cursor) ∨ r.nextEventCursor ≤ after) ∧
    ((eventsPage r after).resetRequired = false →
      (eventsPage r after).events = (evicted ++ r.events).filter (after < ·.cursor)) := by
  have hres : (eventsPage r after).resetRequired = true ↔
      (∃ event ∈ evicted, after < event.cursor) ∨ r.nextEventCursor ≤ after := by
    have hwire := h.wire
    simp only [eventsPage, h.oldest, h.gone_iff, Bool.or_eq_true, decide_eq_true_eq]
    unfold maxWireEventCursor at hwire
    omega
  refine ⟨hres, fun hno => ?_⟩
  -- what is gone does not come after the cursor
  have hb : evicted.filter (after < ·.cursor) = [] := by
    refine filter_eq_nil_iff.2 fun event hm hafter => ?_
    simp [hres.2 (.inl ⟨event, hm, of_decide_eq_true hafter⟩)] at hno
  rw [filter_append, hb, nil_append]
  show r.events.filter (fun event => (eventsPage r after).resetRequired ||
    decide (after < event.cursor)) = _
  rw [hno]
  rfl

end Cursors

/-! ### Runs -/

/-- The record of an operation after some events. -/
def Follows (record record' : RuntimeOperationRecord ext) : Prop :=
  record'.operation.operationId = record.operation.operationId ∧ ∃ new, Recorded record new record'

instance : Std.Refl (α := RuntimeOperationRecord ext) Follows :=
  ⟨fun _ => ⟨rfl, [], .same ⟨rfl, rfl, rfl⟩⟩⟩

instance : IsTrans (RuntimeOperationRecord ext) Follows := by
  refine ⟨fun _ _ _ h h' => ⟨h'.1.trans h.1, ?_⟩⟩
  obtain ⟨-, new, hnew⟩ := h
  obtain ⟨-, new', hnew'⟩ := h'
  exact ⟨new ++ new', hnew.trans hnew'⟩

theorem Follows.same (hid : r'.operation.operationId = r.operation.operationId)
    (h : SameHistory r r') : Follows r r' := ⟨hid, [], .same h⟩

theorem Follows.push (h : pushEvent clock r phase message progress result error = .ok r') :
    Follows r r' :=
  ⟨congrArg (·.operation.operationId) (pushEvent_essence h), pushEvent_recorded h⟩

theorem keptByEdits_follows : KeptByEdits clock Follows where
  push _ _ h := .push h
  report _ _ _ _ _ _ := .same rfl ⟨rfl, rfl, rfl⟩
  leave _ _ := .same rfl ⟨rfl, rfl, rfl⟩
  terminate {r _ status result error reason _ _ _} _ _ _ _ h :=
    IsTrans.trans _ (r.terminated status result error reason) _ (.same rfl ⟨rfl, rfl, rfl⟩)
      (.push h)

theorem follows_upheld :
    Upheld (fun _ _ => True) (Follows : _ → RuntimeOperationRecord ext → Prop) := by
  refine .of_edits (fun _ => keptByEdits_follows) (fun _ _ _ _ _ => .same rfl ⟨rfl, rfl, rfl⟩)
    (fun _ _ _ _ => .same rfl ⟨rfl, rfl, rfl⟩) (fun _ _ h => .push h) (fun _ _ => ?_)
    fun _ _ _ _ => .same rfl ⟨rfl, rfl, rfl⟩
  unfold RuntimeOperationRecord.purged
  split <;> exact .same rfl ⟨rfl, rfl, rfl⟩

/-- Every record of a registry has a log, which begins when the operation begins. -/
theorem run_recorded (calls : List (Readings ext × RegistryCall ext)) (hm : r ∈
    ((initial ext).run calls).records) : ∃ op req now log,
      Recorded (runningRuntimeOperationRecord op req now) log r := by
  have he : StateEvolves Follows (fun r => ∃ op req now,
      r = runningRuntimeOperationRecord op req now) (initial ext) _ :=
    run_evolves follows_upheld _ calls fun call _ => by
      cases call.2 <;> first | exact ⟨_, _, _, rfl⟩ | trivial
  obtain ⟨_, hstart | ⟨op, req, now, rfl⟩, -, log, hlog⟩ := he r hm
  · exact absurd hstart Table.not_mem_empty
  · exact ⟨op, req, now, log, hlog⟩

/-- What is asked for is looked up in the registry as it is after a look at it. -/
theorem events_eq_ok {readings : Readings ext} {op : Text} {after : ℕ} {page : EventsPage ext}
    {s s' : RegistryState ext} (h : events readings op after s = .ok page s') :
    s' = s.run [(readings, .inspect)] ∧ s'.records.find? op = some page.operation ∧
      page = eventsPage page.operation after := by
  obtain ⟨records, final, hi, h⟩ := bind_ok_iff.1 h
  have hrun : s.run [(readings, .inspect)] = final := by
    show left ((inspect readings >>= fun _ => pure ()) s) = final
    rw [left_discard, hi]
    rfl
  cases hf : records.find? op with rw [hf] at h
  | none => exact absurd h throw_eq_ok
  | some _ =>
    obtain ⟨rfl, rfl⟩ := pure_ok_iff.1 h
    exact ⟨hrun.symm, (congrArg (Table.find? · op) (inspect_records hi)).trans hf, rfl⟩

/-- **Paging through the history misses nothing.** A client asks for events, and after some more
calls asks again. At the first time there is a log that begins with the operation, at the second the
same with what is new: its cursors are consecutive, and what is kept is its end, within the limits.
The client is told to start again exactly if some event after its cursor is gone or the cursor has
not been given out, and otherwise gets the events after its cursor; if that is the last one that had
been given out at the first time, then exactly those that are new. -/
theorem event_paging_misses_nothing (history calls : List (Readings ext × RegistryCall ext))
    (operationId : Text) (hcalls : ∀ call ∈ calls, call.2.inserts operationId = false)
    {readings readings' : Readings ext} {before after : ℕ} {page page' : EventsPage ext}
    {state state' : RegistryState ext}
    (hpage : events readings operationId before ((initial ext).run history) = .ok page state)
    (hpage' : events readings' operationId after (state.run calls) = .ok page' state') :
    ∃ startId request now log new evicted,
      Recorded (runningRuntimeOperationRecord startId request now) log page.operation ∧
      Recorded page.operation new page'.operation ∧
      Paged log page.operation ∧ Paged (log ++ new) page'.operation ∧
      log ++ new = evicted ++ page'.operation.events ∧
      (page'.resetRequired = true ↔
        (∃ event ∈ evicted, after < event.cursor) ∨ page'.nextSeq ≤ after) ∧
      (page'.resetRequired = false → page'.events = (log ++ new).filter (after < ·.cursor) ∧
        (after + 1 = page.nextSeq → page'.events = new)) := by
  obtain ⟨hstate, hrecord, hshown⟩ := events_eq_ok hpage
  obtain ⟨rfl, hrecord', hshown'⟩ := events_eq_ok hpage'
  have hmem : page.operation ∈
      ((initial ext).run (history ++ [(readings, .inspect)])).records := by
    rw [show (initial ext).run (history ++ [(readings, .inspect)]) = state from
      (hstate.trans foldl_append.symm).symm]
    exact (Table.find?_eq_some.1 hrecord).1
  have hlater : (state.run calls).run [(readings', .inspect)] =
      state.run (calls ++ [(readings', .inspect)]) := foldl_append.symm
  have hinserts : ∀ call ∈ calls ++ [(readings', .inspect)],
      call.2.inserts operationId = false := by
    intro call hcall
    rcases mem_append.1 hcall with hcall | hcall
    · exact hcalls call hcall
    · rw [mem_singleton.1 hcall]
      rfl
  obtain ⟨startId, request, now, log, hlog⟩ := run_recorded _ hmem
  obtain ⟨-, new, hnew⟩ :=
    run_follows follows_upheld And.left hinserts hrecord (hlater ▸ hrecord')
  have hpaged : Paged log page.operation := by simpa using hlog.paged (running_paged _ _ _)
  have hpaged' := hnew.paged hpaged
  obtain ⟨evicted, hevicted⟩ := hpaged'.retained
  obtain ⟨hreset, hevents⟩ := (hevicted ▸ hpaged').page after
  rw [← hshown', hevicted] at hevents
  refine ⟨startId, request, now, log, new, evicted, hlog, hnew, hpaged, hpaged', hevicted.symm, ?_,
    fun hno => ⟨hevents hno, fun hlast => ?_⟩⟩
  · rw [hshown']
    exact hreset
  · rw [hshown] at hlast
    have hafter : after = log.length := Nat.succ.inj (hlast.trans hpaged.next)
    rw [hevents hno, hafter, filter_append, filter_eq_nil_iff.2, filter_eq_self.2, nil_append]
    · exact fun event hmem => decide_eq_true (hpaged'.cursor_back event hmem)
    · intro event hmem hgreater
      exact absurd (hpaged'.cursor_front event hmem) (not_le.2 (of_decide_eq_true hgreater))

end Paging

/-- An upload is asked about when a module has accepted it, and again when it is over. -/
theorem event_paging_misses_nothing_sample :
    ∃ (page page' : EventsPage sampleExternals)
        (new : List (RuntimeOperationEvent sampleExternals)),
      Recorded page.operation new page'.operation ∧ page'.events = new ∧
        new.map (·.cursor) = [3, 4] := by
  have hasks : succeedsWith (fun _ => true) (do
      let page ← events sampleReadings "upload".toList 0
      modify fun state : RegistryState sampleExternals => state.run (sampleHistory.drop 3)
      let page' ← events sampleReadings "upload".toList 2
      enabled (page.nextSeq = 3 ∧ page'.resetRequired = false ∧
        page'.events.map (·.cursor) = [3, 4]))
      ((initial sampleExternals).run (sampleHistory.take 3)) = true := by
    decide +kernel
  obtain ⟨_, hasks, -⟩ := exists_of_succeedsWith hasks
  simp only [bind_ok_iff, modify_eq_ok, enabled_eq_ok] at hasks
  obtain ⟨page, _, hpage, _, _, rfl, page', _, hpage', ⟨hnext, hreset, hcursors⟩, -⟩ := hasks
  obtain ⟨_, _, _, _, new, _, -, hnew, -, -, -, -, hevents⟩ := event_paging_misses_nothing
    (sampleHistory.take 3) (sampleHistory.drop 3) "upload".toList (by decide) hpage hpage'
  have heq : page'.events = new := (hevents hreset).2 hnext.symm
  exact ⟨page, page', new, hnew, heq, heq ▸ hcursors⟩

end LogosInspector.Operations
