import Concordance.Proofs.Trace.Moment
import Concordance.Proofs.Value.Mapping

/-!
# What a trace says of its history

At every moment of a run the record of a collector's trace is determined by what was recorded since
the trace was started: the latest timings, sums for each stage and counter, and the notes that were
put last.

* `durationsOf`, `IsStageRecord`, `timingRecord` — the records of a stage and of a timing, said of
  what was recorded.
* `Tells` — what the record of a trace says of some acts.
* `tells_ofHistory` — the record of the trace of some acts says it.
* `trace_tells_history` — so does the record that a new collector gives at every moment of every
  run.
-/

namespace Concordance.Trace

/-- The durations of the timings of one name, in order. -/
def durationsOf (name : String) (ts : List Timing) : List Float :=
  (ts.filter fun t => t.name = name).map Timing.duration

/-- The record of a stage that some durations made: their number, their sum from the first one to
the last, two of them, and the sum divided by the number. -/
def IsStageRecord (ds : List Float) (v : Value) : Prop :=
  ∃ least ∈ ds, ∃ greatest ∈ ds,
    let total := ds.foldl (· + ·) 0
    v = Log.fields
      [("count", .int ds.length), ("total", .float total), ("min", .float least),
        ("max", .float greatest),
        ("avg", .float (total / Decimal.ofQuotient false ds.length 1))]

/-- The record of a timing, which has metadata just if it has details. -/
def timingRecord (t : Timing) : Value :=
  Log.fields <|
    [("name", .text t.name), ("duration", .float t.duration)] ++
      if t.details = [] then [] else [("metadata", .record t.details)]

/-- What stages, counters and notes say of some acts. -/
structure Tells (acts : List Act) (stages counters notes : List (String × Value)) : Prop where
  stage_names : stages.map Prod.fst = firstSeen ((recordedTimings acts).map Timing.name)
  stages : ∀ e ∈ stages, IsStageRecord (durationsOf e.1 (recordedTimings acts)) e.2
  counter_names : counters.map Prod.fst = firstSeen ((increments acts).map Prod.fst)
  counters : ∀ e ∈ counters,
    e.2 = .float ((itemsUnder e.1 (increments acts)).foldl (· + ·) 0)
  note_keys : notes.map Prod.fst = firstSeen ((startNotes acts ++ addedNotes acts).map Prod.fst)
  notes : ∀ e ∈ notes, (itemsUnder e.1 (startNotes acts ++ addedNotes acts)).getLast? = some e.2

/-! ## The trace of some acts -/

theorem itemsUnder_durations (name : String) (ts : List Timing) :
    itemsUnder name (ts.map fun t => (t.name, t.duration)) = durationsOf name ts := by
  rw [itemsUnder, durationsOf, List.filter_map, List.map_map]
  rfl

theorem Timing.fields_eq (t : Timing) : Log.fields t.fields = timingRecord t := by
  rw [fields, timingRecord]
  cases t.details <;> rfl

/-- A stage says what its durations are. -/
theorem Stage.Sums.isStageRecord {s : Stage} {ds : List Float} (h : s.Sums ds) :
    IsStageRecord ds s.record := by
  refine ⟨s.least, h.least_mem, s.greatest, h.greatest_mem, ?_⟩
  rw [Stage.record, Stage.average, h.count_eq, h.total_eq]

/-- What was gathered from nothing under the name of an entry. -/
theorem lookup_of_mem_gather {α β : Type} {put : Option β → α → β} {xs : List (String × α)}
    {e : String × β} (he : e ∈ gather put [] xs) :
    (itemsUnder e.1 xs).foldl (fun b a => some (put b a)) none = some e.2 := by
  have hnodup : ((gather put [] xs).map Prod.fst).Nodup := by
    rw [keys_gather_nil]
    exact nodup_firstSeen _
  rw [← List.lookup_nil (a := e.1), ← lookup_gather]
  exact (Value.lookup_eq_some_iff_mem hnodup).2 he

theorem stageRecord_of_mem {ts : List Timing} {e : String × Stage}
    (he : e ∈ gather Stage.grown [] (ts.map fun t => (t.name, t.duration))) :
    IsStageRecord (durationsOf e.1 ts) e.2.record := by
  have hfold := lookup_of_mem_gather he
  rw [itemsUnder_durations] at hfold
  rcases Stage.foldl_grown (durationsOf e.1 ts) with ⟨-, hnone⟩ | ⟨s, hs, hsums⟩
  · cases hnone.symm.trans hfold
  · obtain rfl := Option.some.inj (hs.symm.trans hfold)
    exact hsums.isStageRecord

theorem counter_of_mem {increments : List (String × Float)} {e : String × Float}
    (he : e ∈ gather (fun x? amount => x?.getD 0 + amount) [] increments) :
    e.2 = (itemsUnder e.1 increments).foldl (· + ·) 0 := by
  have hfold := lookup_of_mem_gather he
  by_cases hnone : itemsUnder e.1 increments = []
  · rw [hnone] at hfold
    cases hfold
  · rw [foldl_sums _ _ hnone] at hfold
    exact (Option.some.inj hfold).symm

/-- The notes with which a trace begins have different keys, so they are gathered as they are. -/
theorem gather_startNotes (acts : List Act) :
    gather (fun _ value => value) [] (startNotes acts) = startNotes acts := by
  unfold startNotes
  cases h : (acts.filterMap Act.startNotes?).getLast? with
  | none => rfl
  | some notes =>
    obtain ⟨a, -, ha⟩ := List.mem_filterMap.1 (List.mem_of_getLast? h)
    cases a with
    | started name time =>
      cases ha
      simp [gather, upsert]
    | opened | timed | counted | noted => cases ha

theorem notes_ofHistory (capacity : Nat) (acts : List Act) :
    (Snapshot.ofHistory capacity acts).notes =
      gather (fun _ value => value) [] (startNotes acts ++ addedNotes acts) := by
  let put (_ : Option Value) (value : Value) := value
  calc gather put (startNotes acts) (addedNotes acts)
      _ = gather put (gather put [] (startNotes acts)) (addedNotes acts) := by
        rw [gather_startNotes]
      _ = gather put [] (startNotes acts ++ addedNotes acts) := List.foldl_append.symm

theorem tells_ofHistory (capacity : Nat) (acts : List Act) :
    let t := Snapshot.ofHistory capacity acts
    Tells acts (t.stages.map fun e => (e.1, e.2.record)) (t.counters.map fun e => (e.1, .float e.2))
      t.notes := by
  intro t
  refine ⟨?_, ?_, ?_, ?_, ?_, ?_⟩
  · have hkeys := keys_gather_nil Stage.grown
      ((recordedTimings acts).map fun t => (t.name, t.duration))
    rw [List.map_map] at hkeys ⊢
    exact hkeys
  · exact List.forall_mem_map.2 fun e he => stageRecord_of_mem he
  · rw [List.map_map]
    exact keys_gather_nil _ _
  · exact List.forall_mem_map.2 fun e he => congrArg Value.float (counter_of_mem he)
  · rw [notes_ofHistory]
    exact keys_gather_nil _ _
  · intro e he
    rw [notes_ofHistory] at he
    have hlast := lookup_gather_last [] (startNotes acts ++ addedNotes acts) e.1
    rw [lookup_gather, List.lookup_nil, lookup_of_mem_gather he, Option.or_none] at hlast
    exact hlast.symm

/-! ## The main statement -/

/-- **A trace says exactly what was recorded since it was started.**  A new collector keeps as many
timings as its setting says, and at least one.  At every moment of every run, within timed blocks
and attempts, behind a fault and at the end, the record of its trace lists the last of the timings
that were recorded, with metadata if they have any; each stage and each counter says the sums of its
own entries, also of those that are not kept any more; and each note is the last one put under its
key since the trace was started with its name and its start. -/
theorem trace_tells_history {setting : Value} {n : Int} (hsetting : setting.toInt = .ok n)
    (listeners : List Listener) {clock : Clock} (hclock : clock.Reliable) (steps : List Step) :
    ∃ capacity, capacityOf setting = .ok capacity ∧
      let fresh : Collector := { capacity, listeners, clock }
      Moment fresh steps (Step.courseAll clock steps).acts (fresh.runAll steps).collector ∧
      ∀ acts c, Moment fresh steps acts c →
        let r := recordedTimings acts
        let starts := acts.filterMap Act.startName?
        ∃ t stages counters notes, (c.run .snapshot).2 = .ok (.trace t) ∧
          t.record = Log.fields
            [("trace_id", .int starts.length), ("name", starts.getLast?.elim .null .text),
              ("timings", Log.fields stages), ("counters", Log.fields counters),
              ("events", .list ((r.drop (r.length - (max 1 n).toNat)).map timingRecord)),
              ("metadata", Log.fields notes)] ∧
          Tells acts stages counters notes := by
  refine ⟨(max 1 n).toNat, ?_, ?_⟩
  · rw [capacityOf, hsetting]
    rfl
  · intro fresh
    refine ⟨moment_runAll steps hclock, fun acts c hmoment => ?_⟩
    have hcurrent : c.current = .ofHistory (max 1 n).toNat acts :=
      (hmoment.keeps hclock (keeps_new _ listeners clock)).current_eq
    intro r starts
    refine ⟨c.current, _, _, _, by rw [Collector.run], ?_, hcurrent ▸ tells_ofHistory _ acts⟩
    have hevents : c.current.timings.map (fun timing => Log.fields timing.fields) =
        (r.drop (r.length - (max 1 n).toNat)).map timingRecord := by
      rw [hcurrent]
      exact List.map_congr_left fun timing _ => timing.fields_eq
    have hid : c.current.id = starts.length := by rw [hcurrent]; rfl
    have hname : c.current.name = starts.getLast? := by rw [hcurrent]; rfl
    rw [Snapshot.record, hevents, hid, hname]

/-- A trace that is started within a timed block forgets what was before it, and holds the timing of
the block although its steps fail: of two timings of one name, one of each trace, it counts one. -/
theorem trace_within_block_tells_own :
    let inner : List Step :=
      [.start "inner", .timing "read" (.float 2) .null, .increment "hits" (.float 1),
        .put [(.text "size", .int 3)], .fail (.failure "boom"), .annotate "unreached" .null]
    let steps : List Step :=
      [.timing "read" (.float 1) .null, .annotate "lost" .null, .timer "block" .null inner]
    let clock : Clock := .steady (.real 0) (.real 0.5)
    let fresh : Collector := { capacity := 1, clock }
    clock.Reliable ∧
    ∃ t stages counters notes,
      ((fresh.runAll steps).collector.run .snapshot).2 = .ok (.trace t) ∧
      t.record = Log.fields
        [("trace_id", .int 1), ("name", .text "inner"), ("timings", Log.fields stages),
          ("counters", Log.fields counters),
          ("events", .list [timingRecord ⟨"block", 1, [(.text "size", .int 3)]⟩]),
          ("metadata", Log.fields notes)] ∧
      stages.map Prod.fst = ["read", "block"] ∧ (∀ v, ("read", v) ∈ stages → IsStageRecord [2] v) ∧
      counters.map Prod.fst = ["hits"] ∧ notes.map Prod.fst = ["trace_name", "start_time"] := by
  intro inner steps clock fresh
  have hclock : clock.Reliable := Clock.reliable_steady_real 0 0.5
  have hacts : (Step.courseAll clock steps).acts =
      [.timed ⟨"read", 1, []⟩, .noted "lost" .null, .opened "block" [], .started "inner" 0.5,
        .timed ⟨"read", 2, []⟩, .counted "hits" 1,
        .timed ⟨"block", 1, [(.text "size", .int 3)]⟩] := by
    dsimp only [clock, steps, inner]
    rfl
  have hn : (Value.int 0).toInt = .ok 0 := rfl
  obtain ⟨capacity, hcapacity, hend, htells⟩ := trace_tells_history hn [] hclock steps
  obtain rfl : capacity = 1 := (Except.ok.inj hcapacity).symm
  rw [hacts] at hend
  obtain ⟨t, stages, counters, notes, hsnapshot, hrecord, htold⟩ := htells _ _ hend
  refine ⟨hclock, t, stages, counters, notes, hsnapshot, hrecord, htold.stage_names, fun v hv => ?_,
    htold.counter_names, htold.note_keys⟩
  exact htold.stages ("read", v) hv

end Concordance.Trace
