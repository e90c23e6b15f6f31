import Concordance.Proofs.Trace.Course
import Concordance.Proofs.Trace.Gather
import Mathlib.Data.List.DropRight

/-!
# The history of a trace

The trace that comes of some acts: what was measured, counted and noted since the last start.

* `recordedTimings`, `increments`, `startNotes`, `addedNotes` — what of some acts the current trace
  holds.
* `Snapshot.ofHistory` — the trace of some acts.
* `Snapshot.after`, `ofHistory_concat` — the trace after one act more.
-/

namespace Concordance.Trace

section History

variable (acts : List Act)

/-- The acts since the last start of a trace. -/
def sinceStart : List Act :=
  acts.rtakeWhile fun a => a.startName?.isNone

/-- The timings of the current trace. -/
def recordedTimings : List Timing :=
  (sinceStart acts).filterMap Act.timing?

/-- The increments of the current trace. -/
def increments : List (String × Float) :=
  (sinceStart acts).filterMap Act.count?

/-- The notes with which the current trace began. -/
def startNotes : List (String × Value) :=
  (acts.filterMap Act.startNotes?).getLast?.getD []

/-- The notes that were put into the current trace. -/
def addedNotes : List (String × Value) :=
  (sinceStart acts).filterMap Act.note?

end History

/-- The trace of some acts, of which the latest timings are kept. -/
def Snapshot.ofHistory (capacity : Nat) (acts : List Act) : Snapshot where
  id := (acts.filterMap Act.startName?).length
  name := (acts.filterMap Act.startName?).getLast?
  stages := gather Stage.grown [] ((recordedTimings acts).map fun t => (t.name, t.duration))
  counters := gather (fun x? amount => x?.getD 0 + amount) [] (increments acts)
  timings := (recordedTimings acts).drop ((recordedTimings acts).length - capacity)
  notes := gather (fun _ value => value) (startNotes acts) (addedNotes acts)

/-- The trace after an act. -/
def Snapshot.after (t : Snapshot) (capacity : Nat) : Act → Snapshot
  | .started name time =>
    { id := t.id + 1
      name := some name
      notes := [("trace_name", .text name), ("start_time", .float time)] }
  | .opened _ _ => t
  | .timed timing =>
    { t with
      stages := upsert timing.name (fun s => Stage.grown s timing.duration) t.stages
      timings := (t.timings ++ [timing]).drop ((t.timings ++ [timing]).length - capacity) }
  | .counted name amount =>
    { t with counters := upsert name (fun x? => x?.getD 0 + amount) t.counters }
  | .noted key value => { t with notes := upsert key (fun _ => value) t.notes }

theorem Snapshot.ofHistory_nil (capacity : Nat) : ofHistory capacity [] = {} := by
  simp [ofHistory, recordedTimings, increments, startNotes, addedNotes, sinceStart, gather]

/-! ## One act more -/

/-- What was dropped from the last items is not among the last ones later on. -/
theorem drop_concat_drop {α : Type} (n : Nat) (xs : List α) (x : α) :
    let kept := xs.drop (xs.length - n) ++ [x]
    kept.drop (kept.length - n) = (xs ++ [x]).drop ((xs ++ [x]).length - n) := by
  simp only [List.drop_append, List.drop_drop, List.length_append, List.length_drop,
    List.length_singleton]
  congr 2 <;> omega

theorem filterMap_concat {α β : Type} (f : α → Option β) (xs : List α) (x : α) :
    (xs ++ [x]).filterMap f = xs.filterMap f ++ (f x).toList := by
  rw [List.filterMap_append]
  cases h : f x <;> simp [h]

section Concat

variable (capacity : Nat) (acts : List Act) {a : Act}

theorem sinceStart_concat (h : a.startName? = none) :
    sinceStart (acts ++ [a]) = sinceStart acts ++ [a] := by
  rw [sinceStart, List.rtakeWhile_concat, h, Option.isNone_none, if_pos rfl]
  rfl

/-- What the current trace holds grows by what of an act it holds. -/
theorem filterMap_sinceStart_concat {β : Type} (f : Act → Option β) (h : a.startName? = none) :
    (sinceStart (acts ++ [a])).filterMap f = (sinceStart acts).filterMap f ++ (f a).toList := by
  rw [sinceStart_concat acts h, filterMap_concat]

/-- The trace after an act that starts none. -/
theorem ofHistory_continued (h : a.startName? = none) :
    Snapshot.ofHistory capacity (acts ++ [a]) =
      let ts := recordedTimings acts ++ a.timing?.toList
      { Snapshot.ofHistory capacity acts with
        stages := gather Stage.grown (Snapshot.ofHistory capacity acts).stages
          (a.timing?.toList.map fun t => (t.name, t.duration))
        counters := gather (fun x? amount => x?.getD 0 + amount)
          (Snapshot.ofHistory capacity acts).counters a.count?.toList
        timings := ts.drop (ts.length - capacity)
        notes := gather (fun _ value => value) (Snapshot.ofHistory capacity acts).notes
          a.note?.toList } := by
  have hnotes : a.startNotes? = none := by
    cases a with
    | started => cases h
    | opened | timed | counted | noted => rfl
  have hstart : startNotes (acts ++ [a]) = startNotes acts := by
    rw [startNotes, filterMap_concat, hnotes, Option.toList_none, List.append_nil]
    rfl
  have hnames : (acts ++ [a]).filterMap Act.startName? = acts.filterMap Act.startName? := by
    rw [filterMap_concat, h, Option.toList_none, List.append_nil]
  simp only [Snapshot.ofHistory, recordedTimings, increments, addedNotes, hstart, hnames,
    filterMap_sinceStart_concat acts _ h, List.map_append, gather, List.foldl_append]

theorem ofHistory_started (name : String) (time : Float) :
    Snapshot.ofHistory capacity (acts ++ [.started name time]) =
      (Snapshot.ofHistory capacity acts).after capacity (.started name time) := by
  have hsince : sinceStart (acts ++ [.started name time]) = [] := by
    rw [sinceStart, List.rtakeWhile_concat]
    rfl
  simp only [Snapshot.ofHistory, recordedTimings, increments, startNotes, addedNotes, hsince,
    filterMap_concat]
  simp [Snapshot.after, Act.startName?, Act.startNotes?, gather]

/-- The trace of one act more is the trace after it. -/
theorem ofHistory_concat (a : Act) :
    Snapshot.ofHistory capacity (acts ++ [a]) =
      (Snapshot.ofHistory capacity acts).after capacity a := by
  have hkept : (Snapshot.ofHistory capacity acts).timings =
      (recordedTimings acts ++ []).drop ((recordedTimings acts ++ []).length - capacity) := by
    rw [List.append_nil]
    rfl
  cases a with
  | started name time => exact ofHistory_started capacity acts name time
  | opened name details =>
    rw [ofHistory_continued capacity acts rfl]
    exact congrArg (fun timings => { Snapshot.ofHistory capacity acts with timings }) hkept.symm
  | timed timing =>
    have hlast := drop_concat_drop capacity (recordedTimings acts) timing
    rw [ofHistory_continued capacity acts rfl]
    exact congrArg (fun timings => { Snapshot.ofHistory capacity acts with
      stages := upsert timing.name (fun s => Stage.grown s timing.duration)
        (Snapshot.ofHistory capacity acts).stages, timings }) hlast.symm
  | counted name amount =>
    rw [ofHistory_continued capacity acts rfl]
    exact congrArg (fun timings => { Snapshot.ofHistory capacity acts with
      counters := upsert name (fun x? => x?.getD 0 + amount)
        (Snapshot.ofHistory capacity acts).counters, timings }) hkept.symm
  | noted key value =>
    rw [ofHistory_continued capacity acts rfl]
    exact congrArg (fun timings => { Snapshot.ofHistory capacity acts with
      notes := upsert key (fun _ => value) (Snapshot.ofHistory capacity acts).notes, timings })
      hkept.symm

end Concat

end Concordance.Trace
