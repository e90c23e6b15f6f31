import Concordance.Proofs.Metric.Lawful
import Concordance.Proofs.Service.Run

/-!
# The trace that a service shows

A service keeps the trace of a request at its end, but not when the compilation raised.  What it
shows is therefore the trace of the last request that returned; only before any request has returned
it falls back on what its collector has published.

* `Call.returned`, `Call.IsTracedBy` — a call that did not raise, and a trace that describes a call.
* `Service.lastTrace_after` — the kept trace is that of the last call that returned.
* `isTracedBy_latestTrace_iff` — when the shown trace describes the last call.
* `shown_trace_is_last_returned` — and otherwise it is the trace of the last call that returned.
-/

namespace Concordance

open Concordance.Trace Concordance.Metric

variable {m : Client}

namespace Call

/-- The call came to an outcome. -/
def returned (k : Call m) : Bool :=
  k.ending ≠ .raised

theorem returned_iff {k : Call m} : k.returned = true ↔ k.ending ≠ .raised := by
  simp [returned]

/-- The trace is the one that was started for the call, with its operation and its counter. -/
structure IsTracedBy (k : Call m) (t : Snapshot) : Prop where
  id : t.id = k.before.collector.current.id + 1
  name : t.name = some k.request.operation
  counters : t.counters = [(k.ending.counter, 1)]

theorem Recorded.isTracedBy {k : Call m} (h : k.Recorded) :
    k.IsTracedBy k.after.collector.current :=
  ⟨h.id, h.name, h.counters⟩

end Call

namespace Service

variable {s : Service m}

theorem published_call (h : s.Ready) (hm : m.Lawful) (r : Request) :
    (s.call r).after.collector.published = some (s.call r).after.collector.current := by
  obtain ⟨c', registry, spans, hexecute, hrecords, -⟩ := s.execute_spec h hm r
  have hcollector : (s.call r).after.collector = c' := congrArg (·.1.collector) hexecute
  rw [hcollector]
  exact hrecords.published

/-- A call keeps its trace if it returns, and the trace kept before it if it raises. -/
theorem lastTrace_call (h : s.Ready) (hm : m.Lawful) (r : Request) :
    (s.call r).after.lastTrace =
      if (s.call r).returned then some (s.call r).after.collector.current else s.lastTrace := by
  obtain ⟨c', registry, spans, hexecute, -⟩ := s.execute_spec h hm r
  have hcollector : (s.call r).after.collector = c' := congrArg (·.1.collector) hexecute
  have hlast : (s.call r).after.lastTrace = s.remembered c' (r.compile s.config) :=
    congrArg (·.1.lastTrace) hexecute
  have hresult : (s.call r).result = r.compile s.config := congrArg Prod.snd hexecute
  rw [hlast, hcollector, Call.returned, Call.ending, hresult]
  cases r.compile s.config with
  | error fault => rfl
  | ok outcome => cases outcome <;> rfl

/-- The kept trace is that of the last call that returned, if one did. -/
theorem lastTrace_after (h : s.Ready) (hm : m.Lawful) (rs : List Request) :
    (s.after rs).lastTrace =
      (((s.calls rs).filter Call.returned).getLast?.map (·.after.collector.current)).or
        s.lastTrace := by
  induction rs generalizing s with
  | nil => rfl
  | cons r rest ih =>
    have hrest : (s.after (r :: rest)).lastTrace =
        ((((s.call r).after.calls rest).filter Call.returned).getLast?.map
          (·.after.collector.current)).or (s.call r).after.lastTrace :=
      ih (ready_execute h hm r)
    rw [hrest, lastTrace_call h hm r]
    show _ = (((s.call r :: (s.call r).after.calls rest).filter Call.returned).getLast?.map _).or _
    rw [List.filter_cons]
    split
    · rw [List.getLast?_cons]
      cases (((s.call r).after.calls rest).filter Call.returned).getLast? <;> rfl
    · rfl

/-- Every call of a run starts one trace. -/
theorem id_after (h : s.Ready) (hm : m.Lawful) (rs : List Request) :
    (s.after rs).collector.current.id = s.collector.current.id + rs.length := by
  induction rs generalizing s with
  | nil => rfl
  | cons r rest ih =>
    have hfirst : (s.execute r).1.collector.current.id = s.collector.current.id + 1 :=
      (recorded_call h hm r).id
    have hrest : (s.after (r :: rest)).collector.current.id =
        (s.execute r).1.collector.current.id + rest.length := ih (ready_execute h hm r)
    rw [hrest, hfirst, List.length_cons]
    omega

/-- The traces of a run are numbered up to its last one. -/
theorem id_le_of_mem_calls (h : s.Ready) (hm : m.Lawful) {rs : List Request} {k : Call m}
    (hk : k ∈ s.calls rs) :
    k.after.collector.current.id ≤ (s.after rs).collector.current.id := by
  induction rs generalizing s with
  | nil => cases hk
  | cons r rest ih =>
    rcases List.mem_cons.1 hk with rfl | hk
    · exact Nat.le.intro (id_after (ready_execute h hm r) hm rest).symm
    · exact ih (ready_execute h hm r) hk

/-- A call that returns is shown. -/
theorem latestTrace_of_returned (h : s.Ready) (hm : m.Lawful) {r : Request}
    (hreturned : (s.call r).returned = true) :
    (s.call r).after.latestTrace = some (s.call r).after.collector.current := by
  rw [latestTrace, lastTrace_call h hm, if_pos hreturned]
  rfl

/-- Behind a call that raises the kept trace is shown, and its own one only without a kept trace. -/
theorem latestTrace_of_raised (h : s.Ready) (hm : m.Lawful) {r : Request}
    (hraised : (s.call r).ending = .raised) :
    (s.call r).after.latestTrace =
      s.lastTrace.or (some (s.call r).after.collector.current) := by
  have hreturned : ¬(s.call r).returned = true := fun hk => Call.returned_iff.1 hk hraised
  rw [latestTrace, lastTrace_call h hm, if_neg hreturned, published_call h hm]

end Service

open Service

/-- The call that is shown behind a run in which a call returned and a call that raised. -/
theorem latestTrace_after_raised {s : Service m} (h : s.Ready) (hm : m.Lawful) {rs : List Request}
    {r : Request} (hraised : ((s.after rs).call r).ending = .raised) {k : Call m}
    (hk : ((s.calls rs).filter Call.returned).getLast? = some k) :
    ((s.after rs).call r).after.latestTrace = some k.after.collector.current := by
  rw [latestTrace_of_raised (ready_after h hm rs) hm hraised, lastTrace_after h hm rs, hk]
  rfl

/-- On a service that has kept no trace yet, the shown trace describes the call behind a run just
when it returned or no call of the run did. -/
theorem isTracedBy_latestTrace_iff {s : Service m} (h : s.Ready) (hm : m.Lawful)
    (hfresh : s.lastTrace = none) (rs : List Request) (r : Request) :
    (∃ t, ((s.after rs).call r).after.latestTrace = some t ∧ ((s.after rs).call r).IsTracedBy t) ↔
      ((s.after rs).call r).ending ≠ .raised ∨ ∀ k ∈ s.calls rs, k.ending = .raised := by
  have hafter := ready_after h hm rs
  constructor
  · rintro ⟨t, ht, hid, -, -⟩
    cases hfound : ((s.calls rs).filter Call.returned).getLast? with
    | none =>
      have hnone := List.filter_eq_nil_iff.1 (List.getLast?_eq_none_iff.1 hfound)
      exact .inr fun k hk => Decidable.not_not.1 fun h => hnone k hk (Call.returned_iff.2 h)
    | some last =>
      refine .inl fun hraised => ?_
      obtain rfl := Option.some.inj (ht.symm.trans (latestTrace_after_raised h hm hraised hfound))
      have hle := id_le_of_mem_calls h hm (List.mem_filter.1 (List.mem_of_getLast? hfound)).1
      -- the trace of an earlier call has a smaller number
      exact absurd hid (Nat.ne_of_lt (Nat.lt_succ_of_le hle))
  · intro hcase
    refine ⟨_, ?_, (recorded_call hafter hm r).isTracedBy⟩
    by_cases hraised : ((s.after rs).call r).ending = .raised
    · have hnone : (s.calls rs).filter Call.returned = [] := List.filter_eq_nil_iff.2 fun k hk =>
        fun hreturned => Call.returned_iff.1 hreturned
          (hcase.resolve_left (fun hne => hne hraised) k hk)
      rw [latestTrace_of_raised hafter hm hraised, lastTrace_after h hm rs, hnone, hfresh]
      rfl
    · exact latestTrace_of_returned hafter hm (Call.returned_iff.2 hraised)

/-- After a run and one more call, the shown trace describes that call just when it returned or no
call before it did.  Otherwise it is the trace of the last call that returned. -/
theorem shown_trace_is_last_returned (hm : m.Lawful) (config : Config) {c : Collector}
    (hworking : c.Working) {seconds : Float} (hseconds : Decimal.magnitude seconds ≠ .nan)
    (rs : List Request) (r : Request) :
    let s : Service m := { Service.start config c m.fresh with seconds }
    let k := (s.after rs).call r
    ((∃ t, k.after.latestTrace = some t ∧ k.IsTracedBy t) ↔
      k.ending ≠ .raised ∨ ∀ k' ∈ s.calls rs, k'.ending = .raised) ∧
    (k.ending = .raised →
      ∀ k', ((s.calls rs).filter Call.returned).getLast? = some k' →
        k.after.latestTrace = some k'.after.collector.current ∧
          k'.IsTracedBy k'.after.collector.current) := by
  intro s k
  have hs : s.Ready := ready_start hm config hworking hseconds
  have hfresh : s.lastTrace = none := rfl
  refine ⟨isTracedBy_latestTrace_iff hs hm hfresh rs r, fun hraised k' hk' =>
    ⟨latestTrace_after_raised hs hm hraised hk', ?_⟩⟩
  exact (recorded_calls hs hm rs k' (List.mem_filter.1 (List.mem_of_getLast? hk')).1).isTracedBy

/-- A search whose generator fails is shown if it is the first request, and not behind a search that
was compiled. -/
theorem raised_call_is_shown_first :
    let config : Config :=
      { generator := { name := "none", generate := fun _ _ _ => .error (.failure "boom") } }
    let c : Collector := { clock := .steady (.real 0) (.real 0.5) }
    let near : Request := .proximity { term1 := .text "ratio", term2 := .text "fides" }
    let spelled : Request := .variation { term1 := .text "ratio", term2 := .text "fides" }
    let s : Service Store.client := Service.start config c {}
    Store.client.Lawful ∧ c.Working ∧ Decimal.magnitude 0 ≠ .nan ∧
    (∃ t, (s.call spelled).after.latestTrace = some t ∧ (s.call spelled).IsTracedBy t) ∧
    ((s.after [near]).call spelled).after.latestTrace =
      some (s.call near).after.collector.current := by
  intro config c near spelled s
  have hm := Store.lawful
  have hworking : c.Working := ⟨Clock.reliable_steady_real 0 0.5, by decide⟩
  have hseconds : Decimal.magnitude 0 ≠ .nan := by decide +kernel
  have hs : s.Ready := ready_start hm config hworking hseconds
  have hreturned : (s.call near).returned = true := by
    rw [Call.returned, ending_call hs hm]
    decide +kernel
  have hraised : ((s.after [near]).call spelled).ending = .raised := by
    rw [ending_call (ready_after hs hm _) hm, config_after hs hm]
    decide +kernel
  refine ⟨hm, hworking, hseconds, ?_, ?_⟩
  · exact (shown_trace_is_last_returned hm config hworking hseconds [] spelled).1.2
      (.inr (List.forall_mem_nil _))
  · refine ((shown_trace_is_last_returned hm config hworking hseconds [near] spelled).2
      hraised _ ?_).1
    show (List.filter Call.returned [s.call near]).getLast? = _
    rw [List.filter_cons_of_pos hreturned]
    rfl

/-- A search whose generator fails has no trace of its own shown if a search was compiled before it,
so not every call is described by the trace that is shown right after it. -/
theorem raised_call_is_hidden_later :
    let config : Config :=
      { generator := { name := "none", generate := fun _ _ _ => .error (.failure "boom") } }
    let c : Collector := { clock := .steady (.real 0) (.real 0.5) }
    let s : Service Store.client := Service.start config c {}
    ¬∀ k ∈ s.calls [.proximity { term1 := .text "ratio", term2 := .text "fides" },
        .variation { term1 := .text "ratio", term2 := .text "fides" }],
      ∃ t, k.after.latestTrace = some t ∧ k.IsTracedBy t := by
  intro config c s hall
  let near : Request := .proximity { term1 := .text "ratio", term2 := .text "fides" }
  let spelled : Request := .variation { term1 := .text "ratio", term2 := .text "fides" }
  have hm := Store.lawful
  have hseconds : Decimal.magnitude 0 ≠ .nan := by decide +kernel
  have hs : s.Ready := ready_start hm config ⟨Clock.reliable_steady_real 0 0.5, by decide⟩ hseconds
  have htraced := hall ((s.after [near]).call spelled)
    (List.mem_cons_of_mem _ (List.mem_singleton_self _))
  rcases (isTracedBy_latestTrace_iff hs hm rfl [near] spelled).1 htraced with hne | hnear
  · refine hne ?_
    rw [ending_call (ready_after hs hm _) hm, config_after hs hm]
    decide +kernel
  · have hraised := hnear (s.call near) (List.mem_singleton_self _)
    rw [ending_call hs hm] at hraised
    exact absurd hraised (by decide +kernel)

end Concordance
