import Concordance.Proofs.Metric.Lawful
import Concordance.Proofs.Service.Run
import Mathlib.Algebra.BigOperators.Group.List.Lemmas
import Mathlib.Algebra.GroupWithZero.Nat

/-!
# The accounts of a run

The metrics of a service count its calls, and agree with its traces and its log entries.

* `count_requests`, `count_failures`, `count_durations` — how often the calls of a run give a value
  to a metric.
* `accounts_balance` — requests, failures and raised calls together are the observations.
* `accounts_agree` — after every run metrics, traces and log entries agree with the results.
-/

namespace Concordance

open Concordance.Trace Concordance.Metric

variable {m : Client}

/-! ## What the calls of a run give to the metrics -/

/-- The calls of a class give a value to a metric once each. -/
theorem count_counted {x : Meter × String} {p : Call m → Bool}
    (h : ∀ k, k.counted.count x = if p k = true then 1 else 0) (ks : List (Call m)) :
    (ks.flatMap Call.counted).count x = ks.countP p := by
  induction ks with
  | nil => rfl
  | cons k rest ih =>
    rw [List.flatMap_cons, List.count_append, h, ih, List.countP_cons, Nat.add_comm]

theorem count_requests (ks : List (Call m)) (op : String) :
    (ks.flatMap Call.counted).count (.requests, op) =
      ks.countP fun k => k.request.operation = op ∧ k.ending = .compiled := by
  refine count_counted (fun k => ?_) ks
  cases hk : k.ending <;> simp [Call.counted, Ending.counted, hk, List.count_cons]

theorem count_failures (ks : List (Call m)) (kind : RefusalKind) :
    (ks.flatMap Call.counted).count (.failures, kind.name) =
      ks.countP fun k => k.ending = .rejected kind := by
  have hname : ∀ kind', kind'.name = kind.name ↔ kind' = kind := fun kind' =>
    ⟨fun h => Option.some.inj (by rw [← RefusalKind.ofName?_name, h, RefusalKind.ofName?_name]),
      fun h => h ▸ rfl⟩
  refine count_counted (fun k => ?_) ks
  cases hk : k.ending <;> simp [Call.counted, Ending.counted, hk, List.count_cons, hname]

theorem count_durations (ks : List (Call m)) (op : String) :
    (ks.flatMap Call.counted).count (.durations, op) =
      ks.countP fun k => k.request.operation = op := by
  refine count_counted (fun k => ?_) ks
  cases hk : k.ending <;> simp [Call.counted, Ending.counted, hk, List.count_cons]

/-- What is read of a metric after a run on a new service. -/
theorem values_after (hm : m.Lawful) (config : Config) {c : Collector} (hworking : c.Working)
    {seconds : Float} (hseconds : Decimal.magnitude seconds ≠ .nan) (rs : List Request)
    (meter : Meter) (v : String) :
    let s : Service m := { Service.start config c m.fresh with seconds }
    meter.values (s.after rs).registry v =
      shown (((s.calls rs).flatMap Call.counted).count (meter, v)) := by
  intro s
  have hready := Service.ready_start hm config hworking hseconds
  have hnew := (Service.equipped_start hm config c hseconds).2 meter v
  rw [Service.tallies_after hready hm rs meter v 0 hnew, Nat.zero_add]

/-! ## The accounts of a run -/

/-- The names of the operations. -/
def operations : List String :=
  ["proximity", "proximity_with_variation", "semantic", "variations"]

theorem operation_mem (r : Request) : r.operation ∈ operations := by
  cases r <;> simp [operations, Request.operation]

/-- Calls of a class are counted key by key, if each of them has one of the keys. -/
theorem sum_countP_key {α : Type} [DecidableEq α] {keys : List α} (hkeys : keys.Nodup)
    (key : Call m → α) {p : Call m → Bool} (hp : ∀ k, p k = true → key k ∈ keys)
    (ks : List (Call m)) :
    (keys.map fun a => ks.countP fun k => key k = a ∧ p k = true).sum = ks.countP p := by
  induction ks with
  | nil => simp
  | cons k rest ih =>
    simp only [List.countP_cons, List.sum_map_add, ih]
    congr 1
    by_cases hk : p k = true
    · rw [List.sum_map_eq_nsmul_single (key k) _ fun a ha _ => by simp [Ne.symm ha],
        List.count_eq_one_of_mem hkeys (hp k hk)]
      simp [hk]
    · simp [hk]

theorem nodup_rejected : (RefusalKind.options.map Ending.rejected).Nodup := by
  decide

theorem rejected_mem {e : Ending} (h : e.kind?.isSome = true) :
    e ∈ RefusalKind.options.map Ending.rejected := by
  cases e with
  | rejected kind =>
    refine List.mem_map_of_mem ?_
    cases kind <;> decide
  | compiled | raised => cases h

/-- Every call was compiled, rejected or raised. -/
theorem countP_endings (ks : List (Call m)) :
    (ks.countP fun k => k.ending = .compiled) + (ks.countP fun k => k.ending.kind?.isSome) +
      (ks.countP fun k => k.ending = .raised) = ks.length := by
  induction ks with
  | nil => rfl
  | cons k rest ih =>
    rw [List.length_cons, ← ih]
    cases hk : k.ending <;> simp [hk, Ending.kind?] <;> omega

/-- Requests, failures and raised calls together are the observations. -/
theorem accounts_balance (ks : List (Call m)) :
    (operations.map fun op =>
        ks.countP fun k => k.request.operation = op ∧ k.ending = .compiled).sum +
      (RefusalKind.options.map fun kind => ks.countP fun k => k.ending = .rejected kind).sum +
      (ks.countP fun k => k.ending = .raised) =
    (operations.map fun op => ks.countP fun k => k.request.operation = op).sum := by
  have hcompiled : (operations.map fun op =>
      ks.countP fun k => k.request.operation = op ∧ k.ending = .compiled).sum =
      ks.countP fun k => k.ending = .compiled := by
    simpa using sum_countP_key (p := fun k => k.ending = .compiled) (by decide)
      (fun k => k.request.operation) (fun k _ => operation_mem k.request) ks
  have hrejected : (RefusalKind.options.map fun kind =>
      ks.countP fun k => k.ending = .rejected kind).sum =
      ks.countP fun k => k.ending.kind?.isSome := by
    have hkey := sum_countP_key (p := fun k => k.ending.kind?.isSome) nodup_rejected
      (fun k => k.ending) (fun k hk => rejected_mem hk) ks
    rw [List.map_map] at hkey
    rw [← hkey]
    refine congrArg List.sum (List.map_congr_left fun kind _ => List.countP_congr fun k _ => ?_)
    cases k.ending <;> simp [Ending.kind?]
  have hall : (operations.map fun op => ks.countP fun k => k.request.operation = op).sum =
      ks.length := by
    simpa using sum_countP_key (p := fun _ => true) (by decide)
      (fun k => k.request.operation) (fun k _ => operation_mem k.request) ks
  rw [hcompiled, hrejected, hall, countP_endings]

/-- After every run on a new service with a new registry, whatever the listeners do and whatever
lawful client keeps the metrics: they show the numbers of calls, in each operation every call was
compiled, rejected or raised, and each call is recorded by its own trace and its own log entry. -/
theorem accounts_agree (hm : m.Lawful) (config : Config) {c : Collector} (hworking : c.Working)
    {seconds : Float} (hseconds : Decimal.magnitude seconds ≠ .nan) (rs : List Request) :
    let s : Service m := { Service.start config c m.fresh with seconds }
    let ks := s.calls rs
    let registry := (s.after rs).registry
    (∀ op, m.values registry "cisame_query_requests_total" [("operation", op)] =
      shown (ks.countP fun k => k.request.operation = op ∧ k.ending = .compiled)) ∧
    (∀ kind : RefusalKind,
      m.values registry "cisame_query_failures_total" [("kind", kind.name)] =
        shown (ks.countP fun k => k.ending = .rejected kind)) ∧
    (∀ op, m.values registry "cisame_query_build_seconds_count" [("operation", op)] =
      shown (ks.countP fun k => k.request.operation = op)) ∧
    (operations.map fun op =>
        ks.countP fun k => k.request.operation = op ∧ k.ending = .compiled).sum +
      (RefusalKind.options.map fun kind => ks.countP fun k => k.ending = .rejected kind).sum +
      (ks.countP fun k => k.ending = .raised) =
    (operations.map fun op => ks.countP fun k => k.request.operation = op).sum ∧
    ∀ k ∈ ks, k.Recorded := by
  intro s ks registry
  have hvalues := values_after hm config hworking hseconds rs
  refine ⟨fun op => ?_, fun kind => ?_, fun op => ?_, accounts_balance ks,
    Service.recorded_calls (Service.ready_start hm config hworking hseconds) hm rs⟩
  · rw [← count_requests]
    exact hvalues .requests op
  · rw [← count_failures]
    exact hvalues .failures kind.name
  · rw [← count_durations]
    exact hvalues .durations op

/-- A run with listeners that fail, empty what they get and write themselves, and with a generator
that fails; the metrics are kept in memory. -/
theorem raising_run_is_accounted :
    let c : Collector :=
      { listeners := [.watching "keeper", .failing "broken" (.failure "stop"), .emptying "greedy",
          .logging "log" 20] }
    let config : Config :=
      { generator := { name := "none", generate := fun _ _ _ => .error (.failure "boom") } }
    let s : Service Store.client := Service.start config c {}
    let rs : List Request :=
      [.proximity { term1 := .text "ratio", term2 := .text "fides" },
        .variation { term1 := .text "ratio", term2 := .text "fides" },
        .semantic { central := .text "ratio", contexts := .text "" },
        .proximity { term1 := .text "spes", term2 := .text "fides" }]
    let values := Store.client.values (s.after rs).registry
    Store.client.Lawful ∧ c.Working ∧ Decimal.magnitude 0 ≠ .nan ∧
    values "cisame_query_requests_total" [("operation", "proximity")] = [2] ∧
    values "cisame_query_failures_total" [("kind", "missing_input")] = [1] ∧
    values "cisame_query_build_seconds_count" [("operation", "proximity_with_variation")] = [1] ∧
    ∀ k ∈ s.calls rs, k.Recorded := by
  intro c config s rs values
  have hworking : c.Working := ⟨Clock.reliable_standing, by decide⟩
  have hseconds : Decimal.magnitude 0 ≠ .nan := by decide +kernel
  obtain ⟨hrequests, hfailures, hdurations, -, hrecorded⟩ :=
    accounts_agree Store.lawful config hworking hseconds rs
  have hready : s.Ready := Service.ready_start Store.lawful config hworking hseconds
  have hendings : (s.calls rs).map (fun k => (k.request.operation, k.ending)) =
      [("proximity", .compiled), ("proximity_with_variation", .raised),
        ("semantic", .rejected .missingInput), ("proximity", .compiled)] :=
    (Service.endings_calls hready Store.lawful rs).trans (by decide +kernel)
  have hcount (p : String × Ending → Bool) :
      ((s.calls rs).countP fun k => p (k.request.operation, k.ending)) =
        List.countP p [("proximity", .compiled), ("proximity_with_variation", .raised),
          ("semantic", .rejected .missingInput), ("proximity", .compiled)] := by
    rw [← hendings, List.countP_map]
    rfl
  refine ⟨Store.lawful, hworking, hseconds, ?_, ?_, ?_, hrecorded⟩
  · exact (hrequests "proximity").trans (congrArg shown
      (hcount fun e => e.1 = "proximity" ∧ e.2 = .compiled))
  · exact (hfailures .missingInput).trans (congrArg shown
      (hcount fun e => e.2 = .rejected .missingInput))
  · exact (hdurations "proximity_with_variation").trans (congrArg shown
      (hcount fun e => e.1 = "proximity_with_variation"))

end Concordance
