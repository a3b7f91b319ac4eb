import Mathlib
import SuiteBalance.Proofs.Planner.Replay
import SuiteBalance.Proofs.Schedule.Reordering

/-!
# Proofs — Planner — answers in another order

Each process that runs tests makes the plan anew, so it matters what a plan depends on.

* `Planner.outcome_generate_eq`: what a call of `generate` makes of its collaborators' answers.
* `Planner.Hears`: the answers of a provider and of sources that do not fail.
* `Planner.exists_discover`: sources that do not fail, and list patterns only, are discovered.
* **`Planner.alike_of_perm_records`**: records in another order make an alike plan.
* **`Planner.loads_generate`**: patterns listed in another order, by other sources and for other
  tasks, make the same loads.
-/

namespace SuiteBalance

variable {σ τ : Type}

/-! ### Groups -/

/-- Patterns that end in a wildcard make groups. -/
theorem Group.exists_ofPatterns {patterns : List String} (t : Task)
    (h : ∀ pattern ∈ patterns, pattern.toList.getLast? = some wildcard) :
    ∃ groups, ofPatterns patterns t = .ok groups := by
  unfold ofPatterns
  induction patterns with
  | nil => exact ⟨[], rfl⟩
  | cons pattern rest ih =>
      obtain ⟨hpattern, hrest⟩ := List.forall_mem_cons.mp h
      obtain ⟨groups, hgroups⟩ := ih hrest
      refine ⟨⟨pattern, t, hpattern⟩ :: groups, ?_⟩
      rw [List.mapM_cons, hgroups, ofPattern, dif_pos hpattern]
      rfl

/-- A source that lists patterns only has groups. -/
theorem Reply.exists_groups {reply : Reply (List String)} {patterns : List String} (t : Task)
    (hreply : reply.outcome = .ok patterns)
    (h : ∀ pattern ∈ patterns, pattern.toList.getLast? = some wildcard) :
    ∃ groups, (reply.groups t).outcome = .ok groups := by
  obtain ⟨groups, hgroups⟩ := Group.exists_ofPatterns t h
  refine ⟨groups, ?_⟩
  unfold Reply.groups
  rw [hreply]
  exact congrArg (Except.mapError Failure.group) hgroups

namespace Planner

/-! ### Discovery -/

theorem outcome_discover_cons (source : Source (StateM σ)) (rest : List (Source (StateM σ)))
    (world : σ) :
    (ask (discover (source :: rest)) world).1.outcome =
      (((ask source.list world).1.groups source.task).outcome.bind fun groups =>
        (ask (discover rest) (ask source.list world).2).1.outcome.map (groups ++ ·)) := by
  rw [discover]
  simp only [ask_bind]
  cases ((ask source.list world).1.groups source.task).outcome with
  | error e => rfl
  | ok groups => rfl

theorem outcome_groups_congr {reply reply' : Reply (List String)}
    (h : reply.outcome = reply'.outcome) (t : Task) :
    (reply.groups t).outcome = (reply'.groups t).outcome := by
  unfold Reply.groups
  rw [h]
  cases reply'.outcome with
  | error e => rfl
  | ok patterns => rfl

/-- What is discovered depends on the tasks and on what the sources answer. -/
theorem outcome_discover_congr {sources : List (Source (StateM σ))}
    {sources' : List (Source (StateM τ))} {world : σ} {world' : τ}
    (htasks : sources.map Source.task = sources'.map Source.task)
    (hanswers : (answersOf sources world).map Reply.outcome =
      (answersOf sources' world').map Reply.outcome) :
    (ask (discover sources) world).1.outcome = (ask (discover sources') world').1.outcome := by
  induction sources generalizing sources' world world' with
  | nil =>
      rw [List.map_nil, eq_comm, List.map_eq_nil_iff] at htasks
      subst htasks
      rfl
  | cons source rest ih =>
      obtain ⟨source', rest', rfl, htask, hrest⟩ := List.map_eq_cons_iff.mp htasks.symm
      rw [answersOf_cons, answersOf_cons, List.map_cons, List.map_cons, List.cons.injEq] at hanswers
      rw [outcome_discover_cons, outcome_discover_cons, htask,
        outcome_groups_congr hanswers.1, ih hrest.symm hanswers.2]

theorem mapM_outcome_cons {reply : Reply (List String)} {rest : List (Reply (List String))}
    {lists : List (List String)} (h : (reply :: rest).mapM Reply.outcome = .ok lists) :
    ∃ first more, reply.outcome = .ok first ∧ rest.mapM Reply.outcome = .ok more ∧
      lists = first :: more := by
  rw [List.mapM_cons] at h
  cases hfirst : reply.outcome with
  | error e =>
      rw [hfirst] at h
      cases h
  | ok first =>
      cases hmore : rest.mapM Reply.outcome with
      | error e =>
          rw [hfirst, hmore] at h
          cases h
      | ok more =>
          rw [hfirst, hmore] at h
          exact ⟨first, more, rfl, rfl, (Except.ok.inj h).symm⟩

/-- What is discovered are the patterns that the sources list, in their order. -/
theorem map_pattern_discover {sources : List (Source (StateM σ))} {world : σ}
    {lists : List (List String)} {groups : List Group}
    (hlists : (answersOf sources world).mapM Reply.outcome = .ok lists)
    (h : (ask (discover sources) world).1.outcome = .ok groups) :
    groups.map Group.pattern = lists.flatten := by
  induction sources generalizing world lists groups with
  | nil =>
      obtain rfl := Except.ok.inj hlists
      obtain rfl := Except.ok.inj h
      rfl
  | cons source rest ih =>
      rw [answersOf_cons] at hlists
      obtain ⟨first, more, hfirst, hmore, rfl⟩ := mapM_outcome_cons hlists
      rw [outcome_discover_cons] at h
      cases hgroups : ((ask source.list world).1.groups source.task).outcome with
      | error e =>
          rw [hgroups] at h
          cases h
      | ok front =>
          cases hrest : (ask (discover rest) (ask source.list world).2).1.outcome with
          | error e =>
              rw [hgroups, hrest] at h
              cases h
          | ok behind =>
              rw [hgroups, hrest] at h
              obtain rfl := Except.ok.inj h
              obtain ⟨patterns, hpatterns, hfront⟩ := Reply.groups_ok hgroups
              obtain rfl : first = patterns := Except.ok.inj (hfirst.symm.trans hpatterns)
              have hnames := congrArg (List.map Prod.fst) hfront
              simp only [List.map_map, Function.comp_def, List.map_id'] at hnames
              rw [List.map_append, List.flatten_cons, ih hmore hrest, ← hnames]

/-- **Sources that do not fail, and list patterns only, are discovered.** -/
theorem exists_discover {sources : List (Source (StateM σ))} {world : σ}
    {lists : List (List String)}
    (hlists : (answersOf sources world).mapM Reply.outcome = .ok lists)
    (h : ∀ pattern ∈ lists.flatten, pattern.toList.getLast? = some wildcard) :
    ∃ groups, (ask (discover sources) world).1.outcome = .ok groups := by
  induction sources generalizing world lists with
  | nil => exact ⟨[], rfl⟩
  | cons source rest ih =>
      rw [answersOf_cons] at hlists
      obtain ⟨first, more, hfirst, hmore, rfl⟩ := mapM_outcome_cons hlists
      rw [List.flatten_cons, List.forall_mem_append] at h
      obtain ⟨front, hfront⟩ := Reply.exists_groups source.task hfirst h.1
      obtain ⟨behind, hbehind⟩ := ih hmore h.2
      refine ⟨front ++ behind, ?_⟩
      rw [outcome_discover_cons, hfront, hbehind]
      rfl

/-! ### Calls of `generate` -/

/-- **A call of `generate` makes the schedule of what it discovers**, or fails as discovery does. -/
theorem outcome_generate_eq {p : Planner (StateM σ)} {world : σ} {records : List TimingRecord}
    (h : (ask p.timings world).1.outcome = .ok records) :
    (ask p.generate world).1.1.outcome =
      (ask (discover p.sources) (ask p.timings world).2).1.outcome.map fun groups =>
        (Plan.schedule p.forkCount groups records).1 := by
  unfold generate
  simp only [ask_bind, h]
  cases (ask (discover p.sources) (ask p.timings world).2).1.outcome with
  | error e => rfl
  | ok groups => rfl

/-- What the collaborators of a planner answer in a world: the provider some records, and then each
source a list of patterns. -/
structure Hears (p : Planner (StateM σ)) (world : σ) (records : List TimingRecord)
    (lists : List (List String)) : Prop where
  timings : (ask p.timings world).1.outcome = .ok records
  sources : (answersOf p.sources (ask p.timings world).2).mapM Reply.outcome = .ok lists

/-! ### The order of the records -/

/-- **The order of the timing records does not matter** if records with one name have one duration.
Of two planners for as many forks, whose sources give the same answers for the same tasks, and whose
providers answer the same records in any order, the one fails as the other does, or both return plans
that are alike; the plans are the same if records with one name do not differ in the sign of a zero
either. -/
theorem alike_of_perm_records {p : Planner (StateM σ)} {p' : Planner (StateM τ)} {world : σ} {world' : τ}
    {records records' : List TimingRecord} (hcount : p.forkCount = p'.forkCount)
    (hrecords : (ask p.timings world).1.outcome = .ok records)
    (hrecords' : (ask p'.timings world').1.outcome = .ok records')
    (htasks : p.sources.map Source.task = p'.sources.map Source.task)
    (hanswers : (answersOf p.sources (ask p.timings world).2).map Reply.outcome =
      (answersOf p'.sources (ask p'.timings world').2).map Reply.outcome)
    (hperm : records.Perm records')
    (same : ∀ r ∈ records, ∀ s ∈ records, r.name = s.name → (r.duration == s.duration) = true) :
    (∀ e, (ask p.generate world).1.1.outcome = .error e →
        (ask p'.generate world').1.1.outcome = .error e) ∧
      ∀ plan, (ask p.generate world).1.1.outcome = .ok plan →
        ∃ plan', (ask p'.generate world').1.1.outcome = .ok plan' ∧ plan.Alike plan' ∧
          ((∀ r ∈ records, ∀ s ∈ records, r.name = s.name → r.duration = s.duration) →
            plan = plan') := by
  rw [outcome_generate_eq hrecords, outcome_generate_eq hrecords', ← hcount,
    ← outcome_discover_congr htasks hanswers]
  cases (ask (discover p.sources) (ask p.timings world).2).1.outcome with
  | error e => exact ⟨fun _ h => h, fun _ h => by cases h⟩
  | ok groups =>
      refine ⟨fun _ h => (by cases h), fun plan h => ?_⟩
      obtain rfl := Except.ok.inj h
      exact ⟨_, rfl, Plan.alike_schedule p.at_least_one groups hperm same, fun hsame =>
        congrArg Prod.fst (Plan.schedule_eq_of_perm p.forkCount groups hperm hsame)⟩

end Planner

/-- Earlier runs of a small suite, in which a test took no time, told with either sign. -/
def signedHistory : List TimingRecord :=
  [⟨"db1", 0.0, by decide +kernel, by decide +kernel⟩,
    ⟨"web1", 25.0, by decide +kernel, by decide +kernel⟩,
    ⟨"db1", -0.0, by decide +kernel, by decide +kernel⟩]

/-- A planner for two forks with two sources. -/
def pairPlanner (records : List TimingRecord) (first second : List String) : Planner (StateM Unit) where
  forkCount := 2
  at_least_one := Nat.two_pos
  timings := pure ⟨.ok records, []⟩
  sources := [⟨pure ⟨.ok first, []⟩, .name "7"⟩, ⟨pure ⟨.ok second, []⟩, .number 7⟩]

namespace Planner

/-- The signed history makes alike plans forwards and backwards. -/
theorem alike_of_perm_records_signed : ∃ plan plan',
    (∀ r ∈ signedHistory, ∀ s ∈ signedHistory, r.name = s.name →
      (r.duration == s.duration) = true) ∧
    (ask (pairPlanner signedHistory ["db*", "web*"] ["db1*"]).generate ()).1.1.outcome =
      .ok plan ∧
    (ask (pairPlanner signedHistory.reverse ["db*", "web*"] ["db1*"]).generate ()).1.1.outcome =
      .ok plan' ∧ plan.Alike plan' := by
  have same : ∀ r ∈ signedHistory, ∀ s ∈ signedHistory, r.name = s.name →
      (r.duration == s.duration) = true := by
    intro r hr s hs
    simp only [signedHistory, List.mem_cons, List.not_mem_nil, or_false] at hr hs
    rcases hr with rfl | rfl | rfl <;> rcases hs with rfl | rfl | rfl <;> decide +kernel
  have hrecords : (ask (pairPlanner signedHistory ["db*", "web*"] ["db1*"]).timings
      ()).1.outcome = .ok signedHistory := rfl
  have hrecords' : (ask (pairPlanner signedHistory.reverse ["db*", "web*"] ["db1*"]).timings
      ()).1.outcome = .ok signedHistory.reverse := rfl
  obtain ⟨-, halike⟩ := alike_of_perm_records (by rfl) hrecords hrecords' rfl rfl
    (List.reverse_perm _).symm same
  obtain ⟨plan', houtcome, h, -⟩ := halike _ rfl
  exact ⟨_, plan', same, rfl, houtcome, h⟩

/-! ### The order of discovery -/

/-- **The order of discovery does not change the loads.**  Of two planners for as many forks, whose
providers answer the same records and whose sources list the same patterns in any order and for any
tasks, the one returns a plan if the other does, with the same load on each fork and the same
makespan. -/
theorem loads_generate {p : Planner (StateM σ)} {p' : Planner (StateM τ)} {world : σ} {world' : τ}
    {records : List TimingRecord} {lists lists' : List (List String)} {plan : Plan}
    (hcount : p.forkCount = p'.forkCount) (hears : p.Hears world records lists)
    (hears' : p'.Hears world' records lists') (hperm : lists.flatten.Perm lists'.flatten)
    (h : (ask p.generate world).1.1.outcome = .ok plan) :
    ∃ plan', (ask p'.generate world').1.1.outcome = .ok plan' ∧ plan.loads = plan'.loads ∧
      plan.makespan = plan'.makespan := by
  rw [outcome_generate_eq hears.timings] at h
  cases hfound : (ask (discover p.sources) (ask p.timings world).2).1.outcome with
  | error e =>
      rw [hfound] at h
      cases h
  | ok groups =>
      rw [hfound] at h
      obtain rfl := Except.ok.inj h
      have hpatterns := map_pattern_discover hears.sources hfound
      -- what the one discovers ends in wildcards, so the other discovers it too
      obtain ⟨groups', hfound'⟩ := exists_discover hears'.sources fun pattern hpattern => by
        rw [← hperm.mem_iff, ← hpatterns] at hpattern
        obtain ⟨g, -, rfl⟩ := List.mem_map.mp hpattern
        exact g.ends_with_wildcard
      have hpatterns' := map_pattern_discover hears'.sources hfound'
      have hgroups : (groups.map Group.pattern).Perm (groups'.map Group.pattern) := by
        rwa [hpatterns, hpatterns']
      have hloads := Plan.loads_schedule_of_perm p.at_least_one hgroups records
      rw [outcome_generate_eq hears'.timings, hfound', ← hcount]
      exact ⟨_, rfl, hloads, Plan.makespan_congr hloads⟩

/-- Of three patterns two change their tasks, and all their places. -/
theorem loads_generate_swapped : ∃ plan plan',
    (pairPlanner signedHistory ["db*", "web*"] ["db1*"]).Hears () signedHistory
      [["db*", "web*"], ["db1*"]] ∧
    (pairPlanner signedHistory ["db1*"] ["web*", "db*"]).Hears () signedHistory
      [["db1*"], ["web*", "db*"]] ∧
    (ask (pairPlanner signedHistory ["db*", "web*"] ["db1*"]).generate ()).1.1.outcome =
      .ok plan ∧
    (ask (pairPlanner signedHistory ["db1*"] ["web*", "db*"]).generate ()).1.1.outcome =
      .ok plan' ∧ plan.loads = plan'.loads ∧ plan.makespan = plan'.makespan := by
  have hears : (pairPlanner signedHistory ["db*", "web*"] ["db1*"]).Hears () signedHistory
      [["db*", "web*"], ["db1*"]] := ⟨rfl, rfl⟩
  have hears' : (pairPlanner signedHistory ["db1*"] ["web*", "db*"]).Hears () signedHistory
      [["db1*"], ["web*", "db*"]] := ⟨rfl, rfl⟩
  obtain ⟨plan', houtcome, h⟩ := loads_generate (by rfl) hears hears' (by decide) rfl
  exact ⟨_, plan', hears, hears', rfl, houtcome, h⟩

end Planner

end SuiteBalance
