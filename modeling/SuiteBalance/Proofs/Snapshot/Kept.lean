import Mathlib
import SuiteBalance.Proofs.Snapshot.RoundTrip

/-!
# Proofs — Snapshot — tasks with one text

A plan file tells tasks apart by their texts.  Where a number and a name on one fork have the same
text, the file keeps the patterns of the last of them, and those of the other are lost.

* **`Fork.patternsWith`**: the patterns of all tasks with a text.
* `Fork.keptPatterns_sublist`: what is kept is among them.
* `Fork.subperm_keptPatterns_iff`: all are kept if and only if one task at most has the text.
* **`Planner.testsFor_load_generate`**: so it is with the files of the plans that a planner makes.
-/

namespace SuiteBalance

namespace Fork

/-- The patterns of all tasks with a text, in the order in which their buckets came. -/
def patternsWith (f : Fork) (t : Text) : List String :=
  (f.buckets.filter (·.task.text = t)).map Bucket.pattern

variable {f : Fork} {t : Text}

/-- The buckets of a task are among those of all tasks with its text. -/
theorem filter_task_eq {u : Task} (h : u.text = t) (buckets : List Bucket) :
    buckets.filter (·.task = u) = (buckets.filter (·.task.text = t)).filter (·.task = u) := by
  rw [List.filter_filter]
  refine List.filter_congr fun b _ => ?_
  by_cases hb : b.task = u
  · simp [hb, h]
  · simp [hb]

theorem keptPatterns_eq_of_lastTask? (hfrozen : f.isFrozen = true) {u : Task}
    (h : f.lastTask? t = some u) :
    f.keptPatterns t =
      ((f.buckets.filter (·.task.text = t)).filter (·.task = u)).map Bucket.pattern := by
  rw [keptPatterns, h, ← filter_task_eq (of_lastTask? h).2, ← patternsOf_eq hfrozen]
  rfl

/-- **What is kept under a text is among the patterns with it.** -/
theorem keptPatterns_sublist (hfrozen : f.isFrozen = true) (t : Text) :
    (f.keptPatterns t).Sublist (f.patternsWith t) := by
  cases hlast : f.lastTask? t with
  | some u =>
      rw [keptPatterns_eq_of_lastTask? hfrozen hlast]
      exact List.filter_sublist.map _
  | none =>
      rw [keptPatterns, hlast]
      exact List.nil_sublist _

/-- Without another task with the text, all buckets with the text are the last task's. -/
theorem filter_task_eq_self (hfrozen : f.isFrozen = true) {u : Task}
    (h : ∀ v ∈ f.taskList, v.text = t → v = u) :
    (f.buckets.filter (·.task.text = t)).filter (·.task = u) =
      f.buckets.filter (·.task.text = t) := by
  rw [List.filter_eq_self]
  intro b hb
  obtain ⟨hmem, htext⟩ := List.mem_filter.mp hb
  have htask := (mem_taskList hfrozen).mpr ⟨b, hmem, rfl⟩
  exact decide_eq_true (h b.task htask (of_decide_eq_true htext))

/-- **All patterns with a text are kept if and only if one task at most has it.** -/
theorem subperm_keptPatterns_iff (hfrozen : f.isFrozen = true) :
    (f.patternsWith t).Subperm (f.keptPatterns t) ↔
      ∀ u ∈ f.taskList, ∀ v ∈ f.taskList, u.text = t → v.text = t → u = v := by
  constructor
  · intro hkept
    -- a task that is not the last has a bucket which is not counted, so that less is kept
    suffices h : ∀ v ∈ f.taskList, v.text = t → f.lastTask? t = some v by
      intro u hu v hv hut hvt
      exact Option.some_inj.mp ((h u hu hut).symm.trans (h v hv hvt))
    intro v hv hvt
    cases hlast : f.lastTask? t with
    | none => exact absurd hvt (text_ne_of_lastTask? hlast hv)
    | some u =>
        by_contra hne
        obtain ⟨b, hb, rfl⟩ := (mem_taskList hfrozen).mp hv
        have hless : ((f.buckets.filter (·.task.text = t)).filter (·.task = u)).length <
            (f.buckets.filter (·.task.text = t)).length := by
          rw [List.length_filter_lt_length_iff_exists]
          refine ⟨b, List.mem_filter.mpr ⟨hb, decide_eq_true hvt⟩, ?_⟩
          rw [decide_eq_true_iff]
          rintro rfl
          exact hne rfl
        have hle := hkept.length_le
        rw [keptPatterns_eq_of_lastTask? hfrozen hlast, patternsWith, List.length_map,
          List.length_map] at hle
        exact absurd hle (not_le.mpr hless)
  · intro hone
    cases hlast : f.lastTask? t with
    | some u =>
        obtain ⟨hu, hut⟩ := of_lastTask? hlast
        rw [keptPatterns_eq_of_lastTask? hfrozen hlast,
          filter_task_eq_self hfrozen fun v hv hvt => hone v hv u hu hvt hut]
        exact List.Subperm.refl _
    | none =>
        have hnone : f.buckets.filter (·.task.text = t) = [] := by
          rw [List.filter_eq_nil_iff]
          exact fun b hb hbt => text_ne_of_lastTask? hlast
            ((mem_taskList hfrozen).mpr ⟨b, hb, rfl⟩) (of_decide_eq_true hbt)
        rw [patternsWith, hnone]
        exact List.nil_subperm

end Fork

/-! ### The plans of planners -/

namespace Planner

/-- The forks of a plan that a planner makes are as many as it has and stand at their indices. -/
theorem forks_generate {p : Planner Id} {plan : Plan}
    (h : (Id.run p.generate).1.outcome = .ok plan) :
    plan.forkCount = p.forkCount ∧ plan.forks ≠ [] ∧ plan.Numbered := by
  obtain ⟨records, groups, -, -, rfl⟩ := generate_ok h
  have hlength := Plan.length_forks_schedule p.at_least_one groups records
  refine ⟨hlength, ?_, Plan.numbered_schedule p.at_least_one groups records⟩
  rw [← List.length_pos_iff, hlength]
  exact p.at_least_one

/-- **What the file of a plan says of a text on a fork.**  The plan is made of tasks of any kind that
can be written, of whose texts none has surrogates that make a pair.  Then the plan is loaded from
its file, and the answer for a text is what the last task with that text runs; these are patterns of
the text, and all of them if and only if one task at most on the fork has the text. -/
theorem testsFor_load_generate [Json.Levels] {p : Planner Id} {plan : Plan}
    (h : (Id.run p.generate).1.outcome = .ok plan)
    (hcount : Number.isWritable p.forkCount = true)
    (hwritable : ∀ t ∈ plan.tasks, t.isWritable = true)
    (htexts : ∀ t ∈ plan.tasks, t.text.Unpaired) :
    ∃ text s, plan.fileText = .ok text ∧ Snapshot.ofBytes text.toUTF8.toList = .ok s ∧
      (∀ (path : Path) (w w' : Workspace), ask (plan.save path) w = (.ok (), w') →
        w'.kind path = .ok .file → ask (Snapshot.load path) w' = (.ok s, w')) ∧
      ∀ (w : ℕ) f, plan.forks[w]? = some f → ∀ t,
        s.testsFor w t = .ok ((f.keptPatterns t).map Text.ofString) ∧
        (f.keptPatterns t).Sublist (f.patternsWith t) ∧
        ((f.patternsWith t).Subperm (f.keptPatterns t) ↔
          ∀ u ∈ f.taskList, ∀ v ∈ f.taskList, u.text = t → v.text = t → u = v) := by
  obtain ⟨hlength, hne, hnumbered⟩ := forks_generate h
  have hforkTexts : ∀ f ∈ plan.forks, ∀ t ∈ f.taskList, t.text.Unpaired := by
    intro f hf t ht
    exact htexts t (List.mem_eraseDups.mpr (List.mem_flatMap.mpr ⟨f, hf, ht⟩))
  obtain ⟨text, s, htext, hread, hforks⟩ :=
    Plan.ofBytes_fileText_of_unpaired hnumbered hne (hlength ▸ hcount)
      (List.all_eq_true.mpr hwritable) hforkTexts
  refine ⟨text, s, htext, hread, fun path w w' hsave hkind => ?_, fun w f hf t => ?_⟩
  · rw [Plan.load_save htext hsave hkind, hread]
  · have hfrozen := plan.frozen f (List.mem_of_getElem? hf)
    refine ⟨?_, Fork.keptPatterns_sublist hfrozen t, Fork.subperm_keptPatterns_iff hfrozen⟩
    rw [Snapshot.testsFor_eq_kept hforks, Plan.worker_eq, hf]
    rfl

end Planner

/-- A planner for one fork: a number and a name that is written like it each have a pattern. -/
def mixedPlanner : Planner Id where
  forkCount := 1
  at_least_one := Nat.one_pos
  timings := pure ⟨.ok [], []⟩
  sources := [⟨pure ⟨.ok ["slow*"], []⟩, .number 7⟩, ⟨pure ⟨.ok ["fast*"], []⟩, .name "7"⟩]

/-- A fork with a bucket of the number and one of the name. -/
structure Fork.Mixed (f : Fork) : Prop where
  taskList : f.taskList = [.number 7, .name "7"]
  patternsWith : f.patternsWith "7" = ["slow*", "fast*"]
  keptPatterns : f.keptPatterns "7" = ["fast*"]
  patternsOf : f.patternsOf (.number 7) = ["slow*"]

/-- The planner's plan has one such fork. -/
theorem Planner.generate_mixed : ∃ plan f,
    (Id.run mixedPlanner.generate).1.outcome = .ok plan ∧ plan.forks = [f] ∧ f.Mixed := by
  obtain ⟨f, hf, hbuckets⟩ := Plan.forks_schedule_one
    [⟨"slow*", .number 7, by decide⟩, ⟨"fast*", .name "7", by decide⟩] []
  rw [Plan.givenOut_nil] at hbuckets
  have hfrozen : f.isFrozen = true := Plan.frozen _ f (hf ▸ List.mem_singleton_self f)
  have htasks : f.taskList = [.number 7, .name "7"] := by
    rw [Fork.taskList_eq hfrozen, hbuckets]
    rfl
  have hlast : f.lastTask? "7" = some (.name "7") := by
    rw [Fork.lastTask?, htasks]
    rfl
  refine ⟨_, f, rfl, hf, htasks, ?_, ?_, ?_⟩
  · rw [Fork.patternsWith, hbuckets]
    rfl
  · rw [Fork.keptPatterns, hlast, Option.map_some, Fork.patternsOf_eq hfrozen, hbuckets]
    rfl
  · rw [Fork.patternsOf_eq hfrozen, hbuckets]
    rfl

/-- The name and the number can be written. -/
theorem Fork.Mixed.isWritable {f : Fork} (h : f.Mixed) : ∀ t ∈ f.taskList, t.isWritable = true := by
  intro t ht
  simp only [h.taskList, List.mem_cons, List.not_mem_nil, or_false] at ht
  rcases ht with rfl | rfl
  · exact Json.isWritable_of_lt (by decide : 7 < 2 ^ 64)
  · rfl

/-- What the name and the number have in common makes no pair of surrogates. -/
theorem Fork.Mixed.unpaired {f : Fork} (h : f.Mixed) : ∀ t ∈ f.taskList, t.text.Unpaired := by
  intro t ht
  simp only [h.taskList, List.mem_cons, List.not_mem_nil, or_false] at ht
  rcases ht with rfl | rfl
  · exact Text.unpaired_ofString _
  · exact Text.unpaired_ofString _

/-- The snapshot of the plan answers with one of the two patterns. -/
theorem Planner.testsFor_load_generate_mixed : ∃ (plan : Plan) (s : Snapshot) (f : Fork),
    (Id.run mixedPlanner.generate).1.outcome = .ok plan ∧
      Number.isWritable mixedPlanner.forkCount = true ∧
      (∀ t ∈ plan.tasks, t.isWritable = true) ∧ (∀ t ∈ plan.tasks, t.text.Unpaired) ∧
      plan.forks[0]? = some f ∧ s.testsFor 0 "7" = .ok ["fast*"] ∧
      ¬(f.patternsWith "7").Subperm (f.keptPatterns "7") := by
  obtain ⟨plan, f, houtcome, hforks, hmixed⟩ := generate_mixed
  have hcount : Number.isWritable mixedPlanner.forkCount = true :=
    Json.isWritable_of_lt (by decide : 1 < 2 ^ 64)
  have htasks : plan.tasks = f.taskList.eraseDups := by
    rw [Plan.tasks, hforks, List.flatMap_singleton]
  have hwritable : ∀ t ∈ plan.tasks, t.isWritable = true := by
    rw [htasks]
    exact fun t ht => hmixed.isWritable t (List.mem_eraseDups.mp ht)
  have htexts : ∀ t ∈ plan.tasks, t.text.Unpaired := by
    rw [htasks]
    exact fun t ht => hmixed.unpaired t (List.mem_eraseDups.mp ht)
  have hget : plan.forks[0]? = some f := by rw [hforks]; rfl
  obtain ⟨text, s, -, -, -, hanswer⟩ := testsFor_load_generate houtcome hcount hwritable htexts
  obtain ⟨htests, -, hkept⟩ := hanswer 0 f hget "7"
  rw [hmixed.keptPatterns] at htests
  refine ⟨plan, s, f, houtcome, hcount, hwritable, htexts, hget, htests, fun h => ?_⟩
  have heq := hkept.mp h (.number 7) (by rw [hmixed.taskList]; exact List.mem_cons_self ..)
    (.name "7") (by rw [hmixed.taskList]; simp) rfl rfl
  cases heq

/-- **The file of the plan loses the pattern of the number.**  Both tasks are written `7`, and what
is loaded from the file answers for that text with the pattern of the name alone. -/
theorem Planner.lost_mixed : ∃ plan text s,
    (Id.run mixedPlanner.generate).1.outcome = .ok plan ∧ plan.fileText = .ok text ∧
      Snapshot.ofBytes text.toUTF8.toList = .ok s ∧ (Task.number 7).text = "7" ∧
      plan.testsFor 0 (.number 7) = .ok ["slow*"] ∧ s.testsFor 0 "7" = .ok ["fast*"] ∧
      "slow*" ∉ ["fast*"] := by
  obtain ⟨plan, f, houtcome, hforks, hmixed⟩ := generate_mixed
  obtain ⟨hlength, hne, hnumbered⟩ := forks_generate houtcome
  have hget : plan.forks[0]? = some f := by rw [hforks]; rfl
  have hcount : Number.isWritable plan.forkCount = true := by
    rw [hlength]
    exact Json.isWritable_of_lt (by decide : 1 < 2 ^ 64)
  have hwritable : plan.isWritable = true := by
    rw [Plan.isWritable, Plan.tasks, hforks, List.flatMap_singleton]
    exact List.all_eq_true.mpr fun t ht => hmixed.isWritable t (List.mem_eraseDups.mp ht)
  have htexts : ∀ f ∈ plan.forks, ∀ t ∈ f.taskList, t.text.Unpaired := by
    rw [hforks, List.forall_mem_singleton]
    exact hmixed.unpaired
  obtain ⟨text, s, htext, hread, hsnapshots⟩ :=
    Plan.ofBytes_fileText_of_unpaired hnumbered hne hcount hwritable htexts
  refine ⟨plan, text, s, houtcome, htext, hread, rfl, ?_, ?_, by simp⟩
  · have hanswer := plan.testsFor_eq 0 (.number 7)
    rw [hget] at hanswer
    exact hanswer.trans (congrArg Except.ok hmixed.patternsOf)
  · have hanswer := Snapshot.testsFor_eq_kept hsnapshots (0 : ℕ) "7"
    rw [Plan.worker_eq, hget] at hanswer
    refine hanswer.trans ?_
    exact congrArg (fun names => Except.ok (names.map Text.ofString)) hmixed.keptPatterns

end SuiteBalance
