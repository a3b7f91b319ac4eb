import Mathlib
import SuiteBalance.Proofs.Command.Written

/-!
# Proofs — Commands — the views of a plan

A plan that was written to a file is asked for by the file, made anew from the project, and listed
as a document.

* **`SameView`**: what the user sees of two calls is the same.
* `Makes.answered`, `Writes.answered`: the answers of a project and of a plan file.
* **`views_agree`**: the three views of a plan agree, and `views_differ`: where they do not.
-/

namespace SuiteBalance.Command

open Call Workspace Terminal

variable {w v w' : Workspace} {r : Request} {s : Settings} {plan : Plan} {choices : List Choice}
  {file : String}

/-! ### Questions -/

/-- The arguments of a call that asks a project for the patterns of a task on a fork. -/
def testsArguments (choices : List Choice) (worker task : String) : List String :=
  "tests" :: (Choice.arguments choices ++ ["--worker", worker, "--task", task])

/-- The arguments of a call that asks a plan file. -/
def testsFileArguments (choices : List Choice) (file worker task : String) : List String :=
  "tests" :: (Choice.arguments choices ++ ["--plan", file, "--worker", worker, "--task", task])

/-- A value that names something is not empty. -/
theorem of_kindOfValue {kind : FileKind}
    (h : ask (kindOfValue file) w = (.ok (some kind), v)) :
    file ≠ "" ∧ w.kind (Path.ofText file) = .ok kind := by
  have hask : ask (Host.kind (Path.ofText file) : StateM Workspace _) w =
    (w.kind (Path.ofText file), w) := rfl
  unfold kindOfValue at h
  dsimp only at h
  split_ifs at h with hname hempty
  · cases congrArg Prod.fst h
  · cases congrArg Prod.fst h
  · rw [ask_bind, hask] at h
    have hfound := Except.ok.inj (congrArg Prod.fst h)
    dsimp only at hfound
    split_ifs at hfound
    refine ⟨hempty, ?_⟩
    cases hkind : w.kind (Path.ofText file) with
    | ok found =>
        rw [hkind] at hfound
        exact congrArg Except.ok (Option.some_inj.mp hfound)
    | error e =>
        rw [hkind] at hfound
        cases hfound

/-- A value that names a file is one that a plan file may have. -/
theorem ask_existingFileValue (h : ask (kindOfValue file) w = (.ok (some .file), w)) :
    ask (existingFileValue file) w = (.ok file, w) := by
  rw [existingFileValue, ask_bind, h]
  rfl

/-- What the user sees of two calls is the same. -/
structure SameView (a b : (Except Failed Unit × Transcript) × Workspace) : Prop where
  outcome : a.1.1 = b.1.1
  output : a.1.2.output = b.1.2.output
  printed : a.1.2.printed = b.1.2.printed

theorem Answered.sameView {answer : Except PlanError (List String)}
    {a b : (Except Failed Unit × Transcript) × Workspace} (ha : Answered answer w a)
    (hb : Answered answer w b) : SameView a b :=
  ⟨ha.outcome.trans hb.outcome.symm, ha.output.trans hb.output.symm,
    ha.printed.trans hb.printed.symm⟩

section

variable [Platform]

/-- A call that asks, if it asks for a fork. -/
theorem perform_asking {arguments : List String} {worker task : String}
    (h : ask (Request.ofArguments .tests arguments) w = (r.asking worker task, w)) :
    perform (runArguments ("tests" :: arguments)) {} w =
      match integerValue worker with
      | .ok i => perform (runTests { r with worker? := some i, task? := some task }) {} w
      | .error why => ((.error (.usage (.badValue "--worker" why)), {}), w) := by
  refine (perform_runArguments .tests arguments).trans ?_
  rw [h, Request.asking]
  cases integerValue worker <;> rfl

/-- **The answer of a project in which a plan is made.** -/
theorem Makes.answered (h : Makes r s plan w) (hchoices : Planning choices)
    (hrequest : ask (planningRequest choices) w = (.ok r, w)) (hsame : SameCall {} r)
    {worker : String} {i : ℤ} (hworker : integerValue worker = .ok i) (task : String) :
    Answered (plan.testsFor i (.name task)) w
      (perform (runArguments (testsArguments choices worker task)) {} w) := by
  obtain ⟨made, planned, hload, hmake, houtput, hprinted⟩ := h
  rw [testsArguments, perform_asking (ask_asking hchoices hrequest worker task), hworker]
  dsimp only
  rw [runTests_eq]
  dsimp only
  rw [hsame.planFile?]
  exact answered_testsOfProject hload hmake houtput hprinted i task

/-- **The answer of a plan file.** -/
theorem Writes.answered {project : Project choices w} (h : Writes project file plan w')
    (hcount : Number.isWritable project.settings.forks = true)
    (htasks : ∀ source ∈ project.settings.sources, source.task.Unpaired)
    (hfile : ask (kindOfValue file) w' = (.ok (some .file), w')) {given : List Choice}
    (hgiven : Planning given) (hrequest : ask (planningRequest given) w' = (.ok r, w'))
    {worker : String} {i : ℤ} (hworker : integerValue worker = .ok i) (task : String) :
    Answered (plan.testsFor i (.name task)) w'
      (perform (runArguments (testsFileArguments given file worker task)) {} w') := by
  have hforks : Number.isWritable plan.forkCount = true := by
    rw [Json.isWritable_iff] at hcount ⊢
    rw [h.planned.forkCount]
    exact hcount.trans_le' (by omega)
  have htexts : ∀ f ∈ plan.forks, ∀ t ∈ f.taskList, t.text.Unpaired := by
    intro f hf t ht
    obtain ⟨source, hsource, rfl⟩ := h.planned.tasks f hf t ht
    exact htasks source hsource
  obtain ⟨text, snapshot, htext, hread, hsnapshot⟩ :=
    Plan.ofBytes_fileText_of_unpaired h.planned.numbered h.planned.forks_ne_nil hforks
      (Plan.isWritable_of_isName h.planned.isName) htexts
  have hload := Plan.load_save htext h.saved (of_kindOfValue hfile).2
  rw [hread] at hload
  rw [testsFileArguments, perform_asking (ask_plan_asking hgiven hrequest
    (ask_existingFileValue hfile) worker task), hworker]
  dsimp only
  rw [runTests_eq]
  exact answered_testsOfFile hload i task (Snapshot.testsFor_eq hsnapshot h.planned.isName i task)

/-- **The three views of a plan agree.**  A plan was written to a file, which is named as it was
given and none of those that are read for the project, and of these none has come to be.  Then the
file answers each question as the project does; a document of the plan is shown, with and without
the file; and for a fork that there is the answer are the names that the document lists for it, and
a fault in the usage otherwise. -/
theorem views_agree (hchoices : Planning choices) (project : Project choices w) {t : Transcript}
    (hplan : perform (runArguments (planArguments choices ["--output", file])) {} w =
      ((.ok (), t), w'))
    (hfile : ask (kindOfValue file) w' = (.ok (some .file), w'))
    (hapart : ∀ p ∈ inputs w.directory project.request project.settings,
      w'.place p ≠ w'.place (Path.ofText file))
    (habsent : ∀ p ∈ inputs w.directory project.request project.settings,
      w.standing p = .ok none → w'.standing p = .ok none)
    (hcount : Number.isWritable project.settings.forks = true)
    (htasks : ∀ source ∈ project.settings.sources, source.task.Unpaired) :
    (∀ worker task, ∀ given ∈ [[], choices],
      SameView (perform (runArguments (testsFileArguments given file worker task)) {} w')
        (perform (runArguments (testsArguments choices worker task)) {} w')) ∧
    ∃ doc : Json,
      (∃ t, perform (runArguments (planArguments choices ["--output", file, "--json"])) {} w =
        ((.ok (), t), w') ∧ t.output = doc.document ++ "\n") ∧
      (∀ t u, perform (runArguments (planArguments choices ["--json"])) {} w' = ((.ok (), t), u) →
        t.output = doc.document ++ "\n") ∧
      ∀ (worker : String) (i : ℤ) (task : String), integerValue worker = .ok i →
        if 0 ≤ i ∧ i < project.settings.forks then
          ∃ names t, listedNames? doc i task = some (names.map Text.ofString) ∧
            perform (runArguments (testsArguments choices worker task)) {} w' = ((.ok (), t), w') ∧
            t.output = lines names
        else ∃ text t, perform (runArguments (testsArguments choices worker task)) {} w' =
          ((.error (.usage (.refused text)), t), w') := by
  obtain ⟨hnonempty, -⟩ := of_kindOfValue hfile
  obtain ⟨plan, hwrites⟩ := writes_of_perform hchoices project hnonempty hplan
  obtain ⟨hrequest, hsame, hmakes⟩ := hwrites.again hchoices hapart habsent
  obtain ⟨doc, hdoc⟩ := Plan.exists_summaryDocument hwrites.planned.forks_ne_nil
  refine ⟨fun worker task given hgiven => ?_, doc, hwrites.perform_json hchoices hnonempty hdoc,
    fun t u hrun => hmakes.output_json hchoices hrequest hdoc hrun,
    fun worker i task hworker => ?_⟩
  · -- the planning options are read in any case, and are not needed where a file is asked
    obtain ⟨hplanning, r, hr⟩ :
        Planning given ∧ ∃ r, ask (planningRequest given) w' = (.ok r, w') := by
      rcases List.mem_pair.mp hgiven with rfl | rfl
      · exact ⟨List.forall_mem_nil _, {}, rfl⟩
      · exact ⟨hchoices, _, hrequest⟩
    cases hworker : integerValue worker with
    | ok i =>
        exact (hwrites.answered hcount htasks hfile hplanning hr hworker task).sameView
          (hmakes.answered hchoices hrequest hsame hworker task)
    | error why =>
        rw [testsFileArguments, testsArguments, perform_asking (ask_plan_asking hplanning hr
          (ask_existingFileValue hfile) worker task),
          perform_asking (ask_asking hchoices hrequest worker task), hworker]
        exact ⟨rfl, rfl, rfl⟩
  · have hanswered := hmakes.answered hchoices hrequest hsame hworker task
    have hlisted := Plan.listedNames?_summaryDocument hdoc hwrites.planned.numbered
      hwrites.planned.isName i task
    have hrange := plan.exists_testsFor_iff i (.name task)
    rw [hwrites.planned.forkCount] at hrange
    cases hanswer : plan.testsFor i (.name task) with
    | ok names =>
        rw [hanswer] at hanswered hlisted
        rw [if_pos (by have := hrange.mp ⟨names, hanswer⟩; omega)]
        obtain ⟨t, hrun, houtput⟩ := hanswered.of_ok
        exact ⟨names, t, hlisted, hrun, houtput⟩
    | error e =>
        rw [hanswer] at hanswered
        rw [if_neg fun hin => ?_]
        · exact ⟨_, hanswered.of_error⟩
        · obtain ⟨names, hnames⟩ := hrange.mpr (by omega)
          rw [hanswer] at hnames
          cases hnames

end

/-! ### Small projects -/

/-- A call that succeeds. -/
theorem eq_of_toBool (result : (Except Failed Unit × Transcript) × Workspace)
    (h : result.1.1.toBool = true) : result = ((.ok (), result.1.2), result.2) := by
  obtain ⟨⟨outcome, t⟩, w⟩ := result
  cases outcome with
  | ok _ => rfl
  | error e => cases h

/-- A workspace with one file, which lists a pattern that a terminal shows in bold. -/
def boldWorkspace : Workspace :=
  { nodes := [(["unit.txt"], .file [27, 91, 49, 109, 102, 97, 115, 116, 42, 10])] }

/-- The pattern, with a control sequence in front. -/
def boldPattern : String := "\x1b[1mfast*"

/-- The options that name the file as a source. -/
def boldChoices : List Choice := [⟨"--source", "unit=unit.txt"⟩]

/-- The project of the options. -/
def boldProject : Project boldChoices boldWorkspace where
  request := { sources := [⟨"unit", "unit.txt"⟩] }
  settings := { root := ⟨.root, []⟩, sources := [⟨"unit", "/unit.txt"⟩] }
  requested := rfl
  loaded := ⟨_, rfl⟩

/-- The plan of the project. -/
def boldPlan : Plan := (Plan.schedule 1 [⟨boldPattern, .name "unit", by decide⟩] []).1

theorem makes_bold : Makes boldProject.request boldProject.settings boldPlan boldWorkspace :=
  ⟨_, _, rfl, rfl, rfl, rfl⟩

theorem testsFor_boldPlan : boldPlan.testsFor 0 (.name "unit") = .ok [boldPattern] := by
  decide +kernel

/-- The plan is written to a file. -/
theorem writes_bold : Writes boldProject "plan.json" boldPlan
    (ask (boldPlan.save (Path.ofText "plan.json")) boldWorkspace).2 := by
  obtain ⟨made, planned, hload, hmake, -, -⟩ := makes_bold
  obtain ⟨-, -, hmakes, hplanned⟩ := makes_again rfl rfl (fun _ _ => rfl) hload hmake
  exact ⟨rfl, hmakes, Prod.ext (by decide +kernel) rfl, hplanned⟩

/-- The three views of the plan of the project agree. -/
theorem views_agree_bold : ∃ t w' doc names t',
    perform (runArguments (planArguments boldChoices ["--output", "plan.json"])) {} boldWorkspace =
      ((.ok (), t), w') ∧
    SameView (perform (runArguments (testsFileArguments [] "plan.json" "0" "unit")) {} w')
      (perform (runArguments (testsArguments boldChoices "0" "unit")) {} w') ∧
    listedNames? doc 0 "unit" = some (names.map Text.ofString) ∧
    perform (runArguments (testsArguments boldChoices "0" "unit")) {} w' = ((.ok (), t'), w') ∧
    t'.output = lines names := by
  have hplan := eq_of_toBool (perform (runArguments
    (planArguments boldChoices ["--output", "plan.json"])) {} boldWorkspace) (by decide +kernel)
  obtain ⟨hsame, doc, -, -, hlisted⟩ := views_agree (by decide) boldProject hplan
    (Prod.ext (by decide +kernel) rfl) (by decide +kernel) (by decide +kernel)
    (Json.isWritable_of_lt (by decide : 1 < 2 ^ 64)) (List.forall_mem_singleton.mpr (by decide))
  obtain ⟨names, t', hnames, hrun, houtput⟩ := hlisted "0" 0 "unit" rfl
  exact ⟨_, _, doc, names, t', hplan, hsame _ _ _ (List.mem_cons_self ..), hnames, hrun, houtput⟩

/-- A workspace whose configuration names a task by two surrogates that make a pair: its one source
is `{task: "\ud83d\ude00", path: unit.txt}`. -/
def pairWorkspace : Workspace :=
  { nodes :=
      [([Settings.fileName], .file
        [115, 111, 117, 114, 99, 101, 115, 58, 10, 45, 32, 123, 116, 97, 115, 107, 58, 32, 34, 92,
          117, 100, 56, 51, 100, 92, 117, 100, 101, 48, 48, 34, 44, 32, 112, 97, 116, 104, 58, 32,
          117, 110, 105, 116, 46, 116, 120, 116, 125, 10]),
      (["unit.txt"], .file [102, 97, 115, 116, 42, 10])] }

/-- How planning ends there. -/
@[irreducible]
def pairPlanned : (Except Failed Unit × Transcript) × Workspace :=
  perform (runArguments (planArguments [] ["--output", "plan.json"])) {} pairWorkspace

theorem perform_pair :
    perform (runArguments (planArguments [] ["--output", "plan.json"])) {} pairWorkspace =
      ((.ok (), pairPlanned.1.2), pairPlanned.2) := by
  rw [← eq_of_toBool pairPlanned (by decide +kernel), pairPlanned]

/-- None of the paths that are read for its settings leads to the plan, and all stay. -/
theorem kept_pair (project : Project [] pairWorkspace) :
    ∀ p ∈ inputs pairWorkspace.directory project.request project.settings,
      pairPlanned.2.place p ≠ pairPlanned.2.place (Path.ofText "plan.json") ∧
        pairPlanned.2.standing p = pairWorkspace.standing p := by
  have hrequest : project.request = {} :=
    Except.ok.inj (congrArg Prod.fst (project.requested.symm.trans rfl))
  have hkept : (perform (loadSettings {}) {} pairWorkspace).1.1.toOption.all (fun s => decide <|
      ∀ p ∈ inputs pairWorkspace.directory {} s,
        pairPlanned.2.place p ≠ pairPlanned.2.place (Path.ofText "plan.json") ∧
          pairPlanned.2.standing p = pairWorkspace.standing p) = true := by
    decide +kernel
  obtain ⟨t, hloaded⟩ := project.loaded
  rw [hrequest] at hloaded ⊢
  rw [hloaded] at hkept
  simp only [Except.toOption, Option.all_some, decide_eq_true_eq] at hkept
  exact hkept

/-- **Where the views do not agree.**  A plan is written to a file whose name is given with a slash
behind it, and no file is found under that name.  A pattern is listed with its control sequence and
printed without it.  A task is named by two surrogates that make a pair, and in the file the pair is
the character that it stands for. -/
theorem views_differ :
    (∃ t w', perform (runArguments (planArguments boldChoices ["--output", "out/"])) {}
        boldWorkspace = ((.ok (), t), w') ∧
      (∀ p ∈ inputs boldWorkspace.directory boldProject.request boldProject.settings,
        w'.place p ≠ w'.place (Path.ofText "out/") ∧ w'.standing p = boldWorkspace.standing p) ∧
      ¬SameView (perform (runArguments (testsFileArguments [] "out/" "0" "unit")) {} w')
        (perform (runArguments (testsArguments boldChoices "0" "unit")) {} w')) ∧
    (∃ t w' t' doc,
      perform (runArguments (planArguments boldChoices ["--output", "plan.json", "--json"])) {}
        boldWorkspace = ((.ok (), t), w') ∧
      perform (runArguments (testsArguments boldChoices "0" "unit")) {} w' = ((.ok (), t'), w') ∧
      t.output = doc.document ++ "\n" ∧
      listedNames? doc 0 "unit" = some [Text.ofString boldPattern] ∧
      t'.output = "fast*\n") ∧
    ∃ t w', ∃ project : Project [] pairWorkspace,
      perform (runArguments (planArguments [] ["--output", "plan.json"])) {} pairWorkspace =
        ((.ok (), t), w') ∧
      (∀ p ∈ inputs pairWorkspace.directory project.request project.settings,
        w'.place p ≠ w'.place (Path.ofText "plan.json") ∧
          w'.standing p = pairWorkspace.standing p) ∧
      ¬SameView (perform (runArguments (testsFileArguments [] "plan.json" "0" "😀")) {} w')
        (perform (runArguments (testsArguments [] "0" "😀")) {} w') := by
  refine ⟨?_, ?_, ?_⟩
  · have hplan := eq_of_toBool (perform (runArguments
      (planArguments boldChoices ["--output", "out/"])) {} boldWorkspace) (by decide +kernel)
    refine ⟨_, _, hplan, by decide +kernel, fun hsame => ?_⟩
    exact absurd hsame.output (by decide +kernel)
  · obtain ⟨doc, hdoc⟩ := Plan.exists_summaryDocument writes_bold.planned.forks_ne_nil
    obtain ⟨t, hplan, houtput⟩ := writes_bold.perform_json (by decide) (by decide) hdoc
    obtain ⟨hrequest, hsame, hmakes⟩ :=
      writes_bold.again (by decide) (by decide +kernel) (by decide +kernel)
    have hanswered : Answered (boldPlan.testsFor 0 (.name "unit")) _
        (perform (runArguments (testsArguments boldChoices "0" "unit")) {} _) :=
      hmakes.answered (by decide) hrequest hsame rfl "unit"
    have hlisted := Plan.listedNames?_summaryDocument hdoc writes_bold.planned.numbered
      writes_bold.planned.isName 0 "unit"
    rw [testsFor_boldPlan] at hanswered hlisted
    obtain ⟨t', hrun, houtput'⟩ := hanswered.of_ok
    exact ⟨t, _, t', doc, hplan, hrun, houtput, hlisted, houtput'.trans (by decide +kernel)⟩
  · obtain ⟨project⟩ := nonempty_project (List.forall_mem_nil _) perform_pair
    refine ⟨pairPlanned.1.2, pairPlanned.2, project, perform_pair, kept_pair project,
      fun hsame => ?_⟩
    exact absurd hsame.output (by decide +kernel)

end SuiteBalance.Command
