import Mathlib
import SuiteBalance.Proofs.Command.Answers

/-!
# Proofs — Commands — plans that were written

A call that plans loads the settings of a project, makes a plan and writes it to a file, and changes
nothing else.  So the plan can be made again from the project, where the file is none of those that
are read for it.

* **`Project`**, **`inputs`**: what planning options name in a workspace, and what is read for it.
* `makes_again`: a plan is made again where what is read has been kept.
* **`nonempty_project`**, **`writes_of_perform`**: a call that plans and succeeds is one for a
  project, and has made a plan and saved it.
* `Writes.again`: the plan is made again behind it.
* `Writes.perform_json`, `Makes.output_json`: the document of the plan is shown.
-/

namespace SuiteBalance

open Workspace

/-- Saving a plan keeps all but the file. -/
theorem Plan.keeps_save {plan : Plan} {path : Path} {w w' : Workspace}
    (h : ask (plan.save path) w = (.ok (), w')) :
    ∃ place, w'.place path = .ok place ∧ Keeps place w w' := by
  unfold Plan.save at h
  cases htext : plan.fileText with
  | error e =>
      rw [htext] at h
      cases congrArg Prod.fst h
  | ok text =>
      rw [htext] at h
      dsimp only at h
      rw [ask_bind] at h
      obtain ⟨⟨outcome, left⟩, hwrite⟩ :
        ∃ a, ask (Host.writeUnder path text.toUTF8.toList : StateM Workspace _) w = a := ⟨_, rfl⟩
      rw [hwrite] at h
      cases outcome with
      | error e => cases congrArg Prod.fst h
      | ok _ =>
          obtain rfl : left = w' := congrArg Prod.snd h
          exact keeps_writeUnder hwrite

namespace Command

open Call Terminal

variable [Platform] {w v w' left left' : Workspace} {r : Request} {s : Settings} {plan : Plan}
  {choices : List Choice} {file : String}

/-! ### Projects -/

/-- What planning options name in a workspace: a request, and the settings that are loaded for
it. -/
structure Project (choices : List Choice) (w : Workspace) where
  request : Request
  settings : Settings
  requested : ask (planningRequest choices) w = (.ok request, w)
  loaded : ∃ t, perform (loadSettings request) {} w = ((.ok settings, t), w)

/-- The paths that are read for a project: its configuration file, its file of durations, also as a
request names it, and its sources. -/
def inputs (directory : List Text) (r : Request) (s : Settings) : List Path :=
  Settings.filePath directory r.root :: s.resolve s.timings.path ::
    ((r.timings?.map fun (path : String) => Path.ofText path).toList ++
      s.sources.map fun source => s.resolve source.path)

/-- A plan is made for a request, and nothing is printed meanwhile. -/
def Makes (r : Request) (s : Settings) (plan : Plan) (w : Workspace) : Prop :=
  ∃ made planned, perform (loadSettings r) {} w = ((.ok s, made), w) ∧
    perform (makePlan s) made w = ((.ok plan, planned), w) ∧
      planned.output = "" ∧ planned.printed = []

/-- **A plan is made again**, where what is read for it has been kept. -/
theorem makes_again {made planned : Transcript} (henvironment : v.environment = w.environment)
    (hdirectory : v.directory = w.directory)
    (hinputs : ∀ p ∈ inputs w.directory r s, v.standing p = w.standing p)
    (hload : perform (loadSettings r) {} w = ((.ok s, made), left))
    (hmake : perform (makePlan s) made left = ((.ok plan, planned), left')) :
    left = w ∧ left' = w ∧ Makes r s plan v ∧ Planned s plan := by
  simp only [inputs, List.forall_mem_cons, List.forall_mem_append, List.forall_mem_map] at hinputs
  obtain ⟨hfile, htimings, -, hsources⟩ := hinputs
  obtain ⟨rfl, hload', ⟨noted, rfl⟩, hfiles⟩ :=
    loadSettings_again henvironment hdirectory hfile hsources hload
  obtain ⟨rfl, hmake', ⟨noted', rfl⟩, hplanned⟩ := makePlan_again htimings
    (fun source hsource => ⟨hfiles source hsource, hsources source hsource⟩) hmake
  exact ⟨rfl, rfl, ⟨_, _, hload', hmake', rfl, rfl⟩, hplanned⟩

theorem Makes.again (h : Makes r s plan w) (henvironment : v.environment = w.environment)
    (hdirectory : v.directory = w.directory)
    (hinputs : ∀ p ∈ inputs w.directory r s, v.standing p = w.standing p) : Makes r s plan v := by
  obtain ⟨made, planned, hload, hmake, -, -⟩ := h
  exact (makes_again henvironment hdirectory hinputs hload hmake).2.2.1

/-! ### Calls -/

/-- The arguments of a call that plans. -/
def planArguments (choices : List Choice) (rest : List String) : List String :=
  "plan" :: (Choice.arguments choices ++ rest)

variable {t : Transcript}

/-- What a plan that was written to a file has done. -/
structure Writes (project : Project choices w) (file : String) (plan : Plan) (w' : Workspace) :
    Prop where
  named : ask (fileValue file) w = (.ok file, w)
  makes : Makes project.request project.settings plan w
  saved : ask (plan.save (Path.ofText file)) w = (.ok (), w')
  planned : Planned project.settings plan

/-- A call that plans and succeeds has read the planning options and the file, and then planned. -/
theorem of_perform_plan (hchoices : Planning choices)
    (h : perform (runArguments (planArguments choices ["--output", file])) {} w =
      ((.ok (), t), w')) :
    ∃ r, ask (planningRequest choices) w = (.ok r, w) ∧ ask (fileValue file) w = (.ok file, w) ∧
      perform (runPlan { r with output? := some file }) {} w = ((.ok (), t), w') := by
  have hrun := perform_runArguments (t := {}) (w := w) .plan
    (Choice.arguments choices ++ ["--output", file])
  obtain ⟨⟨outcome, u⟩, hask⟩ : ∃ a, ask (Request.ofArguments .plan
    (Choice.arguments choices ++ ["--output", file])) w = a := ⟨_, rfl⟩
  rw [hask] at hrun
  cases outcome with
  | error fault => cases congrArg (·.1.1) (hrun.symm.trans h)
  | ok r' =>
      obtain ⟨r, hrequest, rfl, hnamed⟩ := of_ask_output hchoices hask
      obtain ⟨rfl, -, -⟩ := planningRequest_again hchoices (.refl [] w) hrequest fun _ _ => rfl
      exact ⟨r, hrequest, hnamed, hrun.symm.trans h⟩

/-- **A call that plans and succeeds is one for a project.** -/
theorem nonempty_project (hchoices : Planning choices)
    (h : perform (runArguments (planArguments choices ["--output", file])) {} w =
      ((.ok (), t), w')) : Nonempty (Project choices w) := by
  obtain ⟨r, hrequest, -, hplan⟩ := of_perform_plan hchoices h
  rw [runPlan_eq] at hplan
  obtain ⟨s, made, left, hload, -⟩ := of_perform_bind hplan
  obtain ⟨rfl, hloaded, -, -⟩ :=
    loadSettings_again (w := w) (v := w) rfl rfl rfl (fun _ _ => rfl) hload
  exact ⟨⟨r, s, hrequest, made, hloaded⟩⟩

/-- **A call that plans and succeeds has made a plan and saved it.** -/
theorem writes_of_perform (hchoices : Planning choices) (project : Project choices w)
    (hfile : file ≠ "")
    (h : perform (runArguments (planArguments choices ["--output", file])) {} w =
      ((.ok (), t), w')) :
    ∃ plan, Writes project file plan w' := by
  obtain ⟨r, hrequest, hnamed, hplan⟩ := of_perform_plan hchoices h
  obtain rfl : r = project.request :=
    Except.ok.inj (congrArg Prod.fst (hrequest.symm.trans project.requested))
  rw [runPlan_eq] at hplan
  obtain ⟨s, made, left, hload, hplan⟩ := of_perform_bind hplan
  obtain ⟨plan, planned, left', hmake, hplan⟩ := of_perform_bind hplan
  obtain ⟨_, shown, left'', hsave, hshow⟩ := of_perform_bind hplan
  obtain ⟨t₀, hloaded⟩ := project.loaded
  obtain rfl : s = project.settings :=
    Except.ok.inj (congrArg (·.1.1) (hload.symm.trans hloaded))
  obtain ⟨rfl, rfl, hmakes, hplanned⟩ := makes_again rfl rfl (fun _ _ => rfl) hload hmake
  rw [perform_savePlan rfl hfile] at hsave
  obtain ⟨⟨outcome, u⟩, hsaved⟩ : ∃ a, ask (plan.save (Path.ofText file)) left' = a := ⟨_, rfl⟩
  rw [hsaved] at hsave
  cases outcome with
  | error e => cases congrArg (·.1.1) hsave
  | ok _ =>
      obtain rfl : u = left'' := congrArg Prod.snd hsave
      obtain rfl : u = w' := (still_showPlan _ _ _ _ _).symm.trans (congrArg Prod.snd hshow)
      exact ⟨plan, hnamed, hmakes, hsaved, hplanned⟩

/-- What planning options name, and the plan that is made of it, are the same in a workspace in
which a plan was written. -/
theorem Writes.again {project : Project choices w} (h : Writes project file plan w')
    (hchoices : Planning choices)
    (hapart : ∀ p ∈ inputs w.directory project.request project.settings,
      w'.place p ≠ w'.place (Path.ofText file))
    (habsent : ∀ p ∈ inputs w.directory project.request project.settings,
      w.standing p = .ok none → w'.standing p = .ok none) :
    ask (planningRequest choices) w' = (.ok project.request, w') ∧
      SameCall {} project.request ∧ Makes project.request project.settings plan w' := by
  obtain ⟨place, hplace, hkeeps⟩ := Plan.keeps_save h.saved
  have hinputs : ∀ p ∈ inputs w.directory project.request project.settings,
      w'.standing p = w.standing p := by
    intro p hp
    by_cases hnone : w.standing p = .ok none
    · rw [hnone]
      exact habsent p hp hnone
    · exact hkeeps.standing hnone (hplace ▸ hapart p hp)
  obtain ⟨-, hrequest, hsame⟩ := planningRequest_again hchoices hkeeps project.requested
    fun path hpath => hinputs _ (by simp [inputs, hpath])
  exact ⟨hrequest, hsame, h.makes.again hkeeps.environment hkeeps.directory hinputs⟩

/-- A request by which a plan is made goes on to writing and showing it. -/
theorem Makes.perform_runPlan (h : Makes r s plan w) : ∃ planned : Transcript,
    planned.output = "" ∧ ∀ r' : Request, loadSettings (m := StateM Workspace) r' = loadSettings r →
      perform (runPlan r') {} w =
        perform (savePlan r' s plan >>= fun _ => showPlan r' s plan) planned w := by
  obtain ⟨made, planned, hload, hmake, houtput, -⟩ := h
  refine ⟨planned, houtput, fun r' hsame => ?_⟩
  rw [runPlan_eq, hsame, perform_bind_of_ok hload, perform_bind_of_ok hmake]

/-- The document of a plan is shown where the plan is written to a file, too. -/
theorem Writes.perform_json {project : Project choices w} (h : Writes project file plan w')
    (hchoices : Planning choices) (hfile : file ≠ "") {doc : Json}
    (hdoc : plan.summaryDocument = .ok doc) :
    ∃ t, perform (runArguments (planArguments choices ["--output", file, "--json"])) {} w =
      ((.ok (), t), w') ∧ t.output = doc.document ++ "\n" := by
  obtain ⟨planned, houtput, hruns⟩ := h.makes.perform_runPlan
  have hrun := perform_runArguments (t := {}) (w := w) .plan
    (Choice.arguments choices ++ ["--output", file, "--json"])
  rw [ask_output_json hchoices project.requested h.named] at hrun
  refine ⟨{ planned with output := planned.output ++ doc.document ++ "\n" }, ?_, ?_⟩
  · refine (hrun.trans (hruns _ rfl)).trans ?_
    rw [perform_bind, perform_savePlan rfl hfile, h.saved]
    exact perform_showPlan_json rfl hdoc
  · dsimp only
    rw [houtput, String.empty_append]

/-- The document of a plan is shown by all calls by which it is made and that show a document. -/
theorem Makes.output_json (h : Makes r s plan w) (hchoices : Planning choices)
    (hrequest : ask (planningRequest choices) w = (.ok r, w)) {doc : Json}
    (hdoc : plan.summaryDocument = .ok doc) {t : Transcript}
    (hrun : perform (runArguments (planArguments choices ["--json"])) {} w = ((.ok (), t), v)) :
    t.output = doc.document ++ "\n" := by
  obtain ⟨planned, houtput, hruns⟩ := h.perform_runPlan
  have hplan :=
    perform_runArguments (t := {}) (w := w) .plan (Choice.arguments choices ++ ["--json"])
  rw [ask_json hchoices hrequest] at hplan
  obtain ⟨_, shown, left, hsave, hshow⟩ :=
    of_perform_bind ((hplan.trans (hruns _ rfl)).symm.trans hrun)
  have hshown : shown = planned :=
    (congrArg (·.1.2) hsave).symm.trans (transcript_savePlan _ _ _ _ _)
  rw [perform_showPlan_json rfl hdoc] at hshow
  obtain rfl : _ = t := congrArg (·.1.2) hshow
  dsimp only
  rw [hshown, houtput, String.empty_append]

end Command

end SuiteBalance
