import Mathlib
import SuiteBalance.Proofs.Command.Arguments
import SuiteBalance.Proofs.Command.Project
import SuiteBalance.Proofs.Summary
import SuiteBalance.Proofs.Terminal.Control

/-!
# Proofs — Commands — requests and answers

A command reads its options into a request and serves it.  A plan is loaded for, made, written and
shown one after the other; a question is answered by a plan that is made anew or by a plan file, and
the patterns are printed.

* `perform_runCommand`, `perform_runArguments`: a command serves the request that its options make.
* `ask_output`, `ask_output_json`, `ask_json`, `ask_asking`, `ask_plan_asking`: the requests.
* `runPlan_eq`: the parts of planning.
* **`Answered`**: what is shown of an answer.
* **`answered_testsOfProject`**, **`answered_testsOfFile`**: the two ways to an answer.
-/

namespace SuiteBalance.Command

open Call Workspace Terminal

variable {w u v w' : Workspace} {t t' : Transcript} {r : Request} {s : Settings} {plan : Plan}
  {arguments : List String} {choices : List Choice} {file : String}

/-! ### Commands -/

/-- The name of a command. -/
def CommandName.name : CommandName → String
  | .plan => "plan"
  | .tests => "tests"

section

variable [Platform]

/-- What a command does with a request. -/
def CommandName.run : CommandName → Request → Call (StateM Workspace) Unit
  | .plan => runPlan
  | .tests => runTests

/-- A command makes a request, or it fails. -/
theorem perform_runCommand (command : CommandName) (arguments : List String) :
    perform (runCommand command.name arguments) t w =
      match ask (Request.ofArguments command arguments) w with
      | (.ok r, u) => perform (command.run r) t u
      | (.error fault, u) => ((.error (.usage fault), t), u) := by
  have hrun : (runCommand command.name arguments : Call (StateM Workspace) Unit) =
      Call.lift (Request.ofArguments command arguments) >>= fun outcome =>
        Call.ofExcept .usage outcome >>= command.run := by
    cases command <;> rfl
  obtain ⟨⟨outcome, u⟩, hask⟩ : ∃ a, ask (Request.ofArguments command arguments) w = a := ⟨_, rfl⟩
  rw [hrun, perform_bind_of_ok (perform_lift_of_ask hask), hask]
  cases outcome <;> rfl

/-- So does a call that begins with the name of a command. -/
theorem perform_runArguments (command : CommandName) (arguments : List String) :
    perform (runArguments (command.name :: arguments)) t w =
      match ask (Request.ofArguments command arguments) w with
      | (.ok r, u) => perform (command.run r) t u
      | (.error fault, u) => ((.error (.usage fault), t), u) := by
  have hrun : (runArguments (command.name :: arguments) : Call (StateM Workspace) Unit) =
      runCommand command.name arguments := by
    cases command <;> rfl
  rw [hrun, perform_runCommand]

end

/-! ### Requests -/

/-- The first value is set, then the others. -/
theorem ask_setAll_of_ok {a : Arguments} {name : String} {r' : Request}
    (h : ask (r.set name (a.values name)) w = (.ok r', u)) (names : List String) :
    ask (Request.setAll a r (name :: names)) w = ask (Request.setAll a r' names) u := by
  rw [Request.setAll, ask_bind, h]

/-- A value that is refused ends the request. -/
theorem ask_setAll_of_error {a : Arguments} {name : String} {why : BadValue}
    (h : ask (r.set name (a.values name)) w = (.error why, u)) (names : List String) :
    ask (Request.setAll a r (name :: names)) w = (.error (.badValue name why), u) := by
  rw [Request.setAll, ask_bind, h]
  rfl

/-- Looking at a value that names a file changes nothing and takes it as it is. -/
theorem ask_fileValue (w : Workspace) (file : String) :
    ∃ outcome, ask (fileValue file) w = (outcome, w) ∧
      ∀ name, outcome = .ok name → name = file := by
  obtain ⟨outcome, hask, -⟩ := alike_fileValue (w := w) (v := w) (s := file) rfl
  exact ⟨outcome, hask, fun name hname => eq_of_fileValue (hname ▸ hask)⟩

theorem ask_set_output {outcome : Except BadValue String}
    (h : ask (fileValue file) w = (outcome, w)) :
    ask (r.set "--output" [file]) w =
      (outcome.map fun name => { r with output? := some name }, w) := by
  simp only [Request.set, ask_bind, List.getLastD_cons, List.getLastD_nil, h, ask_pure]

theorem ask_set_plan {outcome : Except BadValue String}
    (h : ask (existingFileValue file) w = (outcome, w)) :
    ask (r.set "--plan" [file]) w =
      (outcome.map fun name => { r with planFile? := some name }, w) := by
  simp only [Request.set, ask_bind, List.getLastD_cons, List.getLastD_nil, h, ask_pure]

/-- Options whose names are other ones, each given once. -/
theorem Others.of_names {extra : List Given} (names : List String)
    (h : extra.map Given.name = names) (hdistinct : names.eraseDups = names)
    (hother : ∀ name ∈ names, name ∉ planningNames) : Others extra := by
  subst h
  exact ⟨hdistinct, fun option hoption => hother _ (List.mem_map_of_mem hoption)⟩

/-- The request of a plan that is written to a file, if the file can be named. -/
theorem ask_output (hchoices : Planning choices) (h : ask (planningRequest choices) w = (.ok r, u))
    {outcome : Except BadValue String} (hvalue : ask (fileValue file) u = (outcome, u)) :
    ask (Request.ofArguments .plan (Choice.arguments choices ++ ["--output", file])) w =
      ((outcome.map fun name => { r with output? := some name }).mapError (.badValue "--output"),
        u) := by
  have hextra : Others [⟨"--output", some file⟩] := .of_names ["--output"] rfl rfl (by decide)
  rw [ask_ofArguments hchoices hextra rfl (List.forall_mem_nil _), h]
  cases outcome with
  | ok name =>
      exact ask_setAll_of_ok (a := ⟨[⟨"--output", some file⟩], []⟩) (ask_set_output hvalue) []
  | error why =>
      exact ask_setAll_of_error (a := ⟨[⟨"--output", some file⟩], []⟩)
        (ask_set_output hvalue) []

/-- A plan that is written to a file is requested by planning options and the name of a file. -/
theorem of_ask_output (hchoices : Planning choices) {r' : Request}
    (h : ask (Request.ofArguments .plan (Choice.arguments choices ++ ["--output", file])) w =
      (.ok r', u)) :
    ∃ r, ask (planningRequest choices) w = (.ok r, u) ∧ r' = { r with output? := some file } ∧
      ask (fileValue file) u = (.ok file, u) := by
  obtain ⟨⟨outcome, left⟩, hplanning⟩ : ∃ a, ask (planningRequest choices) w = a := ⟨_, rfl⟩
  cases outcome with
  | error fault =>
      have hextra : Others [⟨"--output", some file⟩] := .of_names ["--output"] rfl rfl (by decide)
      rw [ask_ofArguments hchoices hextra rfl (List.forall_mem_nil _), hplanning] at h
      cases congrArg Prod.fst h
  | ok r =>
      obtain ⟨looked, hvalue, hname⟩ := ask_fileValue left file
      rw [ask_output hchoices hplanning hvalue] at h
      cases looked with
      | error why => cases congrArg Prod.fst h
      | ok name =>
          obtain rfl := hname name rfl
          obtain ⟨hr, rfl⟩ := Prod.mk.inj h
          exact ⟨r, hplanning, (Except.ok.inj hr).symm, hvalue⟩

/-- The request of a plan that is written to a file and shown as a document. -/
theorem ask_output_json (hchoices : Planning choices)
    (h : ask (planningRequest choices) w = (.ok r, u))
    (hvalue : ask (fileValue file) u = (.ok file, u)) :
    ask (Request.ofArguments .plan (Choice.arguments choices ++ ["--output", file, "--json"])) w =
      (.ok { r with output? := some file, asJson := true }, u) := by
  have hextra : Others [⟨"--output", some file⟩, ⟨"--json", none⟩] :=
    .of_names ["--output", "--json"] rfl rfl (by decide)
  rw [ask_ofArguments hchoices hextra rfl (List.forall_mem_nil _), h]
  refine (ask_setAll_of_ok (a := ⟨[⟨"--output", some file⟩, ⟨"--json", none⟩], []⟩)
    (ask_set_output hvalue) ["--json"]).trans ?_
  simp only [Request.setAll, Request.set, ask_bind, ask_pure]

/-- The request of a plan that is shown as a document. -/
theorem ask_json (hchoices : Planning choices) (h : ask (planningRequest choices) w = (.ok r, u)) :
    ask (Request.ofArguments .plan (Choice.arguments choices ++ ["--json"])) w =
      (.ok { r with asJson := true }, u) := by
  have hextra : Others [⟨"--json", none⟩] := .of_names ["--json"] rfl rfl (by decide)
  rw [ask_ofArguments hchoices hextra rfl (List.forall_mem_nil _), h]
  rfl

/-- A request that asks for the patterns of a task on a fork. -/
def Request.asking (r : Request) (worker task : String) : Except UsageFault Request :=
  match integerValue worker with
  | .ok i => .ok { r with worker? := some i, task? := some task }
  | .error why => .error (.badValue "--worker" why)

theorem ask_setAll_asking {a : Arguments} {worker task : String}
    (hworker : a.values "--worker" = [worker]) (htask : a.values "--task" = [task]) :
    ask (Request.setAll a r ["--worker", "--task"]) w = (r.asking worker task, w) := by
  have hset : ask (r.set "--worker" (a.values "--worker")) w =
      ((integerValue worker).map fun i => { r with worker? := some i }, w) := by
    simp only [Request.set, hworker, List.getLastD_cons, List.getLastD_nil, ask_pure]
  rw [Request.asking]
  cases hinteger : integerValue worker with
  | error why =>
      rw [hinteger] at hset
      exact ask_setAll_of_error hset _
  | ok i =>
      rw [hinteger] at hset
      rw [ask_setAll_of_ok hset, Request.setAll, htask]
      rfl

/-- The request of a question to a project. -/
theorem ask_asking (hchoices : Planning choices) (h : ask (planningRequest choices) w = (.ok r, u))
    (worker task : String) :
    ask (Request.ofArguments .tests
        (Choice.arguments choices ++ ["--worker", worker, "--task", task])) w =
      (r.asking worker task, u) := by
  have hextra : Others [⟨"--worker", some worker⟩, ⟨"--task", some task⟩] :=
    .of_names ["--worker", "--task"] rfl rfl (by decide)
  rw [ask_ofArguments hchoices hextra rfl
    (fun _ hname => hname : ∀ name ∈ CommandName.tests.required, _), h]
  exact ask_setAll_asking rfl rfl

/-- The request of a question to a plan file. -/
theorem ask_plan_asking (hchoices : Planning choices)
    (h : ask (planningRequest choices) w = (.ok r, u))
    (hvalue : ask (existingFileValue file) u = (.ok file, u)) (worker task : String) :
    ask (Request.ofArguments .tests
        (Choice.arguments choices ++ ["--plan", file, "--worker", worker, "--task", task])) w =
      (Request.asking { r with planFile? := some file } worker task, u) := by
  have hextra : Others [⟨"--plan", some file⟩, ⟨"--worker", some worker⟩, ⟨"--task", some task⟩] :=
    .of_names ["--plan", "--worker", "--task"] rfl rfl (by decide)
  rw [ask_ofArguments hchoices hextra rfl
    (fun _ hname => List.mem_cons_of_mem _ hname : ∀ name ∈ CommandName.tests.required, _), h]
  refine (ask_setAll_of_ok (a := ⟨[⟨"--plan", some file⟩, ⟨"--worker", some worker⟩,
    ⟨"--task", some task⟩], []⟩) (ask_set_plan hvalue) ["--worker", "--task"]).trans ?_
  exact ask_setAll_asking rfl rfl

/-! ### Planning -/

/-- A call that leaves all files as they are. -/
def Still {α : Type} (c : Call (StateM Workspace) α) : Prop := ∀ t w, (perform c t w).2 = w

namespace Still

variable {α β : Type}

theorem pure (a : α) : Still (Pure.pure a) := fun _ _ => rfl

theorem ofExcept {ε : Type} (failed : ε → Failed) (outcome : Except ε α) :
    Still (Call.ofExcept failed outcome) := by
  intro t w
  cases outcome <;> rfl

theorem echo (line : Text) : Still (Call.echo line) := by
  intro t w
  unfold Call.echo
  cases line.toString? <;> rfl

theorem bind {c : Call (StateM Workspace) α} {next : α → Call (StateM Workspace) β} (h : Still c)
    (hnext : ∀ a, Still (next a)) : Still (c >>= next) := by
  intro t w
  have hleft := h t w
  rw [perform_bind]
  generalize perform c t w = left at hleft
  obtain ⟨⟨outcome, made⟩, u⟩ := left
  obtain rfl : u = w := hleft
  cases outcome with
  | ok a => exact hnext a made u
  | error e => rfl

theorem print [Console] (printed : List Printed) : Still (Call.print printed) := by
  induction printed with
  | nil => exact .pure ()
  | cons item rest ih =>
    refine bind (fun t w => ?_) fun _ => ih
    unfold Call.printOne
    cases Console.refusal? item <;> rfl

end Still

/-- Writes a plan to a file, if a file is named. -/
def savePlan (r : Request) (s : Settings) (plan : Plan) : Call (StateM Workspace) Unit :=
  match outputPath? r s with
  | some path => Call.lift (plan.save path) >>= Call.ofExcept .write
  | none => pure ()

theorem outputPath?_eq (houtput : r.output? = some file) (hfile : file ≠ "") :
    outputPath? r s = some (Path.ofText file) := by
  rw [outputPath?, houtput]
  exact if_neg hfile

/-- A plan is written to the file that a request names. -/
theorem perform_savePlan (houtput : r.output? = some file) (hfile : file ≠ "") :
    perform (savePlan r s plan) t w =
      match ask (plan.save (Path.ofText file)) w with
      | (.ok (), u) => ((.ok (), t), u)
      | (.error e, u) => ((.error (.write e), t), u) := by
  have hpath := outputPath?_eq (s := s) houtput hfile
  obtain ⟨⟨outcome, u⟩, hask⟩ : ∃ a, ask (plan.save (Path.ofText file)) w = a := ⟨_, rfl⟩
  rw [savePlan, hpath, perform_bind_of_ok (perform_lift_of_ask hask), hask]
  cases outcome <;> rfl

/-- Writing a plan to a file prints nothing. -/
theorem transcript_savePlan (r : Request) (s : Settings) (plan : Plan) (t : Transcript)
    (w : Workspace) : (perform (savePlan r s plan) t w).1.2 = t := by
  unfold savePlan
  cases outputPath? r s with
  | none => rfl
  | some path =>
      dsimp only
      rw [perform_bind_of_ok (perform_lift _)]
      cases (ask (plan.save path) w).1 <;> rfl

section

variable [Platform]

/-- Shows a plan. -/
def showPlan (r : Request) (s : Settings) (plan : Plan) : Call (StateM Workspace) Unit :=
  if r.asJson || s.output.format = "json" then
    Call.ofExcept .plan plan.summaryDocument >>= fun document => Call.echo document.document
  else showTable plan (outputPath? r s)

theorem runPlan_eq (r : Request) : runPlan r = loadSettings r >>= fun s =>
    makePlan s >>= fun plan => savePlan r s plan >>= fun _ => showPlan r s plan := by
  unfold runPlan savePlan showPlan
  refine bind_congr fun s => bind_congr fun plan => ?_
  dsimp only
  cases outputPath? r s with
  | none => rfl
  | some path => rfl

/-- Showing a plan changes no file. -/
theorem still_showPlan (r : Request) (s : Settings) (plan : Plan) : Still (showPlan r s plan) := by
  unfold showPlan
  split_ifs
  · exact (Still.ofExcept _ _).bind fun document => .echo _
  · refine (Still.print _).bind fun _ => (Still.ofExcept _ _).bind fun _ =>
      (Still.print _).bind fun _ => ?_
    cases outputPath? r s with
    | none => exact .print _
    | some path => exact (Still.print _).bind fun _ => .print _

/-- A plan is shown as a document. -/
theorem perform_showPlan_json {doc : Json} (hjson : r.asJson = true)
    (hdoc : plan.summaryDocument = .ok doc) :
    perform (showPlan r s plan) t w =
      ((.ok (), { t with output := t.output ++ doc.document ++ "\n" }), w) := by
  rw [showPlan, hjson, Bool.true_or, if_pos rfl, hdoc,
    perform_bind_of_ok (perform_ofExcept_ok _ _)]
  refine (perform_echo doc.document).trans ?_
  rw [withoutControls_document]

end

/-! ### Asking -/

/-- What is shown of an answer: its lines, or why there is none. -/
structure Answered (answer : Except PlanError (List String)) (w : Workspace)
    (result : (Except Failed Unit × Transcript) × Workspace) : Prop where
  outcome : result.1.1 = (answer.map fun _ => ()).mapError fun e => .usage (.refused e.message)
  output : result.1.2.output = answer.toOption.elim "" lines
  printed : result.1.2.printed = []
  workspace : result.2 = w

theorem Answered.of_ok {names : List String}
    {result : (Except Failed Unit × Transcript) × Workspace}
    (h : Answered (.ok names) w result) :
    ∃ t, result = ((.ok (), t), w) ∧ t.output = lines names :=
  ⟨result.1.2, Prod.ext (Prod.ext h.outcome rfl) h.workspace, h.output⟩

theorem Answered.of_error {e : PlanError} {result : (Except Failed Unit × Transcript) × Workspace}
    (h : Answered (.error e) w result) :
    ∃ t, result = ((.error (.usage (.refused e.message)), t), w) :=
  ⟨result.1.2, Prod.ext (Prod.ext h.outcome rfl) h.workspace⟩

/-- Prints the patterns of a task on a fork. -/
def printNames (i : ℤ) (task : String) (names : List Text) : Call (StateM Workspace) Unit :=
  Call.note [.running i names.length task] >>= fun _ => names.forM Call.echo

/-- A question that is answered is answered as it is asked. -/
theorem perform_asUsage_of_ok {α : Type} {c : Call (StateM Workspace) α} {a : α}
    (h : perform c t w = ((.ok a, t'), w')) : perform c.asUsage t w = ((.ok a, t'), w') := by
  rw [perform_asUsage, h]
  rfl

/-- A question that fails may fail for a fault of usage. -/
theorem perform_asUsage_of_error {α : Type} {c : Call (StateM Workspace) α} {failed : Failed}
    (h : perform c t w = ((.error failed, t'), w')) :
    perform c.asUsage t w = ((.error failed.asUsage, t'), w') := by
  rw [perform_asUsage, h]
  rfl

/-- A failure is not taken for a reason that was printed. -/
theorem ne_aborted_asUsage (e : Failure) : Failed.asUsage (.failure e) ≠ .aborted := by
  rw [Failed.asUsage]
  split_ifs <;> exact fun h => by cases h

/-- The patterns of an answer are printed. -/
theorem answered_of_perform {answer : Except PlanError (List String)}
    {c : Call (StateM Workspace) (List Text)} (i : ℤ) (task : String)
    (h : perform c {} w = (((answer.map (·.map Text.ofString)).mapError fun e =>
      Failed.usage (.refused e.message), t), w))
    (houtput : t.output = "") (hprinted : t.printed = []) :
    Answered answer w (perform (c.asUsage >>= printNames i task) {} w) := by
  cases answer with
  | error e =>
      rw [perform_bind_of_error (perform_asUsage_of_error h)]
      exact ⟨rfl, houtput, hprinted, rfl⟩
  | ok names =>
      rw [perform_bind_of_ok (perform_asUsage_of_ok h), printNames,
        perform_bind_of_ok (perform_note _), perform_forM_echo]
      refine ⟨rfl, ?_, hprinted, rfl⟩
      dsimp only
      rw [houtput, String.empty_append]
      rfl

variable [Platform]

/-- A question is asked, and the patterns of its answer are printed. -/
theorem runTests_eq (r : Request) : runTests r =
    (match r.planFile? with
      | some file => testsOfFile file (r.task?.getD "") (r.worker?.getD 0)
      | none => testsOfProject r (r.task?.getD "") (r.worker?.getD 0)).asUsage >>=
      printNames (r.worker?.getD 0) (r.task?.getD "") := by
  unfold runTests
  cases r.planFile? with
  | none => rfl
  | some file => rfl

/-- **The answer of a project.** -/
theorem answered_testsOfProject {made planned : Transcript}
    (hload : perform (loadSettings r) {} w = ((.ok s, made), w))
    (hmake : perform (makePlan s) made w = ((.ok plan, planned), w))
    (houtput : planned.output = "") (hprinted : planned.printed = []) (i : ℤ) (task : String) :
    Answered (plan.testsFor i (.name task)) w
      (perform ((testsOfProject r task i).asUsage >>= printNames i task) {} w) := by
  refine answered_of_perform (t := planned) i task ?_ houtput hprinted
  rw [testsOfProject, perform_bind_of_ok ((perform_bind_of_ok hload).trans hmake)]
  cases plan.testsFor i (.name task) with
  | ok names => rfl
  | error e => rfl

/-- **The answer of a plan file.** -/
theorem answered_testsOfFile {snapshot : Snapshot} {answer : Except PlanError (List String)}
    (hload : ask (Snapshot.load (Path.ofText file)) w = (.ok snapshot, w)) (i : ℤ) (task : String)
    (hanswer : snapshot.testsFor i task = answer.map (·.map Text.ofString)) :
    Answered answer w
      (perform ((testsOfFile file task i).asUsage >>= printNames i task) {} w) := by
  refine answered_of_perform (t := {}) i task ?_ rfl rfl
  rw [testsOfFile, perform_bind_of_ok (perform_lift_of_ask hload)]
  dsimp only
  rw [hanswer]
  cases answer with
  | ok names => rfl
  | error e => rfl

end SuiteBalance.Command
