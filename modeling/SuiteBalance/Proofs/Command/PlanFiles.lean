import Mathlib
import SuiteBalance.Proofs.Command.Misfit
import SuiteBalance.Proofs.Command.Views

/-!
# Proofs — Commands — questions to plan files

A question to a plan file is meant to end in one of three ways: the names are printed, the fork is
refused, or it is said why the file cannot be read.  It does so unless the file is a misfit, lists a
name with a surrogate in it, which the standard output has no bytes for, or cannot be read for a
reason that the console refuses.

* `perform_testsOfFile_of_error`, `perform_testsOfFile_of_ok`: how a plan file is asked.
* `perform_forM_echo_of_surrogate`: lines are printed up to the first with a surrogate.
* **`Closed`**: the three ways to end.
* **`closed_iff`**: which questions end in one of them, and `not_closed_misfit`: one that does not.
-/

namespace SuiteBalance.Command

open Call Workspace Terminal

variable {w : Workspace} {t : Transcript} {r : Request} {choices : List Choice} {file : String}
  {bytes : List UInt8}

/-! ### Names -/

/-- A text holds a surrogate. -/
def HasSurrogate (name : Text) : Prop := name.points.any CodePoint.isSurrogate = true

theorem not_hasSurrogate_ofString (s : String) : ¬HasSurrogate (Text.ofString s) := by
  unfold HasSurrogate Text.points
  rw [Text.any_isSurrogate_map_char]
  exact Bool.false_ne_true

/-- Texts without surrogates are strings; where there are others, one of them is the first. -/
theorem strings_or_surrogate (names : List Text) :
    (∃ strings : List String, names = strings.map Text.ofString) ∨
      ∃ (before : List String) (name : Text) (behind : List Text),
        names = before.map Text.ofString ++ name :: behind ∧ HasSurrogate name := by
  induction names with
  | nil => exact .inl ⟨[], rfl⟩
  | cons name names ih =>
      cases name with
      | withSurrogate points present => exact .inr ⟨[], _, names, rfl, present⟩
      | ofString s =>
          rcases ih with ⟨strings, rfl⟩ | ⟨before, name, behind, rfl, h⟩
          · exact .inl ⟨s :: strings, rfl⟩
          · exact .inr ⟨s :: before, name, behind, rfl, h⟩

/-- **Lines are printed up to the first with a surrogate**, which is refused. -/
theorem perform_forM_echo_of_surrogate (before : List String) {name : Text} (h : HasSurrogate name)
    (behind : List Text) :
    perform ((before.map Text.ofString ++ name :: behind).forM Call.echo) t w =
      ((.error (.unprintable name), { t with output := t.output ++ lines before }), w) := by
  induction before generalizing t with
  | nil =>
      cases name with
      | ofString s => exact absurd h (not_hasSurrogate_ofString s)
      | withSurrogate points present =>
          change ((Except.error (Failed.unprintable _), t), w) = _
          rw [lines, List.foldr_nil, String.append_empty]
  | cons first before ih =>
      change perform (Call.echo (Text.ofString first) >>= fun _ =>
        (before.map Text.ofString ++ name :: behind).forM Call.echo) t w = _
      rw [perform_bind_of_ok (perform_echo first), ih]
      simp only [lines, List.foldr_cons, String.append_assoc]

/-! ### Files -/

/-- A fork that there is has an answer, and one that there is not is refused. -/
theorem testsFor_cases (snapshot : Snapshot) (i : ℤ) (task : Text) :
    (∃ names, snapshot.testsFor i task = .ok names) ∨
      ¬(0 ≤ i ∧ i < snapshot.forkCount) ∧
        snapshot.testsFor i task = .error (.noWorker i snapshot.forkCount) := by
  unfold Snapshot.testsFor atWorker Snapshot.forkCount
  by_cases hrange : 0 ≤ i ∧ i < snapshot.forks.length
  · have hlt : i.toNat < snapshot.forks.length := by omega
    rw [if_neg (by omega), List.getElem?_eq_getElem hlt]
    exact .inl ⟨_, rfl⟩
  · refine .inr ⟨hrange, ?_⟩
    split_ifs with hneg
    · rfl
    · rw [List.getElem?_eq_none (by omega)]
      rfl

/-- A file that is there is read. -/
theorem ask_load [Json.Levels] (h : w.read (Path.ofText file) = .ok bytes) :
    ask (Snapshot.load (Path.ofText file)) w = (Snapshot.ofBytes bytes, w) := by
  rw [Snapshot.load, ask_bind, ask_read h]
  rfl

/-- The names that a plan file lists for a task on a fork, if it is read and there is the fork. -/
def listedIn? [Json.Levels] (bytes : List UInt8) (i : ℤ) (task : Text) : Option (List Text) :=
  (Snapshot.ofBytes bytes).toOption.bind fun snapshot => (snapshot.testsFor i task).toOption

theorem listedIn?_eq_some_iff [Json.Levels] {i : ℤ} {task : Text} {names : List Text} :
    listedIn? bytes i task = some names ↔ ∃ snapshot, Snapshot.ofBytes bytes = .ok snapshot ∧
      snapshot.testsFor i task = .ok names := by
  unfold listedIn?
  cases Snapshot.ofBytes bytes with
  | error e => simp [Except.toOption]
  | ok snapshot => cases hnames : snapshot.testsFor i task <;> simp [Except.toOption, hnames]

section

variable [Platform]

/-- Why a plan file cannot be read, in words. -/
def unreadReason (file : String) (e : PlanFileError) : Text :=
  "Failed to read plan file " ++ Console.escape file ++ ": " ++
    Console.escape (e.message (Path.ofText file))

/-- How it is said. -/
def unreadLine (file : String) (e : PlanFileError) : Printed :=
  message .error (unreadReason file e)

/-- A plan file that cannot be read. -/
theorem perform_testsOfFile_of_error {e : PlanFileError} (i : ℤ) (task : String)
    (hread : w.read (Path.ofText file) = .ok bytes) (h : Snapshot.ofBytes bytes = .error e) :
    perform (testsOfFile file task i) {} w =
      if isTold e then perform (Call.abort (unreadReason file e)) {} w
      else ((.error (.planFile (Path.ofText file) e), {}), w) := by
  have hload := ask_load hread
  rw [h] at hload
  rw [testsOfFile, perform_bind_of_ok (perform_lift_of_ask hload)]
  dsimp only
  split_ifs <;> rfl

/-- A plan file that is read answers, or it refuses the fork. -/
theorem perform_testsOfFile_of_ok {snapshot : Snapshot} (i : ℤ) (task : String)
    (hread : w.read (Path.ofText file) = .ok bytes) (h : Snapshot.ofBytes bytes = .ok snapshot) :
    perform (testsOfFile file task i) {} w =
      (((snapshot.testsFor i task).mapError fun e => .usage (.refused e.message), {}), w) := by
  have hload := ask_load hread
  rw [h] at hload
  rw [testsOfFile, perform_bind_of_ok (perform_lift_of_ask hload)]
  dsimp only
  cases snapshot.testsFor i task <;> rfl

/-! ### Questions -/

/-- The three ways in which a question to a plan file is meant to end: its answer is printed, the
fork is refused, or it is said why the file cannot be read. -/
inductive Closed (bytes : List UInt8) (file : String) (i : ℤ) (task : String) :
    (Except Failed Unit × Transcript) × Workspace → Prop
  | printed {names : List String} {t : Transcript} {w : Workspace}
      (hnames : listedIn? bytes i task = some (names.map Text.ofString))
      (houtput : t.output = lines names) (hprinted : t.printed = []) :
      Closed bytes file i task ((.ok (), t), w)
  | refused {snapshot : Snapshot} {t : Transcript} {w : Workspace}
      (hread : Snapshot.ofBytes bytes = .ok snapshot)
      (hrange : ¬(0 ≤ i ∧ i < snapshot.forkCount))
      (houtput : t.output = "") (hprinted : t.printed = []) :
      Closed bytes file i task
        ((.error (.usage (.refused (PlanError.noWorker i snapshot.forkCount).message)), t), w)
  | unread {e : PlanFileError} {t : Transcript} {w : Workspace}
      (hread : Snapshot.ofBytes bytes = .error e) (houtput : t.output = "")
      (hprinted : t.printed = [unreadLine file e]) :
      Closed bytes file i task ((.error .aborted, t), w)

/-- None of the names that a plan file lists for a task on a fork holds a surrogate. -/
def Printable (bytes : List UInt8) (i : ℤ) (task : String) : Prop :=
  ∀ names, listedIn? bytes i task = some names → ∀ name ∈ names, ¬HasSurrogate name

/-- The console accepts the reason why a plan file cannot be read, where it cannot. -/
def Sayable (bytes : List UInt8) (file : String) : Prop :=
  ∀ e, Snapshot.ofBytes bytes = .error e → Console.refusal? (unreadLine file e) = none

/-- A question that ends as it is meant to does not end with a fault that is passed on. -/
theorem Closed.told {i : ℤ} {task : String}
    {result : (Except Failed Unit × Transcript) × Workspace} (h : Closed bytes file i task result) :
    (∀ path e, result.1.1 ≠ .error (.planFile path e)) ∧
      ∀ line, result.1.1 ≠ .error (.unprintable line) := by
  cases h with
  | printed => exact ⟨nofun, nofun⟩
  | refused => exact ⟨nofun, nofun⟩
  | unread => exact ⟨nofun, nofun⟩

/-- Where a plan file cannot be read, a question that ends as it is meant to is given up. -/
theorem Closed.aborted {e : PlanFileError} {i : ℤ} {task : String}
    {result : (Except Failed Unit × Transcript) × Workspace} (h : Closed bytes file i task result)
    (hread : Snapshot.ofBytes bytes = .error e) : result.1.1 = .error .aborted := by
  cases h with
  | unread => rfl
  | refused hread' => cases hread.symm.trans hread'
  | printed hnames =>
    obtain ⟨snapshot, hread', -⟩ := listedIn?_eq_some_iff.mp hnames
    cases hread.symm.trans hread'

/-- A misfit is passed on. -/
theorem perform_answer_of_misfit (hread : w.read (Path.ofText file) = .ok bytes)
    (h : Misfit bytes) (i : ℤ) (task : String) :
    ∃ e, perform ((testsOfFile file task i).asUsage >>= printNames i task) {} w =
      ((.error (.planFile (Path.ofText file) e), {}), w) := by
  obtain ⟨e, he, htold⟩ := untold_ofBytes_iff.mpr h
  have hask := perform_testsOfFile_of_error i task hread he
  rw [htold, if_neg Bool.false_ne_true] at hask
  exact ⟨e, perform_bind_of_error (perform_asUsage_of_error hask)⟩

/-- A name with a surrogate is passed on. -/
theorem perform_answer_of_surrogate (hread : w.read (Path.ofText file) = .ok bytes) {i : ℤ}
    {task : String} (h : ¬Printable bytes i task) :
    ∃ name, HasSurrogate name ∧
      (perform ((testsOfFile file task i).asUsage >>= printNames i task) {} w).1.1 =
        .error (.unprintable name) := by
  unfold Printable at h
  push Not at h
  obtain ⟨names, hlisted, listed, hmem, hsurrogate⟩ := h
  obtain ⟨snapshot, hbytes, hnames⟩ := listedIn?_eq_some_iff.mp hlisted
  have hask := perform_testsOfFile_of_ok i task hread hbytes
  rw [hnames] at hask
  rcases strings_or_surrogate names with ⟨strings, rfl⟩ | ⟨before, name, behind, rfl, hname⟩
  · obtain ⟨s, -, rfl⟩ := List.mem_map.mp hmem
    exact absurd hsurrogate (not_hasSurrogate_ofString s)
  · refine ⟨name, hname, ?_⟩
    rw [perform_bind_of_ok (perform_asUsage_of_ok hask), printNames,
      perform_bind_of_ok (perform_note _), perform_forM_echo_of_surrogate before hname]

/-- A plan file that cannot be read for a reason that is told: the reason is printed and the
question given up, or what the console refuses it for is passed on. -/
theorem perform_answer_of_told {e : PlanFileError}
    (hread : w.read (Path.ofText file) = .ok bytes) (h : Snapshot.ofBytes bytes = .error e)
    (htold : isTold e = true) (i : ℤ) (task : String) :
    perform ((testsOfFile file task i).asUsage >>= printNames i task) {} w =
      match Console.refusal? (unreadLine file e) with
      | none => ((.error .aborted, { printed := [unreadLine file e] }), w)
      | some refusal => ((.error (Failed.failure refusal).asUsage, {}), w) := by
  have hask := perform_testsOfFile_of_error i task hread h
  rw [if_pos htold] at hask
  cases hrefusal : Console.refusal? (unreadLine file e) with
  | none =>
    rw [perform_abort_of_accepted hrefusal] at hask
    exact perform_bind_of_error (perform_asUsage_of_error hask)
  | some refusal =>
    rw [perform_abort_of_refused hrefusal] at hask
    exact perform_bind_of_error (perform_asUsage_of_error hask)

/-- What a plan file cannot be read for is told, unless it is a misfit. -/
theorem isTold_of_not_misfit {e : PlanFileError} (h : ¬Misfit bytes)
    (hread : Snapshot.ofBytes bytes = .error e) : isTold e = true := by
  by_contra htold
  exact h (untold_ofBytes_iff.mp ⟨e, hread, Bool.eq_false_iff.mpr htold⟩)

/-- What the console refuses a reason for is passed on. -/
theorem perform_answer_of_refused (hread : w.read (Path.ofText file) = .ok bytes)
    (hmisfit : ¬Misfit bytes) (h : ¬Sayable bytes file) (i : ℤ) (task : String) :
    ∃ e refusal, Snapshot.ofBytes bytes = .error e ∧
      perform ((testsOfFile file task i).asUsage >>= printNames i task) {} w =
        ((.error (Failed.failure refusal).asUsage, {}), w) := by
  unfold Sayable at h
  push Not at h
  obtain ⟨e, hbytes, hrefused⟩ := h
  obtain ⟨refusal, hrefusal⟩ := Option.ne_none_iff_exists'.mp hrefused
  have hask := perform_answer_of_told hread hbytes (isTold_of_not_misfit hmisfit hbytes) i task
  rw [hrefusal] at hask
  exact ⟨e, refusal, hbytes, hask⟩

/-- **A question to a file that is no misfit, lists no name with a surrogate and can be said to be
unread ends as it is meant to.** -/
theorem closed_answer (hread : w.read (Path.ofText file) = .ok bytes) (hmisfit : ¬Misfit bytes)
    {i : ℤ} {task : String} (hprintable : Printable bytes i task) (hsayable : Sayable bytes file) :
    Closed bytes file i task
      (perform ((testsOfFile file task i).asUsage >>= printNames i task) {} w) := by
  cases hbytes : Snapshot.ofBytes bytes with
  | error e =>
      have hask := perform_answer_of_told hread hbytes (isTold_of_not_misfit hmisfit hbytes) i task
      rw [hsayable e hbytes] at hask
      rw [hask]
      exact .unread hbytes rfl rfl
  | ok snapshot =>
      have hask := perform_testsOfFile_of_ok i task hread hbytes
      rcases testsFor_cases snapshot i task with ⟨names, hnames⟩ | ⟨hrange, hrefused⟩
      · have hlisted := listedIn?_eq_some_iff.mpr ⟨snapshot, hbytes, hnames⟩
        rw [hnames] at hask
        rw [perform_bind_of_ok (perform_asUsage_of_ok hask), printNames,
          perform_bind_of_ok (perform_note _)]
        rcases strings_or_surrogate names with ⟨strings, rfl⟩ | ⟨before, name, behind, rfl, hname⟩
        · rw [perform_forM_echo]
          exact .printed hlisted (String.empty_append ..) rfl
        · exact absurd hname (hprintable _ hlisted name (by simp))
      · rw [hrefused] at hask
        rw [perform_bind_of_error (perform_asUsage_of_error hask)]
        exact .refused hbytes hrange rfl rfl

/-- A question asks the plan file, whatever the planning options. -/
theorem perform_question (hchoices : Planning choices)
    (hrequest : ask (planningRequest choices) w = (.ok r, w))
    (hfile : ask (existingFileValue file) w = (.ok file, w)) {worker : String} {i : ℤ}
    (hworker : integerValue worker = .ok i) (task : String) :
    perform (runArguments (testsFileArguments choices file worker task)) {} w =
      perform ((testsOfFile file task i).asUsage >>= printNames i task) {} w := by
  rw [testsFileArguments, perform_asking (ask_plan_asking hchoices hrequest hfile worker task),
    hworker]
  dsimp only
  rw [runTests_eq]
  rfl

/-- **The questions to plan files that end as they are meant to.**  For any bytes of a file that is
there, any fork and any task, and whatever the planning options, a question ends with the names
printed, with the fork refused, or with the reason why the file cannot be read, if and only if the
file is no misfit, lists no name with a surrogate, and the console accepts the reason; what is wrong
is passed on otherwise.  Reading the file fails for reasons that are told, whatever it holds, if and
only if it is no misfit. -/
theorem closed_iff (hchoices : Planning choices)
    (hrequest : ask (planningRequest choices) w = (.ok r, w))
    (hfile : ask (existingFileValue file) w = (.ok file, w))
    (hread : w.read (Path.ofText file) = .ok bytes) {worker : String} {i : ℤ}
    (hworker : integerValue worker = .ok i) (task : String) :
    (Closed bytes file i task
        (perform (runArguments (testsFileArguments choices file worker task)) {} w) ↔
      ¬Misfit bytes ∧ Printable bytes i task ∧ Sayable bytes file) ∧
    (Misfit bytes → ∃ e, perform (runArguments (testsFileArguments choices file worker task)) {} w =
      ((.error (.planFile (Path.ofText file) e), {}), w)) ∧
    (¬Printable bytes i task → ∃ name, HasSurrogate name ∧
      (perform (runArguments (testsFileArguments choices file worker task)) {} w).1.1 =
        .error (.unprintable name)) ∧
    (¬Misfit bytes → ¬Sayable bytes file → ∃ refusal,
      (perform (runArguments (testsFileArguments choices file worker task)) {} w).1.1 =
        .error (Failed.failure refusal).asUsage) ∧
    ((∀ e, Snapshot.ofBytes bytes = .error e → isTold e = true) ↔ ¬Misfit bytes) := by
  rw [perform_question hchoices hrequest hfile hworker task]
  refine ⟨⟨fun hclosed => ?_, fun h => closed_answer hread h.1 h.2.1 h.2.2⟩,
    fun h => perform_answer_of_misfit hread h i task, perform_answer_of_surrogate hread,
    fun hmisfit h => ?_, ?_⟩
  · have hmisfit : ¬Misfit bytes := by
      intro h
      obtain ⟨e, hends⟩ := perform_answer_of_misfit hread h i task
      exact hclosed.told.1 _ e (congrArg (·.1.1) hends)
    refine ⟨hmisfit, ?_, ?_⟩
    · by_contra h
      obtain ⟨name, -, hends⟩ := perform_answer_of_surrogate hread h
      exact hclosed.told.2 name hends
    · by_contra h
      obtain ⟨e, refusal, hbytes, hends⟩ := perform_answer_of_refused hread hmisfit h i task
      have haborted := hclosed.aborted hbytes
      rw [hends] at haborted
      exact ne_aborted_asUsage refusal (Except.error.inj haborted)
  · obtain ⟨e, refusal, -, hends⟩ := perform_answer_of_refused hread hmisfit h i task
    exact ⟨refusal, congrArg (·.1.1) hends⟩
  · rw [← untold_ofBytes_iff]
    push Not
    simp only [ne_eq, Bool.not_eq_false]

end

/-! ### Small plan files -/

/-- A workspace with a plan file. -/
def planWorkspace (text : String) : Workspace :=
  { nodes := [(["plan.json"], .file text.toUTF8.toList)] }

/-- How a question to the plan file ends. -/
def planAnswer (text : String) : (Except Failed Unit × Transcript) × Workspace :=
  perform (runArguments (testsFileArguments [] "plan.json" "0" "unit")) {} (planWorkspace text)

theorem read_planWorkspace (text : String) :
    (planWorkspace text).read (Path.ofText "plan.json") = .ok text.toUTF8.toList := rfl

theorem ask_planWorkspace (text : String) :
    ask (existingFileValue "plan.json") (planWorkspace text) =
      (.ok "plan.json", planWorkspace text) := rfl

theorem planAnswer_eq (text : String) :
    planAnswer text =
      perform ((testsOfFile "plan.json" "unit" 0).asUsage >>= printNames 0 "unit") {}
        (planWorkspace text) :=
  perform_question (List.forall_mem_nil _) rfl (ask_planWorkspace text) rfl "unit"

/-- A plan of one fork, which runs one group. -/
def plainPlan : String :=
  "\x7b\"version\": 1, \"workers\": [\x7b\"index\": 0, \"tests\": \x7b\"unit\": [\"fast*\"]\x7d\x7d]\x7d"

theorem listedIn?_plainPlan :
    listedIn? plainPlan.toUTF8.toList 0 "unit" = some [Text.ofString "fast*"] := by
  decide +kernel

/-- The name that a plan lists is printed. -/
theorem closed_iff_plain :
    Closed plainPlan.toUTF8.toList "plan.json" 0 "unit" (planAnswer plainPlan) := by
  have hclosed := closed_iff (List.forall_mem_nil _) rfl (ask_planWorkspace plainPlan)
    (read_planWorkspace plainPlan) (rfl : integerValue "0" = .ok 0) "unit"
  obtain ⟨snapshot, hbytes, -⟩ := listedIn?_eq_some_iff.mp listedIn?_plainPlan
  refine hclosed.1.mpr
    ⟨hclosed.2.2.2.2.mp fun e he => ?_, fun names hnames name hname => ?_, fun _ _ => rfl⟩
  · rw [hbytes] at he
    cases he
  · obtain rfl := Option.some.inj (listedIn?_plainPlan.symm.trans hnames)
    obtain rfl := List.mem_singleton.mp hname
    exact not_hasSurrogate_ofString "fast*"

/-- A plan whose entries are a number. -/
def numberPlan : String := "\x7b\"version\": 1, \"workers\": 5\x7d"

/-- A plan that lists a name with a surrogate. -/
def surrogatePlan : String :=
  "\x7b\"version\": 1, \"workers\": [\x7b\"index\": 0, \"tests\": \x7b\"unit\": [\"\\ud800*\"]\x7d\x7d]\x7d"

theorem misfit_numberPlan : Misfit numberPlan.toUTF8.toList := by
  have hread : ((Snapshot.ofBytes numberPlan.toUTF8.toList).mapError isTold).map (fun _ => ()) =
      .error false := by
    decide +kernel
  cases hbytes : Snapshot.ofBytes numberPlan.toUTF8.toList with
  | error e =>
      rw [hbytes] at hread
      exact untold_ofBytes_iff.mp ⟨e, hbytes, Except.error.inj hread⟩
  | ok snapshot =>
      rw [hbytes] at hread
      cases hread

theorem not_printable_surrogatePlan : ¬Printable surrogatePlan.toUTF8.toList 0 "unit" := by
  have hlisted : listedIn? surrogatePlan.toUTF8.toList 0 "unit" =
      some [.withSurrogate [.surrogate 0, .char '*'] rfl] := by
    decide +kernel
  exact fun h => h _ hlisted _ (List.mem_singleton.mpr rfl) rfl

/-- **Where a question does not end as it is meant to.**  A plan whose entries are a number is a
misfit, and what is wrong is passed on; so it is with a name that holds a surrogate. -/
theorem not_closed_misfit :
    (∃ e, planAnswer numberPlan =
        ((.error (.planFile (Path.ofText "plan.json") e), {}), planWorkspace numberPlan)) ∧
      ¬Closed numberPlan.toUTF8.toList "plan.json" 0 "unit" (planAnswer numberPlan) ∧
      ¬Closed surrogatePlan.toUTF8.toList "plan.json" 0 "unit" (planAnswer surrogatePlan) := by
  rw [planAnswer_eq, planAnswer_eq]
  obtain ⟨e, hends⟩ :=
    perform_answer_of_misfit (read_planWorkspace numberPlan) misfit_numberPlan 0 "unit"
  obtain ⟨name, -, hname⟩ :=
    perform_answer_of_surrogate (read_planWorkspace surrogatePlan) not_printable_surrogatePlan
  exact ⟨⟨e, hends⟩, fun h => h.told.1 _ e (congrArg (·.1.1) hends), fun h => h.told.2 name hname⟩

end SuiteBalance.Command
