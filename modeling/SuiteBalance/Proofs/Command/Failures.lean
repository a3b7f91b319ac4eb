import Mathlib
import SuiteBalance.Proofs.Command.Answers
import SuiteBalance.Proofs.Planner.Failures

/-!
# Proofs — Commands — plans that cannot be made

Where a plan cannot be made, both commands are meant to say why and to give up.  They do, unless it
is the bytes of a source that are no text: planning passes that on as it is, and asking takes it for
a fault in the usage.

* `TimingFile.isReported_load`, `isReported_found`: which failures of the collaborators are reported.
* **`Undecodable`**: a source whose bytes are no text is the first thing wrong with a project.
* `FailsWith.perform_makePlan`, `perform_run_of_error`: how a failure is passed on.
* **`Reported`** and **`reported_iff`**: which failures are reported by both commands, and
  `not_reported_undecodable`: one that is not.
-/

namespace SuiteBalance

open Workspace

variable {w : Workspace} {e : Failure} {bytes : List UInt8}

/-! ### The timing history -/

/-- **Where the timing history cannot be used, that is reported**, whatever its file holds. -/
theorem TimingFile.isReported_load {file : TimingFile}
    (h : (ask (file.load : StateM Workspace _) w).1.outcome = .error e) : e.isReported = true := by
  rw [load, ask_bind, ask_isFile] at h
  cases hstanding : w.standing file.path with
  | error fault =>
      rw [hstanding] at h
      obtain rfl := Except.error.inj h
      exact isSystem_of_standing hstanding
  | ok node? =>
      rw [hstanding] at h
      by_cases hfile : node?.map Node.kind = some .file
      · obtain ⟨bytes, rfl⟩ : ∃ bytes, node? = some (.file bytes) := by
          obtain ⟨node, rfl, hnode⟩ := Option.map_eq_some_iff.mp hfile
          cases node with
          | file bytes => exact ⟨bytes, rfl⟩
          | _ => cases hnode
        simp only [Except.map, hfile, decide_true] at h
        rw [ask_bind, ask_read (read_of_standing hstanding)] at h
        dsimp only at h
        split at h
        · obtain rfl := Except.error.inj h
          rfl
        · cases h
        · cases h
      · simp only [Except.map, hfile, decide_false] at h
        cases h

/-! ### The sources -/

/-- The patterns in a file all end in the wildcard. -/
def Groupable (bytes : List UInt8) : Prop :=
  ∃ text, Text.Utf8.decode bytes = .ok text ∧
    ∀ pattern ∈ Discovery.patterns text, pattern.toList.getLast? = some wildcard

namespace Command

open Call Terminal

variable {s : Settings} {source : SourceSettings}

/-- What a source of a project finds in its file. -/
theorem found_sourceOf (h : w.read (s.resolve source.path) = .ok bytes) :
    (sourceOf s source).found w = match Text.Utf8.decode bytes with
      | .error fault => .error (.encoding fault)
      | .ok text =>
        (Group.ofPatterns (Discovery.patterns text) (.name source.task)).mapError .group := by
  unfold Source.found sourceOf
  dsimp only
  rw [Discovery.load, ask_bind, ask_read h]
  dsimp only
  cases Text.Utf8.decode bytes <;> rfl

theorem found_eq_ok_iff (h : w.read (s.resolve source.path) = .ok bytes) :
    (∃ groups, (sourceOf s source).found w = .ok groups) ↔ Groupable bytes := by
  rw [found_sourceOf h, Groupable]
  cases Text.Utf8.decode bytes with
  | error fault => simp
  | ok text =>
      simp only [Except.ok.injEq, exists_eq_left',
        ← Group.exists_ofPatterns_iff (t := .name source.task)]
      cases Group.ofPatterns (Discovery.patterns text) (.name source.task) <;> simp [Except.mapError]

/-- What is wrong with a source is reported, unless its bytes are no text. -/
theorem isReported_found (h : w.read (s.resolve source.path) = .ok bytes)
    (hfound : (sourceOf s source).found w = .error e) :
    e.isReported = true ∨ ∃ fault, Text.Utf8.decode bytes = .error fault ∧ e = .encoding fault := by
  rw [found_sourceOf h] at hfound
  cases hdecode : Text.Utf8.decode bytes with
  | error fault =>
      rw [hdecode] at hfound
      exact .inr ⟨fault, rfl, (Except.error.inj hfound).symm⟩
  | ok text =>
      rw [hdecode] at hfound
      dsimp only at hfound
      cases hgroups : Group.ofPatterns (Discovery.patterns text) (.name source.task) with
      | ok groups =>
          rw [hgroups] at hfound
          cases hfound
      | error fault =>
          rw [hgroups] at hfound
          obtain rfl := Except.error.inj hfound
          exact .inl rfl

/-- The first thing wrong with a project is a source whose bytes are no text: the timing history can
be used, and the sources before list groups. -/
structure Undecodable (s : Settings) (w : Workspace) (fault : Text.Utf8.Fault) : Prop where
  timings : ∃ records, (ask ((timingFile s).load : StateM Workspace _) w).1.outcome = .ok records
  sources : ∃ before source behind bytes, s.sources = before ++ source :: behind ∧
    (∀ earlier ∈ before, ∃ bytes, w.read (s.resolve earlier.path) = .ok bytes ∧ Groupable bytes) ∧
      w.read (s.resolve source.path) = .ok bytes ∧ Text.Utf8.decode bytes = .error fault

/-- The files of the sources can be read. -/
def Readable (s : Settings) (w : Workspace) : Prop :=
  ∀ source ∈ s.sources, ∃ bytes, w.read (s.resolve source.path) = .ok bytes

theorem ask_discovery {p : Path} (h : w.read p = .ok bytes) :
    (ask (Discovery.load p : StateM Workspace _) w).2 = w := by
  rw [Discovery.load, ask_bind, ask_read h]
  dsimp only
  cases Text.Utf8.decode bytes <;> rfl

/-- **Planning fails for the timing history, or for the first source that fails.** -/
theorem generate_fails_iff {planner : Planner (StateM Workspace)} (h : plannerOf s = .ok planner)
    (hread : Readable s w) :
    (ask planner.generate w).1.1.outcome = .error e ↔
      (ask ((timingFile s).load : StateM Workspace _) w).1.outcome = .error e ∨
        (∃ records, (ask ((timingFile s).load : StateM Workspace _) w).1.outcome = .ok records) ∧
          ∃ before source behind, s.sources = before ++ source :: behind ∧
            (∀ earlier ∈ before, ∃ groups, (sourceOf s earlier).found w = .ok groups) ∧
              (sourceOf s source).found w = .error e := by
  obtain ⟨-, htimings, hsources⟩ := of_plannerOf h
  have hkept : (ask planner.timings w).2 = w := by
    obtain ⟨reply, hreply, -⟩ : Alike w w (timingFile s).load := TimingFile.alike_load rfl
    rw [htimings, hreply]
  have hlisted : ∀ source ∈ planner.sources, (ask source.list w).2 = w := by
    rw [hsources, List.forall_mem_map]
    intro source hsource
    obtain ⟨bytes, hbytes⟩ := hread source hsource
    exact ask_discovery hbytes
  rw [Planner.generate_eq_error_iff hkept hlisted, htimings, hsources]
  refine or_congr_right (and_congr_right fun _ => ⟨?_, ?_⟩)
  · rintro ⟨before, source, behind, hsplit, hbefore, hsource⟩
    obtain ⟨before', rest, hs, rfl, hrest⟩ := List.map_eq_append_iff.mp hsplit
    obtain ⟨source', behind', rfl, rfl, -⟩ := List.map_eq_cons_iff.mp hrest
    exact ⟨before', source', behind', hs,
      fun earlier hearlier => hbefore _ (List.mem_map_of_mem hearlier), hsource⟩
  · rintro ⟨before, source, behind, hs, hbefore, hsource⟩
    refine ⟨before.map (sourceOf s), sourceOf s source, behind.map (sourceOf s), ?_,
      List.forall_mem_map.mpr hbefore, hsource⟩
    rw [hs, List.map_append, List.map_cons]

/-- **What is wrong with a project is reported, or it is undecodable.** -/
theorem isReported_or_undecodable {planner : Planner (StateM Workspace)}
    (h : plannerOf s = .ok planner) (hread : Readable s w)
    (hfails : (ask planner.generate w).1.1.outcome = .error e) :
    e.isReported = true ∨ ∃ fault, Undecodable s w fault := by
  rcases (generate_fails_iff h hread).mp hfails with
    htimings | ⟨htimings, before, source, behind, hs, hbefore, hsource⟩
  · exact .inl (TimingFile.isReported_load htimings)
  · have hmem : ∀ earlier ∈ before ++ [source], earlier ∈ s.sources := by
      rw [hs]
      simp only [List.mem_append, List.mem_cons]
      tauto
    obtain ⟨bytes, hbytes⟩ := hread source (hmem source (by simp))
    rcases isReported_found hbytes hsource with hreported | ⟨fault, hfault, -⟩
    · exact .inl hreported
    · refine .inr ⟨fault, htimings, before, source, behind, bytes, hs, fun earlier hearlier => ?_,
        hbytes, hfault⟩
      obtain ⟨bytes', hbytes'⟩ := hread earlier (hmem earlier (by simp [hearlier]))
      exact ⟨bytes', hbytes', (found_eq_ok_iff hbytes').mp (hbefore earlier hearlier)⟩

/-- An undecodable project fails for its bytes. -/
theorem Undecodable.generate_fails {planner : Planner (StateM Workspace)}
    {fault : Text.Utf8.Fault} (h : Undecodable s w fault) (hplanner : plannerOf s = .ok planner)
    (hread : Readable s w) :
    (ask planner.generate w).1.1.outcome = .error (.encoding fault) := by
  obtain ⟨before, source, behind, bytes, hs, hbefore, hbytes, hfault⟩ := h.sources
  refine (generate_fails_iff hplanner hread).mpr
    (.inr ⟨h.timings, before, source, behind, hs, fun earlier hearlier => ?_, ?_⟩)
  · obtain ⟨bytes', hbytes', hgroupable⟩ := hbefore earlier hearlier
    exact (found_eq_ok_iff hbytes').mpr hgroupable
  · rw [found_sourceOf hbytes, hfault]

/-! ### Commands -/

section

variable [Platform] {t t' : Transcript} {w' : Workspace} {r : Request}

/-- What is said of a plan that cannot be made. -/
def failedReason (e : Failure) : Text :=
  "Test plan generation failed: " ++ Console.escape e.message

/-- How it is said. -/
def failedLine (e : Failure) : Printed := message .error (failedReason e)

/-- Planning fails for a project. -/
def FailsWith (s : Settings) (w : Workspace) (e : Failure) : Prop :=
  ∃ planner, plannerOf s = .ok planner ∧ (ask planner.generate w).1.1.outcome = .error e

/-- A plan that cannot be made is given up with the reason, or its failure is passed on. -/
theorem FailsWith.perform_makePlan (h : FailsWith s w e) (t : Transcript) :
    ∃ notices w', perform (makePlan s) t w =
      if e.isReported then perform (Call.abort (failedReason e)) { t with notices } w'
      else ((.error (.failure e), { t with notices }), w') := by
  obtain ⟨planner, hplanner, houtcome⟩ := h
  obtain ⟨⟨⟨reply, later⟩, w'⟩, hask⟩ : ∃ answer, ask planner.generate w = answer := ⟨_, rfl⟩
  rw [hask] at houtcome
  dsimp only at houtcome
  refine ⟨t.notices ++ reply.notices, w', ?_⟩
  rw [makePlan, hplanner, perform_bind_of_ok (perform_ofExcept_ok _ _),
    perform_bind_of_ok (perform_lift_of_ask hask)]
  dsimp only
  rw [perform_bind_of_ok (perform_note _), houtcome]
  dsimp only
  split_ifs <;> rfl

/-- How a command ends whose planning ends with a failure. -/
def CommandName.ending : CommandName → Failed → Failed
  | .plan, failed => failed
  | .tests, failed => failed.asUsage

omit [Platform] in
theorem CommandName.ending_ne_aborted (command : CommandName) (e : Failure) :
    command.ending (.failure e) ≠ .aborted := by
  cases command with
  | plan => exact fun h => by cases h
  | tests => exact ne_aborted_asUsage e

/-- **A command that makes a plan ends as planning does.** -/
theorem perform_run_of_error (command : CommandName) (hplan : r.planFile? = none)
    (hload : perform (loadSettings r) {} w = ((.ok s, t), w)) {failed : Failed}
    (hmake : perform (makePlan s) t w = ((.error failed, t'), w')) :
    perform (command.run r) {} w = ((.error (command.ending failed), t'), w') := by
  cases command with
  | plan =>
    rw [CommandName.run, runPlan_eq, perform_bind_of_ok hload, perform_bind_of_error hmake]
    rfl
  | tests =>
    rw [CommandName.run, runTests_eq, hplan]
    refine perform_bind_of_error (perform_asUsage_of_error ?_)
    exact perform_bind_of_error ((perform_bind_of_ok hload).trans hmake)

/-- A failure of planning is reported: the reason is printed, and nothing else, and the call is
given up. -/
structure Reported (e : Failure) (result : (Except Failed Unit × Transcript) × Workspace) :
    Prop where
  outcome : result.1.1 = .error .aborted
  output : result.1.2.output = ""
  printed : result.1.2.printed = [failedLine e]

/-- The settings of a project name sources that can be read, and nothing is printed while they are
loaded. -/
theorem of_perform_loadSettings (h : perform (loadSettings r) {} w = ((.ok s, t), w)) :
    Readable s w ∧ t.output = "" ∧ t.printed = [] := by
  obtain ⟨-, -, ⟨notices, rfl⟩, hfiles⟩ := loadSettings_again rfl rfl rfl (fun _ _ => rfl) h
  refine ⟨fun source hsource => ?_, rfl, rfl⟩
  obtain ⟨bytes, hbytes⟩ := hfiles source hsource
  exact ⟨bytes, read_of_standing hbytes⟩

/-- A failure that is reported is reported by each command, if the console accepts the reason. -/
theorem reported_iff_of_isReported (command : CommandName) (hplan : r.planFile? = none)
    (hload : perform (loadSettings r) {} w = ((.ok s, t), w)) (hfails : FailsWith s w e)
    (h : e.isReported = true) :
    Reported e (perform (command.run r) {} w) ↔ Console.refusal? (failedLine e) = none := by
  obtain ⟨-, houtput, hprinted⟩ := of_perform_loadSettings hload
  obtain ⟨notices, w', hmake⟩ := hfails.perform_makePlan t
  rw [if_pos h] at hmake
  cases hrefusal : Console.refusal? (failedLine e) with
  | none =>
    rw [perform_abort_of_accepted hrefusal] at hmake
    rw [perform_run_of_error command hplan hload hmake]
    have hending : command.ending .aborted = .aborted := by cases command <;> rfl
    exact iff_of_true ⟨congrArg Except.error hending, houtput,
      congrArg (· ++ [failedLine e]) hprinted⟩ rfl
  | some refusal =>
    rw [perform_abort_of_refused hrefusal] at hmake
    rw [perform_run_of_error command hplan hload hmake]
    refine iff_of_false (fun hreported => ?_) (Option.some_ne_none refusal)
    exact command.ending_ne_aborted refusal (Except.error.inj hreported.outcome)

/-- A failure that is not reported is passed on by each command. -/
theorem passedOn_of_not_isReported (command : CommandName) (hplan : r.planFile? = none)
    (hload : perform (loadSettings r) {} w = ((.ok s, t), w)) (hfails : FailsWith s w e)
    (h : e.isReported = false) : ∃ t' w', t'.output = "" ∧ t'.printed = [] ∧
      perform (command.run r) {} w = ((.error (command.ending (.failure e)), t'), w') := by
  obtain ⟨-, houtput, hprinted⟩ := of_perform_loadSettings hload
  obtain ⟨notices, w', hmake⟩ := hfails.perform_makePlan t
  rw [h, if_neg Bool.false_ne_true] at hmake
  exact ⟨{ t with notices }, w', houtput, hprinted, perform_run_of_error command hplan hload hmake⟩

/-- **The failures of planning that are reported.**  Whatever the configuration that is accepted,
and whatever the bytes of the sources and of the timing history: where planning fails, both commands
print the reason and give up, if and only if the project is not undecodable and the console accepts
the reason.  Where it is undecodable, nothing is printed; planning passes the failure on as it is,
and a question takes it for a fault in its usage. -/
theorem reported_iff (command : CommandName) {arguments : List String}
    (hrequest : ask (Request.ofArguments command arguments) w = (.ok r, w))
    (hplan : r.planFile? = none) (hload : perform (loadSettings r) {} w = ((.ok s, t), w))
    (hfails : FailsWith s w e) :
    (Reported e (perform (runArguments (command.name :: arguments)) {} w) ↔
      (∀ fault, ¬Undecodable s w fault) ∧ Console.refusal? (failedLine e) = none) ∧
    ∀ fault, Undecodable s w fault → e = .encoding fault ∧ ∃ t w', t.output = "" ∧ t.printed = [] ∧
      perform (runArguments (command.name :: arguments)) {} w =
        ((.error (match command with
          | .plan => .failure e
          | .tests => .usage (.refused e.message)), t), w') := by
  have hencoding (fault : Text.Utf8.Fault) (h : Undecodable s w fault) : e = .encoding fault := by
    obtain ⟨planner, hplanner, houtcome⟩ := hfails
    have hfault := h.generate_fails hplanner (of_perform_loadSettings hload).1
    exact Except.error.inj (houtcome.symm.trans hfault)
  have hpassed (fault : Text.Utf8.Fault) (h : e = .encoding fault) :=
    passedOn_of_not_isReported command hplan hload hfails (h ▸ rfl)
  rw [perform_runArguments, hrequest]
  dsimp only
  refine ⟨?_, fun fault h => ⟨hencoding fault h, ?_⟩⟩
  · by_cases h : ∃ fault, Undecodable s w fault
    · obtain ⟨fault, h⟩ := h
      obtain rfl := hencoding fault h
      obtain ⟨t, w', -, hprinted, hends⟩ := hpassed fault rfl
      refine iff_of_false (fun hreported => ?_) fun hnone => hnone.1 fault h
      have hnone := hreported.printed
      rw [hends, hprinted] at hnone
      cases hnone
    · obtain ⟨planner, hplanner, houtcome⟩ := id hfails
      have hreported := (isReported_or_undecodable hplanner
        (of_perform_loadSettings hload).1 houtcome).resolve_right h
      rw [reported_iff_of_isReported command hplan hload hfails hreported]
      exact (and_iff_right fun fault hfault => h ⟨fault, hfault⟩).symm
  · obtain rfl := hencoding fault h
    obtain ⟨t, w', houtput, hprinted, hends⟩ := hpassed fault rfl
    refine ⟨t, w', houtput, hprinted, hends.trans ?_⟩
    cases command <;> rfl

end

/-! ### Small projects -/

/-- A workspace whose one source lists a pattern without the wildcard. -/
def bareWorkspace : Workspace := { nodes := [(["unit.txt"], .file [102, 97, 115, 116, 10])] }

/-- A workspace whose one source is no text. -/
def undecodableWorkspace : Workspace := { nodes := [(["unit.txt"], .file [255, 10])] }

/-- The arguments of a command that name the source. -/
def sourceArguments : CommandName → List String
  | .plan => ["--source", "unit=unit.txt"]
  | .tests => ["--source", "unit=unit.txt", "--worker", "0", "--task", "unit"]

/-- The request that they make. -/
def sourceRequest : CommandName → Request
  | .plan => { sources := [⟨"unit", "unit.txt"⟩] }
  | .tests => { sources := [⟨"unit", "unit.txt"⟩], worker? := some 0, task? := some "unit" }

/-- The settings that are loaded for it. -/
def sourceSettings : Settings := { root := ⟨.root, []⟩, sources := [⟨"unit", "/unit.txt"⟩] }

/-- How a command ends. -/
def sourceEnding (command : CommandName) (w : Workspace) :
    (Except Failed Unit × Transcript) × Workspace :=
  perform (runArguments (command.name :: sourceArguments command)) {} w

theorem requested_bare (command : CommandName) :
    ask (Request.ofArguments command (sourceArguments command)) bareWorkspace =
      (.ok (sourceRequest command), bareWorkspace) := by
  cases command <;> rfl

/-- A pattern without the wildcard is reported by both commands. -/
theorem reported_iff_bare :
    Reported (.group (.noWildcard "fast")) (sourceEnding .plan bareWorkspace) ∧
      Reported (.group (.noWildcard "fast")) (sourceEnding .tests bareWorkspace) := by
  have hfails : FailsWith sourceSettings bareWorkspace (.group (.noWildcard "fast")) :=
    ⟨_, rfl, rfl⟩
  have hplan := reported_iff .plan (requested_bare .plan) rfl rfl hfails
  have htests := reported_iff .tests (requested_bare .tests) rfl rfl hfails
  refine ⟨hplan.1.mpr ⟨fun fault h => ?_, rfl⟩, htests.1.mpr ⟨fun fault h => ?_, rfl⟩⟩
  · cases (hplan.2 fault h).1
  · cases (htests.2 fault h).1

/-- **Where a failure is not reported.**  The bytes of a source are no text, which is what planning
fails for; neither command reports it, and a question takes it for a fault in its usage. -/
theorem not_reported_undecodable :
    FailsWith sourceSettings undecodableWorkspace (.encoding ⟨0, 1, 255, .start⟩) ∧
      (∃ t u, perform (loadSettings (sourceRequest .plan)) {} undecodableWorkspace =
        ((.ok sourceSettings, t), u)) ∧
      (sourceEnding .plan undecodableWorkspace).1.1 =
        .error (.failure (.encoding ⟨0, 1, 255, .start⟩)) ∧
      (sourceEnding .tests undecodableWorkspace).1.1 =
        .error (.usage (.refused (Text.Utf8.Fault.message ⟨0, 1, 255, .start⟩))) ∧
      ¬Reported (.encoding ⟨0, 1, 255, .start⟩) (sourceEnding .plan undecodableWorkspace) ∧
      ¬Reported (.encoding ⟨0, 1, 255, .start⟩) (sourceEnding .tests undecodableWorkspace) := by
  have hplan : (sourceEnding .plan undecodableWorkspace).1.1 =
      .error (.failure (.encoding ⟨0, 1, 255, .start⟩)) := rfl
  have htests : (sourceEnding .tests undecodableWorkspace).1.1 =
      .error (.usage (.refused (Text.Utf8.Fault.message ⟨0, 1, 255, .start⟩))) := rfl
  refine ⟨⟨_, rfl, rfl⟩, ⟨_, _, rfl⟩, hplan, htests, fun h => ?_, fun h => ?_⟩
  · cases hplan.symm.trans h.outcome
  · cases htests.symm.trans h.outcome

end Command

end SuiteBalance
