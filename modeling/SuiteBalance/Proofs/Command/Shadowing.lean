import Mathlib
import SuiteBalance.Proofs.Command.Overridden
import SuiteBalance.Proofs.Command.Views
import SuiteBalance.Proofs.Workspace.Twins

/-!
# Proofs — Commands — requests that shadow the configuration

A request that sets the number of forks, the file of durations and the sources leaves nothing of
what is configured there.  So two calls for it, in workspaces that differ in the configuration file
alone, do the same, as long as that file is not one that the request names to be read.

* `agree_makePlan`, `together_savePlan`, `agree_showPlan`: the parts of planning, side by side.
* **`Shadows`**: a request that sets all that two configuration files differ in.
* `together_runPlan`, `agree_runTests`: the commands, side by side.
* **`configuration_shadowed`**: what is seen and written is the same, and where paths are seen from;
  `configuration_shadowed_plan`: a small project.
* `not_shadowed_named`: a configuration file that is named to be read.
-/

namespace SuiteBalance

open Workspace

variable {w v : Workspace} {s s' : Settings} {site : List Text} {first second : List UInt8}

/-- A plan is saved in both of two twins, or in neither. -/
theorem Plan.save_twins (h : Twins site first second w v) (plan : Plan) (path : Path) :
    ∃ outcome w' v', ask (plan.save path) w = (outcome, w') ∧
      ask (plan.save path) v = (outcome, v') ∧
      Twins site first second w' v' ∧ (outcome = .ok () → v'.standing path = w'.standing path) := by
  unfold Plan.save
  cases plan.fileText with
  | error e => exact ⟨_, w, v, rfl, rfl, h, nofun⟩
  | ok text =>
      obtain ⟨outcome, w', v', hw, hv, hleft, hstanding⟩ := h.writeUnder path text.toUTF8.toList
      dsimp only
      rw [ask_bind, ask_bind, hw, hv]
      refine ⟨_, w', v', rfl, rfl, hleft, fun hok => hstanding ?_⟩
      cases outcome with
      | ok _ => rfl
      | error e => cases hok

namespace Command

open Call Settings

variable {r : Request} {plan : Plan} {command : CommandName} {arguments rest : List String}

/-! ### Plans -/

/-- **A plan is made side by side**, where the same is read. -/
theorem agree_makePlan [Platform] (hsame : SameButRaw s s')
    (htimings : v.standing (timingFile s).path = w.standing (timingFile s).path)
    (hsources : ∀ source ∈ s.sources, Alike w v (Host.read (s.resolve source.path))) :
    Agree Eq w v (makePlan s) (makePlan s') := by
  rw [eq_of_sameButRaw hsame]
  change Agree Eq w v (makePlan s) (makePlan s)
  unfold makePlan
  cases hplanner : plannerOf (m := StateM Workspace) s with
  | error e => exact .throw _
  | ok planner =>
      obtain ⟨-, hload, hlist⟩ := of_plannerOf hplanner
      have hgenerate : Alike w v planner.generate := by
        refine Planner.alike_generate ?_ ?_
        · rw [hload]
          exact TimingFile.alike_load htimings
        · rw [hlist, List.forall_mem_map]
          exact fun source hsource => Discovery.alike_load (hsources source hsource)
      simp only [Call.ofExcept, pure_bind]
      refine (Agree.lift hgenerate).bind_same fun answer =>
        (Agree.note _ _).bind_same fun _ => ?_
      cases answer.1.outcome with
      | error e =>
          dsimp only
          split_ifs
          · exact .abort _
          · exact .throw _
      | ok plan => exact (Agree.note _ _).bind_same fun _ => .pure rfl

theorem together_savePlan (htwins : Twins site first second w v) (r : Request) (s : Settings)
    (plan : Plan) :
    Together (fun _ _ w' v' => Twins site first second w' v' ∧
        ∀ path, outputPath? r s = some path → v'.standing path = w'.standing path)
      (Twins site first second) w v (savePlan r s plan) (savePlan r s plan) := by
  unfold savePlan
  intro t t' hshown
  cases houtput : outputPath? r s with
  | none => exact .ok hshown ⟨htwins, nofun⟩
  | some path =>
      obtain ⟨outcome, w', v', hw, hv, hleft, hstanding⟩ := plan.save_twins htwins path
      dsimp only
      rw [perform_bind_of_ok (perform_lift_of_ask hw), perform_bind_of_ok (perform_lift_of_ask hv)]
      cases outcome with
      | error e => exact .error hshown hleft _
      | ok _ => exact .ok hshown ⟨hleft, fun path hpath => Option.some.inj hpath ▸ hstanding rfl⟩

theorem agree_showPlan [Platform] (r : Request) (s : Settings) (plan : Plan) :
    Agree Eq w v (showPlan r s plan) (showPlan r s plan) := by
  unfold showPlan
  split_ifs
  · exact (Agree.ofExcept _ _).bind_same fun _ => .echo _
  · unfold showTable
    refine (Agree.print _).bind_same fun _ => (Agree.ofExcept _ _).bind_same fun _ =>
      (Agree.print _).bind_same fun _ => ?_
    cases outputPath? r s with
    | none => exact .print _
    | some path => exact (Agree.print _).bind_same fun _ => .print _

/-! ### Requests that shadow the configuration -/

/-- The files that a request names to be read, in a working directory. -/
def Request.named (r : Request) (directory : List Text) : List Path :=
  (r.timings?.map fun (path : String) => (Path.ofText path).resolve directory).toList ++
    (r.sources.map fun source => (Path.ofText source.path).resolve directory) ++
      (r.planFile?.map fun (file : String) => Path.ofText file).toList

/-- The configuration files of a project load in two workspaces, and differ aside. -/
def LoadAside [Value.Stack] [Yaml.Loader] (root : String) (w v : Workspace) : Prop :=
  ∃ x x' s s', (ask (valueAt (filePath w.directory root) : StateM Workspace _) w).1 = .ok x ∧
    (ask (valueAt (filePath v.directory root) : StateM Workspace _) v).1 = .ok x' ∧
    DifferAside x x' ∧ (ask (load root) w).1.1 = .ok s ∧ (ask (load root) v).1.1 = .ok s'

/-- A request sets all that the configuration files of two workspaces differ in, and names no file
that the workspaces differ in. -/
structure Shadows [Value.Stack] [Yaml.Loader] (site : List Text) (w v : Workspace) (r : Request) :
    Prop where
  forks : r.forks?.isSome = true
  timings : r.timings?.isSome = true
  sources : r.sources ≠ []
  apart : ∀ p ∈ r.named w.directory, w.place p ≠ .ok site
  loads : LoadAside r.root w v

/-- What a request sets makes settings the same that differ aside. -/
theorem sameButRaw_overridden {directory : List Text} (hforks : r.forks?.isSome = true)
    (htimings : r.timings?.isSome = true) (hsources : r.sources ≠ []) (hroot : s'.root = s.root)
    (htexts : ∀ o : TextSetting, o ≠ .timingsPath → o.of s' = o.of s) :
    SameButRaw (r.overridden directory s) (r.overridden directory s') := by
  obtain ⟨n, hn⟩ := Option.isSome_iff_exists.mp hforks
  obtain ⟨path, hpath⟩ := Option.isSome_iff_exists.mp htimings
  have hroot' : (r.overridden directory s').root = (r.overridden directory s).root := hroot
  have hforks' : (r.overridden directory s').forks = (r.overridden directory s).forks := by
    simp only [Request.overridden, hn, Option.getD_some]
  have hsources' : (r.overridden directory s').sources = (r.overridden directory s).sources := by
    simp only [Request.overridden, if_neg hsources]
  refine (sameButRaw_iff hroot' hforks' hsources').mpr fun o => ?_
  cases o with
  | timingsPath =>
      simp only [TextSetting.of, Request.overridden, hpath, Option.map_some, Option.getD_some]
  | nameColumn => exact htexts .nameColumn nofun
  | durationColumn => exact htexts .durationColumn nofun
  | planFile => exact htexts .planFile nofun
  | format => exact htexts .format nofun

section

variable [Platform]

/-- What is known of two workspaces for a request that shadows their configuration files: the
settings of the project are the same but for what they come from, and what they name is read the
same. -/
structure Shadowing (w v : Workspace) (r : Request) (s s' : Settings) : Prop where
  loaded : Agree (fun a a' => a = s ∧ a' = s') w v (loadSettings r) (loadSettings r)
  same : SameButRaw s s'
  timings : v.standing (timingFile s).path = w.standing (timingFile s).path
  sources : ∀ source ∈ s.sources, Alike w v (Host.read (s.resolve source.path))
  planFile : ∀ file, r.planFile? = some file → Alike w v (Host.read (Path.ofText file))

theorem Shadows.shadowing (h : Shadows site w v r) (htwins : Twins site first second w v)
    (hparts : ∀ part ∈ w.directory, Path.IsPart part) :
    ∃ s s', Shadowing w v r s s' := by
  obtain ⟨x, x', s, s', hvalue, hvalue', hdiffer, hload, hload'⟩ := h.loads
  obtain ⟨hroot, htexts⟩ := hdiffer.of_load htwins.directory htwins.environment hvalue hvalue'
    hload hload'
  have hsame : SameButRaw (r.overridden w.directory s) (r.overridden w.directory s') :=
    sameButRaw_overridden h.forks h.timings h.sources hroot htexts
  obtain ⟨_, -, htaken⟩ := Settings.of_load hload
  have hbased := based_overridden (r := r) hparts (root_of_take htaken)
  have happart := h.apart
  simp only [Request.named, List.forall_mem_append, List.forall_mem_map, Option.mem_toList,
    Option.map_eq_some_iff, forall_exists_index, and_imp, forall_apply_eq_imp_iff₂] at happart
  obtain ⟨⟨htimings, hsources⟩, hplanFile⟩ := happart
  -- the paths of the sources that are left are those that the request names
  have hplaced : ∀ source ∈ (r.overridden w.directory s).sources,
      w.place ((r.overridden w.directory s).resolve source.path) ≠ .ok site := by
    intro source hsource
    have hmem := List.mem_map_of_mem
      (f := fun source => (source.task, (r.overridden w.directory s).resolve source.path)) hsource
    rw [hbased.sources, if_neg h.sources, List.mem_map] at hmem
    obtain ⟨named, hnamed, heq⟩ := hmem
    rw [← (Prod.mk.inj heq).2]
    exact hsources named hnamed
  refine ⟨_, _, agree_loadSettings htwins.directory hload hload' hsame
    fun source hsource => htwins.standing_eq (hplaced source hsource), hsame, ?_,
    fun source hsource => htwins.alike_read (hplaced source hsource),
    fun file hfile => htwins.alike_read (hplanFile file hfile)⟩
  obtain ⟨path, hpath⟩ := Option.isSome_iff_exists.mp h.timings
  refine htwins.standing_eq ?_
  rw [hbased.timings, hpath]
  exact htimings path hpath

/-! ### Commands -/

/-- **A plan is made, written and shown side by side.** -/
theorem together_runPlan (h : Shadowing w v r s s') (htwins : Twins site first second w v) :
    Together (fun _ _ w' v' => Twins site first second w' v' ∧
        ∀ path, outputPath? r s = some path → v'.standing path = w'.standing path)
      (Twins site first second) w v (runPlan r) (runPlan r) := by
  rw [runPlan_eq]
  refine h.loaded.bind_together ?_ htwins
  rintro s s' ⟨rfl, rfl⟩
  refine (agree_makePlan h.same h.timings h.sources).bind_together ?_ htwins
  rintro plan _ rfl
  rw [eq_of_sameButRaw h.same]
  -- the plan is the first thing that is written, so that the workspaces are those of the start
  refine (together_savePlan htwins r s plan).bind ?_ fun _ _ hleft => hleft
  intro _ _ w' v' hsaved
  exact (agree_showPlan r s plan).together (fun _ _ _ => hsaved) hsaved.1

theorem agree_testsOfFile {file : String} (h : Alike w v (Host.read (Path.ofText file)))
    (task : String) (worker : ℤ) :
    Agree Eq w v (testsOfFile file task worker) (testsOfFile file task worker) := by
  have hload : Alike w v (Snapshot.load (Path.ofText file)) := by
    refine h.bind fun outcome _ => ?_
    cases outcome <;> exact .pure _
  refine (Agree.lift hload).bind_same fun outcome => ?_
  cases outcome with
  | error e =>
      dsimp only
      split_ifs
      · exact .abort _
      · exact .throw _
  | ok snapshot => exact .ofExcept _ _

theorem agree_testsOfProject (h : Shadowing w v r s s') (task : String) (worker : ℤ) :
    Agree Eq w v (testsOfProject r task worker) (testsOfProject r task worker) := by
  have hplan : Agree Eq w v (loadSettings r >>= makePlan) (loadSettings r >>= makePlan) := by
    refine h.loaded.bind ?_
    rintro s s' ⟨rfl, rfl⟩
    exact agree_makePlan h.same h.timings h.sources
  exact hplan.bind_same fun plan => (Agree.ofExcept _ _).bind_same fun _ => .pure rfl

/-- **The patterns of a task are printed side by side.** -/
theorem agree_runTests (h : Shadowing w v r s s') :
    Agree Eq w v (runTests r) (runTests r) := by
  rw [runTests_eq]
  refine Agree.bind_same ?names fun names =>
    (Agree.note _ _).bind_same fun _ => .forM (fun line => .echo line) names
  case names =>
    cases hplan : r.planFile? with
    | some file => exact (agree_testsOfFile (h.planFile file hplan) _ _).asUsage
    | none => exact (agree_testsOfProject h _ _).asUsage

/-! ### Calls -/

/-- A call runs a command: the options in front of it do not ask for the version instead. -/
def Runs (arguments : List String) (command : CommandName) (rest : List String) : Prop :=
  ∃ general, Arguments.read generalOptions false arguments = .ok general ∧
    general.has "--version" = false ∧ general.others = command.name :: rest

/-- A call that runs a command makes a request, or it fails; options in front only say what is
logged. -/
theorem perform_of_runs (h : Runs arguments command rest) :
    ∃ least, ∀ w, perform (runArguments arguments) {} w =
      match ask (Request.ofArguments command rest) w with
      | (.ok r, u) => perform (command.run r) { least } u
      | (.error fault, u) => ((.error (.usage fault), { least }), u) := by
  obtain ⟨general, hread, hversion, hothers⟩ := h
  obtain ⟨least, hleast⟩ : ∃ least, ∀ w, perform (runArguments arguments) {} w =
      perform (runCommand command.name rest) { least } w := by
    refine ⟨if general.has "--verbose" then .debug else .warning, fun w => ?_⟩
    rw [runArguments, hread, perform_bind_of_ok (perform_ofExcept_ok _ _), hversion, hothers]
    cases general.has "--verbose" <;> rfl
  exact ⟨least, fun w => (hleast w).trans (perform_runCommand command rest)⟩

/-- How two calls end together: the same is seen of both, what they leave differs in one file at
most, and so it does not in what is written by a call that succeeds. -/
structure SameEnd (site : List Text) (first second : List UInt8) (Written : Path → Prop)
    (a b : (Except Failed Unit × Transcript) × Workspace) : Prop where
  view : SameView a b
  left : Twins site first second a.2 b.2
  written : a.1.1 = .ok () → ∀ path, Written path → b.2.standing path = a.2.standing path

omit [Platform] in
theorem Call.Ends.sameEnd {Written : Path → Prop}
    {Both : Unit → Unit → Workspace → Workspace → Prop}
    {a b : (Except Failed Unit × Transcript) × Workspace}
    (h : Ends Both (Twins site first second) a b)
    (hboth : ∀ w' v', Both () () w' v' → Twins site first second w' v' ∧
      ∀ path, Written path → v'.standing path = w'.standing path) :
    SameEnd site first second Written a b := by
  cases h with
  | ok hshown h =>
      obtain ⟨hleft, hwritten⟩ := hboth _ _ h
      exact ⟨⟨rfl, hshown.output.symm, hshown.printed.symm⟩, hleft, fun _ => hwritten⟩
  | error hshown hleft e =>
      exact ⟨⟨rfl, hshown.output.symm, hshown.printed.symm⟩, hleft, nofun⟩

/-- The file that a command writes its plan to, if it writes one. -/
def CommandName.written? (command : CommandName) (r : Request) (s : Settings) : Option Path :=
  match command with
  | .plan => outputPath? r s
  | .tests => none

/-- A command serves a request that shadows the configuration side by side. -/
theorem sameEnd_run (command : CommandName) (h : Shadowing w v r s s')
    (htwins : Twins site first second w v) (t : Transcript) :
    SameEnd site first second (fun path => command.written? r s = some path)
      (perform (command.run r) t w) (perform (command.run r) t v) := by
  cases command with
  | plan =>
      have hends := together_runPlan h htwins t t ⟨rfl, rfl⟩
      exact hends.sameEnd fun _ _ hboth => hboth
  | tests =>
      have htogether : Together (fun _ _ w' v' => Twins site first second w' v')
          (Twins site first second) w v (runTests r) (runTests r) :=
        (agree_runTests h).together (fun _ _ _ => htwins) htwins
      have hends := htogether t t ⟨rfl, rfl⟩
      exact hends.sameEnd fun _ _ hboth => ⟨hboth, nofun⟩

/-- A call of a command in a workspace is to write its plan to a path. -/
def WritesTo (command : CommandName) (rest : List String) (w : Workspace) (path : Path) : Prop :=
  ∃ r s t u, ask (Request.ofArguments command rest) w = (.ok r, w) ∧
    perform (loadSettings r) {} w = ((.ok s, t), u) ∧ command.written? r s = some path

/-- **What a request sets shadows what is configured.**  A command is called in two workspaces that
hold the same, but for one file, the configuration of the project; this loads in both, and differs
in no more than the number of forks, the sources and the path of the timings.  If the request sets
these and names no file to be read that is the one, then the same is seen of both calls, the same
plan is written, and nothing else is done.

The paths of any request are seen from the working directory, and those that are configured from the
root of the project. -/
theorem configuration_shadowed (hruns : Runs arguments command rest)
    (hparts : ∀ part ∈ w.directory, Path.IsPart part) :
    (∀ v site first second, Twins site first second w v →
      (∀ r, ask (Request.ofArguments command rest) w = (.ok r, w) → Shadows site w v r) →
      SameEnd site first second (WritesTo command rest w) (perform (runArguments arguments) {} w)
        (perform (runArguments arguments) {} v)) ∧
    ∀ r s t u, perform (loadSettings r) {} w = ((.ok s, t), u) →
      ∃ loaded, (ask (load r.root) w).1.1 = .ok loaded ∧ Based w.directory r loaded s := by
  refine ⟨fun v site first second htwins hshadows => ?_, fun r s t u hload =>
    based_of_perform hparts hload⟩
  obtain ⟨least, hperform⟩ := perform_of_runs hruns
  -- reading a request looks at the kinds of files only, which are the same in twins
  obtain ⟨outcome, hw, hv⟩ := alike_ofArguments (w := w) (v := v) htwins.directory
    (fun p => by rw [htwins.kind_eq]) command rest
  rw [hperform, hperform, hw, hv]
  cases outcome with
  | error fault => exact ⟨⟨rfl, rfl, rfl⟩, htwins, nofun⟩
  | ok r =>
      obtain ⟨s, s', hshadowing⟩ := (hshadows r hw).shadowing htwins hparts
      have hends := sameEnd_run command hshadowing htwins { least }
      refine ⟨hends.view, hends.left, fun hok path hwrites => hends.written hok path ?_⟩
      obtain ⟨r', a, t, u, hr', hload, hpath⟩ := hwrites
      cases hw.symm.trans hr'
      obtain ⟨-, rfl, -⟩ := hshadowing.loaded.of_ok hload
      exact hpath

end

/-! ### Small projects -/

/-- A workspace with a configuration file, and a source that lists `fast*`. -/
def configuredWorkspace (text : String) : Workspace :=
  { nodes :=
      [([fileName], .file text.toUTF8.toList), (["unit.txt"], .file [102, 97, 115, 116, 42, 10])] }

theorem twins_configured (text text' : String) :
    Twins [fileName] text.toUTF8.toList text'.toUTF8.toList (configuredWorkspace text)
      (configuredWorkspace text') := by
  refine ⟨fun {place} hplace => ?_, ⟨_, _, rfl, rfl, .inr ⟨rfl, rfl⟩⟩, rfl, rfl⟩
  cases place with
  | nil => rfl
  | cons part parts =>
      have hne : (part :: parts == [(fileName : Text)]) = false := beq_false_of_ne hplace
      simp only [node?, configuredWorkspace, Entries.get?, List.lookup_cons, hne]

/-- A configuration file that holds nothing. -/
def emptyFile : String := ""

/-- One that sets the number of forks and the path of the timings. -/
def filledFile : String := "\x7b\"forks\": 2, \"timings\": \"old.csv\"\x7d\n"

theorem valueAt_emptyFile :
    (ask (valueAt (filePath [] ".")) (configuredWorkspace emptyFile)).1 = .ok .null :=
  Value.eq_ok_of_isSame (by decide +kernel)

theorem valueAt_filledFile :
    (ask (valueAt (filePath [] ".")) (configuredWorkspace filledFile)).1 =
      .ok (.mapping [(.text "forks", .integer 2), (.text "timings", .text "old.csv")]) :=
  Value.eq_ok_of_isSame (by decide +kernel)

theorem exists_ok_of_toBool {ε α : Type} {outcome : Except ε α} (h : outcome.toBool = true) :
    ∃ a, outcome = .ok a := by
  cases outcome with
  | error e => cases h
  | ok a => exact ⟨a, rfl⟩

/-- Both files load, and they differ aside. -/
theorem loadAside_configured :
    LoadAside "." (configuredWorkspace emptyFile) (configuredWorkspace filledFile) := by
  obtain ⟨s, hs⟩ : ∃ s, (ask (load ".") (configuredWorkspace emptyFile)).1.1 = .ok s :=
    exists_ok_of_toBool (by decide +kernel)
  obtain ⟨s', hs'⟩ : ∃ s, (ask (load ".") (configuredWorkspace filledFile)).1.1 = .ok s :=
    exists_ok_of_toBool (by decide +kernel)
  refine ⟨_, _, s, s', valueAt_emptyFile, valueAt_filledFile, fun o ho => ?_, hs, hs'⟩
  cases o with
  | timingsPath => exact absurd rfl ho
  | _ => rfl

/-- Options that set the number of forks, the file of durations and a source. -/
def shadowingOptions (timings source : String) : List String :=
  ["--forks", "1", "--timings", timings, "--source", "unit=" ++ source]

/-- The request that they make. -/
def shadowingRequest (timings source : String) : Request :=
  { forks? := some 1, timings? := some timings, sources := [⟨"unit", source⟩] }

/-- The options of a plan that is written to a file. -/
def writtenPlan : List String := shadowingOptions "t.csv" "unit.txt" ++ ["--output", "plan.json"]

/-- The request that they make. -/
def writtenRequest : Request :=
  { shadowingRequest "t.csv" "unit.txt" with output? := some "plan.json" }

/-- A plan is made of both files, and written to the same file, which is seen from the working
directory. -/
theorem configuration_shadowed_plan :
    Runs ("plan" :: writtenPlan) .plan writtenPlan ∧
      Shadows [fileName] (configuredWorkspace emptyFile) (configuredWorkspace filledFile)
        writtenRequest ∧
      SameEnd [fileName] emptyFile.toUTF8.toList filledFile.toUTF8.toList
        (WritesTo .plan writtenPlan (configuredWorkspace emptyFile))
        (perform (runArguments ("plan" :: writtenPlan)) {} (configuredWorkspace emptyFile))
        (perform (runArguments ("plan" :: writtenPlan)) {} (configuredWorkspace filledFile)) ∧
      WritesTo .plan writtenPlan (configuredWorkspace emptyFile) (Path.ofText "plan.json") ∧
      ∃ s loaded, Based [] writtenRequest loaded s := by
  have hruns : Runs ("plan" :: writtenPlan) .plan writtenPlan := ⟨_, rfl, rfl, rfl⟩
  have hshadows : Shadows [fileName] (configuredWorkspace emptyFile)
      (configuredWorkspace filledFile) writtenRequest :=
    ⟨rfl, rfl, by decide, by decide +kernel, loadAside_configured⟩
  have hrequest : ask (Request.ofArguments .plan writtenPlan) (configuredWorkspace emptyFile) =
      (.ok writtenRequest, configuredWorkspace emptyFile) := rfl
  obtain ⟨s, hs⟩ : ∃ s,
      (perform (loadSettings writtenRequest) {} (configuredWorkspace emptyFile)).1.1 = .ok s :=
    exists_ok_of_toBool (by decide +kernel)
  have hload : perform (loadSettings writtenRequest) {} (configuredWorkspace emptyFile) =
      ((.ok s, _), _) := Prod.ext (Prod.ext hs rfl) rfl
  have hshadowed := configuration_shadowed (w := configuredWorkspace emptyFile) hruns
    (List.forall_mem_nil _)
  obtain ⟨loaded, -, hbased⟩ := hshadowed.2 _ _ _ _ hload
  refine ⟨hruns, hshadows, hshadowed.1 _ _ _ _ (twins_configured _ _) fun r hr => ?_,
    ⟨writtenRequest, s, _, _, hrequest, hload, hbased.output⟩, s, loaded, hbased⟩
  obtain rfl := Except.ok.inj (congrArg Prod.fst (hrequest.symm.trans hr))
  exact hshadows

/-- The options of questions to a project that name the configuration file: as a source, as the file
of durations, and as a plan file. -/
def namingItself : List (List String) :=
  [shadowingOptions "t.csv" fileName ++ ["--worker", "0", "--task", "unit"],
    shadowingOptions fileName "unit.txt" ++ ["--worker", "0", "--task", "unit"],
    shadowingOptions "t.csv" "unit.txt" ++ ["--worker", "0", "--task", "unit", "--plan", fileName]]

/-- What is seen of a call, without the reasons of failures. -/
def seen (result : (Except Failed Unit × Transcript) × Workspace) :
    Bool × String × List Terminal.Printed :=
  (result.1.1.toBool, result.1.2.output, result.1.2.printed)

/-- **A configuration file that is named to be read is not shadowed**, whatever it is named as. -/
theorem not_shadowed_named :
    Twins [fileName] emptyFile.toUTF8.toList filledFile.toUTF8.toList
        (configuredWorkspace emptyFile) (configuredWorkspace filledFile) ∧
      LoadAside "." (configuredWorkspace emptyFile) (configuredWorkspace filledFile) ∧
      ∀ rest ∈ namingItself,
        (∃ r, ask (Request.ofArguments .tests rest) (configuredWorkspace emptyFile) =
            (.ok r, configuredWorkspace emptyFile) ∧
          r.root = "." ∧ r.forks?.isSome = true ∧ r.timings?.isSome = true ∧ r.sources ≠ []) ∧
        ¬SameView (perform (runArguments ("tests" :: rest)) {} (configuredWorkspace emptyFile))
          (perform (runArguments ("tests" :: rest)) {} (configuredWorkspace filledFile)) := by
  have hseen : ∀ rest ∈ namingItself,
      seen (perform (runArguments ("tests" :: rest)) {} (configuredWorkspace emptyFile)) ≠
        seen (perform (runArguments ("tests" :: rest)) {} (configuredWorkspace filledFile)) := by
    decide +kernel
  refine ⟨twins_configured _ _, loadAside_configured, fun rest hrest => ⟨?_, fun h => ?_⟩⟩
  · simp only [namingItself, List.mem_cons, List.not_mem_nil, or_false] at hrest
    rcases hrest with rfl | rfl | rfl
    all_goals exact ⟨_, rfl, rfl, rfl, rfl, List.cons_ne_nil _ _⟩
  · refine hseen rest hrest ?_
    rw [seen, seen, h.outcome, h.output, h.printed]

end Command

end SuiteBalance
