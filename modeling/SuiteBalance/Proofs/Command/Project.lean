import Mathlib
import SuiteBalance.Proofs.Command.Calls
import SuiteBalance.Proofs.Snapshot.Kept

/-!
# Proofs — Commands — projects

The settings and the plan of a project depend on what stands at the paths that are read, and on
nothing else that files hold.  They come out the same in a workspace that agrees there.

* **`loadSettings_again`**: the settings, which name sources that are files.
* `perform_makePlan`, `of_perform_makePlan`: a plan comes out of the planner of the project.
* **`makePlan_again`**: the plan.
* **`Planned`**: what is known of the plan of a project.
-/

namespace SuiteBalance

open Workspace

variable {w v u : Workspace} {p : Path} {s : Settings}

/-! ### Files that are there -/

/-- A file that is found has bytes. -/
theorem standing_of_isFile (h : ask (Host.isFile p : StateM Workspace _) w = (.ok true, u)) :
    ∃ bytes, w.standing p = .ok (some (.file bytes)) := by
  rw [ask_isFile] at h
  rcases hstanding : w.standing p with e | (- | (bytes | - | -))
  · rw [hstanding] at h
    cases congrArg Prod.fst h
  · rw [hstanding] at h
    cases congrArg Prod.fst h
  · exact ⟨bytes, rfl⟩
  · rw [hstanding] at h
    cases congrArg Prod.fst h
  · rw [hstanding] at h
    cases congrArg Prod.fst h

theorem eq_of_resolve {path : Path}
    (h : ask (Host.resolve p : StateM Workspace _) w = (.ok path, u)) :
    path = p.resolve w.directory := by
  unfold Host.resolve at h
  split at h
  · cases congrArg Prod.fst h
  · exact (Except.ok.inj (congrArg Prod.fst h)).symm

/-! ### Settings -/

namespace Settings

/-- The value of a configuration file depends on what stands there. -/
theorem alike_valueAt [Yaml.Loader] (h : v.standing p = w.standing p) : Alike w v (valueAt p) := by
  refine (alike_isFile h).bind fun outcome houtcome => ?_
  rcases outcome with e | (- | -)
  · exact .pure _
  · exact .pure _
  · obtain ⟨bytes, hbytes⟩ := standing_of_isFile houtcome
    refine (alike_read hbytes h).bind fun outcome _ => ?_
    cases outcome <;> exact .pure _

/-- The path of the configuration file of a project, seen from a working directory. -/
def filePath (directory : List Text) (root : String) : Path :=
  ((Path.ofText root).resolve directory).under (Path.ofText fileName)

/-- Settings depend on the configuration file, the working directory and the environment. -/
theorem alike_load [Value.Stack] [Yaml.Loader] (henvironment : v.environment = w.environment)
    (hdirectory : v.directory = w.directory) (root : String)
    (h : v.standing (filePath w.directory root) = w.standing (filePath w.directory root)) :
    Alike w v (load root) := by
  refine (alike_resolve hdirectory _).bind fun outcome houtcome => ?_
  cases outcome with
  | error e => exact .pure _
  | ok path =>
      obtain rfl := eq_of_resolve houtcome
      refine (alike_valueAt h).bind fun outcome _ => ?_
      cases outcome with
      | error e => exact .pure _
      | ok value =>
          refine Alike.bind ?_ fun fallbacks _ => Alike.bind ?_ fun lookup _ => .pure _
          · exact (alike_lookup? henvironment _).bind fun _ _ =>
              (alike_lookup? henvironment _).bind fun _ _ => .pure _
          · exact Alike.bind (.mapM fun name _ =>
              (alike_lookup? henvironment name).bind fun _ _ => .pure _) fun _ _ => .pure _

/-- Which sources are found depends on what stands at them. -/
theorem alike_found (sources : List SourceSettings)
    (h : ∀ source ∈ sources,
      v.standing (s.resolve source.path) = w.standing (s.resolve source.path)) :
    Alike w v (s.found sources) := by
  induction sources with
  | nil => exact .pure _
  | cons source sources ih =>
      rw [List.forall_mem_cons] at h
      refine (alike_isFile h.1).bind fun outcome _ => ?_
      cases outcome with
      | error e => exact .pure _
      | ok here => exact (ih h.2).bind fun _ _ => .pure _

/-- What is wrong with settings depends on what stands at the sources. -/
theorem alike_check
    (h : ∀ source ∈ s.sources,
      v.standing (s.resolve source.path) = w.standing (s.resolve source.path)) :
    Alike w v s.check := by
  unfold check
  split_ifs
  · exact .pure _
  · exact (alike_found _ h).bind fun _ _ => .pure _

/-- The sources that are found are files. -/
theorem standing_of_found {sources : List SourceSettings} {paths : List Path}
    (h : ask (s.found sources : StateM Workspace _) w = (.ok paths, u)) :
    ∀ path ∈ paths, ∃ bytes, w.standing path = .ok (some (.file bytes)) := by
  induction sources generalizing paths u with
  | nil =>
      cases h
      exact List.forall_mem_nil _
  | cons source sources ih =>
      obtain ⟨outcome, hhere, -⟩ := alike_isFile (w := w) (p := s.resolve source.path) rfl
      obtain ⟨later, hlater, -⟩ := alike_found (w := w) (s := s) sources fun _ _ => rfl
      rw [found, ask_bind, hhere] at h
      cases outcome with
      | error e => cases congrArg Prod.fst h
      | ok here =>
          dsimp only at h
          rw [ask_bind, hlater] at h
          cases later with
          | error e => cases congrArg Prod.fst h
          | ok more =>
              obtain rfl : (if here then s.resolve source.path :: more else more) = paths :=
                Except.ok.inj (congrArg Prod.fst h)
              cases here with
              | false => exact ih hlater
              | true => exact List.forall_mem_cons.mpr ⟨standing_of_isFile hhere, ih hlater⟩

theorem of_missingSources_eq_nil {isFile : Path → Bool} {position : ℕ}
    {sources : List SourceSettings} (h : s.missingSources isFile position sources = []) :
    ∀ source ∈ sources, isFile (s.resolve source.path) = true := by
  induction sources generalizing position with
  | nil => exact List.forall_mem_nil _
  | cons source sources ih =>
      rw [missingSources] at h
      split_ifs at h with hfile
      exact List.forall_mem_cons.mpr ⟨hfile, ih h⟩

/-- **The sources of settings with which nothing is wrong are files.** -/
theorem standing_of_check (h : ask (s.check : StateM Workspace _) w = (.ok [], u)) :
    ∀ source ∈ s.sources,
      ∃ bytes, w.standing (s.resolve source.path) = .ok (some (.file bytes)) := by
  unfold check at h
  split_ifs at h
  · cases congrArg Prod.fst h
  · obtain ⟨found, hfound, -⟩ := alike_found (w := w) (s := s) s.sources fun _ _ => rfl
    rw [ask_bind, hfound] at h
    cases found with
    | error e => cases congrArg Prod.fst h
    | ok paths =>
        have hproblems : s.problems paths.contains = [] := Except.ok.inj (congrArg Prod.fst h)
        simp only [problems, List.append_eq_nil_iff] at hproblems
        intro source hsource
        have hcontains := of_missingSources_eq_nil hproblems.1.2 source hsource
        exact standing_of_found hfound _ (List.contains_iff_mem.mp hcontains)

end Settings

/-! ### Plans -/

/-- The records of a file of durations depend on what stands there. -/
theorem TimingFile.alike_load {file : TimingFile}
    (h : v.standing file.path = w.standing file.path) : Alike w v file.load := by
  refine (alike_isFile h).bind fun outcome houtcome => ?_
  rcases outcome with e | (- | -)
  · exact .pure _
  · exact .pure _
  · obtain ⟨bytes, hbytes⟩ := standing_of_isFile houtcome
    refine (alike_read hbytes h).bind fun outcome _ => ?_
    cases outcome with
    | error e => exact .pure _
    | ok bytes =>
        dsimp only
        split <;> exact .pure _

/-- The patterns of a file depend on what is read there. -/
theorem Discovery.alike_load (h : Alike w v (Host.read p)) : Alike w v (Discovery.load p) := by
  refine h.bind fun outcome _ => ?_
  cases outcome with
  | error e => exact .pure _
  | ok bytes =>
      dsimp only
      split <;> exact .pure _

namespace Planner

variable {planner : Planner (StateM Workspace)}

/-- A source that answers in place of another one has its task. -/
theorem exists_of_mem_answering {sources : List (Source (StateM Workspace))}
    {answers : List (Reply (List String))} {source : Source Id}
    (h : source ∈ List.zipWith answering sources answers) :
    ∃ original ∈ sources, source.task = original.task := by
  rw [← List.map_uncurry_zip_eq_zipWith] at h
  obtain ⟨⟨original, answer⟩, hpair, rfl⟩ := List.mem_map.mp h
  exact ⟨original, (List.of_mem_zip hpair).1, rfl⟩

/-- A discovery depends on what the sources depend on. -/
theorem alike_discover {sources : List (Source (StateM Workspace))}
    (h : ∀ source ∈ sources, Alike w v source.list) : Alike w v (discover sources) := by
  induction sources with
  | nil => exact .pure _
  | cons source sources ih =>
      rw [List.forall_mem_cons] at h
      refine h.1.bind fun reply _ => ?_
      dsimp only
      split
      · exact .pure _
      · exact (ih h.2).bind fun _ _ => .pure _

/-- A plan depends on what its collaborators depend on. -/
theorem alike_generate (htimings : Alike w v planner.timings)
    (hsources : ∀ source ∈ planner.sources, Alike w v source.list) :
    Alike w v planner.generate := by
  refine htimings.bind fun reply _ => ?_
  split
  · exact .pure _
  · refine (alike_discover hsources).bind fun found _ => ?_
    split <;> exact .pure _

end Planner

namespace Command

open Call

variable {r : Request} {t t' : Transcript} {w' : Workspace} {plan : Plan}

/-! ### The settings of a project -/

theorem looks_absolutePath (hdirectory : v.directory = w.directory) (path : Text) :
    Looks w v (absolutePath path) :=
  (Looks.lift (alike_resolve hdirectory _)).bind fun _ => (Looks.ofExcept _ _).bind fun _ => .pure _

/-- What a request sets depends on the working directory. -/
theorem looks_override (hdirectory : v.directory = w.directory) (r : Request) (s : Settings) :
    Looks w v (r.override s) := by
  have hsources (next : List SourceSettings → Settings) :
      Looks w v (if r.sources.isEmpty = true then pure s.sources >>= fun sources => pure (next sources)
        else (r.sources.mapM fun source => do
          return { source with path := ← absolutePath source.path }) >>= fun sources =>
            pure (next sources)) := by
    split_ifs
    · exact .pure _
    · exact (Looks.mapM (fun source => (looks_absolutePath hdirectory _).bind fun _ => .pure _) _).bind
        fun _ => .pure _
  unfold Request.override
  dsimp only
  cases r.timings? with
  | none => exact hsources _
  | some path => exact (looks_absolutePath hdirectory path).bind fun _ => hsources _

/-- **Settings are loaded again**, where the configuration file and the sources have been kept.
They name sources that are files. -/
theorem loadSettings_again [Platform] (henvironment : v.environment = w.environment)
    (hdirectory : v.directory = w.directory)
    (hfile : v.standing (Settings.filePath w.directory r.root) =
      w.standing (Settings.filePath w.directory r.root))
    (hsources : ∀ source ∈ s.sources,
      v.standing (s.resolve source.path) = w.standing (s.resolve source.path))
    (h : perform (loadSettings r) t w = ((.ok s, t'), w')) :
    w' = w ∧ perform (loadSettings r) t v = ((.ok s, t'), v) ∧
      (∃ notices, t' = { t with notices := t.notices ++ notices }) ∧
      ∀ source ∈ s.sources,
        ∃ bytes, w.standing (s.resolve source.path) = .ok (some (.file bytes)) := by
  obtain ⟨⟨outcome, notices⟩, hload, hload'⟩ :=
    Settings.alike_load henvironment hdirectory r.root hfile
  rw [loadSettings, perform_bind_of_ok (perform_lift_of_ask hload)] at h
  rw [loadSettings, perform_bind_of_ok (perform_lift_of_ask hload')]
  dsimp only at h ⊢
  rw [perform_bind_of_ok (perform_note notices)] at h ⊢
  cases outcome with
  | error e => exact absurd (congrArg (·.1.1) h) (not_ok_abort _ s)
  | ok loaded =>
      dsimp only at h ⊢
      obtain ⟨settings, made, left, hoverride, hrest⟩ := of_perform_bind h
      clear h
      obtain ⟨rfl, rfl, hoverride'⟩ := (looks_override hdirectory r loaded).answer hoverride
      obtain ⟨checked, hcheck, -⟩ := Settings.alike_check (w := left) (s := settings) fun _ _ => rfl
      rw [perform_bind_of_ok (perform_lift_of_ask hcheck)] at hrest
      rcases checked with e | (- | ⟨problem, problems⟩)
      · cases congrArg (·.1.1) hrest
      · rw [perform_bind_of_ok (perform_ofExcept_ok _ _)] at hrest
        obtain rfl : settings = s := Except.ok.inj (congrArg (·.1.1) hrest)
        obtain ⟨-, hcheck'⟩ := (Settings.alike_check hsources).answer hcheck
        rw [perform_bind_of_ok hoverride', perform_bind_of_ok (perform_lift_of_ask hcheck'),
          perform_bind_of_ok (perform_ofExcept_ok _ _)]
        obtain rfl : _ = t' := congrArg (·.1.2) hrest
        exact ⟨(congrArg Prod.snd hrest).symm, rfl, ⟨notices, rfl⟩,
          Settings.standing_of_check hcheck⟩
      · cases congrArg (·.1.1) hrest

/-! ### The plan of a project -/

/-- The file of durations that settings name. -/
def timingFile (s : Settings) : TimingFile :=
  ⟨s.resolve s.timings.path, s.timings.nameColumn, s.timings.durationColumn⟩

/-- The source that settings name. -/
def sourceOf (s : Settings) (source : SourceSettings) : Source (StateM Workspace) :=
  ⟨Discovery.load (s.resolve source.path), .name source.task⟩

/-- The collaborators of the planner of a project. -/
theorem of_plannerOf {planner : Planner (StateM Workspace)} (h : plannerOf s = .ok planner) :
    planner.forkCount = s.forks.toNat ∧ planner.timings = (timingFile s).load ∧
      planner.sources = s.sources.map (sourceOf s) := by
  unfold plannerOf Planner.make at h
  split_ifs at h with hcount
  · have hplanner : planner = (Planner.registerAll
        { forkCount := s.forks.toNat, at_least_one := hcount, timings := (timingFile s).load }
        (s.sources.map (sourceOf s))) := by
      rw [Planner.registerAll, List.foldl_map]
      exact (Except.ok.inj h).symm
    rw [hplanner, Planner.sources_registerAll]
    exact ⟨rfl, rfl, List.nil_append _⟩
  · cases h

/-- What is known of the plan of a project: its forks are as many as are set and stand at their
indices, and its tasks are those of the sources. -/
structure Planned (s : Settings) (plan : Plan) : Prop where
  forkCount : plan.forkCount = s.forks.toNat
  forks_ne_nil : plan.forks ≠ []
  numbered : plan.Numbered
  tasks : ∀ f ∈ plan.forks, ∀ t ∈ f.taskList, ∃ source ∈ s.sources, t = .name source.task

/-- The tasks of a project are names. -/
theorem Planned.isName (h : Planned s plan) : ∀ f ∈ plan.forks, ∀ t ∈ f.taskList, t.IsName := by
  intro f hf t ht
  obtain ⟨source, -, rfl⟩ := h.tasks f hf t ht
  exact ⟨_, rfl⟩

/-- A plan that is replayed by a planner of its own. -/
theorem planned_of_replays {planner : Planner (StateM Workspace)} (h : plannerOf s = .ok planner)
    (hplan : planner.Replays w plan) : Planned s plan := by
  obtain ⟨hcount, -, hsources⟩ := of_plannerOf h
  obtain ⟨records, -, fresh, hmake, houtcome⟩ := hplan
  have hfresh : fresh.forkCount = planner.forkCount ∧ fresh.sources = [] := by
    rw [Planner.make, dif_pos (by simpa using planner.at_least_one)] at hmake
    obtain rfl := Except.ok.inj hmake
    exact ⟨rfl, rfl⟩
  rw [Planner.sources_registerAll, hfresh.2, List.nil_append] at houtcome
  obtain ⟨hlength, hne, hnumbered⟩ := Planner.forks_generate houtcome
  obtain ⟨records', groups, -, hfound, hschedule⟩ := Planner.generate_ok houtcome
  refine ⟨hlength.trans (hfresh.1.trans hcount), hne, hnumbered, fun f hf t ht => ?_⟩
  have hmem : t ∈ plan.tasks := List.mem_eraseDups.mpr (List.mem_flatMap.mpr ⟨f, hf, ht⟩)
  rw [hschedule, Planner.mem_tasks records' fresh.at_least_one (Planner.discover_ok hfound)] at hmem
  -- something was listed for the task, by one of the sources
  obtain ⟨pattern, hpattern⟩ := List.exists_mem_of_ne_nil _ hmem
  obtain ⟨source, hsource, -⟩ := List.mem_flatMap.mp hpattern
  obtain ⟨hsource, htask⟩ := List.mem_filter.mp hsource
  obtain ⟨original, horiginal, hsame⟩ := Planner.exists_of_mem_answering hsource
  rw [hsources] at horiginal
  obtain ⟨named, hnamed, rfl⟩ := List.mem_map.mp horiginal
  exact ⟨named, hnamed, (of_decide_eq_true htask).symm.trans hsame⟩

/-- A plan that comes out of a planner is noted and given back. -/
theorem perform_makePlan [Platform] {planner later : Planner (StateM Workspace)} {reply : Reply Plan}
    (hplanner : plannerOf s = .ok planner) (hask : ask planner.generate w = ((reply, later), w'))
    (houtcome : reply.outcome = .ok plan) :
    perform (makePlan s) t w =
      ((.ok plan, { t with notices := t.notices ++ reply.notices ++ plan.report .debug }), w') := by
  rw [makePlan, hplanner, perform_bind_of_ok (perform_ofExcept_ok _ _),
    perform_bind_of_ok (perform_lift_of_ask hask)]
  dsimp only
  rw [perform_bind_of_ok (perform_note _), houtcome]
  rfl

/-- A plan that is given back has come out of the planner of the project. -/
theorem of_perform_makePlan [Platform] (h : perform (makePlan s) t w = ((.ok plan, t'), w')) :
    ∃ planner reply later, plannerOf s = .ok planner ∧
      ask planner.generate w = ((reply, later), w') ∧ reply.outcome = .ok plan := by
  obtain ⟨planner, made, left, hplanner, hrest⟩ := of_perform_bind h
  cases hmake : plannerOf (m := StateM Workspace) s with
  | error e =>
      rw [hmake] at hplanner
      cases congrArg (·.1.1) hplanner
  | ok planner' =>
      rw [hmake] at hplanner
      cases hplanner
      obtain ⟨⟨⟨reply, later⟩, u⟩, hask⟩ : ∃ a, ask planner.generate w = a := ⟨_, rfl⟩
      rw [perform_bind_of_ok (perform_lift_of_ask hask)] at hrest
      dsimp only at hrest
      rw [perform_bind_of_ok (perform_note _)] at hrest
      cases houtcome : reply.outcome with
      | error e =>
          rw [houtcome] at hrest
          dsimp only at hrest
          split_ifs at hrest
          · exact absurd (congrArg (·.1.1) hrest) (not_ok_abort _ plan)
          · cases congrArg (·.1.1) hrest
      | ok plan' =>
          rw [houtcome] at hrest
          cases hrest
          exact ⟨planner, reply, later, rfl, hask, houtcome⟩

/-- **The plan of a project is made again**, where the file of durations and the sources, which are
files, have been kept. -/
theorem makePlan_again [Platform]
    (htimings : v.standing (s.resolve s.timings.path) = w.standing (s.resolve s.timings.path))
    (hsources : ∀ source ∈ s.sources,
      (∃ bytes, w.standing (s.resolve source.path) = .ok (some (.file bytes))) ∧
        v.standing (s.resolve source.path) = w.standing (s.resolve source.path))
    (h : perform (makePlan s) t w = ((.ok plan, t'), w')) :
    w' = w ∧ perform (makePlan s) t v = ((.ok plan, t'), v) ∧
      (∃ notices, t' = { t with notices := t.notices ++ notices }) ∧ Planned s plan := by
  obtain ⟨planner, reply, later, hmake, hask, houtcome⟩ := of_perform_makePlan h
  obtain ⟨hcount, hload, hlist⟩ := of_plannerOf hmake
  have halike : Alike w v planner.generate := by
    refine Planner.alike_generate ?_ ?_
    · rw [hload]
      exact TimingFile.alike_load htimings
    · rw [hlist, List.forall_mem_map]
      intro source hsource
      obtain ⟨⟨bytes, hbytes⟩, hkept⟩ := hsources source hsource
      exact Discovery.alike_load (alike_read hbytes hkept)
  obtain ⟨rfl, hagain⟩ := halike.answer hask
  have hnoted : t' = { t with notices := t.notices ++ reply.notices ++ plan.report .debug } :=
    congrArg (·.1.2) (h.symm.trans (perform_makePlan hmake hask houtcome))
  refine ⟨rfl, hnoted ▸ perform_makePlan hmake hagain houtcome,
    ⟨reply.notices ++ plan.report .debug, by rw [hnoted, List.append_assoc]⟩, ?_⟩
  rcases planner.generate_replay w' with ⟨e, he, -⟩ | ⟨plan', hplan, -, hreplays⟩
  · rw [hask, houtcome] at he
    cases he
  · rw [hask, houtcome] at hplan
    obtain rfl := Except.ok.inj hplan
    exact planned_of_replays hmake hreplays

end Command

end SuiteBalance
