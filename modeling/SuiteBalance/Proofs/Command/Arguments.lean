import Mathlib
import SuiteBalance.Proofs.Command.Calls

/-!
# Proofs — Commands — arguments

Options that take values are read back from the arguments that spell them, whatever the values are.
The options that say what is planned mean the same for all commands, in front of any others.

* **`Choice.read_arguments`**: the arguments of some options are read as these options.
* **`ask_ofArguments`**: the request of a command is that of the planning options with the others
  set behind.
* **`planningRequest_again`**, **`alike_ofArguments`**: requests are made again, and in another
  workspace.
-/

namespace SuiteBalance.Command

/-- An option with its value. -/
structure Choice where
  name : String
  value : String
  deriving DecidableEq

/-- Whether an argument is an option among some that takes the next argument for its value. -/
def takesNext (options : List OptionSpec) (name : String) : Bool :=
  name ≠ "--" && isOption name && splitEquals name = (name, none) &&
    (options.find? (·.name = name)).any (·.takesValue)

namespace Choice

/-- The arguments that spell some options with their values. -/
def arguments (choices : List Choice) : List String := choices.flatMap fun c => [c.name, c.value]

/-- An option as it is given. -/
def given (c : Choice) : Given := ⟨c.name, some c.value⟩

variable {options : List OptionSpec} {mixed : Bool}

/-- An option and its value are read together. -/
theorem readFrom_choice {c : Choice} (h : takesNext options c.name = true) (rest : List String) :
    Arguments.readFrom options mixed none (c.name :: c.value :: rest) =
      (Arguments.readFrom options mixed none rest).map (Arguments.withGiven [c.given]) := by
  simp only [takesNext, Bool.and_eq_true, decide_eq_true_eq, Option.any_eq_true] at h
  obtain ⟨⟨⟨hend, hoption⟩, hwhole⟩, option, hfind, htakes⟩ := h
  rw [Arguments.readFrom, if_neg hend, if_pos hoption, hwhole]
  dsimp only
  rw [hfind]
  dsimp only
  rw [if_pos htakes, Arguments.readFrom]
  rfl

/-- **Options with values are read in front of others.** -/
theorem readFrom_arguments {choices : List Choice}
    (h : ∀ c ∈ choices, takesNext options c.name = true) {rest : List String} {a : Arguments}
    (hrest : Arguments.readFrom options mixed none rest = .ok a) :
    Arguments.readFrom options mixed none (arguments choices ++ rest) =
      .ok ⟨choices.map given ++ a.given, a.others⟩ := by
  induction choices with
  | nil => exact hrest
  | cons c choices ih =>
      rw [List.forall_mem_cons] at h
      change Arguments.readFrom options mixed none
        (c.name :: c.value :: (arguments choices ++ rest)) = _
      rw [readFrom_choice h.1, ih h.2]
      rfl

end Choice

/-! ### Planning options and others -/

/-- The names of the options that say what is planned. -/
def planningNames : List String := planningOptions.map OptionSpec.name

/-- Options that say what is planned. -/
def Planning (choices : List Choice) : Prop := ∀ c ∈ choices, c.name ∈ planningNames

instance (choices : List Choice) : Decidable (Planning choices) :=
  inferInstanceAs (Decidable (∀ c ∈ choices, c.name ∈ planningNames))

/-- Given options that are other ones, each given once. -/
structure Others (extra : List Given) : Prop where
  distinct : (extra.map Given.name).eraseDups = extra.map Given.name
  other : ∀ option ∈ extra, option.name ∉ planningNames

/-- Every command has the planning options. -/
theorem takesNext_planning (command : CommandName) :
    ∀ name ∈ planningNames, takesNext command.options name = true := by
  cases command <;> decide

variable {choices : List Choice} {extra : List Given}

/-- The names of planning options come first. -/
theorem names_append (h : Planning choices) (hextra : Others extra) :
    (⟨choices.map Choice.given ++ extra, []⟩ : Arguments).names =
      (⟨choices.map Choice.given, []⟩ : Arguments).names ++ extra.map Given.name := by
  have hremove : (extra.map Given.name).removeAll ((choices.map Choice.given).map Given.name) =
      extra.map Given.name := by
    refine List.filter_eq_self.mpr fun name hname => ?_
    obtain ⟨option, hoption, rfl⟩ := List.mem_map.mp hname
    have hnew : option.name ∉ (choices.map Choice.given).map Given.name := by
      rw [List.map_map]
      intro hmem
      obtain ⟨c, hc, heq⟩ := List.mem_map.mp hmem
      exact hextra.other option hoption (heq ▸ h c hc)
    simpa using hnew
  simp only [Arguments.names, List.map_append, List.eraseDups_append, hremove, hextra.distinct]

/-- The values of a planning option are not among those of others. -/
theorem values_append_planning (hextra : Others extra) {name : String}
    (hname : name ∈ planningNames) :
    (⟨choices.map Choice.given ++ extra, []⟩ : Arguments).values name =
      (⟨choices.map Choice.given, []⟩ : Arguments).values name := by
  have hnone : extra.filter (·.name = name) = [] := by
    rw [List.filter_eq_nil_iff]
    intro option hoption heq
    exact hextra.other option hoption (of_decide_eq_true heq ▸ hname)
  simp only [Arguments.values, List.filter_append, hnone, List.append_nil]

/-- The values of another option are not among those of planning options. -/
theorem values_append_other (h : Planning choices) (hextra : Others extra) {option : Given}
    (hoption : option ∈ extra) :
    (⟨choices.map Choice.given ++ extra, []⟩ : Arguments).values option.name =
      (⟨extra, []⟩ : Arguments).values option.name := by
  have hnone : (choices.map Choice.given).filter (·.name = option.name) = [] := by
    rw [List.filter_eq_nil_iff]
    intro g hg heq
    obtain ⟨c, hc, rfl⟩ := List.mem_map.mp hg
    exact hextra.other option hoption (of_decide_eq_true heq ▸ h c hc)
  simp only [Arguments.values, List.filter_append, hnone, List.nil_append]

/-! ### Requests -/

variable {w : Workspace}

/-- Values are set one after the other. -/
theorem ask_setAll_append (a : Arguments) (r : Request) (names more : List String) :
    ask (Request.setAll a r (names ++ more) : StateM Workspace _) w =
      match ask (Request.setAll a r names : StateM Workspace _) w with
      | (.ok r', u) => ask (Request.setAll a r' more) u
      | (.error e, u) => (.error e, u) := by
  induction names generalizing r w with
  | nil => rfl
  | cons name names ih =>
      rw [List.cons_append, Request.setAll, Request.setAll, ask_bind, ask_bind]
      generalize ask (r.set name (a.values name) : StateM Workspace _) w = left
      obtain ⟨outcome, u⟩ := left
      cases outcome with
      | error why => rfl
      | ok r' => exact ih r'

/-- Only the values of the names count. -/
theorem setAll_congr {a b : Arguments} {names : List String}
    (h : ∀ name ∈ names, a.values name = b.values name) (r : Request) :
    (Request.setAll a r names : StateM Workspace _) = Request.setAll b r names := by
  induction names generalizing r with
  | nil => rfl
  | cons name names ih =>
      rw [List.forall_mem_cons] at h
      rw [Request.setAll, Request.setAll, h.1]
      refine bind_congr fun outcome => ?_
      cases outcome with
      | error why => rfl
      | ok r' => exact ih h.2 r'

/-- The request that planning options make. -/
def planningRequest (choices : List Choice) : StateM Workspace (Except UsageFault Request) :=
  Request.ofArguments .plan (Choice.arguments choices)

theorem ask_planningRequest (h : Planning choices) :
    ask (planningRequest choices) w =
      ask (Request.setAll ⟨choices.map Choice.given, []⟩ {}
        (⟨choices.map Choice.given, []⟩ : Arguments).names) w := by
  have hread : Arguments.readFrom CommandName.plan.options true none
      (Choice.arguments choices ++ []) = .ok ⟨choices.map Choice.given ++ [], []⟩ :=
    Choice.readFrom_arguments (a := {}) (fun c hc => takesNext_planning .plan c.name (h c hc)) rfl
  rw [List.append_nil, List.append_nil] at hread
  rw [planningRequest, Request.ofArguments, Arguments.read, hread, ask_bind]
  generalize ask (Request.setAll _ _ _ : StateM Workspace _) w = left
  obtain ⟨outcome, u⟩ := left
  cases outcome <;> rfl

/-- **The request of a command is that of the planning options with the others set behind.** -/
theorem ask_ofArguments (h : Planning choices) (hextra : Others extra) {command : CommandName}
    {rest : List String}
    (hrest : Arguments.readFrom command.options true none rest = .ok ⟨extra, []⟩)
    (hrequired : ∀ name ∈ command.required, name ∈ extra.map Given.name) :
    ask (Request.ofArguments command (Choice.arguments choices ++ rest) : StateM Workspace _) w =
      match ask (planningRequest choices) w with
      | (.ok r, u) => ask (Request.setAll ⟨extra, []⟩ r (extra.map Given.name)) u
      | (.error e, u) => (.error e, u) := by
  have hread := Choice.readFrom_arguments
    (fun c hc => takesNext_planning command c.name (h c hc)) hrest
  have hplanning : ∀ name ∈ (⟨choices.map Choice.given, []⟩ : Arguments).names,
      (⟨choices.map Choice.given ++ extra, []⟩ : Arguments).values name =
        (⟨choices.map Choice.given, []⟩ : Arguments).values name := by
    intro name hname
    rw [Arguments.names, List.mem_eraseDups, List.map_map] at hname
    obtain ⟨c, hc, rfl⟩ := List.mem_map.mp hname
    exact values_append_planning hextra (h c hc)
  have hothers : ∀ name ∈ extra.map Given.name,
      (⟨choices.map Choice.given ++ extra, []⟩ : Arguments).values name =
        (⟨extra, []⟩ : Arguments).values name := by
    intro name hname
    obtain ⟨option, hoption, rfl⟩ := List.mem_map.mp hname
    exact values_append_other h hextra hoption
  have hnone : command.required.find?
      (!(⟨choices.map Choice.given ++ extra, []⟩ : Arguments).has ·) = none := by
    rw [List.find?_eq_none]
    intro name hname
    obtain ⟨option, hoption, rfl⟩ := List.mem_map.mp (hrequired name hname)
    have hhas : (⟨choices.map Choice.given ++ extra, []⟩ : Arguments).has option.name = true :=
      List.any_eq_true.mpr ⟨option, List.mem_append_right _ hoption, decide_eq_true rfl⟩
    rw [hhas]
    exact Bool.false_ne_true
  rw [Request.ofArguments, Arguments.read, hread, ask_bind, names_append h hextra,
    ask_setAll_append, setAll_congr hplanning, ask_planningRequest h]
  generalize ask (Request.setAll _ {} _ : StateM Workspace _) w = left
  obtain ⟨outcome, u⟩ := left
  cases outcome with
  | error e => rfl
  | ok r =>
      dsimp only
      rw [setAll_congr hothers]
      generalize ask (Request.setAll _ r _ : StateM Workspace _) u = last
      obtain ⟨outcome, u⟩ := last
      cases outcome with
      | error e => rfl
      | ok r =>
          dsimp only
          rw [hnone]
          rfl

/-! ### Planning again -/

section Again

open Workspace

variable {v u : Workspace} {target : List Text} {r r' : Request} {s s' : String}

/-- A value that names a directory does so where the directory is kept. -/
theorem alike_directoryValue (hkeeps : Keeps target w v)
    (h : ask (directoryValue s) w = (.ok s', u)) : Alike w v (directoryValue s) := by
  refine (alike_resolve hkeeps.directory _).bind fun outcome houtcome => ?_
  cases outcome with
  | error e => exact .pure _
  | ok path =>
      have hkind : ∃ kind, (w.kind path).toOption = some kind ∧ kind ≠ .file := by
        have hask : ask (Host.kind path : StateM Workspace _) w = (w.kind path, w) := rfl
        rw [directoryValue, ask_bind, houtcome] at h
        dsimp only at h
        rw [ask_bind, hask] at h
        dsimp only at h
        rcases hkind : (w.kind path).toOption with - | (- | - | -)
        · rw [hkind] at h
          cases congrArg Prod.fst h
        · rw [hkind] at h
          cases congrArg Prod.fst h
        · exact ⟨_, rfl, nofun⟩
        · exact ⟨_, rfl, nofun⟩
      obtain ⟨kind, hkind, hfile⟩ := hkind
      refine Alike.kind_bind (toOption_kind_of_standing (hkeeps.standing_of_kind hkind hfile))
        (fun a b hab => by simp only [hab]) fun found => ?_
      rcases found.toOption with - | (- | - | -)
      all_goals exact .pure _

/-- A value that names a file or nothing does so where the same kind is found. -/
theorem alike_kindOfValue
    (h : (v.kind (Path.ofText s)).toOption = (w.kind (Path.ofText s)).toOption) :
    Alike w v (kindOfValue s) := by
  unfold kindOfValue
  dsimp only
  split_ifs
  · exact .pure _
  · exact .pure _
  · exact Alike.kind_bind h (fun a b hab => by simp only [hab]) fun _ => .pure _

theorem alike_fileValue
    (h : (v.kind (Path.ofText s)).toOption = (w.kind (Path.ofText s)).toOption) :
    Alike w v (fileValue s) := by
  refine (alike_kindOfValue h).bind fun outcome _ => ?_
  rcases outcome with - | (- | (- | - | -))
  all_goals exact .pure _

/-- A value that names a file is taken as it is. -/
theorem eq_of_fileValue (h : ask (fileValue s) w = (.ok s', u)) : s' = s := by
  rw [fileValue, ask_bind] at h
  generalize ask (kindOfValue s) w = left at h
  obtain ⟨outcome, u'⟩ := left
  rcases outcome with why | (- | (- | - | -))
  · cases congrArg Prod.fst h
  · exact (Except.ok.inj (congrArg Prod.fst h)).symm
  · exact (Except.ok.inj (congrArg Prod.fst h)).symm
  · cases congrArg Prod.fst h
  · exact (Except.ok.inj (congrArg Prod.fst h)).symm

/-- A value that is looked at alike is set alike. -/
theorem of_set_value {β : Type} {value : StateM Workspace (Except BadValue β)} {f : β → Request}
    (halike : Alike w v value)
    (h : ask (value >>= fun outcome => pure (outcome.map f)) w = (.ok r', u)) :
    ∃ b, r' = f b ∧ u = w ∧ ask value w = (.ok b, w) ∧
      ask (value >>= fun outcome => pure (outcome.map f)) v = (.ok r', v) := by
  obtain ⟨outcome, hw, hv⟩ := halike
  rw [ask_bind, hw] at h
  cases outcome with
  | error why => cases congrArg Prod.fst h
  | ok b =>
      obtain rfl : f b = r' := Except.ok.inj (congrArg Prod.fst h)
      obtain rfl : w = u := congrArg Prod.snd h
      refine ⟨b, rfl, rfl, hw, ?_⟩
      rw [ask_bind, hv]
      rfl

/-- A request has what another one has that planning options do not set. -/
structure SameCall (r r' : Request) : Prop where
  output? : r'.output? = r.output?
  asJson : r'.asJson = r.asJson
  worker? : r'.worker? = r.worker?
  task? : r'.task? = r.task?
  planFile? : r'.planFile? = r.planFile?

/-- **A planning option is set again**, where what stands at its value has been kept. -/
theorem set_planning (hkeeps : Keeps target w v) {name : String} (hname : name ∈ planningNames)
    {values : List String}
    (htimings : name = "--timings" → v.standing (Path.ofText (values.getLastD "")) =
      w.standing (Path.ofText (values.getLastD "")))
    (h : ask (r.set name values) w = (.ok r', u)) :
    u = w ∧ ask (r.set name values) v = (.ok r', v) ∧ SameCall r r' ∧
      r'.timings? = if name = "--timings" then some (values.getLastD "") else r.timings? := by
  simp only [planningNames, planningOptions, List.map_cons, List.map_nil, List.mem_cons,
    List.not_mem_nil, or_false] at hname
  rcases hname with rfl | rfl | rfl | rfl
  · have halike : Alike w v (directoryValue (values.getLastD "")) := by
      obtain ⟨outcome, u', hu'⟩ : ∃ outcome u', ask (directoryValue (values.getLastD "")) w =
        (outcome, u') := ⟨_, _, rfl⟩
      cases outcome with
      | ok s => exact alike_directoryValue hkeeps hu'
      | error why =>
          rw [Request.set, ask_bind, hu'] at h
          cases congrArg Prod.fst h
    obtain ⟨root, rfl, rfl, -, hv⟩ := of_set_value halike h
    exact ⟨rfl, hv, ⟨rfl, rfl, rfl, rfl, rfl⟩, rfl⟩
  · have halike : Alike w v (pure (integerValue (values.getLastD "")) : StateM Workspace _) :=
      .pure _
    obtain ⟨n, rfl, rfl, -, hv⟩ := of_set_value halike h
    exact ⟨rfl, hv, ⟨rfl, rfl, rfl, rfl, rfl⟩, rfl⟩
  · obtain ⟨path, rfl, rfl, hw, hv⟩ := of_set_value
      (alike_fileValue (toOption_kind_of_standing (htimings rfl))) h
    obtain rfl := eq_of_fileValue hw
    exact ⟨rfl, hv, ⟨rfl, rfl, rfl, rfl, rfl⟩, rfl⟩
  · have halike : Alike w v (pure (values.mapM sourceValue) : StateM Workspace _) := .pure _
    obtain ⟨sources, rfl, rfl, -, hv⟩ := of_set_value halike h
    exact ⟨rfl, hv, ⟨rfl, rfl, rfl, rfl, rfl⟩, rfl⟩

theorem setAll_planning (hkeeps : Keeps target w v) {a : Arguments} {names : List String}
    (hnames : ∀ name ∈ names, name ∈ planningNames)
    (htimings : "--timings" ∈ names →
      v.standing (Path.ofText ((a.values "--timings").getLastD "")) =
        w.standing (Path.ofText ((a.values "--timings").getLastD "")))
    (h : ask (Request.setAll a r names) w = (.ok r', u)) :
    u = w ∧ ask (Request.setAll a r names) v = (.ok r', v) ∧ SameCall r r' ∧
      r'.timings? = if "--timings" ∈ names then some ((a.values "--timings").getLastD "")
        else r.timings? := by
  induction names generalizing r with
  | nil =>
      cases h
      exact ⟨rfl, rfl, ⟨rfl, rfl, rfl, rfl, rfl⟩, rfl⟩
  | cons name names ih =>
      rw [List.forall_mem_cons] at hnames
      rw [Request.setAll, ask_bind] at h
      rw [Request.setAll, ask_bind]
      obtain ⟨⟨outcome, u'⟩, hset⟩ : ∃ left, ask (r.set name (a.values name)) w = left := ⟨_, rfl⟩
      rw [hset] at h
      cases outcome with
      | error why => cases congrArg Prod.fst h
      | ok next =>
          obtain ⟨rfl, hv, hsame, hnext⟩ := set_planning hkeeps hnames.1
            (by rintro rfl; exact htimings (List.mem_cons_self ..)) hset
          rw [hv]
          obtain ⟨rfl, hv', hsame', hr'⟩ :=
            ih hnames.2 (fun hmem => htimings (List.mem_cons_of_mem _ hmem)) h
          refine ⟨rfl, hv', ⟨hsame'.1.trans hsame.1, hsame'.2.trans hsame.2,
            hsame'.3.trans hsame.3, hsame'.4.trans hsame.4, hsame'.5.trans hsame.5⟩, ?_⟩
          rw [hr', hnext]
          by_cases hname : name = "--timings"
          · subst hname
            simp
          · simp [hname, Ne.symm hname]

/-- **The planning options make the same request again**, where what stands at the timings has been
kept. -/
theorem planningRequest_again (hchoices : Planning choices) (hkeeps : Keeps target w v)
    (h : ask (planningRequest choices) w = (.ok r, u))
    (htimings : ∀ path, r.timings? = some path →
      v.standing (Path.ofText path) = w.standing (Path.ofText path)) :
    u = w ∧ ask (planningRequest choices) v = (.ok r, v) ∧ SameCall {} r := by
  rw [ask_planningRequest hchoices] at h ⊢
  have hnames : ∀ name ∈ (⟨choices.map Choice.given, []⟩ : Arguments).names,
      name ∈ planningNames := by
    intro name hname
    rw [Arguments.names, List.mem_eraseDups, List.map_map] at hname
    obtain ⟨c, hc, rfl⟩ := List.mem_map.mp hname
    exact hchoices c hc
  obtain ⟨-, -, -, hpath⟩ := setAll_planning (.refl target w) hnames (fun _ => rfl) h
  obtain ⟨hu, hv, hsame, -⟩ := setAll_planning hkeeps hnames
    (fun hmem => htimings _ (hpath.trans (if_pos hmem))) h
  exact ⟨hu, hv, hsame⟩

/-! ### Requests in two workspaces -/

theorem alike_existingFileValue
    (h : (v.kind (Path.ofText s)).toOption = (w.kind (Path.ofText s)).toOption) :
    Alike w v (existingFileValue s) := by
  refine (alike_kindOfValue h).bind fun outcome _ => ?_
  rcases outcome with - | (- | (- | - | -))
  all_goals exact .pure _

theorem alike_directoryValue_of_kinds (hdirectory : v.directory = w.directory)
    (hkinds : ∀ p, (v.kind p).toOption = (w.kind p).toOption) (s : String) :
    Alike w v (directoryValue s) := by
  refine (alike_resolve hdirectory _).bind fun outcome _ => ?_
  cases outcome with
  | error e => exact .pure _
  | ok path =>
      refine Alike.kind_bind (hkinds path) (fun a b hab => by simp only [hab]) fun found => ?_
      rcases found.toOption with - | (- | - | -)
      all_goals exact .pure _

theorem alike_set (hdirectory : v.directory = w.directory)
    (hkinds : ∀ p, (v.kind p).toOption = (w.kind p).toOption) (r : Request) (name : String)
    (values : List String) : Alike w v (r.set name values) := by
  unfold Request.set
  dsimp only
  split
  case h_1 => exact (alike_directoryValue_of_kinds hdirectory hkinds _).bind fun _ _ => .pure _
  case h_3 | h_5 => exact (alike_fileValue (hkinds _)).bind fun _ _ => .pure _
  case h_9 => exact (alike_existingFileValue (hkinds _)).bind fun _ _ => .pure _
  all_goals exact .pure _

/-- **A command makes the same request** where the same kinds of things stand at all paths, whatever
is in the files. -/
theorem alike_ofArguments (hdirectory : v.directory = w.directory)
    (hkinds : ∀ p, (v.kind p).toOption = (w.kind p).toOption) (command : CommandName)
    (arguments : List String) : Alike w v (Request.ofArguments command arguments) := by
  have hset (a : Arguments) (names : List String) (r : Request) :
      Alike w v (Request.setAll a r names) := by
    induction names generalizing r with
    | nil => exact .pure _
    | cons name names ih =>
        refine (alike_set hdirectory hkinds r name _).bind fun outcome _ => ?_
        cases outcome with
        | error why => exact .pure _
        | ok r' => exact ih r'
  unfold Request.ofArguments
  cases Arguments.read command.options true arguments with
  | error e => exact .pure _
  | ok a =>
      refine (hset a _ _).bind fun outcome _ => ?_
      cases outcome with
      | error e => exact .pure _
      | ok r =>
          dsimp only
          split <;> exact .pure _

end Again

end SuiteBalance.Command
