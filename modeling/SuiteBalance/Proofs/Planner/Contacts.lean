import Mathlib
import SuiteBalance.Proofs.Planner.Failures

/-!
# Proofs — Planner — whom a planner asks

A call of `generate` asks the provider for its records, and then one source after the other, in the
order of their registration and up to the first that fails.  Each of them is asked once and may
change the world that those behind it are asked in.

* `Planner.watched`: a planner that enters into a list whom it asks.
* `Source.Lists`, `Source.Fails`: what a source does when it is asked.
* `discover_cases`: how a discovery ends, and whom it has asked by then.
* `Planner.Fails`, **`outcome_generate_eq_error_iff`**: when a call of `generate` fails.
* **`Planner.generate_contacts`**: how a call of `generate` ends, and whom it has asked by then.
-/

namespace SuiteBalance

variable {σ : Type} {source : Source (StateM σ)} {sources : List (Source (StateM σ))} {world : σ}
  {e : Failure}

/-! ### Watching -/

/-- Who is asked: the provider of timing records, or the source registered at a position. -/
inductive Contact where
  | timings
  | source (position : ℕ)
  deriving DecidableEq, Repr

/-- A call that is entered into a list when it is made. -/
def watch {α : Type} (contact : Contact) (call : StateM σ α) : StateM (σ × List Contact) α :=
  fun (world, contacts) => pure ((ask call world).1, (ask call world).2, contacts ++ [contact])

@[simp] theorem ask_watch {α : Type} (contact : Contact) (call : StateM σ α) (world : σ)
    (contacts : List Contact) :
    ask (watch contact call) (world, contacts) =
      ((ask call world).1, (ask call world).2, contacts ++ [contact]) := rfl

/-- Sources that are watched, the first of which was registered at a position. -/
def watchFrom (position : ℕ) (sources : List (Source (StateM σ))) :
    List (Source (StateM (σ × List Contact))) :=
  (sources.zipIdx position).map fun (source, i) => ⟨watch (.source i) source.list, source.task⟩

/-- A planner whose collaborators are watched. -/
def Planner.watched (p : Planner (StateM σ)) : Planner (StateM (σ × List Contact)) where
  forkCount := p.forkCount
  at_least_one := p.at_least_one
  timings := watch .timings p.timings
  sources := watchFrom 0 p.sources
  forks := p.forks
  plan? := p.plan?

/-! ### What a source does -/

/-- A source lists groups: it answers, and all its patterns end in the wildcard. -/
def Source.Lists (source : Source (StateM σ)) (world : σ) : Prop :=
  ∃ patterns, (ask source.list world).1.outcome = .ok patterns ∧
    ∀ pattern ∈ patterns, pattern.toList.getLast? = some wildcard

/-- A source fails: it answers with a failure, or its patterns do not all end in the wildcard, and
then the first that does not is what is wrong. -/
inductive Source.Fails (source : Source (StateM σ)) (world : σ) : Failure → Prop where
  | answer {e : Failure} (h : (ask source.list world).1.outcome = .error e) : Fails source world e
  | pattern {before behind : List String} {pattern : String}
      (h : (ask source.list world).1.outcome = .ok (before ++ pattern :: behind))
      (hbefore : ∀ earlier ∈ before, earlier.toList.getLast? = some wildcard)
      (hpattern : pattern.toList.getLast? ≠ some wildcard) :
      Fails source world (.group (.noWildcard pattern))

/-- Sources list groups one after the other, each in the world that the one before it leaves. -/
inductive Listed : List (Source (StateM σ)) → σ → σ → Prop where
  | nil (world : σ) : Listed [] world world
  | cons {source : Source (StateM σ)} {rest : List (Source (StateM σ))} {world left : σ}
      (h : source.Lists world) (later : Listed rest (ask source.list world).2 left) :
      Listed (source :: rest) world left

theorem Source.lists_of_found {groups : List Group} (h : source.found world = .ok groups) :
    source.Lists world := by
  unfold found Reply.groups at h
  split at h
  · cases h
  · next patterns houtcome =>
    refine ⟨patterns, houtcome, (Group.exists_ofPatterns_iff (t := source.task)).mp ?_⟩
    cases hgroups : Group.ofPatterns patterns source.task with
    | error e =>
        rw [hgroups] at h
        cases h
    | ok groups => exact ⟨groups, rfl⟩

theorem Source.fails_of_found (h : source.found world = .error e) : source.Fails world e := by
  unfold found Reply.groups at h
  split at h
  · next e' houtcome =>
    obtain rfl := Except.error.inj h
    exact .answer houtcome
  · next patterns houtcome =>
    cases hgroups : Group.ofPatterns patterns source.task with
    | ok groups =>
        rw [hgroups] at h
        cases h
    | error e' =>
        rw [hgroups] at h
        obtain rfl := Except.error.inj h
        obtain ⟨before, pattern, behind, rfl, hbefore, hpattern⟩ := mapM_eq_error_iff.mp hgroups
        obtain ⟨hends, rfl⟩ := Group.ofPattern_eq_error_iff.mp hpattern
        exact .pattern houtcome
          (fun earlier hearlier => Group.exists_ofPattern_iff.mp (hbefore earlier hearlier)) hends

theorem Source.Lists.found (h : source.Lists world) : ∃ groups, source.found world = .ok groups := by
  obtain ⟨patterns, houtcome, hends⟩ := h
  obtain ⟨groups, hgroups⟩ := (Group.exists_ofPatterns_iff (t := source.task)).mpr hends
  refine ⟨groups, ?_⟩
  rw [Source.found, Reply.groups, houtcome]
  exact congrArg (Except.mapError Failure.group) hgroups

theorem Source.Fails.found (h : source.Fails world e) : source.found world = .error e := by
  cases h with
  | answer houtcome => rw [Source.found, Reply.groups, houtcome]
  | @pattern before behind pattern houtcome hbefore hpattern =>
      have hgroups : Group.ofPatterns (before ++ pattern :: behind) source.task =
          .error (.noWildcard pattern) :=
        mapM_eq_error_iff.mpr ⟨before, pattern, behind, rfl,
          fun earlier hearlier => Group.exists_ofPattern_iff.mpr (hbefore earlier hearlier),
          Group.ofPattern_eq_error_iff.mpr ⟨hpattern, rfl⟩⟩
      rw [Source.found, Reply.groups, houtcome]
      exact congrArg (Except.mapError Failure.group) hgroups

/-! ### Whom a discovery asks -/

theorem watchFrom_cons (position : ℕ) (source : Source (StateM σ))
    (rest : List (Source (StateM σ))) : watchFrom position (source :: rest) =
      ⟨watch (.source position) source.list, source.task⟩ :: watchFrom (position + 1) rest := rfl

namespace Planner

/-- What a discovery comes to whose first source fails. -/
theorem outcome_discover_of_error (rest : List (Source (StateM σ)))
    (h : source.found world = .error e) :
    (ask (discover (source :: rest)) world).1.outcome = .error e := by
  unfold Source.found at h
  rw [discover, ask_bind]
  dsimp only
  rw [h]
  rfl

/-- What a discovery comes to whose first source lists groups. -/
theorem outcome_discover_of_ok (rest : List (Source (StateM σ))) {groups : List Group}
    (h : source.found world = .ok groups) :
    (ask (discover (source :: rest)) world).1.outcome =
      (ask (discover rest) (ask source.list world).2).1.outcome.map (groups ++ ·) := by
  unfold Source.found at h
  rw [discover, ask_bind]
  dsimp only
  rw [h]
  rfl

/-- Whom a discovery asks whose first source fails. -/
theorem watched_discover_of_error (rest : List (Source (StateM σ)))
    (h : source.found world = .error e) (position : ℕ) (contacts : List Contact) :
    ask (discover (watchFrom position (source :: rest))) (world, contacts) =
      ((ask (discover (source :: rest)) world).1, (ask (discover (source :: rest)) world).2,
        contacts ++ [.source position]) := by
  unfold Source.found at h
  rw [watchFrom_cons, discover, discover, ask_bind, ask_bind, ask_watch]
  dsimp only
  rw [h]
  rfl

/-- Whom a discovery asks whose first source lists groups. -/
theorem watched_discover_of_ok (rest : List (Source (StateM σ))) {groups : List Group}
    (h : source.found world = .ok groups) {contacts : List Contact} {position asked : ℕ}
    (hrest : ask (discover (watchFrom (position + 1) rest))
        ((ask source.list world).2, contacts ++ [.source position]) =
      ((ask (discover rest) (ask source.list world).2).1,
        (ask (discover rest) (ask source.list world).2).2, contacts ++ [.source position] ++
          (List.range' (position + 1) asked).map .source)) :
    ask (discover (watchFrom position (source :: rest))) (world, contacts) =
      ((ask (discover (source :: rest)) world).1, (ask (discover (source :: rest)) world).2,
        contacts ++ (List.range' position (asked + 1)).map .source) := by
  unfold Source.found at h
  rw [watchFrom_cons, discover, discover, ask_bind, ask_bind, ask_watch]
  dsimp only
  rw [h]
  dsimp only
  rw [ask_bind, ask_bind, hrest, List.range'_succ, List.map_cons, List.append_assoc]
  rfl

/-- **A discovery asks the sources in their order up to the first that fails**, or all of them, and
is watched without being changed. -/
theorem discover_cases (sources : List (Source (StateM σ))) (world : σ) :
    ∃ asked, (∀ position contacts, ask (discover (watchFrom position sources)) (world, contacts) =
        ((ask (discover sources) world).1, (ask (discover sources) world).2,
          contacts ++ (List.range' position asked).map .source)) ∧
      ((∃ before source behind middle e, sources = before ++ source :: behind ∧
          Listed before world middle ∧ source.Fails middle e ∧ asked = before.length + 1 ∧
          (ask (discover sources) world).1.outcome = .error e) ∨
        (∃ left, Listed sources world left) ∧ asked = sources.length ∧
          ∃ groups, (ask (discover sources) world).1.outcome = .ok groups) := by
  induction sources generalizing world with
  | nil =>
      refine ⟨0, fun position contacts => ?_, .inr ⟨⟨world, .nil world⟩, rfl, [], rfl⟩⟩
      rw [List.range'_zero, List.map_nil, List.append_nil]
      rfl
  | cons source rest ih =>
      cases hfound : source.found world with
      | error e =>
          exact ⟨1, watched_discover_of_error rest hfound, .inl ⟨[], source, rest, world, e, rfl,
            .nil world, Source.fails_of_found hfound, rfl, outcome_discover_of_error rest hfound⟩⟩
      | ok groups =>
          have hlists := Source.lists_of_found hfound
          obtain ⟨asked, hrest, hcases⟩ := ih (ask source.list world).2
          refine ⟨asked + 1, fun position contacts => watched_discover_of_ok rest hfound
            (hrest (position + 1) (contacts ++ [.source position])), ?_⟩
          rw [outcome_discover_of_ok rest hfound]
          rcases hcases with
            ⟨before, failing, behind, middle, e, rfl, hlisted, hfails, rfl, hlater⟩ |
            ⟨⟨left, hlisted⟩, rfl, later, hlater⟩
          · exact .inl ⟨source :: before, failing, behind, middle, e, rfl, .cons hlists hlisted,
              hfails, rfl, by rw [hlater]; rfl⟩
          · exact .inr ⟨⟨left, .cons hlists hlisted⟩, rfl, groups ++ later, by rw [hlater]; rfl⟩

/-- **A discovery fails as the first of the sources that fails.** -/
theorem outcome_discover_eq_error_iff :
    (ask (discover sources) world).1.outcome = .error e ↔
      ∃ before source behind middle, sources = before ++ source :: behind ∧
        Listed before world middle ∧ source.Fails middle e := by
  constructor
  · intro h
    obtain ⟨_, -, hcases⟩ := discover_cases sources world
    rcases hcases with ⟨before, source, behind, middle, e', hsplit, hlisted, hfails, -, houtcome⟩ |
      ⟨-, -, groups, houtcome⟩
    · obtain rfl : e' = e := Except.error.inj (houtcome.symm.trans h)
      exact ⟨before, source, behind, middle, hsplit, hlisted, hfails⟩
    · cases houtcome.symm.trans h
  · rintro ⟨before, source, behind, middle, rfl, hlisted, hfails⟩
    induction hlisted with
    | nil world => exact outcome_discover_of_error behind hfails.found
    | cons hlists _ ih =>
        obtain ⟨groups, hgroups⟩ := hlists.found
        rw [List.cons_append, outcome_discover_of_ok _ hgroups, ih hfails]
        rfl

/-! ### Whom a planner asks -/

/-- A call of `generate` fails: the provider has no timing records, or a source fails behind
sources that list groups. -/
inductive Fails (p : Planner (StateM σ)) (world : σ) : Failure → Prop where
  | timings {e : Failure} (h : (ask p.timings world).1.outcome = .error e) : Fails p world e
  | source {records : List TimingRecord} {before behind : List (Source (StateM σ))}
      {source : Source (StateM σ)} {middle : σ} {e : Failure}
      (htimings : (ask p.timings world).1.outcome = .ok records)
      (hsources : p.sources = before ++ source :: behind)
      (hlisted : Listed before (ask p.timings world).2 middle) (hfails : source.Fails middle e) :
      Fails p world e

/-- **A call of `generate` fails as its collaborators do, and for no other reason.** -/
theorem outcome_generate_eq_error_iff {p : Planner (StateM σ)} :
    (ask p.generate world).1.1.outcome = .error e ↔ p.Fails world e := by
  unfold generate
  rw [ask_bind]
  dsimp only
  cases htimings : (ask p.timings world).1.outcome with
  | error e' =>
      constructor
      · intro h
        obtain rfl : e' = e := Except.error.inj h
        exact .timings htimings
      · rintro (h | ⟨h, -, -, -⟩)
        · obtain rfl : e' = e := Except.error.inj (htimings.symm.trans h)
          rfl
        · cases htimings.symm.trans h
  | ok records =>
      have hfound : (ask (discover p.sources) (ask p.timings world).2).1.outcome = .error e ↔
          p.Fails world e := by
        rw [outcome_discover_eq_error_iff]
        constructor
        · rintro ⟨before, source, behind, middle, hsources, hlisted, hfails⟩
          exact .source htimings hsources hlisted hfails
        · rintro (h | ⟨-, hsources, hlisted, hfails⟩)
          · cases htimings.symm.trans h
          · exact ⟨_, _, _, _, hsources, hlisted, hfails⟩
      rw [← hfound]
      dsimp only
      rw [ask_bind]
      cases (ask (discover p.sources) (ask p.timings world).2).1.outcome with
      | error e' =>
          constructor
          · intro h
            obtain rfl : e' = e := Except.error.inj h
            rfl
          · intro h
            obtain rfl : e' = e := Except.error.inj h
            rfl
      | ok groups => exact iff_of_false (fun h => by cases h) (fun h => by cases h)

/-- Whom a call of `generate` asks, one after the other. -/
def contacts (p : Planner (StateM σ)) (world : σ) : List Contact :=
  (ask p.watched.generate (world, [])).2.2

/-- A planner that is watched gives the same notices. -/
theorem announced_watched (p : Planner (StateM σ)) (groups : List Group)
    (records : List TimingRecord) :
    p.watched.announced groups records = p.announced groups records := by
  have hlength : p.watched.sources.length = p.sources.length := by
    simp [watched, watchFrom]
  unfold announced
  rw [hlength]
  rfl

/-- **A call of `generate` asks for the timing records first, and once.**  If there are none, their
failure is the call's, and no source is asked.  If there are, the sources are asked once each, in
the order of their registration, up to the first that fails, whose failure is the call's; those
behind it are not asked.  If none fails, all have been asked and there is a plan.  Watching whom the
planner asks changes neither its reply nor the world. -/
theorem generate_contacts (p : Planner (StateM σ)) (world : σ) :
    (ask p.watched.generate (world, [])).1.1 = (ask p.generate world).1.1 ∧
    (ask p.watched.generate (world, [])).2.1 = (ask p.generate world).2 ∧
    ((∃ e, (ask p.timings world).1.outcome = .error e ∧
        (ask p.generate world).1.1.outcome = .error e ∧ p.contacts world = [.timings]) ∨
      (∃ records, (ask p.timings world).1.outcome = .ok records) ∧
        ((∃ before source behind middle e, p.sources = before ++ source :: behind ∧
            Listed before (ask p.timings world).2 middle ∧ source.Fails middle e ∧
            (ask p.generate world).1.1.outcome = .error e ∧
            p.contacts world = .timings :: (List.range (before.length + 1)).map .source) ∨
          (∃ left, Listed p.sources (ask p.timings world).2 left) ∧
            (∃ plan, (ask p.generate world).1.1.outcome = .ok plan) ∧
            p.contacts world = .timings :: (List.range p.sources.length).map .source)) := by
  unfold contacts
  have htimings : p.watched.timings = watch .timings p.timings := rfl
  have hsources : p.watched.sources = watchFrom 0 p.sources := rfl
  unfold generate
  rw [htimings, hsources, ask_bind, ask_bind, ask_watch]
  dsimp only
  cases houtcome : (ask p.timings world).1.outcome with
  | error e => exact ⟨rfl, rfl, .inl ⟨e, rfl, rfl, rfl⟩⟩
  | ok records =>
      obtain ⟨asked, hwatched, hcases⟩ := discover_cases p.sources (ask p.timings world).2
      dsimp only
      rw [ask_bind, ask_bind, hwatched, List.nil_append, ← List.range_eq_range']
      dsimp only
      rcases hcases with ⟨before, source, behind, middle, e, hsplit, hlisted, hfails, rfl, hfound⟩ |
        ⟨hlisted, rfl, groups, hfound⟩
      · rw [hfound]
        exact ⟨rfl, rfl, .inr ⟨⟨records, rfl⟩, .inl ⟨before, source, behind, middle, e, hsplit,
          hlisted, hfails, rfl, rfl⟩⟩⟩
      · rw [hfound]
        dsimp only
        rw [announced_watched]
        exact ⟨rfl, rfl, .inr ⟨⟨records, rfl⟩, .inr ⟨hlisted, ⟨_, rfl⟩, rfl⟩⟩⟩

end Planner

end SuiteBalance
