import Mathlib
import SuiteBalance.Proofs.Planner.Contacts
import SuiteBalance.Proofs.Planner.Store

/-!
# Proofs — Planner — sessions

A **`Session`** is a planner in use, with its forks in a `Store` that the plans it returned share.
Sources are registered, plans are generated and questions are asked in any order, and each call of a
collaborator may answer anything or fail.

* `Session.generate`, `Session.testsFor`: what a planner does with forks that it shares.
* `Session.planner`, **`generate_planner`**: as values, they are those of a `Planner`.
* `Operation`, `Session.perform`, `Session.run`: what can be asked of a planner, and what it answers.
* `Session.Consistent`: what the planner shows is what the latest plan says.
* `Session.Generates`: what a call of `generate` comes to.
* `Session.invariant_perform`, **`Session.consistent_run`**: each operation keeps the one and does
  the other, so it is always so.
-/

namespace SuiteBalance

variable {σ : Type}

/-- Why a planner's answer is an error. -/
inductive SessionError where
  | failure (e : Failure)
  | allocation (e : AllocationError)
  | planner (e : PlannerError)
  | fork (e : ForkError)

/-- A planner in use: the addresses of its forks and of those of its latest plan, the store that
these lead to, and the world of its collaborators. -/
structure Session (σ : Type) where
  forkCount : ℕ
  at_least_one : 0 < forkCount
  timings : StateM σ (Reply (List TimingRecord))
  sources : List (Source (StateM σ)) := []
  containers : Handle
  plan? : Option Handle := none
  store : Store
  world : σ

/-- What can be asked of a planner. -/
inductive Operation (σ : Type) where
  | register (source : Source (StateM σ))
  | generate
  | testsFor (index : ℤ) (t : Task)
  | plan
  | containers

/-- What a planner answers. -/
inductive Response where
  | done
  | generated (answer : Except SessionError Handle)
  | tests (answer : Except SessionError (List String))
  | plan (answer : Except SessionError Handle)
  | containers (handle : Handle)

/-- The source that an operation registers. -/
def Operation.source? : Operation σ → Option (Source (StateM σ))
  | .register source => some source
  | _ => none

/-- The plan that a call of `generate` returned. -/
def Response.returned? : Response → Option Handle
  | .generated (.ok handle) => some handle
  | _ => none

/-- The forks of a plan make the plan. -/
theorem Plan.ofForks_forks (plan : Plan) : ofForks plan.forks = .ok plan := dif_pos plan.frozen

/-- Some addresses lead to the forks of a plan, each of them to its own. -/
structure Store.Shows (store : Store) (handle : Handle) (plan : Plan) : Prop where
  valid : store.Valid handle
  read : store.read handle = plan.forks

/-- What is shown stays when forks are put behind. -/
theorem Store.Shows.of_prefix {store later : Store} {handle : Handle} {plan : Plan}
    (h : store.Shows handle plan) (hextends : store.forks <+: later.forks) :
    later.Shows handle plan :=
  ⟨h.valid.of_prefix hextends, (Store.read_of_prefix h.valid hextends).trans h.read⟩

namespace Session

/-- A new planner in a world, with forks of its own. -/
def make (count : ℤ) (timings : StateM σ (Reply (List TimingRecord))) (world : σ) :
    Except SessionError (Session σ) :=
  if h : 0 < count.toNat then
    let store : Store := {}
    .ok {
      forkCount := count.toNat
      at_least_one := h
      timings, world
      containers := store.reserve count.toNat
      store := store.append (Fork.fresh count.toNat) }
  else .error (.planner (.forkCount count))

/-- Adds a source behind those registered before. -/
def register (s : Session σ) (source : Source (StateM σ)) : Session σ :=
  { s with sources := s.sources ++ [source] }

/-- Makes a plan with new forks, which take the place of those before once they are frozen. -/
def generate (s : Session σ) : Except SessionError Handle × Session σ :=
  let (timings, world) := ask s.timings s.world
  match timings.outcome with
  | .error e => (.error (.failure e), { s with world })
  | .ok records =>
    let (found, world) := ask (Planner.discover s.sources) world
    match found.outcome with
    | .error e => (.error (.failure e), { s with world })
    | .ok groups =>
      let handle := s.store.reserve s.forkCount
      let (filled, ended) := (s.store.append (Fork.fresh s.forkCount)).giveOut handle
        (Bucket.build groups records).1
      match ended with
      | some e => (.error (.allocation e), { s with world, store := filled })
      | none =>
        let store := filled.freezeAll handle
        match Plan.ofForks (store.read handle) with
        | .error e => (.error (.planner (.plan e)), { s with world, store })
        | .ok _ => (.ok handle, { s with world, store, containers := handle, plan? := some handle })

/-- The latest plan. -/
def plan (s : Session σ) : Except SessionError Handle :=
  match s.plan? with
  | some handle => .ok handle
  | none => .error (.planner .noPlan)

/-- The patterns that a task runs on a fork of a plan, as the fork has them now. -/
def testsAt (s : Session σ) (handle : Handle) (index : ℤ) (t : Task) :
    Except SessionError (List String) := do
  let f ← (atWorker (s.store.read handle) index).mapError (.planner <| .plan ·)
  (f.testsFor t).mapError .fork

/-- The patterns that a task runs on a fork of the latest plan. -/
def testsFor (s : Session σ) (index : ℤ) (t : Task) : Except SessionError (List String) := do
  let handle ← s.plan
  s.testsAt handle index t

/-! ### Forks as values -/

/-- The planner with its forks as values. -/
def planner (s : Session σ) : Planner (StateM σ) where
  forkCount := s.forkCount
  at_least_one := s.at_least_one
  timings := s.timings
  sources := s.sources
  forks := s.store.read s.containers
  plan? := s.plan?.bind fun handle => (Plan.ofForks (s.store.read handle)).toOption

variable {s : Session σ} {handle : Handle} {plan : Plan}
/-- A plan is asked where its forks stand, and answers as it does. -/
theorem testsAt_of_shows (h : s.store.Shows handle plan) (index : ℤ) (t : Task) :
    s.testsAt handle index t = (plan.testsFor index t).mapError (.planner <| .plan ·) := by
  unfold testsAt Plan.testsFor Plan.worker
  rw [h.read]
  cases hworker : atWorker plan.forks index with
  | error e => rfl
  | ok f =>
      have hmem : f ∈ plan.forks := by
        unfold atWorker at hworker
        split at hworker
        · next worker hfound =>
          obtain rfl := Except.ok.inj hworker
          split_ifs at hfound
          exact List.mem_of_getElem? hfound
        · cases hworker
      have hfrozen := plan.frozen f hmem
      simp only [Except.mapError, bind, Except.bind, Fork.testsFor, Fork.whenFrozen, hfrozen,
        if_true, Except.map]

/-- **A call of `generate`, with forks as values, is that of a planner**: it fails as the planner
does and leaves all but the world, or it puts the forks of the planner's plan behind all others. -/
theorem generate_planner (s : Session σ) :
    (∃ e, (ask s.planner.generate s.world).1.1.outcome = .error e ∧
      (ask s.planner.generate s.world).1.2 = s.planner ∧
      s.generate = (.error (.failure e),
        { s with world := (ask s.planner.generate s.world).2 })) ∨
    ∃ plan, (ask s.planner.generate s.world).1.1.outcome = .ok plan ∧
      (ask s.planner.generate s.world).1.2 = s.planner.publish plan ∧
      s.generate.1 = .ok (s.store.reserve s.forkCount) ∧
      s.generate.2.store.Shows (s.store.reserve s.forkCount) plan ∧
      s.store.forks <+: s.generate.2.store.forks ∧
      s.generate.2 = { s with
        world := (ask s.planner.generate s.world).2
        store := s.generate.2.store
        containers := s.store.reserve s.forkCount
        plan? := some (s.store.reserve s.forkCount) } := by
  unfold generate Planner.generate
  have htimings : s.planner.timings = s.timings := rfl
  have hsources : s.planner.sources = s.sources := rfl
  rw [ask_bind, htimings, hsources]
  dsimp only
  cases (ask s.timings s.world).1.outcome with
  | error e => exact .inl ⟨e, rfl, rfl, rfl⟩
  | ok records =>
      dsimp only
      rw [ask_bind]
      cases (ask (Planner.discover s.sources) (ask s.timings s.world).2).1.outcome with
      | error e => exact .inl ⟨e, rfl, rfl, rfl⟩
      | ok groups =>
          dsimp only
          cases hfilled : (s.store.append (Fork.fresh s.forkCount)).giveOut
              (s.store.reserve s.forkCount) (Bucket.build groups records).1 with
          | mk filled ended =>
              obtain ⟨rfl, hread, hvalid, hextends⟩ :=
                s.store.scheduled_spec s.at_least_one groups records hfilled
              have hplan : Plan.ofForks ((filled.freezeAll (s.store.reserve s.forkCount)).read
                  (s.store.reserve s.forkCount)) =
                  .ok (Plan.schedule s.forkCount groups records).1 := by
                rw [hread, Plan.ofForks_forks]
              dsimp only
              rw [hplan]
              exact .inr ⟨_, rfl, rfl, rfl, ⟨hvalid, hread⟩, hextends, rfl⟩

/-! ### What is asked -/

/-- Asks a planner. -/
def perform (s : Session σ) : Operation σ → Response × Session σ
  | .register source => (.done, s.register source)
  | .generate => (.generated s.generate.1, s.generate.2)
  | .testsFor index t => (.tests (s.testsFor index t), s)
  | .plan => (.plan s.plan, s)
  | .containers => (.containers s.containers, s)

/-- Asks a planner one thing after the other. -/
def run (s : Session σ) : List (Operation σ) → List Response × Session σ
  | [] => ([], s)
  | operation :: rest =>
    let (response, s') := s.perform operation
    let (responses, s'') := s'.run rest
    (response :: responses, s'')

/-- The sources that operations register. -/
def registered (operations : List (Operation σ)) : List (Source (StateM σ)) :=
  operations.flatMap (·.source?.toList)

/-- The plans that were returned, in the order of the answers. -/
def returned (responses : List Response) : List Handle := responses.flatMap (·.returned?.toList)

/-! ### What a planner shows -/

/-- A plan has a number of forks, each of them frozen and with its position as its index. -/
structure Numbered (count : ℕ) (plan : Plan) : Prop where
  forkCount : plan.forkCount = count
  each : ∀ (i : ℕ) f, plan.forks[i]? = some f → f.index = i ∧ f.isFrozen = true

/-- What a planner shows once some sources have been registered and some plans returned: no plan and
fresh forks before the first plan, and from then on the latest plan, whose forks are its own. -/
structure Consistent (count : ℕ) (sources : List (Source (StateM σ))) (handles : List Handle)
    (s : Session σ) : Prop where
  sources : s.sources = sources
  asked : ∀ index t, s.testsFor index t = (s.planner.testsFor index t).mapError .planner
  before : handles = [] → s.plan = .error (.planner .noPlan) ∧
    (∀ index t, s.testsFor index t = .error (.planner .noPlan)) ∧
    s.store.Valid s.containers ∧ s.store.read s.containers = Fork.fresh count
  behind : ∀ handle, handles.getLast? = some handle → s.plan = .ok handle ∧
    s.containers = handle ∧ ∃ plan, s.store.Shows handle plan ∧ Numbered count plan ∧
      ∀ index t, s.testsFor index t = (plan.testsFor index t).mapError (.planner <| .plan ·)

/-- What a call of `generate` comes to: it fails where the collaborators do, and for no other
reason, and then leaves all but their world as it is; or it returns a plan, which is the one that a
new planner makes of the answers in the call. -/
structure Generates (s : Session σ) : Prop where
  planner : s.generate.2.planner = (ask s.planner.generate s.world).1.2
  world : s.generate.2.world = (ask s.planner.generate s.world).2
  fails : ∀ e, s.generate.1 = .error e ↔
    ∃ failure, e = .failure failure ∧ s.planner.Fails s.world failure
  kept : ∀ e, s.generate.1 = .error e → s.generate.2 = { s with world := s.generate.2.world }
  made : ∀ handle, s.generate.1 = .ok handle →
    ∃ plan, s.generate.2.store.Shows handle plan ∧ s.planner.Replays s.world plan

theorem generates (s : Session σ) : s.Generates := by
  rcases s.generate_planner with
    ⟨failure, houtcome, hplanner, hgenerate⟩ |
    ⟨plan, houtcome, hplanner, hhandle, hshows, -, hgenerate⟩
  · rw [Planner.outcome_generate_eq_error_iff] at houtcome
    refine ⟨?_, ?_, fun e => ⟨?_, ?_⟩, fun e _ => ?_, fun handle hhandle => ?_⟩
    · rw [hgenerate, hplanner]
      rfl
    · rw [hgenerate]
    · intro he
      rw [hgenerate] at he
      exact ⟨failure, (Except.error.inj he).symm, houtcome⟩
    · rintro ⟨failure', rfl, hfails⟩
      rw [← Planner.outcome_generate_eq_error_iff] at houtcome hfails
      obtain rfl : failure = failure' := Except.error.inj (houtcome.symm.trans hfails)
      rw [hgenerate]
    · rw [hgenerate]
    · rw [hgenerate] at hhandle
      cases hhandle
  · refine ⟨?_, congrArg Session.world hgenerate, fun e => ⟨?_, ?_⟩, fun e he => ?_,
      fun handle hreturned => ?_⟩
    · rw [hgenerate, hplanner]
      unfold planner Planner.publish
      rw [Option.bind_some, hshows.read, Plan.ofForks_forks]
      rfl
    · intro he
      cases hhandle.symm.trans he
    · rintro ⟨failure, rfl, hfails⟩
      cases houtcome.symm.trans (Planner.outcome_generate_eq_error_iff.mpr hfails)
    · cases hhandle.symm.trans he
    · obtain rfl := Except.ok.inj (hhandle.symm.trans hreturned)
      refine ⟨plan, hshows, ?_⟩
      rcases s.planner.generate_replay s.world with ⟨e, herror, -⟩ | ⟨made, hmade, -, hreplays⟩
      · cases houtcome.symm.trans herror
      · obtain rfl : plan = made := Except.ok.inj (houtcome.symm.trans hmade)
        exact hreplays

/-! ### The invariant -/

/-- A planner keeps its number of forks and holds the sources that were registered.  Every plan that
it returned stands in the store, and the last of them is its own; before the first, its forks are
fresh. -/
structure Invariant (count : ℕ) (sources : List (Source (StateM σ))) (handles : List Handle)
    (s : Session σ) : Prop where
  forkCount : s.forkCount = count
  sources : s.sources = sources
  latest : s.plan? = handles.getLast?
  containers : ∀ handle, s.plan? = some handle → s.containers = handle
  fresh : s.plan? = none →
    s.store.Valid s.containers ∧ s.store.read s.containers = Fork.fresh count
  shows : ∀ handle ∈ handles, ∃ plan, s.store.Shows handle plan ∧ Numbered count plan

variable {count : ℕ} {sources : List (Source (StateM σ))} {handles : List Handle}

/-- A planner is asked for tests as the one is that has its forks as values. -/
theorem Invariant.asked (h : s.Invariant count sources handles) (index : ℤ) (t : Task) :
    s.testsFor index t = (s.planner.testsFor index t).mapError .planner := by
  unfold testsFor Planner.testsFor Session.plan Planner.plan planner
  cases hplan : s.plan? with
  | none => rfl
  | some handle =>
      obtain ⟨plan, hshows, -⟩ := h.shows handle (List.mem_of_getLast? (h.latest.symm.trans hplan))
      simp only [Option.bind_some, hshows.read, Plan.ofForks_forks, Except.toOption]
      change s.testsAt handle index t =
        ((plan.testsFor index t).mapError .plan).mapError SessionError.planner
      rw [testsAt_of_shows hshows]
      cases plan.testsFor index t <;> rfl

/-- What a planner shows follows from the invariant. -/
theorem Invariant.consistent (h : s.Invariant count sources handles) :
    s.Consistent count sources handles := by
  refine ⟨h.sources, h.asked, fun hnone => ?_, fun handle hlast => ?_⟩
  · have hplan : s.plan? = none := by rw [h.latest, hnone]; rfl
    have hask : s.plan = .error (.planner .noPlan) := by rw [Session.plan, hplan]
    refine ⟨hask, fun index t => ?_, h.fresh hplan⟩
    rw [testsFor, hask]
    rfl
  · have hplan : s.plan? = some handle := h.latest.trans hlast
    have hask : s.plan = .ok handle := by rw [Session.plan, hplan]
    obtain ⟨plan, hshows, hnumbered⟩ := h.shows handle (List.mem_of_getLast? hlast)
    refine ⟨hask, h.containers handle hplan, plan, hshows, hnumbered, fun index t => ?_⟩
    rw [testsFor, hask]
    exact testsAt_of_shows hshows index t

/-- The plan that a new planner makes has as many forks as the planner, numbered by position. -/
theorem numbered_of_replays {p : Planner (StateM σ)} {world : σ} (h : p.Replays world plan) :
    Numbered p.forkCount plan := by
  obtain ⟨records, -, fresh, hmake, houtcome⟩ := h
  obtain ⟨records', groups, -, -, rfl⟩ := Planner.generate_ok houtcome
  have hcount : fresh.forkCount = p.forkCount := by
    rw [Planner.make, dif_pos (by simpa using p.at_least_one)] at hmake
    obtain rfl := Except.ok.inj hmake
    rfl
  rw [Planner.sources_registerAll]
  refine ⟨?_, fun i f hf => ?_⟩
  · rw [Plan.forkCount, Plan.length_forks_schedule fresh.at_least_one, hcount]
  · obtain ⟨hindex, hfrozen, -⟩ := Plan.getElem?_forks_schedule fresh.at_least_one hf
    exact ⟨hindex, hfrozen⟩

/-- Whatever is asked, the forks that there are stay as they are. -/
theorem prefix_perform (s : Session σ) (operation : Operation σ) :
    s.store.forks <+: (s.perform operation).2.store.forks := by
  cases operation with
  | generate =>
      rcases s.generate_planner with ⟨e, -, -, hgenerate⟩ | ⟨_, -, -, -, -, hextends, -⟩
      · simp only [perform, hgenerate]
        exact List.prefix_refl _
      · exact hextends
  | register source => exact List.prefix_refl _
  | testsFor index t => exact List.prefix_refl _
  | plan => exact List.prefix_refl _
  | containers => exact List.prefix_refl _

/-- What neither registers a source nor returns a plan. -/
theorem Invariant.unchanged (h : s.Invariant count sources handles) :
    s.Invariant count (sources ++ []) (handles ++ []) := by
  rwa [List.append_nil, List.append_nil]

/-- **Each operation keeps the invariant.** -/
theorem Invariant.perform (h : s.Invariant count sources handles) (operation : Operation σ) :
    (s.perform operation).2.Invariant count (sources ++ operation.source?.toList)
      (handles ++ (s.perform operation).1.returned?.toList) := by
  cases operation with
  | register source =>
      have hreturned : handles ++ (s.perform (.register source)).1.returned?.toList = handles :=
        List.append_nil _
      rw [hreturned]
      exact ⟨h.forkCount, congrArg (· ++ [source]) h.sources, h.latest, h.containers, h.fresh,
        h.shows⟩
  | generate =>
      rcases s.generate_planner with
        ⟨failure, -, -, hgenerate⟩ | ⟨_, -, -, hhandle, -, hextends, hgenerate⟩
      -- a failure leaves the forks and the plans that were returned
      · rw [Session.perform, hgenerate]
        have hleft : Invariant count sources handles
            { s with world := (ask s.planner.generate s.world).2 } :=
          ⟨h.forkCount, h.sources, h.latest, h.containers, h.fresh, h.shows⟩
        exact hleft.unchanged
      · have hreturned : handles ++ (s.perform .generate).1.returned?.toList =
            handles ++ [s.store.reserve s.forkCount] := by
          rw [Session.perform, hhandle]
          rfl
        have hplan : s.generate.2.plan? = some (s.store.reserve s.forkCount) :=
          congrArg Session.plan? hgenerate
        obtain ⟨plan, hshows, hreplays⟩ := s.generates.made _ hhandle
        rw [hreturned]
        refine ⟨?_, ?_, ?_, fun handle hlast => ?_, fun hnone => ?_, fun handle hmem => ?_⟩
        · exact (congrArg Session.forkCount hgenerate).trans h.forkCount
        · refine (congrArg Session.sources hgenerate).trans ?_
          exact h.sources.trans (List.append_nil _).symm
        · exact hplan.trans List.getLast?_concat.symm
        · obtain rfl := Option.some_inj.mp (hplan.symm.trans hlast)
          exact congrArg Session.containers hgenerate
        · cases hplan.symm.trans hnone
        -- the plans before stand where they stood, the new one behind them
        · rcases List.mem_append.mp hmem with hearlier | hnew
          · obtain ⟨earlier, hearlierShows, hnumbered⟩ := h.shows handle hearlier
            exact ⟨earlier, hearlierShows.of_prefix hextends, hnumbered⟩
          · obtain rfl := List.mem_singleton.mp hnew
            exact ⟨plan, hshows, h.forkCount ▸ numbered_of_replays hreplays⟩
  | testsFor index t => exact h.unchanged
  | plan => exact h.unchanged
  | containers => exact h.unchanged

/-! ### Runs -/

theorem run_append (s : Session σ) (operations more : List (Operation σ)) :
    (s.run (operations ++ more)).2 = ((s.run operations).2.run more).2 := by
  induction operations generalizing s with
  | nil => rfl
  | cons operation rest ih => exact ih _

theorem prefix_run (s : Session σ) (operations : List (Operation σ)) :
    s.store.forks <+: (s.run operations).2.store.forks := by
  induction operations generalizing s with
  | nil => exact List.prefix_refl _
  | cons operation rest ih => exact (s.prefix_perform operation).trans (ih _)

theorem Invariant.run (h : s.Invariant count sources handles)
    (operations : List (Operation σ)) :
    (s.run operations).2.Invariant count (sources ++ registered operations)
      (handles ++ returned (s.run operations).1) := by
  induction operations generalizing s sources handles with
  | nil => exact h.unchanged
  | cons operation rest ih =>
      have hrest := ih (h.perform operation)
      rw [List.append_assoc, List.append_assoc] at hrest
      exact hrest

theorem exists_make {count : ℤ} (h : 1 ≤ count) (timings : StateM σ (Reply (List TimingRecord)))
    (world : σ) : ∃ s, make count timings world = .ok s ∧
      Planner.make count timings = .ok s.planner ∧ s.world = world ∧
      s.Invariant count.toNat [] [] := by
  have hpos : 0 < count.toNat := by omega
  have hnew := Store.append_spec {} (Fork.fresh count.toNat)
  rw [Fork.length_fresh] at hnew
  obtain ⟨hvalid, hread⟩ := hnew
  refine ⟨_, dif_pos hpos, ?_, rfl, rfl, rfl, rfl, fun handle hhandle => ?_, fun _ => ?_,
    fun handle hhandle => ?_⟩
  · rw [Planner.make, dif_pos hpos]
    unfold planner
    rw [hread]
    rfl
  · cases hhandle
  · exact ⟨hvalid, hread⟩
  · cases hhandle

/-- **Whatever is asked of a planner, and whatever its collaborators do, it shows what its latest
plan says**: a call of `generate` fails where they do and changes nothing then, one that succeeds
returns the plan that a new planner makes of the same answers, and the plans that were returned give
the same answers whatever is asked later. -/
theorem consistent_run {count : ℤ} (h : 1 ≤ count)
    (timings : StateM σ (Reply (List TimingRecord))) (world : σ)
    (operations more : List (Operation σ)) :
    ∃ s, make count timings world = .ok s ∧ Planner.make count timings = .ok s.planner ∧
      (s.run operations).2.Consistent count.toNat (registered operations)
        (returned (s.run operations).1) ∧
      (s.run operations).2.Generates ∧
      ∀ handle ∈ returned (s.run operations).1,
        (s.run (operations ++ more)).2.store.read handle = (s.run operations).2.store.read handle ∧
        ∀ index t, (s.run (operations ++ more)).2.testsAt handle index t =
          (s.run operations).2.testsAt handle index t := by
  obtain ⟨s, hmake, hplanner, -, hinvariant⟩ := exists_make h timings world
  have hnow := hinvariant.run operations
  rw [List.nil_append, List.nil_append] at hnow
  refine ⟨s, hmake, hplanner, hnow.consistent, generates _, fun handle hhandle => ?_⟩
  obtain ⟨plan, hshows, -⟩ := hnow.shows handle hhandle
  have hlater := hshows.of_prefix (prefix_run _ more)
  rw [run_append]
  refine ⟨hlater.read.trans hshows.read.symm, fun index t => ?_⟩
  rw [testsAt_of_shows hlater, testsAt_of_shows hshows]

end Session

/-- A provider that fails when it is asked for the first time, in a world that counts. -/
def flakyTimings : StateM ℕ (Reply (List TimingRecord)) := fun world =>
  pure (⟨if world = 0 then .error (.timing "no history") else .ok [], []⟩, world + 1)

/-- A planner with such a provider. -/
def flakySession : Session ℕ where
  forkCount := 2
  at_least_one := Nat.two_pos
  timings := flakyTimings
  containers := [0, 1]
  store := ⟨Fork.fresh 2⟩
  world := 0

/-- A failing call, a registration and a successful call of the planner. -/
def flakyOperations : List (Operation ℕ) :=
  [.generate, .register ⟨pure ⟨.ok ["fast*"], []⟩, .name "unit"⟩, .generate]

/-- The first call fails as the provider does; the session is consistent all the same, and another
failure later leaves the answers of the plan that it has returned. -/
theorem Session.consistent_run_flaky :
    1 ≤ (2 : ℤ) ∧ Session.make 2 flakyTimings 0 = .ok flakySession ∧
      flakySession.generate.1 = .error (.failure (.timing "no history")) ∧
      (flakySession.run flakyOperations).2.Consistent 2 (registered flakyOperations)
        (returned (flakySession.run flakyOperations).1) ∧
      (flakySession.run flakyOperations).2.Generates ∧
      ∀ handle ∈ returned (flakySession.run flakyOperations).1,
        (flakySession.run (flakyOperations ++ [.generate])).2.store.read handle =
          (flakySession.run flakyOperations).2.store.read handle := by
  have hcount : 1 ≤ (2 : ℤ) := by decide
  have hflaky : Session.make 2 flakyTimings 0 = .ok flakySession := rfl
  obtain ⟨s, hmake, -, hconsistent, hgenerates, hkept⟩ :=
    consistent_run hcount flakyTimings 0 flakyOperations [.generate]
  obtain rfl : flakySession = s := Except.ok.inj (hflaky.symm.trans hmake)
  exact ⟨hcount, hflaky, rfl, hconsistent, hgenerates, fun handle hhandle => (hkept handle hhandle).1⟩

end SuiteBalance
