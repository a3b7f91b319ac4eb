import Mathlib
import SuiteBalance.Proofs.Planner.Discovery

/-!
# Proofs — Planner — calls and their replay

The collaborators of a planner live in a world of their own, which each of their answers may
depend on and change.  A plan does not: it is what a new planner makes of the answers alone.

* `ask`: what a call answers in a world, and the world behind it.
* `generate_failed`, `generate_replay`: a call of `generate` fails and changes nothing, or makes the
  plan that a new planner makes whose collaborators give the same answers.
-/

namespace SuiteBalance

variable {σ : Type}

/-- What a call answers in a world, and the world that it leaves. -/
def ask {α : Type} (call : StateM σ α) (world : σ) : α × σ := Id.run (StateT.run call world)

@[simp] theorem ask_pure {α : Type} (a : α) (world : σ) :
    ask (pure a : StateM σ α) world = (a, world) := rfl

@[simp] theorem ask_bind {α β : Type} (call : StateM σ α) (next : α → StateM σ β) (world : σ) :
    ask (call >>= next) world = ask (next (ask call world).1) (ask call world).2 := rfl

/-- What sources answer when they are asked one after the other. -/
def answersOf (sources : List (Source (StateM σ))) (world : σ) : List (Reply (List String)) :=
  (ask (sources.mapM Source.list) world).1

theorem answersOf_cons (source : Source (StateM σ)) (rest : List (Source (StateM σ))) (world : σ) :
    answersOf (source :: rest) world =
      (ask source.list world).1 :: answersOf rest (ask source.list world).2 := by
  rw [answersOf, List.mapM_cons]
  rfl

namespace Planner

/-- A source that gives a known answer in place of another source. -/
def answering (source : Source (StateM σ)) (answer : Reply (List String)) : Source Id :=
  ⟨pure answer, source.task⟩

/-- A discovery that succeeds finds what it finds among the same answers. -/
theorem discover_replay (sources : List (Source (StateM σ))) (world : σ) {groups : List Group}
    (h : (ask (discover sources) world).1.outcome = .ok groups) :
    (Id.run (discover (List.zipWith answering sources (answersOf sources world)))).outcome =
      .ok groups := by
  induction sources generalizing world groups with
  | nil => exact h
  | cons source rest ih =>
      rw [answersOf_cons, List.zipWith_cons_cons]
      unfold discover at h ⊢
      simp only [ask_bind] at h
      simp only [Id.run_bind]
      -- the first source answers in this world, the others in the world that it leaves
      have hanswer : Id.run (answering source (ask source.list world).1).list =
          (ask source.list world).1 := rfl
      have htask : (answering source (ask source.list world).1).task = source.task := rfl
      rw [hanswer, htask]
      cases hfirst : ((ask source.list world).1.groups source.task).outcome with
      | error e => simp [hfirst] at h
      | ok first =>
          cases hrest : (ask (discover rest) (ask source.list world).2).1.outcome with
          | error e =>
              simp only [hfirst, ask_bind, ask_pure, hrest] at h
              cases h
          | ok later =>
              have hlater := ih _ hrest
              simp only [hfirst, ask_bind, ask_pure, hrest] at h
              simp only [Id.run_bind, Id.run_pure, hlater]
              exact h

/-- A planner with one source behind the other. -/
def registerAll {m : Type → Type} (p : Planner m) (sources : List (Source m)) : Planner m :=
  sources.foldl register p

theorem sources_registerAll {m : Type → Type} (p : Planner m) (sources : List (Source m)) :
    p.registerAll sources = { p with sources := p.sources ++ sources } := by
  induction sources generalizing p with
  | nil => simp [registerAll]
  | cons s rest ih =>
      have hcons : p.registerAll (s :: rest) = (p.register s).registerAll rest := rfl
      rw [hcons, ih]
      simp [register]

/-- What a call of `generate` comes to: a failure that changes nothing, or a plan of the records and
the groups that the collaborators gave. -/
theorem ask_generate (p : Planner (StateM σ)) (world : σ) :
    (∃ e, (ask p.generate world).1.1.outcome = .error e ∧ (ask p.generate world).1.2 = p) ∨
      ∃ records groups, (ask p.timings world).1.outcome = .ok records ∧
        (ask (discover p.sources) (ask p.timings world).2).1.outcome = .ok groups ∧
        (ask p.generate world).1.1.outcome = .ok (Plan.schedule p.forkCount groups records).1 ∧
        (ask p.generate world).1.2 = p.publish (Plan.schedule p.forkCount groups records).1 := by
  unfold generate
  simp only [ask_bind]
  cases htimings : (ask p.timings world).1.outcome with
  | error e => exact .inl ⟨e, rfl, rfl⟩
  | ok records =>
      simp only [ask_bind]
      cases hfound : (ask (discover p.sources) (ask p.timings world).2).1.outcome with
      | error e => exact .inl ⟨e, rfl, rfl⟩
      | ok groups => exact .inr ⟨records, groups, rfl, rfl, rfl, rfl⟩

/-- A plan is what a new planner makes whose provider and whose sources, registered in the same
order, answer what those of another planner answer in a call of `generate`. -/
def Replays (p : Planner (StateM σ)) (world : σ) (plan : Plan) : Prop :=
  ∃ records, (ask p.timings world).1.outcome = .ok records ∧
    ∃ fresh : Planner Id, make p.forkCount (pure ⟨.ok records, []⟩) = .ok fresh ∧
      (Id.run (fresh.registerAll (List.zipWith answering p.sources
        (answersOf p.sources (ask p.timings world).2))).generate).1.outcome = .ok plan

/-- What a planner makes whose records and groups are known. -/
theorem outcome_generate {p : Planner Id} {records : List TimingRecord} {groups : List Group}
    (htimings : (Id.run p.timings).outcome = .ok records)
    (hfound : (Id.run (discover p.sources)).outcome = .ok groups) :
    (Id.run p.generate).1.outcome = .ok (Plan.schedule p.forkCount groups records).1 := by
  unfold generate
  simp only [Id.run_bind, htimings, hfound, Id.run_pure]
  rfl

/-- **A call of `generate` fails and changes nothing, or makes a plan that the answers alone
determine.** -/
theorem generate_replay (p : Planner (StateM σ)) (world : σ) :
    (∃ e, (ask p.generate world).1.1.outcome = .error e ∧ (ask p.generate world).1.2 = p) ∨
      ∃ plan, (ask p.generate world).1.1.outcome = .ok plan ∧
        (ask p.generate world).1.2 = p.publish plan ∧ p.Replays world plan := by
  rcases p.ask_generate world with h | ⟨records, groups, htimings, hfound, houtcome, hplanner⟩
  · exact .inl h
  · refine .inr ⟨_, houtcome, hplanner, records, htimings, ?_⟩
    have hmake : 0 < (p.forkCount : ℤ).toNat := by simpa using p.at_least_one
    refine ⟨_, by rw [make, dif_pos hmake], ?_⟩
    rw [sources_registerAll]
    exact outcome_generate rfl (discover_replay _ _ hfound)

end Planner

end SuiteBalance
