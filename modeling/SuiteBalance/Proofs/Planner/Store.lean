import Mathlib
import SuiteBalance.Proofs.Schedule.Run

/-!
# Proofs — Planner — forks that are shared

A planner and its plans do not hold forks of their own: they hold the addresses of forks in a
**`Store`**, where buckets are added to a fork and the fork is frozen in place.  What is done to the
forks at some addresses is what `Allocation.run` and `Fork.freeze` make of the forks as values, and
the forks at all other addresses stay as they are.

* `Store.read`, `Store.Valid`: the forks at addresses, and addresses that lead to different forks.
* `Store.assign`, `Store.give`, `Store.giveOut`: buckets given out in place.
* `Store.freezeAll`: forks frozen in place.
* `Store.Only`: only the forks at some addresses change.
* **`giveOut_spec`**, **`freezeAll_spec`**: what comes of it.
* **`scheduled_spec`**: the forks of a schedule, behind all that there are.
-/

namespace SuiteBalance

/-- Forks in memory.  The address of a fork is its position; new forks are put behind all others. -/
structure Store where
  forks : List Fork := []

/-- The addresses of some forks, in the order in which a planner or a plan names them. -/
abbrev Handle := List ℕ

namespace Store

/-- The forks at some addresses. -/
def read (s : Store) (handle : Handle) : List Fork := handle.filterMap (s.forks[·]?)

/-- The addresses of as many new forks. -/
def reserve (s : Store) (count : ℕ) : Handle := List.range' s.forks.length count

/-- Puts forks behind all others. -/
def append (s : Store) (forks : List Fork) : Store := ⟨s.forks ++ forks⟩

/-- Adds a bucket to the fork at an address, which is changed where it stands. -/
def addAt (s : Store) (address : ℕ) (b : Bucket) : Except AllocationError Store :=
  match s.forks[address]? with
  | none => .error .noForks
  | some f =>
    match f.add b with
    | .error e => .error (.refused e)
    | .ok f' => .ok ⟨s.forks.set address f'⟩

/-- Gives one bucket to the first of the least loaded forks at some addresses. -/
def assign (s : Store) (handle : Handle) (b : Bucket) : Except AllocationError Store :=
  match (leastLoaded (s.read handle)).bind (handle[·]?) with
  | none => .error .noForks
  | some address => s.addAt address b

/-- Gives buckets to the forks at some addresses in the order of the list, up to a refusal. -/
def give (handle : Handle) (s : Store) : List Bucket → Store × Option AllocationError
  | [] => (s, none)
  | b :: rest =>
    match s.assign handle b with
    | .error e => (s, some e)
    | .ok s' => s'.give handle rest

/-- Gives buckets out to the forks at some addresses. -/
def giveOut (s : Store) (handle : Handle) (buckets : List Bucket) :
    Store × Option AllocationError :=
  if handle.isEmpty then (s, some .noForks) else s.give handle (Bucket.byCost buckets)

/-- Freezes the forks at some addresses. -/
def freezeAll (s : Store) (handle : Handle) : Store :=
  handle.foldl (fun s address => ⟨s.forks.modify address Fork.freeze⟩) s

/-! ### Addresses -/

/-- Addresses that lead to forks, all of them different. -/
structure Valid (s : Store) (handle : Handle) : Prop where
  lt : ∀ address ∈ handle, address < s.forks.length
  nodup : handle.Nodup

/-- From one store to the next, only the forks at some addresses change. -/
structure Only (handle : Handle) (s s' : Store) : Prop where
  length : s'.forks.length = s.forks.length
  others : ∀ address, address ∉ handle → s'.forks[address]? = s.forks[address]?

variable {s s' : Store} {handle other : Handle} {b : Bucket} {buckets : List Bucket}

theorem Only.refl (handle : Handle) (s : Store) : Only handle s s := ⟨rfl, fun _ _ => rfl⟩

theorem Only.trans {s'' : Store} (h : Only handle s s') (h' : Only handle s' s'') :
    Only handle s s'' :=
  ⟨h'.length.trans h.length, fun address hnot =>
    (h'.others address hnot).trans (h.others address hnot)⟩

theorem Valid.of_only (h : s.Valid handle) (honly : Only other s s') : s'.Valid handle :=
  ⟨fun address haddress => honly.length ▸ h.lt address haddress, h.nodup⟩

/-- What is read at some addresses depends on the forks there. -/
theorem read_congr (h : ∀ address ∈ handle, s'.forks[address]? = s.forks[address]?) :
    s'.read handle = s.read handle := List.filterMap_congr h

theorem read_cons {address : ℕ} {f : Fork} (h : s.forks[address]? = some f) (handle : Handle) :
    s.read (address :: handle) = f :: s.read handle := List.filterMap_cons_some h

theorem getElem?_read (h : ∀ address ∈ handle, address < s.forks.length) (i : ℕ) :
    (s.read handle)[i]? = handle[i]?.bind (s.forks[·]?) := by
  induction handle generalizing i with
  | nil => rfl
  | cons address handle ih =>
      obtain ⟨hlt, hrest⟩ := List.forall_mem_cons.mp h
      rw [read_cons (List.getElem?_eq_getElem hlt)]
      cases i with
      | zero => exact (List.getElem?_eq_getElem hlt).symm
      | succ i => exact ih hrest i

theorem length_read (h : ∀ address ∈ handle, address < s.forks.length) :
    (s.read handle).length = handle.length := by
  induction handle with
  | nil => rfl
  | cons address handle ih =>
      obtain ⟨hlt, hrest⟩ := List.forall_mem_cons.mp h
      rw [read_cons (List.getElem?_eq_getElem hlt), List.length_cons, List.length_cons]
      exact congrArg (· + 1) (ih hrest)

/-- A fork that is changed where it stands is changed in what is read. -/
theorem read_set (h : s.Valid handle) {i address : ℕ} (hi : handle[i]? = some address) (f : Fork) :
    (Store.mk (s.forks.set address f)).read handle = (s.read handle).set i f := by
  have hlt' : ∀ a ∈ handle, a < (s.forks.set address f).length :=
    fun a ha => (List.length_set ..).symm ▸ h.lt a ha
  refine List.ext_getElem? fun j => ?_
  rw [getElem?_read (s := ⟨_⟩) hlt', List.getElem?_set, getElem?_read h.lt, length_read h.lt]
  have hilt : i < handle.length := (List.getElem?_eq_some_iff.mp hi).1
  split_ifs with hij
  · obtain rfl := hij
    have haddress := h.lt address (List.mem_of_getElem? hi)
    simp [hi, haddress]
  · cases hj : handle[j]? with
    | none => rfl
    | some a =>
        have hne : address ≠ a := by
          rintro rfl
          obtain ⟨hjlt, hjeq⟩ := List.getElem?_eq_some_iff.mp hj
          obtain ⟨_, hieq⟩ := List.getElem?_eq_some_iff.mp hi
          exact hij ((List.Nodup.getElem_inj_iff h.nodup).mp (hieq.trans hjeq.symm))
        simp [List.getElem?_set_ne hne]

/-! ### Buckets given out in place -/

/-- **One bucket given in place** is one bucket given among the forks as values. -/
theorem assign_spec (h : s.Valid handle) (b : Bucket) :
    (∃ e, Allocation.assign (s.read handle) b = .error e ∧ s.assign handle b = .error e) ∨
      ∃ forks a s', Allocation.assign (s.read handle) b = .ok (forks, a) ∧
        s.assign handle b = .ok s' ∧ s'.read handle = forks ∧ Only handle s s' := by
  unfold assign Allocation.assign
  cases hleast : leastLoaded (s.read handle) with
  | none => exact .inl ⟨_, rfl, rfl⟩
  | some i =>
      have hread := getElem?_read h.lt i
      rw [Option.bind_some]
      dsimp only
      cases hi : handle[i]? with
      | none =>
          rw [hi] at hread
          rw [hread]
          exact .inl ⟨_, rfl, rfl⟩
      | some address =>
          rw [hi, Option.bind_some] at hread
          dsimp only
          rw [hread, addAt]
          cases hf : s.forks[address]? with
          | none => exact .inl ⟨_, rfl, rfl⟩
          | some f =>
              dsimp only
              cases hadd : f.add b with
              | error e => exact .inl ⟨_, rfl, rfl⟩
              | ok f' =>
                  refine .inr ⟨_, _, _, rfl, rfl, read_set h hi f', List.length_set .., ?_⟩
                  intro a ha
                  refine List.getElem?_set_ne fun heq => ha ?_
                  exact heq ▸ List.mem_of_getElem? hi

/-- Buckets given in place are buckets given among the forks as values. -/
theorem give_spec (h : s.Valid handle) (buckets : List Bucket) :
    (s.give handle buckets).1.read handle = (Allocation.run (s.read handle) buckets).forks ∧
      (s.give handle buckets).2 = (Allocation.run (s.read handle) buckets).ended ∧
      Only handle s (s.give handle buckets).1 := by
  induction buckets generalizing s with
  | nil => exact ⟨rfl, rfl, .refl handle s⟩
  | cons b rest ih =>
      rw [give, Allocation.run]
      rcases assign_spec h b with ⟨e, hassign, hplace⟩ | ⟨forks, a, s', hassign, hplace, rfl, honly⟩
      · rw [hassign, hplace]
        exact ⟨rfl, rfl, .refl handle s⟩
      · rw [hassign, hplace]
        obtain ⟨hread, hended, hlater⟩ := ih (h.of_only honly)
        exact ⟨hread, hended, honly.trans hlater⟩

/-- **Buckets given out in place** are given out among the forks as values, and no other fork
changes. -/
theorem giveOut_spec (h : s.Valid handle) (buckets : List Bucket) :
    (s.giveOut handle buckets).1.read handle = (allocate buckets (s.read handle)).forks ∧
      (s.giveOut handle buckets).2 = (allocate buckets (s.read handle)).ended ∧
      Only handle s (s.giveOut handle buckets).1 := by
  have hempty : (s.read handle).isEmpty = handle.isEmpty := by
    rw [Bool.eq_iff_iff, List.isEmpty_iff_length_eq_zero, List.isEmpty_iff_length_eq_zero,
      length_read h.lt]
  unfold giveOut allocate
  rw [hempty]
  split
  · exact ⟨rfl, rfl, .refl handle s⟩
  · exact give_spec h _

/-! ### Forks frozen in place -/

/-- **Forks frozen in place** are the forks frozen as values, and no other fork changes. -/
theorem freezeAll_spec (h : s.Valid handle) :
    (s.freezeAll handle).read handle = (s.read handle).map Fork.freeze ∧
      Only handle s (s.freezeAll handle) := by
  induction handle generalizing s with
  | nil => exact ⟨rfl, .refl [] s⟩
  | cons address rest ih =>
      obtain ⟨hlt, hrestLt⟩ := List.forall_mem_cons.mp h.lt
      obtain ⟨hnot, hnodup⟩ := List.nodup_cons.mp h.nodup
      let s' : Store := ⟨s.forks.modify address Fork.freeze⟩
      have hothers : ∀ a ≠ address, s'.forks[a]? = s.forks[a]? :=
        fun a ha => List.getElem?_modify_ne _ _ ha.symm
      have hlength : s'.forks.length = s.forks.length := List.length_modify ..
      obtain ⟨hread, honly⟩ := ih (s := s') ⟨fun a ha => hlength ▸ hrestLt a ha, hnodup⟩
      -- the first fork is not among the others, so it is left as it is once it is frozen
      have hfirst : (s'.freezeAll rest).forks[address]? = some s.forks[address].freeze := by
        rw [honly.others address hnot, List.getElem?_modify_eq, List.getElem?_eq_getElem hlt]
        rfl
      have hrest : s'.read rest = s.read rest :=
        read_congr fun a ha => hothers a fun heq => hnot (heq ▸ ha)
      refine ⟨?_, honly.length.trans hlength, fun a ha => ?_⟩
      · rw [read_cons (List.getElem?_eq_getElem hlt), List.map_cons, ← hrest, ← hread]
        exact read_cons hfirst rest
      · rw [List.mem_cons, not_or] at ha
        obtain ⟨hne, hnotRest⟩ := ha
        exact (honly.others a hnotRest).trans (hothers a hne)

/-! ### New forks -/

/-- What is put behind all other forks is read at the addresses that were reserved for it. -/
theorem append_spec (s : Store) (forks : List Fork) :
    (s.append forks).Valid (s.reserve forks.length) ∧
      (s.append forks).read (s.reserve forks.length) = forks := by
  have hlt : ∀ address ∈ s.reserve forks.length, address < (s.append forks).forks.length := by
    intro address haddress
    have hrange := List.mem_range'_1.mp haddress
    have hlength : (s.append forks).forks.length = s.forks.length + forks.length :=
      List.length_append
    omega
  refine ⟨⟨hlt, List.nodup_range'⟩, List.ext_getElem? fun i => ?_⟩
  rw [getElem?_read hlt, reserve]
  rcases lt_or_ge i forks.length with hi | hi
  · rw [List.getElem?_range' hi, Option.bind_some, append, one_mul,
      List.getElem?_append_right (Nat.le_add_right ..), Nat.add_sub_cancel_left]
  · rw [List.getElem?_eq_none (by rwa [List.length_range']), List.getElem?_eq_none hi]
    rfl

/-- Forks that are behind all others are not among them. -/
theorem prefix_of_only {forks : List Fork}
    (honly : Only (s.reserve forks.length) (s.append forks) s') : s.forks <+: s'.forks := by
  refine List.prefix_iff_getElem?.mpr fun address hlt => ?_
  have hnot : address ∉ s.reserve forks.length := by
    intro haddress
    have hrange := List.mem_range'_1.mp haddress
    omega
  rw [honly.others address hnot, append, List.getElem?_append_left hlt,
    List.getElem?_eq_getElem hlt]

/-- What is read at some addresses stays as it is when forks are put behind. -/
theorem read_of_prefix (h : s.Valid handle) (hextends : s.forks <+: s'.forks) :
    s'.read handle = s.read handle := by
  refine read_congr fun address haddress => ?_
  rw [List.prefix_iff_getElem?.mp hextends address (h.lt address haddress),
    List.getElem?_eq_getElem (h.lt address haddress)]

theorem Valid.of_prefix (h : s.Valid handle) (hextends : s.forks <+: s'.forks) : s'.Valid handle :=
  ⟨fun address haddress => (h.lt address haddress).trans_le hextends.length_le, h.nodup⟩

/-- **The forks of a schedule** are made behind all others, which stay as they are: the buckets are
given out to them without a refusal, and once they are frozen they are those of the schedule. -/
theorem scheduled_spec (s : Store) {count : ℕ} (h : 0 < count) (groups : List Group)
    (records : List TimingRecord) {filled : Store} {ended : Option AllocationError}
    (hfilled : (s.append (Fork.fresh count)).giveOut (s.reserve count)
      (Bucket.build groups records).1 = (filled, ended)) :
    ended = none ∧
      (filled.freezeAll (s.reserve count)).read (s.reserve count) =
        (Plan.schedule count groups records).1.forks ∧
      (filled.freezeAll (s.reserve count)).Valid (s.reserve count) ∧
      s.forks <+: (filled.freezeAll (s.reserve count)).forks := by
  have hnew := s.append_spec (Fork.fresh count)
  rw [Fork.length_fresh] at hnew
  obtain ⟨hvalid, hread⟩ := hnew
  obtain ⟨hgiven, hended, honly⟩ := giveOut_spec hvalid (Bucket.build groups records).1
  rw [hfilled] at hgiven hended honly
  rw [hread] at hgiven hended
  obtain ⟨hfrozen, hlater⟩ := freezeAll_spec (hvalid.of_only honly)
  refine ⟨?_, ?_, ((hvalid.of_only honly).of_only hlater), ?_⟩
  · have hne : (Fork.fresh count).isEmpty = false := by
      simpa [List.isEmpty_eq_false_iff] using Fork.fresh_ne_nil h
    refine hended.trans ?_
    rw [allocate, hne]
    exact (Allocation.given_run (Fork.fresh_ne_nil h) (fun _ => Fork.phase_of_mem_fresh) _).1
  · rw [hfrozen, hgiven]
    rfl
  · have hall : Only (s.reserve (Fork.fresh count).length) (s.append (Fork.fresh count))
        (filled.freezeAll (s.reserve count)) := by
      rw [Fork.length_fresh]
      exact honly.trans hlater
    exact prefix_of_only hall

end Store

end SuiteBalance
