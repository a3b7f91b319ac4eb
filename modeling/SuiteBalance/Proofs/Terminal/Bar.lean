import Mathlib
import SuiteBalance.Proofs.Number.Quotient
import SuiteBalance.Proofs.Schedule.Comparison
import SuiteBalance.Proofs.Traversal
import SuiteBalance.Terminal.Table

/-!
# Proofs — Terminal — bars

The bar of a fork shows which share its load is of the greatest load.  A finite load has a share, at
most one, and a bar of as many cells as there are; an infinite load is no share of the greatest,
which is infinite too, and then there is no table.

* `exact_shareOf`, `exists_share`: the share of a finite load.
* **`Bar.ofShare_eq`**: the bar of a share.
* **`summary_spec`**: when there is a table of forks.
-/

namespace SuiteBalance.Terminal

open Number

/-! ### Shares -/

variable {load makespan : Float}

theorem beq_zero_iff (hmakespan : 0.0 ≤ makespan) :
    (makespan == 0.0) = true ↔ exact makespan = 0 := by
  rw [beq_iff_exact_eq hmakespan Timing.nonneg_zero, exact_zero]

/-- The share of a load in an infinite one is the quotient. -/
theorem shareOf_of_top (hmakespan : 0.0 ≤ makespan) (htop : exact makespan = ⊤) :
    shareOf load makespan = load / makespan := by
  have hzero : ¬ (makespan == 0.0) = true := by
    rw [beq_zero_iff hmakespan, htop]
    exact WithTop.top_ne_zero
  rw [shareOf, if_neg hzero]

/-- **The share of a finite load is the exact one, rounded.** -/
theorem exact_shareOf {a b : ℚ} (hload : 0.0 ≤ load) (hmakespan : 0.0 ≤ makespan)
    (ha : exact load = a) (hb : exact makespan = b) (hle : a ≤ b) :
    0.0 ≤ shareOf load makespan ∧ exact (shareOf load makespan) = (rounded (a / b) : ℚ) := by
  have hnonneg : 0 ≤ a := by
    have h := exact_nonneg hload
    rw [ha] at h
    exact WithTop.coe_nonneg.mp h
  have hbeq := beq_zero_iff hmakespan
  rw [hb, WithTop.coe_eq_zero] at hbeq
  unfold shareOf
  split_ifs with hzero
  · rw [hbeq.mp hzero, div_zero, rounded_zero]
    exact ⟨Timing.nonneg_zero, exact_zero⟩
  · have hne : b ≠ 0 := fun h => hzero (hbeq.mpr h)
    have hshare : a / b ≤ 1 := div_le_one_of_le₀ hle (hnonneg.trans hle)
    rw [← fitted_of_lt (div_nonneg hnonneg (hnonneg.trans hle))
      (lt_overflowThreshold (hshare.trans (by norm_num)))]
    exact exact_div hload hmakespan ha hb hne

/-- A finite load has a share, which is at most one. -/
theorem exists_share (hload : 0.0 ≤ load) (hmakespan : 0.0 ≤ makespan) (finite : exact load ≠ ⊤)
    (hle : exact load ≤ exact makespan) :
    0.0 ≤ shareOf load makespan ∧ ∃ r : ℚ, exact (shareOf load makespan) = r ∧ r ≤ 1 := by
  obtain ⟨a, ha⟩ := WithTop.ne_top_iff_exists.mp finite
  cases hb : exact makespan with
  | top =>
      obtain ⟨hshare, hexact⟩ := exact_div_of_top hload hmakespan finite hb
      rw [shareOf_of_top hmakespan hb]
      exact ⟨hshare, 0, hexact, zero_le_one⟩
  | coe b =>
      have hnonneg := exact_nonneg hload
      rw [← ha] at hle hnonneg
      rw [hb] at hle
      have hab := WithTop.coe_le_coe.mp hle
      have ha' := WithTop.coe_nonneg.mp hnonneg
      obtain ⟨hshare, hexact⟩ := exact_shareOf hload hmakespan ha.symm hb hab
      refine ⟨hshare, _, hexact, ?_⟩
      exact_mod_cast rounded_le_natCast (n := 1) (by norm_num) (div_nonneg ha' (ha'.trans hab))
        (by exact_mod_cast div_le_one_of_le₀ hab (ha'.trans hab))

/-! ### Bars -/

theorem cellCount_eq {n : ℕ} (h : n ≤ 30) : cellCount n = .ok n := by
  rw [cellCount, if_neg (by omega), if_neg (by unfold cellLimit; omega), Int.toNat_natCast]

/-- **The bar of a share** has as many cells as there are, of which the share is filled. -/
theorem Bar.ofShare_eq {share : Float} {r : ℚ} (hshare : 0.0 ≤ share) (hr : exact share = r)
    (hle : r ≤ 1) : ∃ filled : ℕ, filled ≤ 30 ∧ (filled : ℤ) = nearestEven (rounded (r * 30)) ∧
      Bar.ofShare share barWidth = .ok ⟨loadColour share, filled, 30 - filled⟩ := by
  have hextent : IsNormal (Float.ofInt barWidth) 30 :=
    ⟨30 * 2 ^ 48, -48, by decide +kernel, by norm_num, by norm_num⟩
  have hnonneg : 0 ≤ r * 30 := by
    have h := exact_nonneg hshare
    rw [hr] at h
    linarith [WithTop.coe_nonneg.mp h]
  have hcells : r * 30 ≤ 30 := by linarith
  obtain ⟨hproduct, hexact⟩ := exact_mul hshare hr hextent
  rw [fitted_of_lt hnonneg (lt_overflowThreshold (hcells.trans (by norm_num)))] at hexact
  have hlow : 0 ≤ nearestEven (rounded (r * 30)) :=
    le_nearestEven (by exact_mod_cast rounded_nonneg hnonneg)
  have hhigh : nearestEven (rounded (r * 30)) ≤ 30 :=
    nearestEven_le (by exact_mod_cast rounded_le_natCast (n := 30) (by norm_num) hnonneg hcells)
  obtain ⟨filled, hfilled⟩ := Int.eq_ofNat_of_zero_le hlow
  have hfilled_le : filled ≤ 30 := by omega
  have hinf : (Float.ofInt barWidth).isInf = false := by decide +kernel
  have hempty : barWidth - (filled : ℤ) = (30 - filled : ℕ) := by
    unfold barWidth
    omega
  refine ⟨filled, hfilled_le, hfilled.symm, ?_⟩
  have hmin : min barWidth (filled : ℤ) = filled := min_eq_right (by unfold barWidth; omega)
  have hnearest := nearest_eq hproduct hexact
  rw [hfilled] at hnearest
  unfold ofShare
  simp only [hinf, hnearest, Except.mapError, bind, Except.bind, hmin, hempty,
    cellCount_eq hfilled_le, cellCount_eq (Nat.sub_le 30 filled), Bool.false_eq_true, if_false]
  rfl

/-! ### The table of forks -/

variable {s : ForkSummary} {forks : List ForkSummary}

/-- The load of which the bars show shares. -/
def slowest (forks : List ForkSummary) : Float := (greatest? (forks.map ForkSummary.load)).getD 0.0

/-- No load is greater. -/
theorem le_slowest (hloads : ∀ s ∈ forks, 0.0 ≤ s.load) (hs : s ∈ forks) :
    0.0 ≤ slowest forks ∧ exact s.load ≤ exact (slowest forks) := by
  have hnonneg : ∀ y ∈ forks.map ForkSummary.load, 0.0 ≤ y := List.forall_mem_map.mpr hloads
  have hload := List.mem_map_of_mem (f := ForkSummary.load) hs
  unfold slowest
  cases hgreatest : greatest? (forks.map ForkSummary.load) with
  | none =>
      cases hforks : forks.map ForkSummary.load with
      | nil => simp [hforks] at hload
      | cons first rest => simp [hforks, greatest?] at hgreatest
  | some best =>
      exact ⟨hnonneg best (greatest?_mem hgreatest), exact_le_greatest? hnonneg hgreatest _ hload⟩

variable [Console]

/-- A fork of a finite load has a row. -/
theorem exists_row (hload : 0.0 ≤ s.load) (hmakespan : 0.0 ≤ makespan) (finite : exact s.load ≠ ⊤)
    (hle : exact s.load ≤ exact makespan) : ∃ cells, row makespan s = .ok cells := by
  obtain ⟨hshare, r, hr, hone⟩ := exists_share hload hmakespan finite hle
  obtain ⟨filled, -, -, hbar⟩ := Bar.ofShare_eq hshare hr hone
  exact ⟨_, by rw [row, hbar]; rfl⟩

/-- A fork of an infinite load has no row, as its share of the greatest load is no number. -/
theorem row_eq_error (hload : 0.0 ≤ s.load) (hmakespan : 0.0 ≤ makespan) (htop : exact s.load = ⊤)
    (hle : exact s.load ≤ exact makespan) :
    row makespan s = .error (.unbounded .notANumber) := by
  have htop' : exact makespan = ⊤ := top_le_iff.mp (htop ▸ hle)
  have hinf : (Float.ofInt barWidth).isInf = false := by decide +kernel
  rw [row, shareOf_of_top hmakespan htop', Bar.ofShare]
  simp only [hinf, nearest_infinities hload hmakespan htop htop', Bool.false_eq_true, if_false]
  rfl

/-- A fork has a row if its load is finite; else its share of the greatest load is no number. -/
theorem row_slowest (hloads : ∀ s ∈ forks, 0.0 ≤ s.load) (hs : s ∈ forks) :
    ((∃ cells, row (slowest forks) s = .ok cells) ↔ s.load.isFinite = true) ∧
      ∀ e, row (slowest forks) s = .error e → e = .unbounded .notANumber := by
  obtain ⟨hslowest, hle⟩ := le_slowest hloads hs
  rw [isFinite_iff_exact (hloads s hs)]
  by_cases htop : exact s.load = ⊤
  · rw [row_eq_error (hloads s hs) hslowest htop hle]
    exact ⟨iff_of_false (fun ⟨_, h⟩ => by cases h) (not_not_intro htop),
      fun _ h => (Except.error.inj h).symm⟩
  · obtain ⟨cells, hcells⟩ := exists_row (hloads s hs) hslowest htop hle
    rw [hcells]
    exact ⟨iff_of_true ⟨cells, rfl⟩ htop, fun _ h => by cases h⟩

/-- A table of forks is made of their rows. -/
theorem exists_summary_eq (forks : List ForkSummary) : ∃ printed : List (List Text) → List Printed,
    summary forks = (forks.mapM (row (slowest forks))).map printed := ⟨_, bind_pure_comp _ _⟩

/-- **There is a table of forks if and only if all loads are finite**; else the share of a load in
the greatest is no number. -/
theorem summary_spec (hloads : ∀ s ∈ forks, 0.0 ≤ s.load) :
    ((∃ printed, summary forks = .ok printed) ↔ ∀ s ∈ forks, s.load.isFinite = true) ∧
      ∀ e, summary forks = .error e → e = .unbounded .notANumber := by
  obtain ⟨printed, hsummary⟩ := exists_summary_eq forks
  have hrows : (∃ rows, forks.mapM (row (slowest forks)) = .ok rows) ↔
      ∀ s ∈ forks, s.load.isFinite = true :=
    exists_mapM_eq_ok_iff.trans (forall₂_congr fun _ hs => (row_slowest hloads hs).1)
  rw [hsummary, ← hrows]
  cases hmap : forks.mapM (row (slowest forks)) with
  | ok rows => exact ⟨iff_of_true ⟨_, rfl⟩ ⟨_, rfl⟩, fun _ h => by cases h⟩
  | error e =>
      refine ⟨iff_of_false (fun ⟨_, h⟩ => by cases h) (fun ⟨_, h⟩ => by cases h), fun e' h => ?_⟩
      obtain rfl := Except.error.inj h
      obtain ⟨before, s, behind, hforks, -, hrow⟩ := mapM_eq_error_iff.mp hmap
      exact (row_slowest hloads (by rw [hforks]; simp)).2 _ hrow

end SuiteBalance.Terminal
