import Mathlib
import SuiteBalance.Platform.Usual
import SuiteBalance.Proofs.Terminal.Bar

/-!
# Proofs — Terminal — bars side by side

The table of forks has a row for each fork, in their order, with a bar of thirty cells.  Bars can be
compared: a greater load has no fewer cells filled and no worse a colour.  The greatest load has a
full bar in the best colour, unless there is no load at all, when all bars are empty.

* `Bar.count_text`: the cells of a bar as they are printed.
* `exists_bars`: each finite load has a bar.
* **`LoadBars`**: what the bars of some forks show.
* **`loadBars_summary`**: the bars of the table.
-/

namespace SuiteBalance.Terminal

open Number

/-! ### A bar -/

/-- How uneven a colour says that a load is. -/
def Colour.rank : Colour → ℕ
  | .green => 0
  | .yellow => 1
  | .red => 2

/-- The cells of a bar that are printed filled, and those that are printed empty. -/
theorem Bar.count_text (b : Bar) :
    b.text.toList.count '█' = b.filled ∧ b.text.toList.count '░' = b.empty := by
  have htext : b.text.toList = ['['] ++ b.colour.name.toList ++ [']'] ++
      List.replicate b.filled '█' ++ ['[', '/'] ++ b.colour.name.toList ++
      [']', '[', 'd', 'i', 'm', ']'] ++ List.replicate b.empty '░' ++
      ['[', '/', 'd', 'i', 'm', ']'] := by
    simp [Bar.text, toString]
  have hname : b.colour.name.toList.count '█' = 0 ∧ b.colour.name.toList.count '░' = 0 := by
    cases b.colour <;> decide
  rw [htext]
  simp [List.count_append, List.count_replicate, hname.1, hname.2]

/-- A greater share has no worse a colour. -/
theorem rank_loadColour_anti {share share' : Float} (hshare : 0.0 ≤ share) (hshare' : 0.0 ≤ share')
    (h : exact share ≤ exact share') :
    (loadColour share').rank ≤ (loadColour share).rank := by
  have hreaches (bound : Float) (hbound : 0.0 ≤ bound) (hle : bound ≤ share) : bound ≤ share' :=
    (le_iff_exact_le hbound hshare').mpr (((le_iff_exact_le hbound hshare).mp hle).trans h)
  have hgreen := hreaches 0.9 (by decide +kernel)
  have hyellow := hreaches 0.6 (by decide +kernel)
  unfold loadColour
  split_ifs <;> simp_all [Colour.rank]

variable {share share' : Float} {r r' : ℚ} {b b' : Bar}

/-- The bar of a share has thirty cells in all. -/
theorem filled_add_empty (hshare : 0.0 ≤ share) (hr : exact share = r) (hle : r ≤ 1)
    (hbar : Bar.ofShare share barWidth = .ok b) : b.filled + b.empty = 30 := by
  obtain ⟨filled, hfilled, -, hof⟩ := Bar.ofShare_eq hshare hr hle
  obtain rfl := Except.ok.inj (hof.symm.trans hbar)
  exact Nat.add_sub_of_le hfilled

/-- **A greater share has no fewer cells filled and no worse a colour.** -/
theorem ofShare_mono (hshare : 0.0 ≤ share) (hshare' : 0.0 ≤ share') (hr : exact share = r)
    (hr' : exact share' = r') (hle : r ≤ r') (hone : r' ≤ 1)
    (hbar : Bar.ofShare share barWidth = .ok b) (hbar' : Bar.ofShare share' barWidth = .ok b') :
    b.filled ≤ b'.filled ∧ b'.colour.rank ≤ b.colour.rank := by
  obtain ⟨filled, -, hfilled, hof⟩ := Bar.ofShare_eq hshare hr (hle.trans hone)
  obtain ⟨filled', -, hfilled', hof'⟩ := Bar.ofShare_eq hshare' hr' hone
  obtain rfl := Except.ok.inj (hof.symm.trans hbar)
  obtain rfl := Except.ok.inj (hof'.symm.trans hbar')
  have hnonneg := exact_nonneg hshare
  rw [hr] at hnonneg
  have hcells : rounded (r * 30) ≤ rounded (r' * 30) :=
    rounded_mono (mul_nonneg (WithTop.coe_nonneg.mp hnonneg) (by norm_num))
      (mul_le_mul_of_nonneg_right hle (by norm_num))
  refine ⟨?_, rank_loadColour_anti hshare hshare' ?_⟩
  · exact_mod_cast (hfilled.trans_le (nearestEven_mono hcells)).trans_eq hfilled'.symm
  · rw [hr, hr']
    exact WithTop.coe_le_coe.mpr hle

/-- A full share has a full bar of the best colour. -/
theorem ofShare_of_full (hshare : 0.0 ≤ share) (hone : exact share = (1 : ℚ)) :
    Bar.ofShare share barWidth = .ok ⟨.green, 30, 0⟩ := by
  obtain ⟨filled, -, hfilled, hbar⟩ := Bar.ofShare_eq hshare hone le_rfl
  have hthirty : rounded (1 * 30) = (30 : ℤ) := by
    rw [one_mul]
    exact_mod_cast rounded_natCast (n := 30) (by norm_num)
  rw [hthirty, nearestEven_intCast] at hfilled
  obtain rfl : filled = 30 := by exact_mod_cast hfilled
  have hgreen : (0.9 : Float) ≤ share := by
    have hdouble : Double.ofFloat 1.0 = .finite false (2 ^ 52) (-52) := by decide +kernel
    have hexact : exact 1.0 = (1 : ℚ) := by norm_num [exact, hdouble, Double.magnitude]
    rw [le_iff_exact_le (by decide +kernel) hshare, hone, ← hexact,
      ← le_iff_exact_le (by decide +kernel) (by decide +kernel)]
    decide +kernel
  rw [hbar, loadColour, if_pos hgreen]

/-- No share has an empty bar. -/
theorem ofShare_zero : Bar.ofShare 0.0 barWidth = .ok ⟨.red, 0, 30⟩ := by
  decide +kernel

/-! ### The share of a load -/

variable {load load' makespan : Float}

/-- A greater load has a greater share of the same makespan, if that is finite. -/
theorem exact_shareOf_mono (hload : 0.0 ≤ load) (hload' : 0.0 ≤ load') (hmakespan : 0.0 ≤ makespan)
    (finite : exact makespan ≠ ⊤) (hle : exact load ≤ exact load')
    (hle' : exact load' ≤ exact makespan) :
    exact (shareOf load makespan) ≤ exact (shareOf load' makespan) := by
  obtain ⟨c, hc⟩ := WithTop.ne_top_iff_exists.mp finite
  obtain ⟨b, hb⟩ := WithTop.ne_top_iff_exists.mp (ne_top_of_le_ne_top finite hle')
  obtain ⟨a, ha⟩ := WithTop.ne_top_iff_exists.mp (ne_top_of_le_ne_top finite (hle.trans hle'))
  have hnonneg := exact_nonneg hload
  rw [← ha] at hnonneg hle
  rw [← hb] at hle hle'
  rw [← hc] at hle'
  have hnonneg := WithTop.coe_nonneg.mp hnonneg
  have hab := WithTop.coe_le_coe.mp hle
  have hbc := WithTop.coe_le_coe.mp hle'
  rw [(exact_shareOf hload hmakespan ha.symm hc.symm (hab.trans hbc)).2,
    (exact_shareOf hload' hmakespan hb.symm hc.symm hbc).2, WithTop.coe_le_coe]
  have hc' := hnonneg.trans (hab.trans hbc)
  exact rounded_mono (div_nonneg hnonneg hc') (div_le_div_of_nonneg_right hab hc')

/-- A load that equals the makespan is the whole of it. -/
theorem exact_shareOf_self (hload : 0.0 ≤ load) (hmakespan : 0.0 ≤ makespan)
    (hpos : exact makespan ≠ 0) (finite : exact makespan ≠ ⊤)
    (heq : exact load = exact makespan) : exact (shareOf load makespan) = (1 : ℚ) := by
  obtain ⟨c, hc⟩ := WithTop.ne_top_iff_exists.mp finite
  have hne : c ≠ 0 := fun h => hpos (by rw [← hc, h, WithTop.coe_zero])
  rw [(exact_shareOf hload hmakespan (heq.trans hc.symm) hc.symm le_rfl).2, div_self hne]
  exact_mod_cast congrArg WithTop.some (rounded_natCast (n := 1) (by norm_num))

/-! ### The bars of some forks -/

/-- What the bars of some forks show of their loads, the greatest of which is the makespan. -/
structure LoadBars (forks : List ForkSummary) (makespan : Float) (bar : ForkSummary → Bar) :
    Prop where
  greatest : ∀ s ∈ forks, s.load ≤ makespan
  reached : forks ≠ [] → ∃ s ∈ forks, s.load = makespan
  width : ∀ s ∈ forks, (bar s).filled + (bar s).empty = 30
  /-- A greater load has no fewer cells filled and no worse a colour. -/
  ordered : ∀ s ∈ forks, ∀ t ∈ forks, s.load ≤ t.load →
    (bar s).filled ≤ (bar t).filled ∧ (bar t).colour.rank ≤ (bar s).colour.rank
  /-- A load that equals the makespan has a full bar. -/
  full : 0.0 < makespan → ∀ s ∈ forks, makespan ≤ s.load → bar s = ⟨.green, 30, 0⟩
  /-- Where nothing takes time, all bars are empty. -/
  idle : (makespan == 0.0) = true → ∀ s ∈ forks, bar s = ⟨.red, 0, 30⟩

/-- The row of a fork with a bar. -/
def rowWith [Console] (s : ForkSummary) (bar : Bar) : List Text :=
  [toString s.index, bar.text, durationText s.load, toString s.testCount, groupsCell s]

theorem row_eq_map [Console] (makespan : Float) (s : ForkSummary) :
    row makespan s = (Bar.ofShare (shareOf s.load makespan) barWidth).map (rowWith s) := by
  unfold row
  cases Bar.ofShare (shareOf s.load makespan) barWidth <;> rfl

variable {forks : List ForkSummary} {bar : ForkSummary → Bar}

/-- The greatest of some loads is one of them. -/
theorem slowest_mem (hne : forks ≠ []) : ∃ s ∈ forks, s.load = slowest forks := by
  unfold slowest
  cases hgreatest : greatest? (forks.map ForkSummary.load) with
  | none =>
      obtain ⟨first, rest, rfl⟩ := List.exists_cons_of_ne_nil hne
      cases hgreatest
  | some best => exact List.mem_map.mp (greatest?_mem hgreatest)

/-- The greatest of finite loads is finite. -/
theorem slowest_ne_top (hloads : ∀ s ∈ forks, 0.0 ≤ s.load ∧ s.load.isFinite = true)
    (hne : forks ≠ []) : exact (slowest forks) ≠ ⊤ := by
  obtain ⟨s, hs, hload⟩ := slowest_mem hne
  rw [← hload]
  exact (isFinite_iff_exact (hloads s hs).1).mp (hloads s hs).2

/-- Bars that are made of the shares of the loads show what they should. -/
theorem loadBars_of_shares (hloads : ∀ s ∈ forks, 0.0 ≤ s.load ∧ s.load.isFinite = true)
    (hbar : ∀ s ∈ forks, Bar.ofShare (shareOf s.load (slowest forks)) barWidth = .ok (bar s)) :
    LoadBars forks (slowest forks) bar := by
  have hle := fun s (hs : s ∈ forks) => le_slowest (fun s hs => (hloads s hs).1) hs
  have hfinite := fun s (hs : s ∈ forks) =>
    slowest_ne_top hloads (List.ne_nil_of_mem hs)
  have hshare := fun s (hs : s ∈ forks) => exists_share (hloads s hs).1 (hle s hs).1
    ((isFinite_iff_exact (hloads s hs).1).mp (hloads s hs).2) (hle s hs).2
  refine ⟨fun s hs => ?_, slowest_mem, fun s hs => ?_, fun s hs t ht hst => ?_,
    fun hpos s hs hfull => ?_, fun hzero s hs => ?_⟩
  · exact (le_iff_exact_le (hloads s hs).1 (hle s hs).1).mpr (hle s hs).2
  · obtain ⟨hnonneg, r, hr, hone⟩ := hshare s hs
    exact filled_add_empty hnonneg hr hone (hbar s hs)
  · obtain ⟨hnonneg, r, hr, -⟩ := hshare s hs
    obtain ⟨hnonneg', r', hr', hone⟩ := hshare t ht
    have hmono := exact_shareOf_mono (hloads s hs).1 (hloads t ht).1 (hle s hs).1 (hfinite s hs)
      ((le_iff_exact_le (hloads s hs).1 (hloads t ht).1).mp hst) (hle t ht).2
    rw [hr, hr'] at hmono
    exact ofShare_mono hnonneg hnonneg' hr hr' (WithTop.coe_le_coe.mp hmono) hone (hbar s hs)
      (hbar t ht)
  · have heq := le_antisymm (hle s hs).2
      ((le_iff_exact_le (hle s hs).1 (hloads s hs).1).mp hfull)
    have hne : exact (slowest forks) ≠ 0 := by
      rw [← exact_zero]
      exact ((lt_iff_exact_lt Timing.nonneg_zero (hle s hs).1).mp hpos).ne'
    have hself := exact_shareOf_self (hloads s hs).1 (hle s hs).1 hne (hfinite s hs) heq
    exact Except.ok.inj ((hbar s hs).symm.trans (ofShare_of_full (hshare s hs).1 hself))
  · have hbar := hbar s hs
    rw [shareOf, if_pos hzero, ofShare_zero] at hbar
    exact (Except.ok.inj hbar).symm

/-- Each finite load has a bar. -/
theorem exists_bars (hloads : ∀ s ∈ forks, 0.0 ≤ s.load ∧ s.load.isFinite = true) :
    ∃ bar : ForkSummary → Bar,
      ∀ s ∈ forks, Bar.ofShare (shareOf s.load (slowest forks)) barWidth = .ok (bar s) := by
  have hbar : ∀ s, ∃ b, s ∈ forks →
      Bar.ofShare (shareOf s.load (slowest forks)) barWidth = .ok b := by
    intro s
    by_cases hs : s ∈ forks
    · obtain ⟨hslowest, hle⟩ := le_slowest (fun s hs => (hloads s hs).1) hs
      obtain ⟨hnonneg, r, hr, hone⟩ := exists_share (hloads s hs).1 hslowest
        ((isFinite_iff_exact (hloads s hs).1).mp (hloads s hs).2) hle
      obtain ⟨filled, -, -, hof⟩ := Bar.ofShare_eq hnonneg hr hone
      exact ⟨_, fun _ => hof⟩
    · exact ⟨⟨.red, 0, 30⟩, fun h => absurd h hs⟩
  choose bar hbar using hbar
  exact ⟨bar, hbar⟩

/-- A table of forks is made of their rows, and a line of totals follows. -/
theorem exists_totals [Console] {rows : List (List Text)}
    (hrows : forks.mapM (row (slowest forks)) = .ok rows) : ∃ totals,
      summary forks = .ok [.table ⟨"Test Plan", columns, rows⟩, .line totals] := by
  unfold summary
  dsimp only
  rw [← slowest, hrows]
  exact ⟨_, rfl⟩

/-- **The bars of the table of forks.**  Where all loads are finite, the table has a row for each
fork, in their order, with bars that show the loads side by side, and the cells of a bar are printed
in its row. -/
theorem loadBars_summary [Console]
    (hloads : ∀ s ∈ forks, 0.0 ≤ s.load ∧ s.load.isFinite = true) :
    ∃ (bar : ForkSummary → Bar) (totals : Text),
      summary forks = .ok [
        .table ⟨"Test Plan", columns, forks.map fun s => rowWith s (bar s)⟩, .line totals] ∧
      LoadBars forks (slowest forks) bar ∧
      ∀ s, (bar s).text.toList.count '█' = (bar s).filled ∧
        (bar s).text.toList.count '░' = (bar s).empty := by
  obtain ⟨bar, hbar⟩ := exists_bars hloads
  have hrows : forks.mapM (row (slowest forks)) = .ok (forks.map fun s => rowWith s (bar s)) := by
    refine mapM_ok fun s hs => ?_
    rw [row_eq_map, hbar s hs]
    rfl
  obtain ⟨totals, htable⟩ := exists_totals hrows
  exact ⟨bar, totals, htable, loadBars_of_shares hloads hbar, fun s => (bar s).count_text⟩

/-- A fork with half of the load of another, and one with none. -/
def unevenForks : List ForkSummary :=
  [⟨0, 12.5, 1, [{ name := "half*" }]⟩, ⟨1, 25.0, 2, [{ name := "slow*" }]⟩, ⟨2, -0.0, 0, []⟩]

/-- The bars of these forks. -/
theorem loadBars_summary_uneven :
    (∀ s ∈ unevenForks, 0.0 ≤ s.load ∧ s.load.isFinite = true) ∧
      ∃ (bar : ForkSummary → Bar) (totals : Text),
        summary unevenForks = .ok [
          .table ⟨"Test Plan", columns, unevenForks.map fun s => rowWith s (bar s)⟩,
          .line totals] ∧
        LoadBars unevenForks 25.0 bar ∧
        ∀ s, (bar s).text.toList.count '█' = (bar s).filled ∧
          (bar s).text.toList.count '░' = (bar s).empty := by
  have hloads : ∀ s ∈ unevenForks, 0.0 ≤ s.load ∧ s.load.isFinite = true := by decide +kernel
  have hslowest : slowest unevenForks = 25.0 := by decide +kernel
  exact ⟨hloads, hslowest ▸ loadBars_summary hloads⟩

end SuiteBalance.Terminal
