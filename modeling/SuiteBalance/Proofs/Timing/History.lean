import Mathlib
import SuiteBalance.Proofs.Sorting
import SuiteBalance.Timing.History

/-!
# Proofs — Timing — looking up a history

Names that start with a stem stand together in a history, from the place on that the stem itself
would have.  So bisection and a scan find all of them, and what is found does not depend on the
order in which the records came.

* `startsWith_of_between`: what stands between a stem and a name that starts with it.
* `History.PartedAt.bisect`: where bisection ends.
* **`History.startingWith_eq_filter`**: a look-up finds the records whose names start with the stem.
* **`History.startingWith_ofList`**: it finds what a scan of the records finds for a group, sorted by
  name.
* **`History.forall₂_ofList`**: the same records in another order make a history with the same names,
  place by place.
-/

namespace SuiteBalance

/-! ### Names and stems -/

theorem startsWith_iff {name stem : String} : startsWith name stem ↔ stem.toList <+: name.toList :=
  List.isPrefixOf_iff_prefix

theorem prefix_of_between {stem l m : List Char} (hl : ¬ l < stem) (hm : ¬ m < l)
    (h : stem <+: m) : stem <+: l := by
  induction stem generalizing l m with
  | nil => exact List.nil_prefix
  | cons c stem ih =>
      obtain ⟨rest, rfl⟩ := h
      cases l with
      | nil => exact absurd (List.nil_lt_cons c stem) hl
      | cons d l =>
          rw [List.cons_append, List.cons_lt_cons_iff] at hm
          rw [List.cons_lt_cons_iff] at hl
          obtain rfl : c = d := le_antisymm (not_lt.mp fun hlt => hl (.inl hlt))
            (not_lt.mp fun hlt => hm (.inl hlt))
          exact List.cons_prefix_cons.mpr ⟨rfl, ih (fun hlt => hl (.inr ⟨rfl, hlt⟩))
            (fun hlt => hm (.inr ⟨rfl, hlt⟩)) (List.prefix_append _ _)⟩

/-- What stands between a stem and a name that starts with it starts with it too. -/
theorem startsWith_of_between {stem first second : String} (hfirst : stem ≤ first)
    (hsecond : first ≤ second) (h : startsWith second stem) : startsWith first stem := by
  rw [startsWith_iff] at h ⊢
  rw [← String.not_lt, String.lt_iff_toList_lt] at hfirst hsecond
  exact prefix_of_between hfirst hsecond h

theorem le_of_startsWith {name stem : String} (h : startsWith name stem) : stem ≤ name := by
  rw [← String.not_lt, String.lt_iff_toList_lt]
  exact (startsWith_iff.mp h).le

/-! ### Lists -/

theorem forall₂_map_eq_iff {α β γ : Type} {f : α → γ} {g : β → γ} {l : List α} {m : List β} :
    List.Forall₂ (fun a b => f a = g b) l m ↔ l.map f = m.map g := by
  rw [← List.forall₂_eq_eq_eq, List.forall₂_map_left_iff, List.forall₂_map_right_iff]

/-- A scan that stops at the first miss finds everything if nothing follows a miss. -/
theorem takeWhile_eq_filter {α : Type} {q : α → Bool} {l : List α}
    (h : l.Pairwise fun a b => q b = true → q a = true) : l.takeWhile q = l.filter q := by
  induction l with
  | nil => rfl
  | cons a l ih =>
      obtain ⟨ha, hl⟩ := List.pairwise_cons.mp h
      cases hq : q a with
      | true => rw [List.takeWhile_cons_of_pos hq, List.filter_cons_of_pos hq, ih hl]
      | false =>
          have hnone : ∀ b ∈ a :: l, ¬ q b = true := by
            intro b hb hqb
            rcases List.mem_cons.mp hb with rfl | hb
            · exact absurd hqb (by rw [hq]; exact Bool.false_ne_true)
            · exact absurd (ha b hb hqb) (by rw [hq]; exact Bool.false_ne_true)
          rw [List.takeWhile_cons_of_neg (by simp [hq]), List.filter_eq_nil_iff.mpr hnone]

namespace History

/-! ### Bisection -/

variable {h : History} {stem : String} {low high : ℕ}

/-- Names do not sink from one position to a later one. -/
theorem name_le_name {i j : ℕ} {r s : TimingRecord} (hij : i ≤ j) (hr : h.records[i]? = some r)
    (hs : h.records[j]? = some s) : r.name ≤ s.name := by
  rw [← Array.getElem?_toList, List.getElem?_eq_some_iff] at hr hs
  obtain ⟨hi, rfl⟩ := hr
  obtain ⟨hj, rfl⟩ := hs
  rcases hij.eq_or_lt with rfl | hlt
  · exact le_rfl
  · exact of_decide_eq_true (List.pairwise_iff_getElem.mp h.sorted i j hi hj hlt)

/-- The names before one position are before a stem, and those from another position on are not. -/
structure PartedAt (h : History) (stem : String) (low high : ℕ) : Prop where
  before : ∀ i r, i < low → h.records[i]? = some r → r.name < stem
  behind : ∀ i r, high ≤ i → h.records[i]? = some r → stem ≤ r.name

theorem partedAt_size (h : History) (stem : String) : h.PartedAt stem 0 h.size where
  before i r hi _ := absurd hi i.not_lt_zero
  behind i r hi hr := by
    obtain ⟨hlt, -⟩ := Array.getElem?_eq_some_iff.mp hr
    exact absurd hlt (not_lt.mpr hi)

/-- **Bisection ends where the names cease to be before the stem.** -/
theorem PartedAt.bisect (parted : h.PartedAt stem low high) (hle : low ≤ high)
    (hsize : high ≤ h.size) :
    h.PartedAt stem (h.bisect stem low high) (h.bisect stem low high) := by
  fun_induction History.bisect h stem low high with
  | case1 low high hlt middle hbefore ih =>
      obtain ⟨r, hr, hname⟩ := (Option.any_eq_true _ _).mp hbefore
      refine ih ⟨fun i s hi hs => ?_, parted.behind⟩ (by omega) hsize
      exact (name_le_name (by omega) hs hr).trans_lt (of_decide_eq_true hname)
  | case2 low high hlt middle hbehind ih =>
      have hmiddle : middle < h.records.size := by unfold size at hsize; omega
      have hr := Array.getElem?_eq_getElem hmiddle
      rw [hr, Option.any_some, decide_eq_true_eq, String.not_lt] at hbehind
      refine ih ⟨parted.before, fun i s hi hs => ?_⟩ (by omega) (by omega)
      exact hbehind.trans (name_le_name hi hr hs)
  | case3 low high hlt =>
      obtain rfl : low = high := by omega
      exact parted

/-! ### What a look-up finds -/

theorem PartedAt.lt_of_mem_take (parted : h.PartedAt stem low high) {r : TimingRecord}
    (hr : r ∈ h.records.toList.take low) : r.name < stem := by
  obtain ⟨i, hi, hget⟩ := List.mem_take_iff_getElem.mp hr
  refine parted.before i r (hi.trans_le (min_le_left _ _)) ?_
  rw [← Array.getElem?_toList]
  exact List.getElem?_eq_some_iff.mpr ⟨hi.trans_le (min_le_right _ _), hget⟩

theorem PartedAt.le_of_mem_drop (parted : h.PartedAt stem low high) {r : TimingRecord}
    (hr : r ∈ h.records.toList.drop high) : stem ≤ r.name := by
  obtain ⟨i, hi, hget⟩ := List.mem_drop_iff_getElem.mp hr
  refine parted.behind (high + i) r (Nat.le_add_right _ _) ?_
  rw [← Array.getElem?_toList]
  exact List.getElem?_eq_some_iff.mpr ⟨by omega, hget⟩

/-- **A look-up finds the records whose names start with the stem**, in the order of the history. -/
theorem startingWith_eq_filter (h : History) (stem : String) :
    h.startingWith stem = h.records.toList.filter fun r => startsWith r.name stem := by
  have parted := (h.partedAt_size stem).bisect (Nat.zero_le _) le_rfl
  have hnone : (h.records.toList.take (h.bisect stem 0 h.size)).filter
      (fun r => startsWith r.name stem) = [] := by
    rw [List.filter_eq_nil_iff]
    exact fun r hr hstart => (parted.lt_of_mem_take hr).not_ge (le_of_startsWith hstart)
  -- behind the first candidate each name lies between the stem and the names that follow
  have hscan : (h.records.toList.drop (h.bisect stem 0 h.size)).Pairwise fun r s =>
      startsWith s.name stem = true → startsWith r.name stem = true :=
    h.sorted.drop.imp_of_mem fun hr _ hrs =>
      startsWith_of_between (parted.le_of_mem_drop hr) (of_decide_eq_true hrs)
  rw [startingWith, takeWhile_eq_filter hscan]
  conv_rhs => rw [← List.take_append_drop (h.bisect stem 0 h.size) h.records.toList,
    List.filter_append, hnone, List.nil_append]

/-- A look-up finds what a group covers. -/
theorem perm_startingWith (records : List TimingRecord) (stem : String) :
    ((ofList records).startingWith stem).Perm (records.filter fun r => startsWith r.name stem) := by
  rw [startingWith_eq_filter]
  exact (perm_ofList records).filter _

/-! ### A scan of the records -/

/-- A stem is that of one group of each task. -/
theorem exists_group_of_stem (stem : String) (t : Task) :
    ∃ g, Group.ofPattern (stem.push wildcard) t = .ok g ∧ g.stem = stem := by
  have hpattern : (stem.push wildcard).toList.getLast? = some wildcard := by simp
  refine ⟨⟨stem.push wildcard, t, hpattern⟩, dif_pos hpattern, ?_⟩
  simp [Group.stem]

/-- Records sorted by name, among those of one name, stand as they came. -/
theorem filter_name_mergeSort (records : List TimingRecord) (name : String) :
    (records.mergeSort TimingRecord.precedes).filter (·.name = name) =
      records.filter (·.name = name) := by
  refine filter_mergeSort TimingRecord.precedes_trans TimingRecord.precedes_total
    fun r _ s _ hr hs => ?_
  rw [TimingRecord.precedes, of_decide_eq_true hr, of_decide_eq_true hs]
  exact decide_eq_true le_rfl

/-- **A look-up finds what a scan of the records finds for the group of the stem, sorted by name**:
the same records as often, in the order of their names, and those of one name as they came. -/
theorem startingWith_ofList (records : List TimingRecord) (stem : String) (t : Task) :
    ∃ g, Group.ofPattern (stem.push wildcard) t = .ok g ∧
      (ofList records).startingWith stem = (g.covered records).mergeSort TimingRecord.precedes ∧
      ((ofList records).startingWith stem).Perm (g.covered records) ∧
      ((ofList records).startingWith stem).Pairwise (fun r s => r.name ≤ s.name) ∧
      ∀ name, ((ofList records).startingWith stem).filter (·.name = name) =
        (g.covered records).filter (·.name = name) := by
  obtain ⟨g, hg, hstem⟩ := exists_group_of_stem stem t
  have hsort : (ofList records).startingWith stem =
      (g.covered records).mergeSort TimingRecord.precedes := by
    rw [startingWith_eq_filter, Group.covered, hstem]
    exact (mergeSort_filter TimingRecord.precedes_trans TimingRecord.precedes_total _ _).symm
  have hsorted := List.pairwise_mergeSort TimingRecord.precedes_trans TimingRecord.precedes_total
    (g.covered records)
  refine ⟨g, hg, hsort, ?_, ?_, fun name => ?_⟩
  · rw [hsort]
    exact List.mergeSort_perm _ _
  · rw [hsort]
    exact hsorted.imp fun h => of_decide_eq_true h
  · rw [hsort]
    exact filter_name_mergeSort _ name

/-! ### The order of the records -/

variable {records records' : List TimingRecord}

theorem eq_of_records {h h' : History} (heq : h.records = h'.records) : h = h' := by
  obtain ⟨records, _⟩ := h
  obtain ⟨records', _⟩ := h'
  obtain rfl : records = records' := heq
  rfl

theorem map_name_ofList (hperm : records.Perm records') :
    (ofList records).records.toList.map TimingRecord.name =
      (ofList records').records.toList.map TimingRecord.name := by
  have hsorted (records : List TimingRecord) :
      ((ofList records).records.toList.map TimingRecord.name).Pairwise (· ≤ ·) :=
    List.pairwise_map.mpr ((ofList records).sorted.imp fun h => of_decide_eq_true h)
  have hrecords := (perm_ofList records).trans (hperm.trans (perm_ofList records').symm)
  exact (hrecords.map _).eq_of_pairwise' (hsorted records) (hsorted records')

/-- **The same records in another order make a history with the same names, place by place.** -/
theorem forall₂_ofList (hperm : records.Perm records') {R : TimingRecord → TimingRecord → Prop}
    (same : ∀ r ∈ records, ∀ s ∈ records, r.name = s.name → R r s) :
    List.Forall₂ R (ofList records).records.toList (ofList records').records.toList := by
  have hnames := forall₂_map_eq_iff.mpr (map_name_ofList hperm)
  rw [List.forall₂_iff_get] at hnames ⊢
  refine ⟨hnames.1, fun i hi hi' => same _ ?_ _ ?_ (hnames.2 i hi hi')⟩
  · exact (perm_ofList records).mem_iff.mp (List.getElem_mem hi)
  · exact hperm.mem_iff.mpr ((perm_ofList records').mem_iff.mp (List.getElem_mem hi'))

/-- A look-up in histories that go together place by place finds records that do. -/
theorem forall₂_startingWith {R : TimingRecord → TimingRecord → Prop}
    (hname : ∀ r s, R r s → r.name = s.name) {h h' : History}
    (hrecords : List.Forall₂ R h.records.toList h'.records.toList) (stem : String) :
    List.Forall₂ R (h.startingWith stem) (h'.startingWith stem) := by
  rw [startingWith_eq_filter, startingWith_eq_filter]
  exact List.rel_filter
    (fun r s hrs => iff_of_eq (congrArg (startsWith · stem = true) (hname r s hrs))) hrecords

end History

end SuiteBalance
