import Mathlib
import SuiteBalance.Proofs.Schedule.Overlap

/-!
# Proofs — Schedule — records that several buckets count

Groups may cover the same tests, so a record may be counted in several buckets.  A notice says so:
it gives a number and a name, which are found by the names of the records, sorted.  Several records
of one test are one name, so the number is that of the tests, and not always that of the records.

* `Bucket.Shares`: two of some buckets count a record.
* `Bucket.repeated_spec`: what occurs at least twice in a sorted list.
* `Bucket.mem_sharedNames_iff`: whose names are found.
* **`Bucket.notices_build`**: when the notice is given, and what it says.
* `Bucket.one_name_of_two_records`: it may not say how many records there are.
-/

namespace SuiteBalance.Bucket

/-! ### Sorted names -/

variable {name n : String} {list : List String}

/-- A sorted list begins with its least member. -/
theorem head?_eq_some_iff (sorted : list.Pairwise (· ≤ ·)) (hle : ∀ n ∈ list, name ≤ n) :
    list.head? = some name ↔ name ∈ list := by
  refine ⟨List.mem_of_mem_head?, fun hmem => ?_⟩
  cases list with
  | nil => cases hmem
  | cons first rest =>
      rcases List.mem_cons.mp hmem with rfl | hrest
      · rfl
      · have hfirst := (List.pairwise_cons.mp sorted).1 name hrest
        rw [List.head?_cons, le_antisymm hfirst (hle first List.mem_cons_self)]

theorem mem_adjoin : n ∈ names.adjoin name list ↔ n = name ∨ n ∈ list := by
  unfold names.adjoin
  split
  · simp
  · split
    case isTrue heq => simp [eq_of_beq heq]
    case isFalse => simp

theorem pairwise_adjoin (increasing : list.Pairwise (· < ·)) (hle : ∀ n ∈ list, name ≤ n) :
    (names.adjoin name list).Pairwise (· < ·) := by
  unfold names.adjoin
  split
  · exact List.pairwise_singleton _ _
  case h_2 first rest =>
    split
    case isTrue => exact increasing
    case isFalse hne =>
      have hlt : name < first :=
        (hle first List.mem_cons_self).lt_of_ne fun heq => hne (beq_iff_eq.mpr heq.symm)
      refine List.pairwise_cons.mpr ⟨List.forall_mem_cons.mpr ⟨hlt, fun n hn => ?_⟩, increasing⟩
      exact hlt.trans ((List.pairwise_cons.mp increasing).1 n hn)

/-- **What occurs at least twice in a sorted list**, each once and in its order. -/
theorem repeated_spec (sorted : list.Pairwise (· ≤ ·)) :
    (repeated list).Pairwise (· < ·) ∧ ∀ n, n ∈ repeated list ↔ 2 ≤ list.count n := by
  induction list with
  | nil => exact ⟨.nil, fun n => by simp [repeated]⟩
  | cons name rest ih =>
      obtain ⟨hle, hsorted⟩ := List.pairwise_cons.mp sorted
      obtain ⟨increasing, hmem⟩ := ih hsorted
      have hrest : ∀ n ∈ repeated rest, n ∈ rest := fun n hn =>
        List.count_pos_iff.mp (two_pos.trans_le ((hmem n).mp hn))
      have hfound := head?_eq_some_iff hsorted hle
      have hagain := head?_eq_some_iff (increasing.imp le_of_lt) fun n hn => hle n (hrest n hn)
      rw [repeated]
      split
      case isTrue hnew =>
        rw [hfound, ne_eq, hagain] at hnew
        refine ⟨List.pairwise_cons.mpr ⟨fun n hn => ?_, increasing⟩, fun n => ?_⟩
        · exact (hle n (hrest n hn)).lt_of_ne fun heq => hnew.2 (heq ▸ hn)
        · rw [List.mem_cons, hmem]
          rcases eq_or_ne n name with rfl | hne
          · have hcount := List.count_pos_iff.mpr hnew.1
            rw [List.count_cons_self]
            exact iff_of_true (.inl rfl) (Nat.succ_le_succ hcount)
          · rw [List.count_cons_of_ne hne.symm, or_iff_right hne]
      case isFalse hold =>
        rw [hfound, ne_eq, hagain, hmem, ← List.count_pos_iff] at hold
        refine ⟨increasing, fun n => ?_⟩
        rw [hmem]
        rcases eq_or_ne n name with rfl | hne
        · rw [List.count_cons_self]
          omega
        · rw [List.count_cons_of_ne hne.symm]

/-! ### The names in a bucket -/

theorem mem_names (b : Bucket) : n ∈ b.names ↔ ∃ r ∈ b.matched, r.name = n := by
  rw [← List.mem_map, names]
  induction b.matched.map TimingRecord.name with
  | nil => rfl
  | cons name rest ih => rw [List.foldr_cons, mem_adjoin, ih, List.mem_cons]

/-- A bucket names each of its tests once. -/
theorem nodup_names {b : Bucket} (sorted : (b.matched.map TimingRecord.name).Pairwise (· ≤ ·)) :
    b.names.Nodup := by
  have hspec : ∀ list : List String, list.Pairwise (· ≤ ·) →
      (list.foldr names.adjoin []).Pairwise (· < ·) ∧
        ∀ n ∈ list.foldr names.adjoin [], n ∈ list := by
    intro list hlist
    induction list with
    | nil => exact ⟨.nil, fun _ hn => hn⟩
    | cons name rest ih =>
        obtain ⟨hle, hrest⟩ := List.pairwise_cons.mp hlist
        obtain ⟨increasing, hmem⟩ := ih hrest
        refine ⟨pairwise_adjoin increasing fun n hn => hle n (hmem n hn), fun n hn => ?_⟩
        rw [List.foldr_cons, mem_adjoin] at hn
        exact List.mem_cons.mpr (hn.imp_right (hmem n))
  exact (hspec _ sorted).1.imp ne_of_lt

/-! ### Buckets that share a record -/

/-- Two of the buckets, at different places, count a record. -/
def Shares (buckets : List Bucket) (r : TimingRecord) : Prop :=
  ∃ b c, [b, c].Sublist buckets ∧ r ∈ b.matched ∧ r ∈ c.matched

theorem two_le_countP_iff {α : Type} {q : α → Bool} {l : List α} :
    2 ≤ l.countP q ↔ ∃ a b, [a, b].Sublist l ∧ q a = true ∧ q b = true := by
  rw [List.countP_eq_length_filter]
  constructor
  · intro hlength
    obtain ⟨a, b, hsub⟩ : ∃ a b, [a, b].Sublist (l.filter q) := by
      generalize l.filter q = found at hlength ⊢
      rcases found with _ | ⟨a, _ | ⟨b, rest⟩⟩
      · cases hlength
      · exact absurd hlength (by simp)
      · exact ⟨a, b, ((List.nil_sublist rest).cons_cons b).cons_cons a⟩
    exact ⟨a, b, hsub.trans List.filter_sublist, (List.mem_filter.mp (hsub.mem (by simp))).2,
      (List.mem_filter.mp (hsub.mem (by simp))).2⟩
  · rintro ⟨a, b, hsub, ha, hb⟩
    have hfilter := (hsub.filter q).length_le
    rwa [List.filter_cons_of_pos ha, List.filter_cons_of_pos hb] at hfilter

theorem count_flatMap_names {buckets : List Bucket} (h : ∀ b ∈ buckets, b.names.Nodup) :
    (buckets.flatMap names).count n = buckets.countP (fun b => decide (n ∈ b.names)) := by
  induction buckets with
  | nil => rfl
  | cons b rest ih =>
      obtain ⟨hb, hrest⟩ := List.forall_mem_cons.mp h
      rw [List.flatMap_cons, List.count_append, ih hrest, List.countP_cons, hb.count, add_comm]
      simp

variable {groups : List Group} {records : List TimingRecord} {b : Bucket} {r : TimingRecord}

/-- A bucket counts all records of the tests that it names. -/
theorem mem_matched_iff (hb : b ∈ (build groups records).1) (hr : r ∈ records) :
    r ∈ b.matched ↔ r.name ∈ b.names := by
  rw [mem_names]
  refine ⟨fun hmem => ⟨r, hmem, rfl⟩, fun ⟨s, hs, hname⟩ => ?_⟩
  obtain ⟨g, -, rfl⟩ := List.mem_map.mp hb
  rw [ofMatched, (History.perm_startingWith records g.stem).mem_iff, List.mem_filter] at *
  exact ⟨hr, hname ▸ hs.2⟩

theorem nodup_names_of_mem (hb : b ∈ (build groups records).1) : b.names.Nodup := by
  obtain ⟨g, -, rfl⟩ := List.mem_map.mp hb
  refine nodup_names (List.pairwise_map.mpr ?_)
  exact ((History.ofList records).narrowed g.stem).sorted.imp fun h => of_decide_eq_true h

theorem shares_iff (hr : r ∈ records) : Shares (build groups records).1 r ↔
    2 ≤ (build groups records).1.countP fun b => decide (r.name ∈ b.names) := by
  rw [two_le_countP_iff]
  refine exists_congr fun b => exists_congr fun c => and_congr_right fun hsub => ?_
  rw [decide_eq_true_iff, decide_eq_true_iff, mem_matched_iff (hsub.mem (by simp)) hr,
    mem_matched_iff (hsub.mem (by simp)) hr]

/-- The names that several buckets count are those that occur twice among the names of all buckets,
in increasing order. -/
theorem sharedNames_spec (buckets : List Bucket) : (sharedNames buckets).Pairwise (· < ·) ∧
    ∀ n, n ∈ sharedNames buckets ↔ 2 ≤ (buckets.flatMap names).count n := by
  have hsorted : ((buckets.flatMap names).mergeSort fun a b => decide (a ≤ b)).Pairwise (· ≤ ·) :=
    (List.pairwise_mergeSort (fun a b c hab hbc => by simp at *; exact hab.trans hbc)
      (fun a b => by simpa using le_total a b) _).imp fun h => of_decide_eq_true h
  obtain ⟨increasing, hmem⟩ := repeated_spec hsorted
  refine ⟨increasing, fun n => (hmem n).trans ?_⟩
  rw [(List.mergeSort_perm _ _).count_eq]

/-- **The names that are found are those of the records that several buckets count.** -/
theorem mem_sharedNames_iff : n ∈ sharedNames (build groups records).1 ↔
    ∃ r ∈ records, Shares (build groups records).1 r ∧ r.name = n := by
  rw [(sharedNames_spec _).2, count_flatMap_names fun b hb => nodup_names_of_mem hb]
  constructor
  · intro hcount
    obtain ⟨b, hb, hname⟩ := List.countP_pos_iff.mp (two_pos.trans_le hcount)
    obtain ⟨r, hr, rfl⟩ := (mem_names b).mp (of_decide_eq_true hname)
    have hrecord := mem_of_mem_matched hb hr
    exact ⟨r, hrecord, (shares_iff hrecord).mpr hcount, rfl⟩
  · rintro ⟨r, hr, hshares, rfl⟩
    exact (shares_iff hr).mp hshares

/-! ### The notice -/

open Classical in
/-- The records that several buckets count. -/
noncomputable def shared (buckets : List Bucket) (records : List TimingRecord) :
    List TimingRecord :=
  records.filter fun r => Shares buckets r

theorem mem_shared_iff {buckets : List Bucket} :
    r ∈ shared buckets records ↔ r ∈ records ∧ Shares buckets r := by
  simp [shared]

/-- **The notice gives the number of tests with a record that several buckets count**, and the first
of them. -/
theorem sharedNotice_build (groups : List Group) (records : List TimingRecord) :
    (shared (build groups records).1 records = [] ∧ sharedNotice (build groups records).1 = []) ∨
      ∃ first, IsLeast {n | ∃ r ∈ shared (build groups records).1 records, r.name = n} first ∧
        sharedNotice (build groups records).1 =
          [.shared ((shared (build groups records).1 records).map TimingRecord.name).dedup.length
            first] := by
  obtain ⟨increasing, -⟩ := sharedNames_spec (build groups records).1
  have hmem : ∀ n, n ∈ sharedNames (build groups records).1 ↔
      ∃ r ∈ shared (build groups records).1 records, r.name = n := fun n => by
    rw [mem_sharedNames_iff]
    simp only [mem_shared_iff, and_assoc]
  have hlength : (sharedNames (build groups records).1).length =
      ((shared (build groups records).1 records).map TimingRecord.name).dedup.length := by
    refine List.Perm.length_eq ((List.perm_ext_iff_of_nodup ?_ (List.nodup_dedup _)).mpr
      fun n => ?_)
    · exact increasing.imp ne_of_lt
    · rw [hmem, List.mem_dedup, List.mem_map]
  rw [← hlength]
  unfold sharedNotice
  generalize sharedNames (build groups records).1 = found at *
  cases found with
  | nil =>
      refine .inl ⟨List.eq_nil_iff_forall_not_mem.mpr fun r hr => ?_, rfl⟩
      exact List.not_mem_nil ((hmem r.name).mpr ⟨r, hr, rfl⟩)
  | cons first rest =>
      have hfirst := (List.pairwise_cons.mp increasing).1
      refine .inr ⟨first, ⟨(hmem first).mp List.mem_cons_self, fun n hn => ?_⟩, rfl⟩
      rcases List.mem_cons.mp ((hmem n).mpr hn) with rfl | hrest
      · exact le_rfl
      · exact (hfirst n hrest).le

theorem notices_build_eq (groups : List Group) (records : List TimingRecord) :
    (build groups records).2 = sharedNotice (build groups records).1 ++
      [.bucketsBuilt groups.length records.length] := by
  simp [build, History.size_ofList]

/-- **When buckets share records, a notice says so.**  Each bucket is what it would be alone.  A
notice is given if and only if several buckets count a record; it names the first of the tests whose
records they count, and gives the number of these tests.  That is the number of those records if and
only if no two of them are of one test. -/
theorem notices_build (groups : List Group) (records : List TimingRecord) :
    (build groups records).1 = groups.flatMap (fun g => (build [g] records).1) ∧
      (shared (build groups records).1 records = [] ∧
          (build groups records).2 = [.bucketsBuilt groups.length records.length] ∨
        ∃ first, IsLeast {n | ∃ r ∈ shared (build groups records).1 records, r.name = n} first ∧
          (build groups records).2 =
            [.shared ((shared (build groups records).1 records).map TimingRecord.name).dedup.length
              first, .bucketsBuilt groups.length records.length]) ∧
      (((shared (build groups records).1 records).map TimingRecord.name).dedup.length =
          (shared (build groups records).1 records).length ↔
        ((shared (build groups records).1 records).map TimingRecord.name).Nodup) := by
  refine ⟨?_, ?_, fun hlength => ?_, fun hnodup => ?_⟩
  · rw [build_eq, ← List.flatMap_pure_eq_map]
    rfl
  · rw [notices_build_eq]
    rcases sharedNotice_build groups records with ⟨hnone, hnotice⟩ | ⟨first, hfirst, hnotice⟩
    · exact .inl ⟨hnone, by rw [hnotice, List.nil_append]⟩
    · exact .inr ⟨first, hfirst, by rw [hnotice, List.singleton_append]⟩
  · rw [← List.length_map (f := TimingRecord.name)] at hlength
    rw [← (List.dedup_sublist _).eq_of_length hlength]
    exact List.nodup_dedup _
  · rw [List.dedup_eq_self.mpr hnodup, List.length_map]

/-- One group twice. -/
def twinGroups : List Group := [⟨"t*", .name "unit", by decide⟩, ⟨"t*", .name "unit", by decide⟩]

/-- Two runs of one test. -/
def twinHistory : List TimingRecord :=
  [⟨"t1", 1.0, by decide +kernel, by decide +kernel⟩,
    ⟨"t1", 2.0, by decide +kernel, by decide +kernel⟩]

/-- **Two records of one test are noticed as one**, though both groups count both records. -/
theorem one_name_of_two_records :
    (shared (build twinGroups twinHistory).1 twinHistory).length = 2 ∧
      (build twinGroups twinHistory).2 = [.shared 1 "t1", .bucketsBuilt 2 2] := by
  have hcovered : ∀ g ∈ twinGroups, ∀ r ∈ twinHistory, r ∈ (g.bucket twinHistory).matched := by
    intro g hg r hr
    refine (History.perm_startingWith twinHistory g.stem).mem_iff.mpr (List.mem_filter.mpr ⟨hr, ?_⟩)
    revert g r
    decide +kernel
  have hshares : ∀ r ∈ twinHistory, Shares (build twinGroups twinHistory).1 r := fun r hr =>
    ⟨_, _, .refl _, hcovered _ List.mem_cons_self r hr,
      hcovered _ (List.mem_cons_of_mem _ List.mem_cons_self) r hr⟩
  have hshared : shared (build twinGroups twinHistory).1 twinHistory = twinHistory :=
    List.filter_eq_self.mpr (by simpa using hshares)
  refine ⟨by rw [hshared]; rfl, ?_⟩
  rw [notices_build_eq]
  rcases sharedNotice_build twinGroups twinHistory with ⟨hnone, -⟩ | ⟨first, hfirst, hnotice⟩
  · rw [hshared] at hnone
    cases hnone
  · rw [hshared] at hfirst hnotice
    obtain ⟨r, hr, rfl⟩ := hfirst.1
    have hname : ∀ r ∈ twinHistory, r.name = "t1" := by decide
    rw [hnotice, hname r hr]
    rfl

end SuiteBalance.Bucket
