import Mathlib
import SuiteBalance.Entries

/-!
# Proofs — Entries — keys

Entries that are put in one by one have distinct keys, and of those put under one key the last is
kept.  Entries whose keys are distinct are the same whether they are written down or put in, and
they are what their keys are looked up as.

* `put_new`, `foldl_put`: new keys come last, in the order in which they are put.
* `nodup_keys_foldl_put`, **`get?_foldl_put`**: the keys and the values of what is put in.
* `eq_map_keys`: the entries from the look-up of their keys.
* `get?_of_mem`, `get?_map_value`: what is looked up.
-/

namespace SuiteBalance.Entries

variable {κ α : Type} [BEq κ] [LawfulBEq κ]

/-- A key that is new comes last. -/
theorem put_new {entries : Entries κ α} {key : κ} (h : key ∉ entries.map Prod.fst) (value : α) :
    put entries key value = entries ++ [(key, value)] := by
  induction entries with
  | nil => rfl
  | cons e entries ih =>
      rw [List.map_cons, List.mem_cons, not_or] at h
      rw [put, beq_false_of_ne (Ne.symm h.1), if_neg Bool.false_ne_true, ih h.2]
      rfl

/-- Entries with distinct keys are put in one by one. -/
theorem foldl_put {entries done : Entries κ α} (h : ((done ++ entries).map Prod.fst).Nodup) :
    entries.foldl (fun done e => put done e.1 e.2) done = done ++ entries := by
  induction entries generalizing done with
  | nil => exact (List.append_nil _).symm
  | cons e entries ih =>
      -- keys are distinct across what is done and what is left, so the next one is new
      have hnew : e.1 ∉ done.map Prod.fst := by
        rw [List.map_append, List.nodup_append] at h
        exact fun hmem => h.2.2 _ hmem _ (List.mem_cons_self ..) rfl
      rw [List.append_cons] at h
      rw [List.foldl_cons, put_new hnew, ih h, List.append_assoc]
      rfl

variable {ι : Type} {items : List ι}

/-- Keys that are put in are distinct. -/
theorem nodup_keys_foldl_put (key : ι → κ) (value : ι → α) (items : List ι) :
    (keys (items.foldl (fun done i => put done (key i) (value i)) [])).Nodup := by
  induction items using List.reverseRecOn with
  | nil => exact List.nodup_nil
  | append_singleton front i ih =>
      rw [List.foldl_append, List.foldl_cons, List.foldl_nil, keys_put]
      split_ifs with hmem
      · exact ih
      · refine List.nodup_append.mpr ⟨ih, List.nodup_singleton _, ?_⟩
        rintro k hk _ hkey rfl
        exact hmem (List.mem_singleton.mp hkey ▸ hk)

/-- **Of the values put under one key the last is kept.** -/
theorem get?_foldl_put (key : ι → κ) (value : ι → α) (items : List ι) (k : κ) :
    get? (items.foldl (fun done i => put done (key i) (value i)) []) k =
      (items.reverse.find? (key · == k)).map value := by
  induction items using List.reverseRecOn with
  | nil => rfl
  | append_singleton front i ih =>
      rw [List.foldl_append, List.foldl_cons, List.foldl_nil, get?_put, ih, List.reverse_append,
        List.reverse_singleton, List.singleton_append, List.find?_cons]
      by_cases hkey : key i = k
      · rw [if_pos (beq_iff_eq.mpr hkey.symm), beq_iff_eq.mpr hkey]
        rfl
      · rw [if_neg (mt beq_iff_eq.mp (Ne.symm hkey)), beq_false_of_ne hkey]

/-- Values that are computed from values leave the keys. -/
theorem get?_map_value {β : Type} (entries : Entries κ α) (f : α → β) (k : κ) :
    get? (entries.map fun e => (e.1, f e.2)) k = (get? entries k).map f := by
  induction entries with
  | nil => rfl
  | cons e entries ih =>
      rw [get?, List.map_cons, List.lookup_cons, get?, List.lookup_cons]
      by_cases hkey : k = e.1
      · rw [beq_iff_eq.mpr hkey]
        rfl
      · rw [beq_false_of_ne hkey]
        exact ih

/-- What stands under a key among distinct ones. -/
theorem get?_of_mem {entries : Entries κ α} (h : (keys entries).Nodup) {e : κ × α}
    (he : e ∈ entries) : get? entries e.1 = some e.2 := by
  induction entries with
  | nil => cases he
  | cons first entries ih =>
      have hdistinct : first.1 ∉ keys entries ∧ (keys entries).Nodup := List.nodup_cons.mp h
      rw [get?, List.lookup_cons]
      rcases List.mem_cons.mp he with rfl | he
      · rw [beq_self_eq_true]
      · have hne : e.1 ≠ first.1 := by
          intro heq
          exact hdistinct.1 (heq ▸ List.mem_map_of_mem he)
        rw [beq_false_of_ne hne]
        exact ih hdistinct.2 he

/-- **Entries with distinct keys are what their keys are looked up as.** -/
theorem eq_map_keys {entries : Entries κ α} (h : (keys entries).Nodup) (fallback : α) :
    entries = (keys entries).map fun k => (k, (get? entries k).getD fallback) := by
  calc entries = entries.map id := (List.map_id entries).symm
    _ = entries.map fun e => (e.1, (get? entries e.1).getD fallback) := by
        refine List.map_congr_left fun e he => ?_
        rw [get?_of_mem h he]
        rfl
    _ = (keys entries).map fun k => (k, (get? entries k).getD fallback) := by
        rw [keys, List.map_map]
        rfl

/-- What is put in stands under its key. -/
theorem exists_of_mem_foldl_put {key : ι → κ} {value : ι → α} {e : κ × α}
    (h : e ∈ items.foldl (fun done i => put done (key i) (value i)) []) :
    ∃ i ∈ items, key i = e.1 := by
  have hget := get?_of_mem (nodup_keys_foldl_put key value items) h
  rw [get?_foldl_put, Option.map_eq_some_iff] at hget
  obtain ⟨i, hfind, -⟩ := hget
  have hkey : (key i == e.1) = true := List.find?_some (p := (key · == e.1)) hfind
  exact ⟨i, List.mem_reverse.mp (List.mem_of_find?_eq_some hfind), beq_iff_eq.mp hkey⟩

end SuiteBalance.Entries
