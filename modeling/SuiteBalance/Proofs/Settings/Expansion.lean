import Mathlib
import SuiteBalance.Platform.Usual
import SuiteBalance.Proofs.Settings.Split

/-!
# Proofs — Settings — values with variables put in

What becomes of a value can be told without a walk over it.  Its lists and mappings keep their
shape, keys and order, its texts are filled by their splits, and all else in it stays.  The
variables that are not set are told in the order of their placeholders.  The walk that looks for
them takes frames of the machine's stack on each level; a value that it gets through is expanded as
it is told.

* **`Resolves`**: what becomes of a value, and its variables that are not set.
* `settled`: what is told of a value is the value with variables put in.
* `Within`, `through_walk`: the values that a walk gets through.
* `resolves_expand`: of these, all is told.
* `meets_walk`: a walk meets the variables of a value, or the first of them.
* `depends`: only the variables of a value matter for it.
* **`expanded_as_told`**: which values are expanded, and how.
* `not_expanded_nested`: one that is not, and one for each machine.
-/

namespace SuiteBalance.Value

open Placeholder

/-! ### Values by their shapes -/

/-- Whether a value is kept whole: it is no text, no list and no mapping, and does not stand inside
itself. -/
def IsKept : Value → Prop
  | .text _ | .list _ | .mapping _ | .again _ => False
  | _ => True

/-- What holds of a value where it holds of all that a walk goes down to. -/
@[elab_as_elim]
theorem byShape {motive : Value → Prop} (text : ∀ s, motive (.text s))
    (list : ∀ items, (∀ v ∈ items, motive v) → motive (.list items))
    (mapping : ∀ fields : List (Value × Value), (∀ v ∈ fields.map Prod.snd, motive v) →
      motive (.mapping fields))
    (again : ∀ shape, motive (.again shape)) (kept : ∀ v, v.IsKept → motive v) (v : Value) :
    motive v :=
  match v with
  | .text s => text s
  | .list items => list items fun v _ => byShape text list mapping again kept v
  | .mapping fields => mapping fields fun v _ => byShape text list mapping again kept v
  | .again shape => again shape
  | .null | .bool _ | .integer _ | .real _ | .bytes _ | .date _ | .dateTime _ | .set _ | .pair .. =>
    kept _ trivial
termination_by sizeOf v
decreasing_by
  · next hv =>
    have := List.sizeOf_lt_of_mem hv
    simp only [Value.list.sizeOf_spec]
    omega
  · next hv =>
    obtain ⟨⟨key, _⟩, hf, rfl⟩ := List.mem_map.mp hv
    have := List.sizeOf_lt_of_mem hf
    simp only [Value.mapping.sizeOf_spec, Prod.mk.sizeOf_spec] at *
    omega

/-! ### What becomes of a value -/

mutual

/-- What becomes of a value, and the names of its variables that are not set, once for each of their
placeholders and in their order. -/
inductive Resolves (lookup : String → Option String) : Value → Value → List String → Prop
  | text {s t : Text} {p : Split} (split : p.Of s.points)
      (filled : t.points = p.filled (valueOf lookup)) :
      Resolves lookup (.text s) (.text t) (p.unset lookup)
  | list {items results : List Value} {names : List String}
      (all : ResolvesItems lookup items results names) :
      Resolves lookup (.list items) (.list results) names
  | mapping {fields results : List (Value × Value)} {names : List String}
      (keys : results.map Prod.fst = fields.map Prod.fst)
      (all : ResolvesItems lookup (fields.map Prod.snd) (results.map Prod.snd) names) :
      Resolves lookup (.mapping fields) (.mapping results) names
  | kept {v : Value} (h : v.IsKept) : Resolves lookup v v []

/-- What becomes of the items of a list, or of the values of a mapping. -/
inductive ResolvesItems (lookup : String → Option String) :
    List Value → List Value → List String → Prop
  | nil : ResolvesItems lookup [] [] []
  | cons {v r : Value} {items results : List Value} {names later : List String}
      (first : Resolves lookup v r names) (rest : ResolvesItems lookup items results later) :
      ResolvesItems lookup (v :: items) (r :: results) (names ++ later)

end

variable {lookup lookup' : String → Option String} {depth : ℕ} {v r : Value} {items : List Value}
  {fields : List (Value × Value)} {names : List String}

/-! ### What is told -/

/-- The names that are not set. -/
def unsetOf (lookup : String → Option String) (names : List String) : List String :=
  names.filter fun name => (lookup name).isNone

theorem unsetOf_append (lookup : String → Option String) (names later : List String) :
    unsetOf lookup (names ++ later) = unsetOf lookup names ++ unsetOf lookup later :=
  List.filter_append ..

theorem expand_of_isKept (h : v.IsKept) : expand lookup v = v := by
  cases v <;> first | rfl | exact h.elim

theorem variableNames_of_isKept (h : v.IsKept) : v.variableNames = [] := by
  cases v <;> first | rfl | exact h.elim

theorem map_fst_expandFields (lookup : String → Option String) (fields : List (Value × Value)) :
    (expandFields lookup fields).map Prod.fst = fields.map Prod.fst := by
  induction fields with
  | nil => rfl
  | cons f rest ih => exact congrArg (f.1 :: ·) ih

theorem map_snd_expandFields (lookup : String → Option String) (fields : List (Value × Value)) :
    (expandFields lookup fields).map Prod.snd = expandItems lookup (fields.map Prod.snd) := by
  induction fields with
  | nil => rfl
  | cons f rest ih => exact congrArg (expand lookup f.2 :: ·) ih

theorem variableNamesOf_eq (fields : List (Value × Value)) :
    variableNamesOf fields = variableNamesIn (fields.map Prod.snd) := by
  induction fields with
  | nil => rfl
  | cons f rest ih => exact congrArg (f.2.variableNames ++ ·) ih

/-- Fields are told by their keys and their values. -/
theorem eq_of_map_fst_snd {fields fields' : List (Value × Value)}
    (hkeys : fields'.map Prod.fst = fields.map Prod.fst)
    (hvalues : fields'.map Prod.snd = fields.map Prod.snd) : fields' = fields := by
  rw [← List.zip_unzip fields', ← List.zip_unzip fields, List.unzip_eq_map, List.unzip_eq_map,
    hkeys, hvalues]

theorem eq_of_resolves_text {s : Text} (h : Resolves lookup (.text s) r names) :
    r = .text (Placeholder.expand lookup s) ∧
      names = unsetOf lookup (Placeholder.names s) := by
  cases h with
  | text split filled =>
    obtain rfl := split_unique split
    refine ⟨congrArg _ ?_, by rw [names_eq]; rfl⟩
    rw [← Text.ofPoints_points (Placeholder.expand lookup s), points_expand, ← filled,
      Text.ofPoints_points]
  | kept h => exact h.elim

theorem exists_of_resolves_list (h : Resolves lookup (.list items) r names) :
    ∃ results, r = .list results ∧ ResolvesItems lookup items results names := by
  cases h with
  | list all => exact ⟨_, rfl, all⟩
  | kept h => exact h.elim

theorem exists_of_resolves_mapping (h : Resolves lookup (.mapping fields) r names) :
    ∃ results, r = .mapping results ∧ results.map Prod.fst = fields.map Prod.fst ∧
      ResolvesItems lookup (fields.map Prod.snd) (results.map Prod.snd) names := by
  cases h with
  | mapping keys all => exact ⟨_, rfl, keys, all⟩
  | kept h => exact h.elim

theorem not_resolves_again {shape : Shape} : ¬Resolves lookup (.again shape) r names := by
  intro h
  cases h with
  | kept h => exact h

theorem eq_of_resolves_kept (hv : v.IsKept) (h : Resolves lookup v r names) :
    r = v ∧ names = [] := by
  cases h with
  | text | list | mapping => exact hv.elim
  | kept => exact ⟨rfl, rfl⟩

/-- All that is told of a value is the value with variables put in, and those that are not set. -/
def Settled (lookup : String → Option String) (v : Value) : Prop :=
  ∀ {r names}, Resolves lookup v r names →
    r = expand lookup v ∧ names = unsetOf lookup v.variableNames

theorem eq_of_resolvesItems (h : ∀ v ∈ items, Settled lookup v) {results : List Value}
    (hall : ResolvesItems lookup items results names) :
    results = expandItems lookup items ∧ names = unsetOf lookup (variableNamesIn items) := by
  induction items generalizing results names with
  | nil =>
    cases hall
    exact ⟨rfl, rfl⟩
  | cons v rest ih =>
    obtain ⟨hv, hrest⟩ := List.forall_mem_cons.mp h
    cases hall with
    | cons first later =>
      obtain ⟨rfl, rfl⟩ := hv first
      obtain ⟨rfl, rfl⟩ := ih hrest later
      exact ⟨rfl, (unsetOf_append lookup _ _).symm⟩

/-- **What is told of a value** is the value with variables put in. -/
theorem settled (v : Value) : Settled lookup v := by
  induction v using byShape with
  | text s => exact eq_of_resolves_text
  | list items ih =>
    intro _ _ h
    obtain ⟨_, rfl, hall⟩ := exists_of_resolves_list h
    obtain ⟨rfl, rfl⟩ := eq_of_resolvesItems ih hall
    exact ⟨rfl, rfl⟩
  | mapping fields ih =>
    intro _ _ h
    obtain ⟨_, rfl, hkeys, hall⟩ := exists_of_resolves_mapping h
    obtain ⟨hvalues, rfl⟩ := eq_of_resolvesItems ih hall
    refine ⟨congrArg _ (eq_of_map_fst_snd ?_ ?_), by rw [variableNames, variableNamesOf_eq]⟩
    · rw [hkeys, map_fst_expandFields]
    · rw [hvalues, map_snd_expandFields]
  | again shape => exact fun h => absurd h not_resolves_again
  | kept v hv =>
    intro _ _ h
    obtain ⟨rfl, rfl⟩ := eq_of_resolves_kept hv h
    rw [expand_of_isKept hv, variableNames_of_isKept hv]
    exact ⟨rfl, rfl⟩

/-- **One value only becomes of a value.** -/
theorem resolves_unique {r' : Value} {names' : List String} (h : Resolves lookup v r names)
    (h' : Resolves lookup v r' names') : r' = r ∧ names' = names := by
  obtain ⟨rfl, rfl⟩ := settled v h
  exact settled v h'

theorem resolvesItems_expand
    (h : ∀ v ∈ items, Resolves lookup v (expand lookup v) (unsetOf lookup v.variableNames)) :
    ResolvesItems lookup items (expandItems lookup items)
      (unsetOf lookup (variableNamesIn items)) := by
  induction items with
  | nil => exact .nil
  | cons v rest ih =>
    obtain ⟨hv, hrest⟩ := List.forall_mem_cons.mp h
    rw [variableNamesIn, unsetOf_append]
    exact .cons hv (ih hrest)

/-! ### The walk -/

section

variable [Stack]

/-- Whether the frames that are left are enough for the walk over a value. -/
inductive Within (lookup : String → Option String) : ℕ → Value → Prop
  | text {depth : ℕ} {s : Text} {p : Split} (split : p.Of s.points)
      (leaf : Stack.leaf (.text s) ≤ depth)
      (looked : ∀ name ∈ p.names.map String.ofList, Stack.lookup name (lookup name) ≤ depth) :
      Within lookup depth (.text s)
  | list {depth : ℕ} {items : List Value} (h : ∀ v ∈ items, Within lookup depth v) :
      Within lookup (depth + Stack.list) (.list items)
  | mapping {depth : ℕ} {fields : List (Value × Value)}
      (h : ∀ f ∈ fields, Within lookup depth f.2) :
      Within lookup (depth + Stack.mapping) (.mapping fields)
  | kept {depth : ℕ} {v : Value} (h : v.IsKept) (leaf : Stack.leaf v ≤ depth) :
      Within lookup depth v

theorem within_text {s : Text} : Within lookup depth (.text s) ↔
    Stack.leaf (.text s) ≤ depth ∧
      ∀ name ∈ Placeholder.names s, Stack.lookup name (lookup name) ≤ depth := by
  rw [names_eq]
  constructor
  · intro h
    cases h with
    | text split leaf looked =>
      obtain rfl := split_unique split
      exact ⟨leaf, looked⟩
    | kept h => exact h.elim
  · exact fun ⟨leaf, looked⟩ => .text (of_split s.points) leaf looked

theorem within_list : Within lookup depth (.list items) ↔
    Stack.list ≤ depth ∧ ∀ v ∈ items, Within lookup (depth - Stack.list) v := by
  constructor
  · intro h
    cases h with
    | list h => exact ⟨Nat.le_add_left .., by rwa [Nat.add_sub_cancel]⟩
    | kept h => exact h.elim
  · rintro ⟨hdepth, h⟩
    rw [← Nat.sub_add_cancel hdepth]
    exact .list h

theorem within_mapping : Within lookup depth (.mapping fields) ↔
    Stack.mapping ≤ depth ∧ ∀ f ∈ fields, Within lookup (depth - Stack.mapping) f.2 := by
  constructor
  · intro h
    cases h with
    | mapping h => exact ⟨Nat.le_add_left .., by rwa [Nat.add_sub_cancel]⟩
    | kept h => exact h.elim
  · rintro ⟨hdepth, h⟩
    rw [← Nat.sub_add_cancel hdepth]
    exact .mapping h

theorem within_kept (h : v.IsKept) : Within lookup depth v ↔ Stack.leaf v ≤ depth := by
  constructor
  · intro hwithin
    cases hwithin with
    | text | list | mapping => exact h.elim
    | kept _ leaf => exact leaf
  · exact .kept h

theorem not_within_again {shape : Shape} : ¬Within lookup depth (.again shape) := by
  intro h
  cases h with
  | kept h => exact h

/-- Where a value is kept, there is nothing to walk over. -/
theorem walk_of_isKept (h : v.IsKept) (lookup : String → Option String) (depth : ℕ) :
    walk lookup depth v = if depth < Stack.leaf v then ⟨[], false⟩ else {} := by
  cases v <;> first | rfl | exact h.elim

omit [Stack] in
theorem through_andThen {first : Walk} {next : Unit → Walk} :
    (first.andThen next).through = true ↔ first.through = true ∧ (next ()).through = true := by
  unfold Walk.andThen
  split <;> simp_all

omit [Stack] in
theorem andThen_of_through {first : Walk} (h : first.through = true) (next : Unit → Walk) :
    first.andThen next = ⟨first.names ++ (next ()).names, (next ()).through⟩ := by
  rw [Walk.andThen, if_pos h]

theorem through_walkNames : (walkNames lookup depth names).through = true ↔
    ∀ name ∈ names, Stack.lookup name (lookup name) ≤ depth := by
  induction names with
  | nil => exact iff_of_true rfl (List.forall_mem_nil _)
  | cons name rest ih =>
    rw [walkNames, List.forall_mem_cons]
    split
    · next h => exact iff_of_false Bool.false_ne_true fun h' => absurd h'.1 (not_le.mpr h)
    · next h => rw [through_andThen, ih, and_iff_right rfl, and_iff_right (not_lt.mp h)]

theorem through_walkItems
    (h : ∀ v ∈ items, (walk lookup depth v).through = true ↔ Within lookup depth v) :
    (walkItems lookup depth items).through = true ↔ ∀ v ∈ items, Within lookup depth v := by
  induction items with
  | nil => exact iff_of_true rfl (List.forall_mem_nil _)
  | cons v rest ih =>
    obtain ⟨hv, hrest⟩ := List.forall_mem_cons.mp h
    rw [walkItems, through_andThen, hv, ih hrest, List.forall_mem_cons]

theorem walkFields_eq (lookup : String → Option String) (depth : ℕ)
    (fields : List (Value × Value)) :
    walkFields lookup depth fields = walkItems lookup depth (fields.map Prod.snd) := by
  induction fields with
  | nil => rfl
  | cons f rest ih => rw [walkFields, ih]; rfl

/-- A walk gets through the values that there are frames enough for. -/
theorem through_walk (v : Value) :
    ∀ depth, (walk lookup depth v).through = true ↔ Within lookup depth v := by
  induction v using byShape with
  | text s =>
    intro depth
    rw [walk, within_text]
    split
    · next h => exact iff_of_false Bool.false_ne_true fun h' => absurd h'.1 (not_le.mpr h)
    · next h => rw [through_walkNames, and_iff_right (not_lt.mp h)]
  | list items ih =>
    intro depth
    rw [walk, within_list]
    split
    · next h => exact iff_of_false Bool.false_ne_true fun h' => absurd h'.1 (not_le.mpr h)
    · next h =>
      rw [through_walkItems fun v hv => ih v hv (depth - Stack.list), and_iff_right (not_lt.mp h)]
  | mapping fields ih =>
    intro depth
    rw [walk, within_mapping]
    split
    · next h => exact iff_of_false Bool.false_ne_true fun h' => absurd h'.1 (not_le.mpr h)
    · next h =>
      rw [walkFields_eq, through_walkItems fun v hv => ih v hv (depth - Stack.mapping),
        List.forall_mem_map, and_iff_right (not_lt.mp h)]
  | again shape => exact fun depth => iff_of_false Bool.false_ne_true not_within_again
  | kept v h =>
    intro depth
    rw [walk_of_isKept h, within_kept h]
    split
    · next hleaf => exact iff_of_false Bool.false_ne_true (not_le.mpr hleaf)
    · next hleaf => exact iff_of_true rfl (not_lt.mp hleaf)

/-- **A value that there are frames enough for** becomes itself with variables put in. -/
theorem resolves_expand (v : Value) : ∀ {depth}, Within lookup depth v →
    Resolves lookup v (expand lookup v) (unsetOf lookup v.variableNames) := by
  induction v using byShape with
  | text s =>
    intro _ _
    rw [variableNames, names_eq]
    exact .text (of_split s.points) (points_expand lookup s)
  | list items ih =>
    intro _ h
    exact .list (resolvesItems_expand fun v hv => ih v hv ((within_list.mp h).2 v hv))
  | mapping fields ih =>
    intro _ h
    refine .mapping (map_fst_expandFields lookup fields) ?_
    rw [map_snd_expandFields, variableNames, variableNamesOf_eq]
    refine resolvesItems_expand fun v hv => ?_
    obtain ⟨f, hf, rfl⟩ := List.mem_map.mp hv
    exact ih f.2 hv ((within_mapping.mp h).2 f hf)
  | again shape => exact fun h => absurd h not_within_again
  | kept v hv =>
    intro _ _
    rw [expand_of_isKept hv, variableNames_of_isKept hv]
    exact .kept hv

/-! ### What a walk meets -/

/-- A walk meets the variables in some names: all of them if it gets through, and the first of them
in any case. -/
structure Walk.Meets (walk : Walk) (names : List String) : Prop where
  first : walk.names <+: names
  all : walk.through = true → walk.names = names

omit [Stack] in
theorem meets_stopped (names : List String) : Walk.Meets ⟨[], false⟩ names :=
  ⟨List.nil_prefix, fun h => absurd h Bool.false_ne_true⟩

omit [Stack] in
/-- Of two walks, the second is behind all that the first meets. -/
theorem Walk.Meets.andThen {first : Walk} {next : Unit → Walk} {later : List String}
    (hfirst : first.Meets names) (hnext : (next ()).Meets later) :
    (first.andThen next).Meets (names ++ later) := by
  by_cases h : first.through = true
  · rw [andThen_of_through h, hfirst.all h]
    exact ⟨(List.prefix_append_right_inj _).mpr hnext.first,
      fun hthrough => congrArg (names ++ ·) (hnext.all hthrough)⟩
  · rw [Walk.andThen, if_neg h]
    exact ⟨hfirst.first.trans (List.prefix_append ..), fun hthrough => absurd hthrough h⟩

theorem meets_walkNames (lookup : String → Option String) (depth : ℕ) (names : List String) :
    (walkNames lookup depth names).Meets names := by
  induction names with
  | nil => exact ⟨List.prefix_rfl, fun _ => rfl⟩
  | cons name rest ih =>
    rw [walkNames]
    split
    · exact meets_stopped _
    · have hone : Walk.Meets ⟨[name], true⟩ [name] := ⟨List.prefix_rfl, fun _ => rfl⟩
      exact hone.andThen ih

theorem meets_walkItems (h : ∀ v ∈ items, (walk lookup depth v).Meets v.variableNames) :
    (walkItems lookup depth items).Meets (variableNamesIn items) := by
  induction items with
  | nil => exact ⟨List.prefix_rfl, fun _ => rfl⟩
  | cons v rest ih =>
    obtain ⟨hv, hrest⟩ := List.forall_mem_cons.mp h
    exact hv.andThen (ih hrest)

/-- **A walk over a value meets its variables**, or the first of them. -/
theorem meets_walk (v : Value) : ∀ depth, (walk lookup depth v).Meets v.variableNames := by
  induction v using byShape with
  | text s =>
    intro depth
    rw [walk]
    split
    · exact meets_stopped _
    · exact meets_walkNames lookup depth _
  | list items ih =>
    intro depth
    rw [walk]
    split
    · exact meets_stopped _
    · exact meets_walkItems fun v hv => ih v hv _
  | mapping fields ih =>
    intro depth
    rw [walk, walkFields_eq, variableNames, variableNamesOf_eq]
    split
    · exact meets_stopped _
    · exact meets_walkItems fun v hv => ih v hv _
  | again shape => exact fun _ => meets_stopped _
  | kept v hv =>
    intro depth
    rw [walk_of_isKept hv, variableNames_of_isKept hv]
    split
    · exact meets_stopped _
    · exact ⟨List.prefix_rfl, fun _ => rfl⟩

/-! ### Variables that matter -/

theorem walkNames_congr (h : ∀ name ∈ names, lookup name = lookup' name) :
    walkNames lookup depth names = walkNames lookup' depth names := by
  induction names with
  | nil => rfl
  | cons name rest ih =>
    obtain ⟨hname, hrest⟩ := List.forall_mem_cons.mp h
    rw [walkNames, walkNames, hname, ih hrest]

/-- Of some values, only their variables matter for a walk and for what becomes of them. -/
def Depends (lookup lookup' : String → Option String) (v : Value) : Prop :=
  (∀ name ∈ v.variableNames, lookup name = lookup' name) →
    (∀ depth, walk lookup depth v = walk lookup' depth v) ∧ expand lookup v = expand lookup' v

theorem depends_items (h : ∀ v ∈ items, Depends lookup lookup' v)
    (hagree : ∀ name ∈ variableNamesIn items, lookup name = lookup' name) :
    (∀ depth, walkItems lookup depth items = walkItems lookup' depth items) ∧
      expandItems lookup items = expandItems lookup' items := by
  induction items with
  | nil => exact ⟨fun _ => rfl, rfl⟩
  | cons v rest ih =>
    obtain ⟨hv, hrest⟩ := List.forall_mem_cons.mp h
    rw [variableNamesIn, List.forall_mem_append] at hagree
    obtain ⟨hwalk, hexpand⟩ := hv hagree.1
    obtain ⟨hwalks, hexpands⟩ := ih hrest hagree.2
    refine ⟨fun depth => ?_, ?_⟩
    · rw [walkItems, walkItems, hwalk, hwalks]
    · rw [expandItems, expandItems, hexpand, hexpands]

/-- **Only the variables of a value matter for it.** -/
theorem depends (v : Value) : Depends lookup lookup' v := by
  induction v using byShape with
  | text s =>
    intro hagree
    have hnames : ∀ name ∈ Placeholder.names s, lookup name = lookup' name := hagree
    refine ⟨fun depth => ?_, ?_⟩
    · rw [walk, walk, walkNames_congr hnames]
    · rw [expand, expand, Placeholder.expand_congr hnames]
  | list items ih =>
    intro hagree
    obtain ⟨hwalk, hexpand⟩ := depends_items ih hagree
    refine ⟨fun depth => ?_, ?_⟩
    · rw [walk, walk, hwalk]
    · rw [expand, expand, hexpand]
  | mapping fields ih =>
    intro hagree
    rw [variableNames, variableNamesOf_eq] at hagree
    obtain ⟨hwalk, hexpand⟩ := depends_items ih hagree
    refine ⟨fun depth => ?_, congrArg _ (eq_of_map_fst_snd ?_ ?_)⟩
    · rw [walk, walk, walkFields_eq, walkFields_eq, hwalk]
    · rw [map_fst_expandFields, map_fst_expandFields]
    · rw [map_snd_expandFields, map_snd_expandFields, hexpand]
  | again shape => exact fun _ => ⟨fun _ => rfl, rfl⟩
  | kept v hv =>
    intro _
    refine ⟨fun depth => ?_, ?_⟩
    · rw [walk_of_isKept hv, walk_of_isKept hv]
    · rw [expand_of_isKept hv, expand_of_isKept hv]

theorem expand?_congr (h : ∀ name ∈ v.variableNames, lookup name = lookup' name) :
    v.expand? lookup = v.expand? lookup' := by
  obtain ⟨hwalk, hexpand⟩ := depends v h
  rw [expand?, expand?, wholeWalk, wholeWalk, hwalk, hexpand]

theorem unsetNotices_congr (h : ∀ name ∈ v.variableNames, lookup name = lookup' name) :
    v.unsetNotices lookup = v.unsetNotices lookup' := by
  have hnames : ∀ name ∈ (v.wholeWalk lookup).names, lookup name = lookup' name :=
    fun name hname => h name ((meets_walk v Stack.frames).first.subset hname)
  rw [unsetNotices, unsetNotices, List.filter_congr fun name hname => by rw [hnames name hname],
    wholeWalk, wholeWalk, (depends v h).1]

/-! ### Values with variables put in -/

theorem expand?_of_within (h : Within lookup Stack.frames v) :
    ∃ r names, Resolves lookup v r names ∧ v.expand? lookup = some r ∧
      v.unsetNotices lookup = names.map .unsetVariable := by
  have hthrough := (through_walk v Stack.frames).mpr h
  refine ⟨_, _, resolves_expand v h, if_pos hthrough, ?_⟩
  rw [unsetNotices, wholeWalk, (meets_walk v Stack.frames).all hthrough]
  rfl

theorem expand?_of_not_within (h : ¬Within lookup Stack.frames v) : v.expand? lookup = none :=
  if_neg (mt (through_walk v Stack.frames).mp h)

/-- **Values with variables put in.**  Each text has one split.  A value that there are frames
enough for becomes what is told of it, in one way only and with a notice for each placeholder of a
variable that is not set.  Any other value is refused, behind the first of these notices. -/
theorem expanded_as_told (lookup : String → Option String) (v : Value) :
    (∀ s : List CodePoint, ∃! p : Split, p.Of s) ∧
    (Within lookup Stack.frames v → ∃ r names, Resolves lookup v r names ∧
      (∀ r' names', Resolves lookup v r' names' → r' = r ∧ names' = names) ∧
      v.expand? lookup = some r ∧ v.unsetNotices lookup = names.map .unsetVariable) ∧
    (¬Within lookup Stack.frames v → v.expand? lookup = none ∧
      ∀ r names, Resolves lookup v r names →
        v.unsetNotices lookup <+: names.map .unsetVariable) := by
  refine ⟨fun s => ⟨_, of_split s, fun _ h => split_unique h⟩, fun h => ?_, fun h => ?_⟩
  · obtain ⟨r, names, hresolves, hexpand, hnotices⟩ := expand?_of_within h
    exact ⟨r, names, hresolves, fun _ _ h' => resolves_unique hresolves h', hexpand, hnotices⟩
  · refine ⟨expand?_of_not_within h, fun r names hresolves => ?_⟩
    obtain ⟨-, rfl⟩ := settled v hresolves
    exact ((meets_walk v Stack.frames).first.filter _).map _

end

/-- An environment of one variable, whose value looks like a placeholder. -/
def lookalike (name : String) : Option String := if name = "A" then some "${B}" else none

example : Placeholder.expand lookalike "${A}$${B}$\x7b" = "${B}$$\x7b" := by decide +kernel

/-- A mapping whose key and text have placeholders. -/
def withPlaceholders : Value :=
  .mapping [(.text "${A}", .list [.text "${A}$${B}$\x7b", .integer 3])]

/-- What becomes of this mapping there. -/
theorem expanded_withPlaceholders :
    Within lookalike Stack.frames withPlaceholders ∧
    ∃ r names, Resolves lookalike withPlaceholders r names ∧
      (∀ r' names', Resolves lookalike withPlaceholders r' names' → r' = r ∧ names' = names) ∧
      withPlaceholders.expand? lookalike = some r ∧
      withPlaceholders.unsetNotices lookalike = names.map .unsetVariable := by
  have h : Within lookalike Stack.frames withPlaceholders := by
    refine within_mapping.mpr ⟨by decide, fun f hf => ?_⟩
    obtain rfl := List.mem_singleton.mp hf
    refine within_list.mpr ⟨by decide, List.forall_mem_cons.mpr ⟨?_, fun v hv => ?_⟩⟩
    · exact within_text.mpr ⟨Nat.zero_le _, fun _ _ => Nat.zero_le _⟩
    · obtain rfl := List.mem_singleton.mp hv
      exact .kept trivial (Nat.zero_le _)
  exact ⟨h, (expanded_as_told lookalike withPlaceholders).2.1 h⟩

/-- A text in a number of lists, one inside the other. -/
def nested : ℕ → Value
  | 0 => .text "x"
  | n + 1 => .list [nested n]

theorem resolves_nested (lookup : String → Option String) (n : ℕ) :
    Resolves lookup (nested n) (nested n) [] := by
  induction n with
  | zero =>
    have hliteral : Literal [.char 'x'] := by
      intro before name behind _ heq
      have hlength := congrArg List.length heq
      simp [placeholder] at hlength
      omega
    exact .text (p := ⟨[.char 'x'], []⟩) ⟨rfl, hliteral, List.forall_mem_nil _⟩ rfl
  | succ n ih => exact .list (.cons ih .nil)

/-- Each of the lists takes its frames. -/
theorem mul_le_of_within [Stack] {n : ℕ} (h : Within lookup depth (nested n)) :
    n * Stack.list ≤ depth := by
  induction n generalizing depth with
  | zero => rw [zero_mul]; exact Nat.zero_le _
  | succ n ih =>
    obtain ⟨hdepth, hall⟩ := within_list.mp h
    have hinner := ih (hall _ (List.mem_singleton_self _))
    rw [Nat.succ_mul]
    omega

/-- **A value that is nested too deeply is refused**, though it is clear what would become of it, and
there is such a value for each machine. -/
theorem not_expanded_nested :
    Resolves (fun _ => none) (.mapping [(.text "k", nested 1200)])
      (.mapping [(.text "k", nested 1200)]) [] ∧
    expand? (.mapping [(.text "k", nested 1200)]) (fun _ => none) = none ∧
    ∀ _ : Stack, ∃ n, expand? (.mapping [(.text "k", nested n)]) (fun _ => none) = none := by
  have hdeep [Stack] {n : ℕ} (hn : Stack.frames < n * Stack.list) :
      expand? (.mapping [(.text "k", nested n)]) (fun _ => none) = none := by
    refine expand?_of_not_within fun h => ?_
    have hwithin := mul_le_of_within ((within_mapping.mp h).2 _ (List.mem_singleton_self _))
    omega
  refine ⟨.mapping rfl (.cons (resolves_nested _ 1200) .nil), hdeep (by decide), fun _ => ?_⟩
  exact ⟨Stack.frames + 1, hdeep (Nat.lt_of_lt_of_le (Nat.lt_succ_self _)
    (Nat.le_mul_of_pos_right _ Stack.list_pos))⟩

end SuiteBalance.Value
