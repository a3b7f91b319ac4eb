import Mathlib
import SuiteBalance.Proofs.Settings.Blank

/-!
# Proofs — Settings — configurations that differ aside

Two configurations may say different things about the number of forks, the file of durations and the
sources, and the same of everything else.  A path alone may stand for the timings where a mapping
stands in the other, as long as that has the columns that stand in for missing ones.  The settings
that are loaded then have the same columns and the same output.

* `TextSetting.value`, **`DifferAside`**: what is set for a text, and two configurations that set
  the same texts but for the path of the timings.
* `of_load`: settings that are loaded have been taken out of what the configuration file holds.
* `TextSetting.of_expanded`: a text is what is set for it, with variables put in.
* **`DifferAside.of_load`**: the settings of two such configurations.
-/

namespace SuiteBalance.Settings

open Value Workspace

variable {fields fields' : List (Value × Value)} {lookup : String → Option String}
  {fallbacks : Fallbacks} {w v : Workspace} {s s' : Settings} {x x' : Value} {root : String}

/-- The fields of a configuration; one that is no mapping has none. -/
def fieldsOf : Value → List (Value × Value)
  | .mapping fields => fields
  | _ => []

/-- What is set for a text, or the text that stands in for it. -/
def TextSetting.value (fields : List (Value × Value)) (o : TextSetting) : Value :=
  (o.field? fields).getD (.text (o.standIn {}))

/-- Two configurations say the same, but for what a call can set instead: the number of forks, the
sources, and the path of the timings. -/
def DifferAside (x x' : Value) : Prop :=
  ∀ o : TextSetting, o ≠ .timingsPath → o.value (fieldsOf x') = o.value (fieldsOf x)

/-! ### Settings that are loaded -/

variable [Stack]

theorem yields_of_ofValue {root : Path} (h : (ofValue root fallbacks lookup x).1 = .ok s) :
    Yields (take root fallbacks (expandFields lookup (fieldsOf x))) s := by
  cases x with
  | mapping fields =>
      rw [ofValue_mapping] at h
      split_ifs at h
      exact yields_of_ofExpanded h
  | _ => exact yields_of_ofExpanded h

/-- **Settings that are loaded have been taken** out of the value that the configuration file
holds. -/
theorem of_load [Yaml.Loader] (h : (ask (load root) w).1.1 = .ok s) :
    ∃ x, (ask (valueAt (filePath w.directory root) : StateM Workspace _) w).1 = .ok x ∧
      Yields (take ((Path.ofText root).resolve w.directory) (fallbacksIn w.environment)
        (expandFields w.environment.get? (fieldsOf x))) s := by
  cases hroot : (Path.ofText root).refusal? with
  | some problem =>
      rw [load, ask_bind, Host.resolve, hroot] at h
      cases h
  | none =>
      cases hvalue : (ask (valueAt (filePath w.directory root) : StateM Workspace _) w).1 with
      | error e =>
          rw [load, ask_bind, Host.resolve, hroot] at h
          change (ask (_ >>= fun outcome => _ : StateM Workspace Loaded) w).1.1 = _ at h
          rw [filePath] at hvalue
          rw [ask_bind, hvalue] at h
          cases h
      | ok x =>
          rw [ask_load_of_valueAt hroot hvalue] at h
          exact ⟨x, rfl, yields_of_ofValue h⟩

/-- The root of settings is where they were loaded. -/
theorem root_of_take {root : Path} (h : Yields (take root fallbacks fields) s) : s.root = root := by
  obtain ⟨forks, -, h⟩ := h.of_bind
  obtain ⟨timings, -, h⟩ := h.of_bind
  obtain ⟨sources, -, h⟩ := h.of_bind
  obtain ⟨output, -, h⟩ := h.of_bind
  rw [h.eq_of_pure]

/-! ### Texts -/

omit [Stack] in
/-- A text without a dollar sign has no placeholders. -/
theorem expand_of_notMem {t : Text} (h : .char '$' ∉ t.points) :
    Placeholder.expand lookup t = t := by
  have hliteral : Placeholder.Literal t.points := by
    intro before name behind _ heq
    rw [heq] at h
    simp [Placeholder.placeholder] at h
  have hpieces := Placeholder.pieces_literal (t := []) hliteral (by simp)
  rw [List.append_nil, Placeholder.pieces, List.append_nil] at hpieces
  rw [Placeholder.expand, hpieces, List.flatMap_map]
  have hpoints : t.points.flatMap (fun p => Placeholder.Piece.expand lookup (.point p)) =
      t.points := List.flatMap_singleton' _
  rw [hpoints, Text.ofPoints_points]

omit [Stack] in
/-- What stands in for a text other than the path of the timings has no placeholders, and does not
come from the environment. -/
theorem TextSetting.plain_expand_standIn {o : TextSetting} (ho : o ≠ .timingsPath) :
    plain (expand lookup (.text (o.standIn {}))) = o.standIn fallbacks := by
  have hdollar : .char '$' ∉ (o.standIn {}).points := by cases o <;> decide
  rw [expand, expand_of_notMem hdollar]
  cases o with
  | timingsPath => exact absurd rfl ho
  | _ => rfl

/-- **A text is what is set for it**, with variables put in, or what stands in for it. -/
theorem TextSetting.of_expanded {root : Path}
    (h : Yields (take root fallbacks (expandFields lookup fields)) s) {o : TextSetting}
    (ho : o ≠ .timingsPath) : o.of s = plain (expand lookup (o.value fields)) := by
  rw [of_take h fun heq => absurd heq ho, field?_expandFields, value]
  cases o.field? fields with
  | none => exact (plain_expand_standIn ho).symm
  | some v => rfl

/-- **The settings of two configurations that differ aside** have the same root, the same columns
and the same output. -/
theorem DifferAside.of_load [Yaml.Loader] (hdiffer : DifferAside x x')
    (hdirectory : v.directory = w.directory) (henvironment : v.environment = w.environment)
    (hvalue : (ask (valueAt (filePath w.directory root) : StateM Workspace _) w).1 = .ok x)
    (hvalue' : (ask (valueAt (filePath v.directory root) : StateM Workspace _) v).1 = .ok x')
    (hload : (ask (load root) w).1.1 = .ok s) (hload' : (ask (load root) v).1.1 = .ok s') :
    s'.root = s.root ∧ ∀ o : TextSetting, o ≠ .timingsPath → o.of s' = o.of s := by
  obtain ⟨y, hy, htaken⟩ := Settings.of_load hload
  obtain ⟨y', hy', htaken'⟩ := Settings.of_load hload'
  obtain rfl : x = y := Except.ok.inj (hvalue.symm.trans hy)
  obtain rfl : x' = y' := Except.ok.inj (hvalue'.symm.trans hy')
  refine ⟨?_, fun o ho => ?_⟩
  · rw [root_of_take htaken, root_of_take htaken', hdirectory]
  · rw [TextSetting.of_expanded htaken ho, TextSetting.of_expanded htaken' ho, hdiffer o ho,
      henvironment]

end SuiteBalance.Settings
