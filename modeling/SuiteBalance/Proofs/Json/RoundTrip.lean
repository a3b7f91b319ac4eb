import Mathlib
import SuiteBalance.Json.Parser
import SuiteBalance.Proofs.Entries
import SuiteBalance.Proofs.Json.Token

/-!
# Proofs — JSON — the round trip

A document that is written is read back as its value.

* **`Fits`**: a value can be written and read, within a number of levels: its texts are unpaired,
  its integers have few enough digits, and the names in an object are distinct.
* **`Leads`**: from a state of the reader some characters lead to a value.
* **`parse_write`**: the text of a value that fits is read as the value.
-/

namespace SuiteBalance.Json

open Number

/-! ### Runs of the reader -/

section Runs

variable [Levels]

/-- From a state the characters lead to the end of a document with a value. -/
inductive Leads (v : Json) : State → List Char → Prop
  | finished : Leads v (.finished v) []
  | space {S : State} {c : Char} {s : List Char} (hc : isSpace c = true) (h : Leads v S s) :
      Leads v S (c :: s)
  | token {S S' : State} {t : Token} {s rest : List Char} (hread : ReadsAs s t rest)
      (hstep : S.step t = .ok S') (h : Leads v S' rest) : Leads v S (s ++ rest)

/-- No state goes on behind what is wrong. -/
theorem step_faulty (S : State) (problem : Problem) (position : ℕ) (S' : State) :
    S.step (.faulty problem position) ≠ .ok S' := by
  cases S <;> cases problem <;>
    simp [State.step, State.beginValue, State.beginField]

theorem step_junk (S S' : State) : S.step .junk ≠ .ok S' := by
  cases S <;> simp [State.step, State.beginValue, State.beginField]

/-- The tokens behind a token. -/
theorem tokensFrom_token {S S' : State} {t : Token} (hstep : S.step t = .ok S') {s rest : List Char}
    (hread : ReadsAs s t rest) (fuel position : ℕ) (done : List (ℕ × Token)) : ∃ behind,
      tokensFrom (fuel + 1) position done (s ++ rest) =
        tokensFrom fuel behind ((position, t) :: done) rest := by
  obtain ⟨c, s', rfl, hspace, hread⟩ := hread
  obtain ⟨behind, hread⟩ := hread position
  refine ⟨behind, ?_⟩
  rw [List.cons_append, tokensFrom, hspace, if_neg Bool.false_ne_true, hread]
  -- the reader stops behind what is wrong, but no state takes that
  cases t with
  | faulty problem position => exact absurd hstep (step_faulty S problem position S')
  | junk => exact absurd hstep (step_junk S S')
  | _ => rfl

/-- **What leads to a value is run to it.** -/
theorem Leads.run {v : Json} {S : State} {s : List Char} (h : Leads v S s) :
    ∀ fuel position done, s.length < fuel → ∃ rest,
      tokensFrom fuel position done s = done.reverse ++ rest ∧ S.run rest = .ok (.finished v) := by
  -- the induction is on the way; each step of it leaves less text, so the fuel lasts
  induction h with
  | finished =>
      intro fuel position done hfuel
      obtain ⟨fuel, rfl⟩ := Nat.exists_eq_add_one.mpr hfuel
      exact ⟨[(position, .ended)], List.reverse_cons, rfl⟩
  | @space S c s hc _ ih =>
      intro fuel position done hfuel
      obtain ⟨fuel, rfl⟩ := Nat.exists_eq_add_one.mpr (Nat.zero_lt_of_lt hfuel)
      obtain ⟨rest, htokens, hrun⟩ := ih fuel (position + 1) done (Nat.lt_of_succ_lt_succ hfuel)
      exact ⟨rest, by rw [tokensFrom, hc, if_pos rfl, htokens], hrun⟩
  | @token S S' t s rest hread hstep _ ih =>
      intro fuel position done hfuel
      obtain ⟨fuel, rfl⟩ := Nat.exists_eq_add_one.mpr (Nat.zero_lt_of_lt hfuel)
      have hpos : 0 < s.length := by
        obtain ⟨c, s', rfl, -⟩ := hread
        exact Nat.succ_pos _
      rw [List.length_append] at hfuel
      obtain ⟨behind, htoken⟩ := tokensFrom_token hstep hread fuel position done
      obtain ⟨more, htokens, hrun⟩ := ih fuel behind ((position, t) :: done) (by omega)
      refine ⟨(position, t) :: more, ?_, ?_⟩
      · rw [htoken, htokens, List.reverse_cons, List.append_assoc]
        rfl
      · rw [State.run, hstep]
        exact hrun

/-- What leads to a value from the start is a document with the value. -/
theorem Leads.parse {v : Json} {s : List Char} (h : Leads v (.value []) s)
    (hmark : s.head? ≠ some (Char.ofNat 0xfeff)) : Json.parse s = .ok v := by
  obtain ⟨rest, htokens, hrun⟩ := h.run (s.length + 1) 0 [] (Nat.lt_succ_self _)
  have htokens : tokens s = rest := htokens
  unfold Json.parse
  rw [if_neg hmark, htokens, hrun]

/-- Line breaks and indentation lead on. -/
theorem Leads.newLine {v : Json} {S : State} {s : List Char} (h : Leads v S s) (level : ℕ) :
    Leads v S (newLine level ++ s) := by
  refine .space rfl ?_
  induction 2 * level with
  | zero => exact h
  | succ k ih => exact .space rfl ih

end Runs

/-! ### Values -/

/-- A value can be written and read within a number of levels. -/
inductive Fits : ℕ → Json → Prop
  | null {levels : ℕ} : Fits levels .null
  | bool {levels : ℕ} (b : Bool) : Fits levels (.bool b)
  | integer {levels : ℕ} {n : ℤ} (h : isWritable n = true) : Fits levels (.integer n)
  | real {levels : ℕ} (x : Float) : Fits levels (.real x)
  | text {levels : ℕ} {t : Text} (h : t.Unpaired) : Fits levels (.text t)
  | array {levels : ℕ} {items : List Json} (h : ∀ v ∈ items, Fits levels v) :
      Fits (levels + 1) (.array items)
  | object {levels : ℕ} {fields : List (Text × Json)} (distinct : (fields.map Prod.fst).Nodup)
      (names : ∀ f ∈ fields, f.1.Unpaired) (h : ∀ f ∈ fields, Fits levels f.2) :
      Fits (levels + 1) (.object fields)

section Awaiting

variable [Levels]

/-- A value may come, inside of the given frames. -/
def Awaits (S : State) (stack : List Frame) : Prop :=
  ∀ t, t ≠ .closeArray → S.step t = State.beginValue stack t

theorem awaits_value (stack : List Frame) : Awaits (.value stack) stack := fun _ _ => rfl

theorem awaits_firstItem (stack : List Frame) :
    Awaits (.firstItem stack) (.items [] :: stack) := by
  intro t ht
  cases t with
  | closeArray => exact absurd rfl ht
  | _ => rfl

/-- What is written for a value leads behind it, wherever a value may come and enough levels are
left. -/
def Readable (levels : ℕ) (v : Json) : Prop :=
  ∀ {w : Json} {S : State} {stack : List Frame} {rest : List Char} (level : ℕ), Awaits S stack →
    stack.length + levels ≤ Levels.limit → EndsNumber rest → Leads w (State.deliver v stack) rest →
    Leads w S (write level v ++ rest)

theorem readable_of_scalar {levels : ℕ} {v : Json}
    (h : ∀ level rest, EndsNumber rest → ReadsAs (write level v) (.scalar v) rest) :
    Readable levels v := by
  intro w S stack rest level hS _ hrest hlead
  refine .token (h level rest hrest) ?_ hlead
  rw [hS (.scalar v) nofun]
  rfl

end Awaiting

variable {levels : ℕ} {w : Json} {stack : List Frame} {rest : List Char}

theorem endsNumber_nil : EndsNumber [] := nofun

theorem endsNumber_comma (s : List Char) : EndsNumber (',' :: s) := by
  intro c hc
  obtain rfl := Option.some_inj.mp hc
  decide

theorem endsNumber_newLine (level : ℕ) (s : List Char) : EndsNumber (newLine level ++ s) := by
  intro c hc
  obtain rfl := Option.some_inj.mp hc
  decide

theorem endsNumber_items (level : ℕ) (items : List Json) (s : List Char) :
    EndsNumber (writeItems level items ++ s) := by
  cases items with
  | nil =>
      rw [writeItems, List.append_assoc]
      exact endsNumber_newLine level _
  | cons v items =>
      rw [writeItems]
      exact endsNumber_comma _

theorem endsNumber_fields (level : ℕ) (fields : List (Text × Json)) (s : List Char) :
    EndsNumber (writeFields level fields ++ s) := by
  cases fields with
  | nil =>
      rw [writeFields, List.append_assoc]
      exact endsNumber_newLine level _
  | cons f fields =>
      rw [writeFields]
      exact endsNumber_comma _

variable [Levels]

/-- The items behind the first. -/
theorem leads_items {items : List Json} (hitems : ∀ v ∈ items, Readable levels v)
    (hstack : stack.length + (levels + 1) ≤ Levels.limit) (level : ℕ) (done : List Json)
    (h : Leads w (State.deliver (.array (done.reverse ++ items)) stack) rest) :
    Leads w (.afterItem done stack) (writeItems level items ++ rest) := by
  induction items generalizing done with
  | nil =>
      rw [List.append_nil] at h
      rw [writeItems, List.append_assoc]
      exact (Leads.token (readsAs_mark (c := ']') rfl) rfl h).newLine level
  | cons v items ih =>
      rw [writeItems, List.cons_append, List.append_assoc, List.append_assoc]
      refine .token (readsAs_mark (c := ',') rfl) rfl (.newLine ?_ (level + 1))
      refine hitems v (List.mem_cons_self ..) (level + 1) (awaits_value _) ?_
        (endsNumber_items level items rest) ?_
      · rw [List.length_cons]
        omega
      · refine ih (fun v hv => hitems v (List.mem_cons_of_mem _ hv)) (v :: done) ?_
        rwa [List.reverse_cons, List.append_assoc]

/-- A name and its value. -/
theorem leads_field {v : Json} (hv : Readable levels v)
    (hstack : stack.length + (levels + 1) ≤ Levels.limit) (level : ℕ) {S : State} {name : Text}
    (hname : name.Unpaired) {done : List (Text × Json)}
    (hS : S.step (.text name) = .ok (.colon done name stack))
    (hrest : EndsNumber rest) (h : Leads w (.afterField (Entries.put done name v) stack) rest) :
    Leads w S (quoted name ++ (": ".toList ++ (write level v ++ rest))) := by
  refine .token (readsAs_text hname) hS ?_
  change Leads w _ ([':'] ++ ' ' :: (write level v ++ rest))
  refine .token (readsAs_mark (c := ':') rfl) rfl (.space rfl ?_)
  refine hv level (awaits_value _) ?_ hrest h
  rw [List.length_cons]
  omega

/-- The fields behind the first. -/
theorem leads_fields {fields : List (Text × Json)} (hvalues : ∀ f ∈ fields, Readable levels f.2)
    (names : ∀ f ∈ fields, f.1.Unpaired)
    (hstack : stack.length + (levels + 1) ≤ Levels.limit) (level : ℕ) (done : List (Text × Json))
    (distinct : ((done ++ fields).map Prod.fst).Nodup)
    (h : Leads w (State.deliver (.object (done ++ fields)) stack) rest) :
    Leads w (.afterField done stack) (writeFields level fields ++ rest) := by
  induction fields generalizing done with
  | nil =>
      rw [List.append_nil] at h
      rw [writeFields, List.append_assoc]
      exact (Leads.token (readsAs_mark (c := '}') rfl) rfl h).newLine level
  | cons f fields ih =>
      obtain ⟨name, v⟩ := f
      have hnew : name ∉ done.map Prod.fst := by
        rw [List.map_append, List.nodup_append] at distinct
        exact fun hmem => distinct.2.2 _ hmem _ (List.mem_cons_self ..) rfl
      rw [List.append_cons] at distinct h
      rw [writeFields, List.cons_append]
      simp only [List.append_assoc]
      refine .token (readsAs_mark (c := ',') rfl) rfl (.newLine ?_ (level + 1))
      refine leads_field (hvalues _ (List.mem_cons_self ..)) hstack (level + 1)
        (names _ (List.mem_cons_self ..)) rfl (endsNumber_fields level fields rest) ?_
      rw [Entries.put_new hnew]
      exact ih (fun f hf => hvalues f (List.mem_cons_of_mem _ hf))
        (fun f hf => names f (List.mem_cons_of_mem _ hf)) _ distinct h

/-- A text is a token of its own. -/
theorem readable_text {t : Text} (h : t.Unpaired) : Readable levels (.text t) := by
  intro w S stack rest level hS _ _ hlead
  rw [write]
  refine .token (readsAs_text h) ?_ hlead
  rw [hS (.text t) nofun]
  rfl

/-- An array can be read if its items can. -/
theorem readable_array {items : List Json} (h : ∀ v ∈ items, Readable levels v) :
    Readable (levels + 1) (.array items) := by
  intro w S stack rest level hS hstack _ hlead
  have hopen : S.step .openArray = .ok (.firstItem stack) := by
    rw [hS .openArray nofun, State.beginValue, State.opened, if_pos (by omega)]
  cases items with
  | nil =>
      rw [write]
      change Leads w S (['['] ++ ([']'] ++ rest))
      exact .token (readsAs_mark (c := '[') rfl) hopen
        (.token (readsAs_mark (c := ']') rfl) rfl hlead)
  | cons v items =>
      rw [write, List.cons_append, List.append_assoc, List.append_assoc]
      refine .token (readsAs_mark (c := '[') rfl) hopen (.newLine ?_ (level + 1))
      refine h v (List.mem_cons_self ..) (level + 1) (awaits_firstItem stack) ?_
        (endsNumber_items level items rest) ?_
      · rw [List.length_cons]
        omega
      · exact leads_items (fun v hv => h v (List.mem_cons_of_mem _ hv)) hstack level [v] hlead

/-- An object can be read if its values can. -/
theorem readable_object {fields : List (Text × Json)} (distinct : (fields.map Prod.fst).Nodup)
    (names : ∀ f ∈ fields, f.1.Unpaired) (h : ∀ f ∈ fields, Readable levels f.2) :
    Readable (levels + 1) (.object fields) := by
  intro w S stack rest level hS hstack _ hlead
  have hopen : S.step .openObject = .ok (.firstName stack) := by
    rw [hS .openObject nofun, State.beginValue, State.opened, if_pos (by omega)]
  cases fields with
  | nil =>
      rw [write]
      change Leads w S (['{'] ++ (['}'] ++ rest))
      exact .token (readsAs_mark (c := '{') rfl) hopen
        (.token (readsAs_mark (c := '}') rfl) rfl hlead)
  | cons f fields =>
      obtain ⟨name, v⟩ := f
      rw [write, List.cons_append]
      simp only [List.append_assoc]
      refine .token (readsAs_mark (c := '{') rfl) hopen (.newLine ?_ (level + 1))
      refine leads_field (h _ (List.mem_cons_self ..)) hstack (level + 1)
        (names _ (List.mem_cons_self ..)) rfl (endsNumber_fields level fields rest) ?_
      exact leads_fields (fun f hf => h f (List.mem_cons_of_mem _ hf))
        (fun f hf => names f (List.mem_cons_of_mem _ hf)) hstack level [(name, v)] distinct
        hlead

/-- **A value that fits can be read.** -/
theorem Fits.readable {v : Json} (h : Fits levels v) : Readable levels v := by
  induction h with
  | null =>
      refine readable_of_scalar fun _ _ _ => ?_
      rw [write]
      exact readsAs_word (List.mem_of_getElem? (i := 0) rfl)
  | bool b =>
      refine readable_of_scalar fun _ _ _ => ?_
      rw [write]
      exact readsAs_bool b
  | integer h =>
      refine readable_of_scalar fun _ _ hrest => ?_
      rw [write]
      exact readsAs_integer h hrest
  | real x =>
      refine readable_of_scalar fun _ _ hrest => ?_
      rw [write]
      exact readsAs_real x hrest
  | text h => exact readable_text h
  | array _ ih => exact readable_array ih
  | object distinct names _ ih => exact readable_object distinct names ih

/-- **The text of a value that fits is read as the value.** -/
theorem parse_write {v : Json} (h : Fits levels v) (hlevels : levels ≤ Levels.limit)
    (hmark : (write 0 v).head? ≠ some (Char.ofNat 0xfeff)) : Json.parse (write 0 v) = .ok v := by
  have hlead := h.readable (S := .value []) 0 (awaits_value []) (by simpa using hlevels)
    endsNumber_nil .finished
  rw [List.append_nil] at hlead
  exact hlead.parse hmark

end SuiteBalance.Json
