import Mathlib
import SuiteBalance.Text.Utf8

/-!
# Proofs — Text — UTF-8

The bytes of a text are decoded to the text, at once or block by block: a character whose bytes fall
into two blocks is carried over from the one to the other.

* `toList_toUTF8`: the bytes of a text are those of its characters.
* `scan_encodeChar`: the decoder reads the bytes of one character.
* **`decode_toUTF8`**: the bytes of a text are decoded to the text.
* **`decodeBlocks_of_decode`**: a reader of blocks delivers what is decoded at once.
-/

namespace SuiteBalance.Text

/-! ### The bytes of a text -/

theorem toList_loop (bytes : ByteArray) (i : ℕ) (done : List UInt8) :
    ByteArray.toList.loop bytes i done = done.reverse ++ bytes.data.toList.drop i := by
  fun_induction ByteArray.toList.loop bytes i done with
  | case1 i done h ih =>
      have hlt : i < bytes.data.toList.length := by simpa using h
      have hget : bytes.get! i = bytes.data.toList[i] := getElem!_pos bytes.data i h
      rw [ih, List.reverse_cons, List.append_assoc, hget, List.drop_eq_getElem_cons hlt]
      rfl
  | case2 i done h =>
      have hle : bytes.data.toList.length ≤ i := by simpa using h
      rw [List.drop_eq_nil_of_le hle, List.append_nil]

/-- The bytes of a text are those of its characters. -/
theorem toList_toUTF8 (s : List Char) :
    (String.ofList s).toUTF8.toList = s.flatMap String.utf8EncodeChar := by
  change (String.ofList s).toByteArray.toList = _
  rw [ByteArray.toList, toList_loop, String.toByteArray_ofList, List.utf8Encode,
    List.toList_data_toByteArray]
  rfl

namespace Utf8

/-! ### One character -/

theorem lead?_two : ∀ n < 0x20, 2 ≤ n →
    lead? (.ofNat (n + 0xc0)) = some ⟨1, 0x80, 0xbf, n, 1, .ofNat (n + 0xc0)⟩ := by
  decide

theorem lead?_three : ∀ n < 0x10, lead? (.ofNat (n + 0xe0)) =
    some ⟨2, if n = 0 then 0xa0 else 0x80, if n = 0xd then 0x9f else 0xbf, n, 1,
      .ofNat (n + 0xe0)⟩ := by
  decide

theorem lead?_four : ∀ n < 5, lead? (.ofNat (n + 0xf0)) =
    some ⟨3, if n = 0 then 0x90 else 0x80, if n = 4 then 0x8f else 0xbf, n, 1,
      .ofNat (n + 0xf0)⟩ := by
  decide

variable {position : ℕ} {state : Option Partial} {done done' : List Char}
  {bytes front rest : List UInt8} {text : List Char}

theorem toNat_continuation {n : ℕ} (h : n < 0x40) : (UInt8.ofNat (n + 0x80)).toNat = n + 0x80 := by
  rw [UInt8.toNat_ofNat', Nat.mod_eq_of_lt (by omega)]

/-- A byte in the range of a sequence begun adds six bits to it. -/
theorem scan_continuation {p : Partial} {n : ℕ} (h : n < 0x40) (hlow : p.low.toNat ≤ n + 0x80)
    (hhigh : n + 0x80 ≤ p.high.toNat) (position : ℕ) (done : List Char) (rest : List UInt8) :
    scan position (some p) done (.ofNat (n + 0x80) :: rest) =
      if p.missing - 1 = 0 then
        scan (position + 1) none (Char.ofNat (p.value * 0x40 + n) :: done) rest
      else scan (position + 1)
        (some ⟨p.missing - 1, 0x80, 0xbf, p.value * 0x40 + n, p.length + 1, p.first⟩)
        done rest := by
  have hin : (p.low ≤ .ofNat (n + 0x80) && .ofNat (n + 0x80) ≤ p.high) = true := by
    simp only [Bool.and_eq_true, decide_eq_true_eq, UInt8.le_iff_toNat_le, toNat_continuation h]
    exact ⟨hlow, hhigh⟩
  have hextend : p.extend (.ofNat (n + 0x80)) =
      ⟨p.missing - 1, 0x80, 0xbf, p.value * 0x40 + n, p.length + 1, p.first⟩ := by
    rw [Partial.extend, toNat_continuation h, Nat.add_sub_cancel]
  rw [scan, if_pos hin, hextend]

variable {low high : UInt8} {value length n : ℕ} {first : UInt8}

/-- The last byte of a sequence completes a character. -/
theorem scan_last (h : n < 0x40) (hlow : low.toNat ≤ n + 0x80) (hhigh : n + 0x80 ≤ high.toNat) :
    scan position (some ⟨1, low, high, value, length, first⟩) done (.ofNat (n + 0x80) :: rest) =
      scan (position + 1) none (Char.ofNat (value * 0x40 + n) :: done) rest :=
  scan_continuation h hlow hhigh position done rest

/-- The bytes before the last one leave the sequence open. -/
theorem scan_inner {missing : ℕ} (h : n < 0x40) (hlow : low.toNat ≤ n + 0x80)
    (hhigh : n + 0x80 ≤ high.toNat) :
    scan position (some ⟨missing + 2, low, high, value, length, first⟩) done
        (.ofNat (n + 0x80) :: rest) =
      scan (position + 1) (some ⟨missing + 1, 0x80, 0xbf, value * 0x40 + n, length + 1, first⟩) done
        rest :=
  scan_continuation h hlow hhigh position done rest

/-- The first byte of a sequence begins it. -/
theorem scan_lead {b : UInt8} {p : Partial} (h : lead? b = some p) (hb : 0x80 ≤ b)
    (position : ℕ) (done : List Char) (rest : List UInt8) :
    scan position none done (b :: rest) = scan (position + 1) (some p) done rest := by
  rw [scan, if_neg (UInt8.not_lt.mpr hb), h]

theorem le_ofNat {n : ℕ} (hlow : 0x80 ≤ n) (hhigh : n < 0x100) : (0x80 : UInt8) ≤ .ofNat n := by
  rw [UInt8.le_iff_toNat_le, UInt8.toNat_ofNat', Nat.mod_eq_of_lt hhigh]
  exact hlow

theorem byte_le {n : ℕ} (h : n < 0x40) : n + 0x80 ≤ (0xbf : UInt8).toNat :=
  Nat.add_le_add_right (Nat.le_of_lt_succ h) 0x80

theorem scan_one {v : ℕ} (h : v < 0x80) (position : ℕ) (done : List Char) (rest : List UInt8) :
    scan position none done (.ofNat v :: rest) =
      scan (position + 1) none (Char.ofNat v :: done) rest := by
  have htoNat : (UInt8.ofNat v).toNat = v := by
    rw [UInt8.toNat_ofNat', Nat.mod_eq_of_lt (by omega)]
  have hlt : UInt8.ofNat v < 0x80 := by
    rw [UInt8.lt_iff_toNat_lt, htoNat]
    exact h
  rw [scan, if_pos hlt, htoNat]

theorem scan_two {v : ℕ} (hlow : 0x80 ≤ v) (hhigh : v < 0x800) (position : ℕ) (done : List Char)
    (rest : List UInt8) :
    scan position none done (.ofNat (v / 64 % 32 + 0xc0) :: .ofNat (v % 64 + 0x80) :: rest) =
      scan (position + 2) none (Char.ofNat v :: done) rest := by
  have hv : v / 64 % 32 * 0x40 + v % 64 = v := by omega
  rw [scan_lead (lead?_two _ (by omega) (by omega)) (le_ofNat (by omega) (by omega)),
    scan_last (by omega) (Nat.le_add_left _ _) (byte_le (by omega)), hv]

/-- The second byte of three is held to a range that depends on the first one; a character that is
no surrogate stays within it. -/
theorem scan_three {v : ℕ} (hlow : 0x800 ≤ v) (hhigh : v < 0x10000) (hv : v < 0xd800 ∨ 0xdfff < v)
    (position : ℕ) (done : List Char) (rest : List UInt8) :
    scan position none done (.ofNat (v / 4096 % 16 + 0xe0) :: .ofNat (v / 64 % 64 + 0x80) ::
        .ofNat (v % 64 + 0x80) :: rest) =
      scan (position + 3) none (Char.ofNat v :: done) rest := by
  have hleast : (if v / 4096 % 16 = 0 then (0xa0 : UInt8) else 0x80).toNat ≤
      v / 64 % 64 + 0x80 := by
    split_ifs
    · change 0xa0 ≤ _
      omega
    · exact Nat.le_add_left _ _
  have hgreatest : v / 64 % 64 + 0x80 ≤
      (if v / 4096 % 16 = 0xd then (0x9f : UInt8) else 0xbf).toNat := by
    split_ifs
    · change _ ≤ 0x9f
      omega
    · exact byte_le (by omega)
  have hv : (v / 4096 % 16 * 0x40 + v / 64 % 64) * 0x40 + v % 64 = v := by omega
  rw [scan_lead (lead?_three _ (by omega)) (le_ofNat (by omega) (by omega)),
    scan_inner (by omega) hleast hgreatest,
    scan_last (by omega) (Nat.le_add_left _ _) (byte_le (by omega)), hv]

/-- The second byte of four is held to a range that depends on the first one; a character is not
beyond it. -/
theorem scan_four {v : ℕ} (hlow : 0x10000 ≤ v) (hhigh : v < 0x110000) (position : ℕ)
    (done : List Char) (rest : List UInt8) :
    scan position none done (.ofNat (v / 262144 % 8 + 0xf0) :: .ofNat (v / 4096 % 64 + 0x80) ::
        .ofNat (v / 64 % 64 + 0x80) :: .ofNat (v % 64 + 0x80) :: rest) =
      scan (position + 4) none (Char.ofNat v :: done) rest := by
  have hleast : (if v / 262144 % 8 = 0 then (0x90 : UInt8) else 0x80).toNat ≤
      v / 4096 % 64 + 0x80 := by
    split_ifs
    · change 0x90 ≤ _
      omega
    · exact Nat.le_add_left _ _
  have hgreatest : v / 4096 % 64 + 0x80 ≤
      (if v / 262144 % 8 = 4 then (0x8f : UInt8) else 0xbf).toNat := by
    split_ifs
    · change _ ≤ 0x8f
      omega
    · exact byte_le (by omega)
  have hv : ((v / 262144 % 8 * 0x40 + v / 4096 % 64) * 0x40 + v / 64 % 64) * 0x40 + v % 64 = v := by
    omega
  rw [scan_lead (lead?_four _ (by omega)) (le_ofNat (by omega) (by omega)),
    scan_inner (by omega) hleast hgreatest,
    scan_inner (by omega) (Nat.le_add_left _ _) (byte_le (by omega)),
    scan_last (by omega) (Nat.le_add_left _ _) (byte_le (by omega)), hv]

/-- **The decoder reads the bytes of one character.** -/
theorem scan_encodeChar (c : Char) (position : ℕ) (done : List Char) (rest : List UInt8) :
    scan position none done (String.utf8EncodeChar c ++ rest) =
      scan (position + (String.utf8EncodeChar c).length) none (c :: done) rest := by
  obtain ⟨v, hv⟩ : ∃ v, v = c.val.toNat := ⟨_, rfl⟩
  have hvalid : v < 0xd800 ∨ 0xdfff < v ∧ v < 0x110000 := hv ▸ c.valid
  have hchar : c = Char.ofNat v := by
    rw [hv]
    exact (Char.ofNat_toNat c).symm
  simp only [String.utf8EncodeChar, ← hv]
  rw [hchar]
  split_ifs with h₁ h₂ h₃
  · exact scan_one (by omega) position done rest
  · exact scan_two (by omega) (by omega) position done rest
  · exact scan_three (by omega) (by omega) (by omega) position done rest
  · exact scan_four (by omega) (by omega) position done rest

/-! ### Texts -/

theorem scan_encode (s : List Char) (position : ℕ) (done : List Char) :
    scan position none done (s.flatMap String.utf8EncodeChar) = .ok (s.reverse ++ done, none) := by
  induction s generalizing position done with
  | nil => rfl
  | cons c s ih =>
      rw [List.flatMap_cons, scan_encodeChar, ih, List.reverse_cons, List.append_assoc]
      rfl

end Utf8

/-- **The bytes of a text are decoded to the text.** -/
theorem decode_toUTF8 (s : List Char) : Utf8.decode (String.ofList s).toUTF8.toList = .ok s := by
  rw [Utf8.decode, toList_toUTF8, Utf8.scan_encode]
  simp

/-! ### Blocks -/

namespace Utf8

variable {r : List Char × Option Partial}

/-- Where bytes stand matters to their faults alone. -/
theorem scan_anywhere (h : scan position state done bytes = .ok r) (other : ℕ) :
    scan other state done bytes = .ok r := by
  fun_induction scan position state done bytes generalizing other with
  | case1 => exact h
  | case2 position done b rest hb ih => rw [scan, if_pos hb, ih h]
  | case3 => cases h
  | case4 position done b rest hb p hlead ih => rw [scan_lead hlead (UInt8.not_lt.mp hb), ih h]
  | case5 position done b rest p hin p' hp' ih => rw [scan, if_pos hin, if_pos hp', ih h]
  | case6 position done b rest p hin p' hp' ih => rw [scan, if_pos hin, if_neg hp', ih h]
  | case7 => cases h

/-- Bytes that are decoded are decoded part by part. -/
theorem scan_parts (h : scan position state done (front ++ rest) = .ok r) :
    ∃ done' state', scan position state done front = .ok (done', state') ∧
      ∃ behind, scan behind state' done' rest = .ok r := by
  fun_induction scan position state done front with
  | case1 position state done => exact ⟨done, state, rfl, position, h⟩
  | case2 position done b front hb ih =>
      rw [List.cons_append, scan, if_pos hb] at h
      exact ih h
  | case3 position done b front hb hlead =>
      rw [List.cons_append, scan, if_neg hb, hlead] at h
      cases h
  | case4 position done b front hb p hlead ih =>
      rw [List.cons_append, scan_lead hlead (UInt8.not_lt.mp hb)] at h
      exact ih h
  | case5 position done b front p hin p' hp' ih =>
      rw [List.cons_append, scan, if_pos hin, if_pos hp'] at h
      exact ih h
  | case6 position done b front p hin p' hp' ih =>
      rw [List.cons_append, scan, if_pos hin, if_neg hp'] at h
      exact ih h
  | case7 position done b front p hin =>
      rw [List.cons_append, scan, if_neg hin] at h
      cases h

/-- The blocks of a text make up what is decoded at once. -/
theorem decodeBlocksFrom_of_scan {size fuel : ℕ} (hsize : 0 < size) (hfuel : bytes.length < fuel)
    (h : scan position state done bytes = .ok (done', none)) :
    decodeBlocksFrom size fuel state done bytes = ⟨done'.reverse, none⟩ := by
  induction fuel generalizing bytes state done position with
  | zero => exact absurd hfuel (Nat.not_lt_zero _)
  | succ fuel ih =>
      cases bytes with
      | nil =>
          rw [scan] at h
          obtain ⟨rfl, rfl⟩ := Prod.mk.inj (Except.ok.inj h)
          rfl
      | cons b rest =>
          rw [← List.take_append_drop size (b :: rest)] at h
          obtain ⟨middle, between, hfront, behind, hrest⟩ := scan_parts h
          have hshorter : ((b :: rest).drop size).length < fuel := by
            rw [List.length_drop]
            simp only [List.length_cons] at hfuel ⊢
            omega
          rw [decodeBlocksFrom, scan_anywhere hfront]
          · exact ih hshorter hrest
          all_goals simp

/-- **A reader of blocks delivers what is decoded at once.** -/
theorem decodeBlocks_of_decode (h : decode bytes = .ok text) :
    decodeBlocks bytes = ⟨text, none⟩ := by
  unfold decode at h
  split at h
  · cases h
  · next done hscan =>
    obtain rfl := Except.ok.inj h
    exact decodeBlocksFrom_of_scan (by decide) (Nat.lt_succ_self _) hscan
  · cases h

end Utf8

end SuiteBalance.Text
