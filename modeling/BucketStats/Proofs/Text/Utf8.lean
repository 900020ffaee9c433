import BucketStats.Text.Utf8
import Mathlib.Tactic
/-!
# Decoding what was encoded

The UTF-8 bytes of a text decode to the text: nothing of it is replaced, whatever its characters are.
And whatever the bytes are, what stands before an ASCII byte and what stands after it are decoded each
by itself.
-/

namespace BucketStats.Text

section Bytes

variable {low high bits n : Nat} {rest : List UInt8}

theorem toNat_ofNat_of_lt (hlt : n < 256) : (UInt8.ofNat n).toNat = n :=
  UInt8.toNat_ofNat_of_lt' hlt

/-- The last byte of a character completes it. -/
theorem decodeFrom_last (hrange : low ≤ n % 64 + 128 ∧ n % 64 + 128 ≤ high) :
    decodeFrom (some ⟨1, low, high, bits⟩) (UInt8.ofNat (n % 64 + 128) :: rest) =
      Char.ofNat (bits * 64 + n % 64) :: decodeFrom none rest := by
  have hbyte : (UInt8.ofNat (n % 64 + 128)).toNat = n % 64 + 128 := toNat_ofNat_of_lt (by omega)
  simp only [decodeFrom, hbyte]
  rw [if_pos hrange, if_pos le_rfl, Nat.add_sub_cancel]

/-- Each byte before the last one adds six bits. -/
theorem decodeFrom_further (missing : Nat) (hrange : low ≤ n % 64 + 128 ∧ n % 64 + 128 ≤ high) :
    decodeFrom (some ⟨missing + 2, low, high, bits⟩) (UInt8.ofNat (n % 64 + 128) :: rest) =
      decodeFrom (some ⟨missing + 1, 0x80, 0xbf, bits * 64 + n % 64⟩) rest := by
  have hbyte : (UInt8.ofNat (n % 64 + 128)).toNat = n % 64 + 128 := toNat_ofNat_of_lt (by omega)
  simp only [decodeFrom, hbyte]
  rw [if_pos hrange, if_neg (by omega), Nat.add_sub_cancel]
  rfl

theorem decodeFrom_longer {first : Nat} {p : Pending} (hlt : first < 256)
    (hstart : startOf first = .longer p) :
    decodeFrom none (UInt8.ofNat first :: rest) = decodeFrom (some p) rest := by
  simp only [decodeFrom, toNat_ofNat_of_lt hlt, hstart]

end Bytes

section Starts

variable {n : Nat}

/-! The first byte of a longer character leaves it a range for the second one, in which it lies. -/

theorem startOf_two (hlow : 0x7f < n) (hhigh : n ≤ 0x7ff) :
    startOf (n / 64 % 32 + 192) = .longer ⟨1, 0x80, 0xbf, n / 64⟩ := by
  unfold startOf
  rw [if_neg (by omega), if_neg (by omega), if_pos (by omega)]
  have hbits : n / 64 % 32 + 192 - 0xc0 = n / 64 := by omega
  rw [hbits]

theorem exists_startOf_three (hlow : 0x7ff < n) (hhigh : n ≤ 0xffff)
    (hvalid : n < 0xd800 ∨ 0xdfff < n) :
    ∃ low high, startOf (n / 4096 % 16 + 224) = .longer ⟨2, low, high, n / 4096⟩ ∧
      low ≤ n / 64 % 64 + 128 ∧ n / 64 % 64 + 128 ≤ high := by
  have hbyte : n / 4096 % 16 = n / 4096 := by omega
  rw [hbyte]
  by_cases hleast : n / 4096 = 0
  · exact ⟨0xa0, 0xbf, by rw [hleast]; rfl, by omega, by omega⟩
  by_cases hsurrogate : n / 4096 = 13
  · exact ⟨0x80, 0x9f, by rw [hsurrogate]; rfl, by omega, by omega⟩
  · refine ⟨0x80, 0xbf, ?_, by omega, by omega⟩
    unfold startOf
    rw [if_neg (by omega), if_neg (by omega), if_neg (by omega), if_neg (by omega),
      if_neg (by omega), if_pos (by omega), Nat.add_sub_cancel]

theorem exists_startOf_four (hlow : 0xffff < n) (hhigh : n < 0x110000) :
    ∃ low high, startOf (n / 262144 % 8 + 240) = .longer ⟨3, low, high, n / 262144⟩ ∧
      low ≤ n / 4096 % 64 + 128 ∧ n / 4096 % 64 + 128 ≤ high := by
  have hbyte : n / 262144 % 8 = n / 262144 := by omega
  rw [hbyte]
  by_cases hleast : n / 262144 = 0
  · exact ⟨0x90, 0xbf, by rw [hleast]; rfl, by omega, by omega⟩
  by_cases hmost : n / 262144 = 4
  · exact ⟨0x80, 0x8f, by rw [hmost]; rfl, by omega, by omega⟩
  · refine ⟨0x80, 0xbf, ?_, by omega, by omega⟩
    unfold startOf
    rw [if_neg (by omega), if_neg (by omega), if_neg (by omega), if_neg (by omega),
      if_neg (by omega), if_neg (by omega), if_neg (by omega), if_pos (by omega),
      Nat.add_sub_cancel]

end Starts

/-- Code points are no surrogates and at most `U+10FFFF`. -/
theorem toNat_char (c : Char) : c.toNat < 0xd800 ∨ 0xdfff < c.toNat ∧ c.toNat < 0x110000 :=
  c.valid

/-- The bytes of a character decode to it. -/
theorem decodeFrom_utf8EncodeChar (c : Char) (rest : List UInt8) :
    decodeFrom none (String.utf8EncodeChar c ++ rest) = c :: decodeFrom none rest := by
  have hvalid := toNat_char c
  have hc : Char.ofNat c.toNat = c := Char.ofNat_toNat c
  have hn : c.val.toNat = c.toNat := rfl
  simp only [String.utf8EncodeChar, hn]
  generalize c.toNat = n at hvalid hc
  split_ifs with hone htwo hthree
  · have hbyte : (UInt8.ofNat n).toNat = n := toNat_ofNat_of_lt (by omega)
    rw [List.cons_append, List.nil_append, decodeFrom_none_ascii (by omega), hbyte, hc]
  · have hbits : n / 64 * 64 + n % 64 = n := by omega
    simp only [List.cons_append, List.nil_append]
    rw [decodeFrom_longer (by omega) (startOf_two (by omega) htwo), decodeFrom_last (by omega),
      hbits, hc]
  · obtain ⟨low, high, hstart, hrange⟩ :=
      exists_startOf_three (by omega) hthree (by omega)
    have hbits : (n / 4096 * 64 + n / 64 % 64) * 64 + n % 64 = n := by omega
    simp only [List.cons_append, List.nil_append]
    rw [decodeFrom_longer (by omega) hstart, decodeFrom_further 0 hrange,
      decodeFrom_last (by omega), hbits, hc]
  · obtain ⟨low, high, hstart, hrange⟩ := exists_startOf_four (n := n) (by omega) (by omega)
    have hbits : ((n / 262144 * 64 + n / 4096 % 64) * 64 + n / 64 % 64) * 64 + n % 64 = n := by
      omega
    simp only [List.cons_append, List.nil_append]
    rw [decodeFrom_longer (by omega) hstart, decodeFrom_further 1 hrange,
      decodeFrom_further 0 (by omega), decodeFrom_last (by omega), hbits, hc]

/-- The bytes of a text decode to the text. -/
theorem decodeUtf8_toUTF8 (s : String) : decodeUtf8 s.toUTF8.data.toList = s.toList := by
  have hbytes : s.toUTF8.data.toList = s.toList.flatMap String.utf8EncodeChar := by
    rw [String.toUTF8_eq_toByteArray, ← String.utf8Encode_toList, List.utf8Encode,
      List.data_toByteArray]
  rw [hbytes]
  unfold decodeUtf8
  induction s.toList with
  | nil => rfl
  | cons c rest ih => rw [List.flatMap_cons, decodeFrom_utf8EncodeChar, ih]

/-! ## Cuts -/

section Cuts

variable {byte : UInt8}

/-- A started character waits for bytes that are no ASCII. -/
theorem low_of_startOf {b : Nat} {p : Pending} (h : startOf b = .longer p) : 0x80 ≤ p.low := by
  unfold startOf at h
  split_ifs at h <;> cases h <;> simp

/-- A byte makes some characters and leaves the decoder between characters or within one, whatever
comes after it. -/
theorem exists_decodeFrom_cons (p : Option Pending) (byte : UInt8) :
    ∃ chars q, (∀ pending ∈ q, 0x80 ≤ pending.low) ∧
      ∀ rest, decodeFrom p (byte :: rest) = chars ++ decodeFrom q rest := by
  cases p with
  | none =>
    simp only [decodeFrom]
    cases hstart : startOf byte.toNat with
    | whole c => exact ⟨[c], none, by simp, fun rest ↦ rfl⟩
    | longer q => exact ⟨[], some q, by simpa using low_of_startOf hstart, fun rest ↦ rfl⟩
    | invalid => exact ⟨[replacement], none, by simp, fun rest ↦ rfl⟩
  | some p =>
    simp only [decodeFrom]
    split_ifs with hrange hlast
    · exact ⟨[_], none, by simp, fun rest ↦ rfl⟩
    · exact ⟨[], some _, by simp, fun rest ↦ rfl⟩
    · cases hstart : startOf byte.toNat with
      | whole c => exact ⟨[replacement, c], none, by simp, fun rest ↦ rfl⟩
      | longer q =>
        exact ⟨[replacement], some q, by simpa using low_of_startOf hstart, fun rest ↦ rfl⟩
      | invalid => exact ⟨[replacement, replacement], none, by simp, fun rest ↦ rfl⟩

theorem decodeFrom_append_ascii (hbyte : byte.toNat < 0x80) (first second : List UInt8)
    {p : Option Pending} (hp : ∀ pending ∈ p, 0x80 ≤ pending.low) :
    decodeFrom p (first ++ byte :: second) =
      decodeFrom p first ++ Char.ofNat byte.toNat :: decodeFrom none second := by
  induction first generalizing p with
  | nil =>
    cases p with
    | none => exact decodeFrom_none_ascii hbyte second
    | some q => exact decodeFrom_some_ascii (hp q rfl) hbyte second
  | cons b rest ih =>
    obtain ⟨chars, q, hq, hstep⟩ := exists_decodeFrom_cons p b
    rw [List.cons_append, hstep, hstep, ih hq, List.append_assoc]

theorem decodeUtf8_append_ascii (hbyte : byte.toNat < 0x80) (first second : List UInt8) :
    decodeUtf8 (first ++ byte :: second) =
      decodeUtf8 first ++ Char.ofNat byte.toNat :: decodeUtf8 second :=
  decodeFrom_append_ascii hbyte first second (by simp)

end Cuts

end BucketStats.Text
