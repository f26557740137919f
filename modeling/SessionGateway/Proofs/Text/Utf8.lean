import Mathlib.Data.List.Basic
import SessionGateway.Text.Utf8

/-!
# Texts as UTF-8 and back

The bytes of a text read as that text, whatever its characters are. A character has one byte to
four. Its first byte tells how many follow and in which bounds the next one lies, and the bits of
the others complete it.
-/

namespace SessionGateway.Text.Utf8

variable {done : List (Option Char)} {rest : List UInt8}

/-! ### One byte after another -/

theorem scan_whole {c : Char} {n : Nat} (hn : n < 0x100) (h : lead n = .whole c) :
    scan none done (UInt8.ofNat n :: rest) = scan none (some c :: done) rest := by
  rw [scan, UInt8.toNat_ofNat_of_lt' hn, h]

theorem scan_first {p : Partial} {n : Nat} (hn : n < 0x100) (h : lead n = .longer p) :
    scan none done (UInt8.ofNat n :: rest) = scan (some p) done rest := by
  rw [scan, UInt8.toNat_ofNat_of_lt' hn, h]

/-- A byte with six bits of a character, of which more are owed. -/
theorem scan_more {owed low high bits n : Nat} (hlow : low ≤ n % 0x40 + 0x80)
    (hhigh : n % 0x40 + 0x80 ≤ high) :
    scan (some ⟨owed + 2, low, high, bits⟩) done (UInt8.ofNat (n % 0x40 + 0x80) :: rest) =
      scan (some ⟨owed + 1, 0x80, 0xBF, bits * 64 + n % 0x40⟩) done rest := by
  have hbyte : (UInt8.ofNat (n % 0x40 + 0x80)).toNat = n % 0x40 + 0x80 :=
    UInt8.toNat_ofNat_of_lt' (show n % 0x40 + 0x80 < 0x100 by omega)
  have hbits : (n % 0x40 + 0x80) % 64 = n % 0x40 := by omega
  rw [scan, hbyte, if_pos ⟨hlow, hhigh⟩, hbits, if_neg (by show ¬ owed + 2 ≤ 1; omega)]
  rfl

/-- The byte with the last six bits of a character. -/
theorem scan_last {low high bits n : Nat} (hlow : low ≤ n % 0x40 + 0x80)
    (hhigh : n % 0x40 + 0x80 ≤ high) :
    scan (some ⟨1, low, high, bits⟩) done (UInt8.ofNat (n % 0x40 + 0x80) :: rest) =
      scan none (some (Char.ofNat (bits * 64 + n % 0x40)) :: done) rest := by
  have hbyte : (UInt8.ofNat (n % 0x40 + 0x80)).toNat = n % 0x40 + 0x80 :=
    UInt8.toNat_ofNat_of_lt' (show n % 0x40 + 0x80 < 0x100 by omega)
  have hbits : (n % 0x40 + 0x80) % 64 = n % 0x40 := by omega
  rw [scan, hbyte, if_pos ⟨hlow, hhigh⟩, hbits]
  rfl

/-! ### First bytes -/

theorem lead_two {v : Nat} (hlow : 0x80 ≤ v) (hhigh : v ≤ 0x7FF) :
    lead (v / 0x40 % 0x20 + 0xC0) = .longer ⟨1, 0x80, 0xBF, v / 0x40⟩ := by
  have hbits : (v / 0x40 % 0x20 + 0xC0) % 0x20 = v / 0x40 := by omega
  rw [lead, if_neg (by omega), if_pos (by omega), hbits]

/-- The bounds of the second byte of three shut out what two bytes suffice for, and surrogates. -/
theorem lead_three {v : Nat} (hlow : 0x800 ≤ v) (hhigh : v ≤ 0xFFFF)
    (hvalid : v < 0xD800 ∨ 0xDFFF < v) :
    ∃ low high, lead (v / 0x1000 % 0x10 + 0xE0) = .longer ⟨2, low, high, v / 0x1000⟩ ∧
      low ≤ v / 0x40 % 0x40 + 0x80 ∧ v / 0x40 % 0x40 + 0x80 ≤ high := by
  have hbits : (v / 0x1000 % 0x10 + 0xE0) % 0x10 = v / 0x1000 := by omega
  rw [lead, if_neg (by omega), if_neg (by omega)]
  by_cases hfirst : v / 0x1000 = 0
  · rw [if_pos (by omega), hfirst]
    exact ⟨0xA0, 0xBF, rfl, by omega, by omega⟩
  rw [if_neg (by omega)]
  by_cases hsurrogate : v / 0x1000 = 0xD
  · rw [if_pos (by omega), hsurrogate]
    exact ⟨0x80, 0x9F, rfl, by omega, by omega⟩
  · rw [if_neg (by omega), if_pos (by omega), hbits]
    exact ⟨0x80, 0xBF, rfl, by omega, by omega⟩

/-- The bounds of the second byte of four shut out what three bytes suffice for, and what is beyond
the last character. -/
theorem lead_four {v : Nat} (hlow : 0x10000 ≤ v) (hvalid : v < 0x110000) :
    ∃ low high, lead (v / 0x40000 % 8 + 0xF0) = .longer ⟨3, low, high, v / 0x40000⟩ ∧
      low ≤ v / 0x1000 % 0x40 + 0x80 ∧ v / 0x1000 % 0x40 + 0x80 ≤ high := by
  have hbits : (v / 0x40000 % 8 + 0xF0) % 8 = v / 0x40000 := by omega
  rw [lead, if_neg (by omega), if_neg (by omega), if_neg (by omega), if_neg (by omega),
    if_neg (by omega)]
  by_cases hfirst : v / 0x40000 = 0
  · rw [if_pos (by omega), hfirst]
    exact ⟨0x90, 0xBF, rfl, by omega, by omega⟩
  rw [if_neg (by omega)]
  by_cases hlast : v / 0x40000 = 4
  · rw [if_neg (by omega), if_pos (by omega), hlast]
    exact ⟨0x80, 0x8F, rfl, by omega, by omega⟩
  · rw [if_pos (by omega), hbits]
    exact ⟨0x80, 0xBF, rfl, by omega, by omega⟩

/-! ### Characters and texts -/

theorem scan_char (c : Char) :
    scan none done (String.utf8EncodeChar c ++ rest) = scan none (some c :: done) rest := by
  have hvalid : c.val.toNat < 0xD800 ∨ 0xDFFF < c.val.toNat ∧ c.val.toNat < 0x110000 := c.valid
  have hchar : Char.ofNat c.val.toNat = c := c.ofNat_toNat
  rw [String.utf8EncodeChar]
  generalize c.val.toNat = v at hvalid hchar
  split
  · -- one byte
    have hlead : lead v = .whole c := by
      rw [lead, if_pos (by omega), hchar]
    exact scan_whole (by omega) hlead
  split
  · -- two bytes
    have hbits : v / 0x40 * 64 + v % 0x40 = v := by omega
    rw [List.cons_append, scan_first (by omega) (lead_two (by omega) (by omega)),
      List.cons_append, scan_last (by omega) (by omega), hbits, hchar]
    rfl
  split
  · -- three bytes
    obtain ⟨low, high, hlead, hlow, hhigh⟩ := lead_three (v := v) (by omega) (by omega) (by omega)
    have hbits : (v / 0x1000 * 64 + v / 0x40 % 0x40) * 64 + v % 0x40 = v := by omega
    rw [List.cons_append, scan_first (by omega) hlead, List.cons_append, scan_more hlow hhigh,
      List.cons_append, scan_last (by omega) (by omega), hbits, hchar]
    rfl
  · -- four bytes
    obtain ⟨low, high, hlead, hlow, hhigh⟩ := lead_four (v := v) (by omega) (by omega)
    have hbits : ((v / 0x40000 * 64 + v / 0x1000 % 0x40) * 64 + v / 0x40 % 0x40) * 64 +
        v % 0x40 = v := by omega
    rw [List.cons_append, scan_first (by omega) hlead, List.cons_append, scan_more hlow hhigh,
      List.cons_append, scan_more (by omega) (by omega), List.cons_append,
      scan_last (by omega) (by omega), hbits, hchar]
    rfl

theorem scan_chars (cs : List Char) (done : List (Option Char)) :
    scan none done (cs.flatMap String.utf8EncodeChar) = done.reverse ++ cs.map some := by
  induction cs generalizing done with
  | nil => simp [scan]
  | cons c rest ih => simp [List.flatMap_cons, scan_char, ih]

theorem mapM_some (cs : List Char) : (cs.map some).mapM id = some cs := by
  induction cs with
  | nil => rfl
  | cons c rest ih =>
    rw [List.map_cons, List.mapM_cons, ih]
    rfl

theorem decode?_chars (cs : List Char) :
    decode? (cs.flatMap String.utf8EncodeChar) = some (String.ofList cs) := by
  rw [decode?, scan_chars, List.reverse_nil, List.nil_append, mapM_some]
  rfl

/-- The bytes of an array as a list, from an index on. -/
theorem toList_loop (bs : ByteArray) (i : Nat) (done : List UInt8) :
    ByteArray.toList.loop bs i done = done.reverse ++ bs.data.toList.drop i := by
  rw [ByteArray.toList.loop.eq_def]
  split
  · next hi =>
    have hget : bs.get! i = bs.data.toList.get ⟨i, hi⟩ := getElem!_pos bs.data i hi
    have hdrop : bs.data.toList.drop i = bs.get! i :: bs.data.toList.drop (i + 1) := by
      rw [hget]
      exact List.drop_eq_getElem_cons hi
    rw [toList_loop bs (i + 1), List.reverse_cons, List.append_assoc, hdrop]
    rfl
  · next hi =>
    have hend : bs.data.toList.drop i = [] := List.drop_eq_nil_of_le (Nat.le_of_not_lt hi)
    rw [hend, List.append_nil]
termination_by bs.size - i

theorem encode_eq (s : String) : encode s = s.toList.flatMap String.utf8EncodeChar := by
  rw [encode, String.toUTF8, ← String.utf8Encode_toList, List.utf8Encode, ByteArray.toList,
    toList_loop, List.data_toByteArray]
  rfl

/-- The bytes of a text are read as the text. -/
theorem decode?_encode (s : String) : decode? (encode s) = some s := by
  rw [encode_eq, decode?_chars, String.ofList_toList]

/-- ASCII characters are their bytes. -/
theorem decode?_ascii {cs : List Char} (h : ∀ c ∈ cs, c.toNat < 0x80) :
    decode? (cs.map fun c => UInt8.ofNat c.toNat) = some (String.ofList cs) := by
  have hbytes : (cs.map fun c => UInt8.ofNat c.toNat) = cs.flatMap String.utf8EncodeChar := by
    rw [List.map_eq_flatMap]
    apply List.flatMap_congr
    intro c hc
    have hlow : c.val.toNat ≤ 0x7F := Nat.le_of_lt_succ (h c hc)
    rw [String.utf8EncodeChar, if_pos hlow]
    rfl
  rw [hbytes, decode?_chars]

end SessionGateway.Text.Utf8
