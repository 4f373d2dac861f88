/-!
# The order of texts by their bytes

Texts are compared character by character.  Compared byte by byte they come in the same order
(`bytes_lt_iff`), since the bytes of a smaller character are smaller, whatever stands behind them.
-/

namespace RouteCoverage

def bytes (s : String) : List UInt8 := s.toUTF8.data.toList

theorem bytes_eq_flatMap (s : String) : bytes s = s.toList.flatMap String.utf8EncodeChar := by
  have h : s.toUTF8 = (s.toList.flatMap String.utf8EncodeChar).toByteArray :=
    String.utf8Encode_toList.symm
  rw [bytes, h, List.data_toByteArray]

/-- The bytes of a character hold the digits of its code to the base 64. -/
theorem utf8EncodeChar_cases (c : Char) :
    c.toNat < 0x80 ∧ String.utf8EncodeChar c = [.ofNat c.toNat] ∨
    (∃ i j, i < 32 ∧ j < 64 ∧ 0x80 ≤ c.toNat ∧ c.toNat = 64 * i + j ∧
      String.utf8EncodeChar c = [.ofNat (i + 0xc0), .ofNat (j + 0x80)]) ∨
    (∃ i j k, i < 16 ∧ j < 64 ∧ k < 64 ∧ 0x800 ≤ c.toNat ∧ c.toNat = 4096 * i + 64 * j + k ∧
      String.utf8EncodeChar c = [.ofNat (i + 0xe0), .ofNat (j + 0x80), .ofNat (k + 0x80)]) ∨
    ∃ i j k l, i < 8 ∧ j < 64 ∧ k < 64 ∧ l < 64 ∧ 0x10000 ≤ c.toNat ∧
      c.toNat = 262144 * i + 4096 * j + 64 * k + l ∧
      String.utf8EncodeChar c =
        [.ofNat (i + 0xf0), .ofNat (j + 0x80), .ofNat (k + 0x80), .ofNat (l + 0x80)] := by
  have hvalid : c.toNat < 0x110000 := by
    have h := c.valid
    simp only [UInt32.isValidChar, Nat.isValidChar] at h
    change c.val.toNat < _
    omega
  generalize hbytes : String.utf8EncodeChar c = b
  unfold String.utf8EncodeChar at hbytes
  rw [show c.val.toNat = c.toNat from rfl] at hbytes
  dsimp only at hbytes
  split at hbytes
  · exact .inl ⟨by omega, hbytes.symm⟩
  · split at hbytes
    · exact .inr (.inl ⟨_, _, by omega, by omega, by omega, by omega, hbytes.symm⟩)
    · split at hbytes
      · exact .inr (.inr (.inl
          ⟨_, _, _, by omega, by omega, by omega, by omega, by omega, hbytes.symm⟩))
      · exact .inr (.inr (.inr
          ⟨_, _, _, _, by omega, by omega, by omega, by omega, by omega, by omega, hbytes.symm⟩))

/-- The bytes of a smaller character are smaller, whatever follows. -/
theorem utf8EncodeChar_append_lt {c d : Char} (h : c < d) (xs ys : List UInt8) :
    String.utf8EncodeChar c ++ xs < String.utf8EncodeChar d ++ ys := by
  have hlt : c.toNat < d.toNat := h
  -- the first bytes tell the lengths apart, and equal lengths are compared like numbers
  obtain ⟨_, hc⟩ | ⟨_, _, _, _, _, _, hc⟩ | ⟨_, _, _, _, _, _, _, _, hc⟩ |
    ⟨_, _, _, _, _, _, _, _, _, _, hc⟩ := utf8EncodeChar_cases c <;>
  obtain ⟨_, hd⟩ | ⟨_, _, _, _, _, _, hd⟩ | ⟨_, _, _, _, _, _, _, _, hd⟩ |
    ⟨_, _, _, _, _, _, _, _, _, _, hd⟩ := utf8EncodeChar_cases d <;>
  rw [hc, hd] <;>
  simp only [List.cons_append, List.cons_lt_cons_iff, UInt8.lt_iff_toNat_lt,
    ← UInt8.toNat_inj, UInt8.toNat_ofNat'] <;>
  omega

theorem bytes_lt_of_lt {s t : String} (h : s < t) : bytes s < bytes t := by
  have hchars : s.toList < t.toList := h
  rw [bytes_eq_flatMap, bytes_eq_flatMap]
  clear h
  generalize s.toList = cs, t.toList = ds at hchars
  induction cs generalizing ds with
  | nil =>
      cases ds with
      | nil => exact absurd hchars (List.lt_irrefl _)
      | cons d ds =>
          rw [List.flatMap_nil, List.flatMap_cons]
          cases hd : String.utf8EncodeChar d with
          | nil => exact absurd hd String.utf8EncodeChar_ne_nil
          | cons b bs => exact List.nil_lt_cons _ _
  | cons c cs ih =>
      cases ds with
      | nil => exact absurd hchars (List.not_lt_nil _)
      | cons d ds =>
          rw [List.flatMap_cons, List.flatMap_cons]
          rcases List.cons_lt_cons_iff.mp hchars with hlt | ⟨rfl, hrest⟩
          · exact utf8EncodeChar_append_lt hlt _ _
          · exact List.append_left_lt (ih ds hrest)

/-- Texts are ordered like their bytes. -/
theorem bytes_lt_iff {s t : String} : bytes s < bytes t ↔ s < t := by
  refine ⟨fun h => ?_, bytes_lt_of_lt⟩
  by_cases hlt : s < t
  · exact hlt
  by_cases heq : s = t
  · exact absurd (heq ▸ h) (List.lt_irrefl _)
  · have hgt : t < s :=
      String.not_le.mp fun hle => heq (String.le_antisymm hle (String.not_lt.mp hlt))
    exact absurd h (List.lt_asymm (bytes_lt_of_lt hgt))

end RouteCoverage
