import StarQpu.Proofs.Number.Places

/-!
# StarQpu.Proofs.Text.ByteOrder

**Texts are ordered by their bytes as they are by their code points.** The first byte of a character
says how many there are, more for a larger code point, and the bytes after the first are the places
of the code point to the base of 64 (`compare_utf8EncodeChar_append`). So it makes no difference
whether texts are compared as they are or as their bytes in UTF-8 (`compare_bytes`).
-/

namespace StarQpu

/-- The bytes of a text in UTF-8. -/
def bytes (s : String) : List UInt8 := s.toUTF8.data.toList

theorem bytes_eq (s : String) : bytes s = s.toList.flatMap String.utf8EncodeChar := by
  rw [bytes, String.toUTF8, ← String.utf8Encode_toList, List.utf8Encode]
  simp

/-- A text is read back from its bytes. -/
theorem fromUTF8?_bytes (s : String) : String.fromUTF8? ⟨(bytes s).toArray⟩ = some s := by
  have hbytes : (⟨(bytes s).toArray⟩ : ByteArray) = s.toUTF8 := by
    rw [bytes, Array.toArray_toList]
  rw [hbytes, String.fromUTF8?, String.toUTF8_eq_toByteArray, dif_pos s.isValidUTF8]
  rfl

variable {a b v w : Nat} {xs ys : List UInt8} {o : Ordering}

theorem compare_ofNat (ha : a < 256) (hb : b < 256) :
    compare (UInt8.ofNat a) (UInt8.ofNat b) = compare a b := by
  have ha' : (UInt8.ofNat a).toNat = a := by
    rw [UInt8.toNat_ofNat', Nat.mod_eq_of_lt ha]
  have hb' : (UInt8.ofNat b).toNat = b := by
    rw [UInt8.toNat_ofNat', Nat.mod_eq_of_lt hb]
  have hlt : UInt8.ofNat a < UInt8.ofNat b ↔ a < b := by
    rw [UInt8.lt_iff_toNat_lt, ha', hb']
  have heq : UInt8.ofNat a = UInt8.ofNat b ↔ a = b := by
    rw [← UInt8.toNat_inj, ha', hb']
  simp only [compare, compareOfLessAndEq, hlt, heq]

/-- A byte that belongs to a smaller number decides for that number. -/
theorem compare_cons_of_lt (hab : a < b) (hb : b < 256) (hvw : v < w) :
    compare (UInt8.ofNat a :: xs) (UInt8.ofNat b :: ys) = (compare v w).then o := by
  rw [List.compare_cons_cons, compare_ofNat (hab.trans hb) hb, Nat.compare_eq_lt.2 hab,
    Nat.compare_eq_lt.2 hvw, Ordering.lt_then, Ordering.lt_then]

theorem compare_cons_of_gt (hab : b < a) (ha : a < 256) (hvw : w < v) :
    compare (UInt8.ofNat a :: xs) (UInt8.ofNat b :: ys) = (compare v w).then o := by
  rw [List.compare_cons_cons, compare_ofNat ha (hab.trans ha), Nat.compare_eq_gt.2 hab,
    Nat.compare_eq_gt.2 hvw, Ordering.gt_then, Ordering.gt_then]

theorem compare_cons_add {k : Nat} (ha : a + k < 256) (hb : b + k < 256) :
    compare (UInt8.ofNat (a + k) :: xs) (UInt8.ofNat (b + k) :: ys) =
      (compare a b).then (compare xs ys) := by
  rw [List.compare_cons_cons, compare_ofNat ha hb, compare_add_right]

/-- The last place of a number, in a byte of its own. -/
theorem compare_place (v w : Nat) :
    (compare (v / 64) (w / 64)).then
      (compare (UInt8.ofNat (v % 64 + 128) :: xs) (UInt8.ofNat (w % 64 + 128) :: ys)) =
    (compare v w).then (compare xs ys) := by
  have hv : v % 64 + 128 < 256 := by omega
  have hw : w % 64 + 128 < 256 := by omega
  rw [compare_cons_add hv hw, ← Ordering.then_assoc, ← compare_div_mod (by decide)]

theorem toNat_lt (c : Char) : c.toNat < 1114112 := by
  have hvalid : c.toNat < 55296 ∨ 57343 < c.toNat ∧ c.toNat < 1114112 := c.valid
  omega

/-- **The bytes of two characters compare as the characters do**, and what follows decides only if
they are the same. -/
theorem compare_utf8EncodeChar_append (c d : Char) (xs ys : List UInt8) :
    compare (String.utf8EncodeChar c ++ xs) (String.utf8EncodeChar d ++ ys) =
      (compare c d).then (compare xs ys) := by
  have hc := toNat_lt c
  have hd := toNat_lt d
  have hcv : c.val.toNat = c.toNat := rfl
  have hdv : d.val.toNat = d.toNat := rfl
  rw [← compare_toNat]
  simp only [String.utf8EncodeChar, hcv, hdv]
  generalize c.toNat = v at *
  generalize d.toNat = w at *
  split_ifs <;> simp only [List.cons_append, List.nil_append]
  -- of two characters with different numbers of bytes the one with more has the larger first byte
  any_goals (refine compare_cons_of_lt ?_ ?_ ?_ <;> omega)
  any_goals (refine compare_cons_of_gt ?_ ?_ ?_ <;> omega)
  -- otherwise the bytes are the places of the code points
  · rw [List.compare_cons_cons, compare_ofNat (by omega) (by omega)]
  · have hv : v / 64 % 32 = v / 64 := Nat.mod_eq_of_lt (by omega)
    have hw : w / 64 % 32 = w / 64 := Nat.mod_eq_of_lt (by omega)
    rw [hv, hw, compare_cons_add (by omega) (by omega), compare_place]
  · have hv : v / 4096 % 16 = v / 64 / 64 := by omega
    have hw : w / 4096 % 16 = w / 64 / 64 := by omega
    rw [hv, hw, compare_cons_add (by omega) (by omega), compare_place, compare_place]
  · have hv : v / 262144 % 8 = v / 64 / 64 / 64 := by omega
    have hw : w / 262144 % 8 = w / 64 / 64 / 64 := by omega
    have hv' : v / 4096 = v / 64 / 64 := by omega
    have hw' : w / 4096 = w / 64 / 64 := by omega
    rw [hv, hw, hv', hw', compare_cons_add (by omega) (by omega), compare_place, compare_place,
      compare_place]

theorem compare_flatMap_utf8EncodeChar (cs ds : List Char) :
    compare (cs.flatMap String.utf8EncodeChar) (ds.flatMap String.utf8EncodeChar) =
      compare cs ds := by
  induction cs generalizing ds with
  | nil =>
      cases ds with
      | nil => rfl
      | cons d ds =>
          obtain ⟨b, bs, hd⟩ := List.exists_cons_of_ne_nil (String.utf8EncodeChar_ne_nil (c := d))
          rw [List.flatMap_cons, hd]
          rfl
  | cons c cs ih =>
      cases ds with
      | nil =>
          obtain ⟨b, bs, hc⟩ := List.exists_cons_of_ne_nil (String.utf8EncodeChar_ne_nil (c := c))
          rw [List.flatMap_cons, hc]
          rfl
      | cons d ds =>
          rw [List.flatMap_cons, List.flatMap_cons, compare_utf8EncodeChar_append, ih,
            List.compare_cons_cons]

theorem compareOfLessAndEq_eq (cs ds : List Char) : compareOfLessAndEq cs ds = compare cs ds := by
  induction cs generalizing ds with
  | nil => cases ds <;> rfl
  | cons c cs ih =>
      cases ds with
      | nil => rfl
      | cons d ds =>
          have hchar : compare c d = compareOfLessAndEq c d := rfl
          rw [List.compare_cons_cons, ← ih, hchar]
          simp only [compareOfLessAndEq, List.cons_lt_cons_iff, List.cons.injEq]
          by_cases hlt : c < d
          · rw [if_pos (Or.inl hlt), if_pos hlt, Ordering.lt_then]
          · by_cases heq : c = d <;> simp [hlt, heq]

/-- **Texts are ordered as their bytes.** -/
theorem compare_bytes (s t : String) : compare (bytes s) (bytes t) = compare s t := by
  have htext : compare s t = compareOfLessAndEq s.toList t.toList := by
    rw [show compare s t = compareOfLessAndEq s t from rfl]
    simp only [compareOfLessAndEq, String.lt_iff, String.toList_inj]
  rw [bytes_eq, bytes_eq, compare_flatMap_utf8EncodeChar, htext, compareOfLessAndEq_eq]

end StarQpu
