import Mathlib.Algebra.Group.Nat.Defs
import StarQpu.Uuid

/-!
# StarQpu.Proofs.Uuid

**Identifiers are read as they are written.** An identifier may be spelled in several ways, but it
is written in one, and that one is read as the same identifier (`ofText?_render`).
-/

namespace StarQpu.Uuid

/-! ### Digits -/

theorem digitValue?_hexDigit : ∀ n < 16, digitValue? (Text.hexDigit n) = some n := by
  decide

theorem length_writeDigits (count n : Nat) : (writeDigits count n).length = count := by
  induction count generalizing n with
  | zero => rfl
  | succ count ih => rw [writeDigits, List.length_append, ih, List.length_singleton]

theorem readDigits_append (start : Nat) (cs cs' : List Char) :
    readDigits start (cs ++ cs') = (readDigits start cs).bind fun n => readDigits n cs' := by
  induction cs generalizing start with
  | nil => rfl
  | cons c cs ih =>
      rw [List.cons_append, readDigits, readDigits]
      cases digitValue? c with
      | none => rfl
      | some d => exact ih (16 * start + d)

/-- The last digits of a number are read as their number, continuing what stands in front. -/
theorem readDigits_writeDigits (start count n : Nat) :
    readDigits start (writeDigits count n) = some (start * 16 ^ count + n % 16 ^ count) := by
  induction count generalizing n with
  | zero => simp [writeDigits, readDigits, Nat.mod_one]
  | succ count ih =>
      have hlast : n % 16 ^ (count + 1) = n % 16 + 16 * (n / 16 % 16 ^ count) := by
        rw [Nat.pow_succ', Nat.mod_mul]
      rw [writeDigits, readDigits_append, ih, Option.bind_some, readDigits,
        digitValue?_hexDigit _ (Nat.mod_lt n (by decide)), hlast, Nat.pow_succ']
      refine congrArg some ?_
      grind

theorem ofDigits?_writeDigits (u : Uuid) : ofDigits? (writeDigits 32 u.bits.toNat) = some u := by
  have hfits : u.bits.toNat % 16 ^ 32 = u.bits.toNat := Nat.mod_eq_of_lt u.bits.isLt
  rw [ofDigits?, if_pos (length_writeDigits 32 _), readDigits_writeDigits, hfits]
  simp

/-! ### Groups -/

theorem ofGroups?_hyphenated {a b c d e : List Char} (ha : a.length = 8) (hb : b.length = 4)
    (hc : c.length = 4) (hd : d.length = 4) (he : e.length = 12) :
    ofGroups? (a ++ '-' :: b ++ '-' :: c ++ '-' :: d ++ '-' :: e) =
      ofDigits? (a ++ b ++ c ++ d ++ e) := by
  simp [ofGroups?, List.drop_append, List.drop_of_length_le, ha, hb, hc, hd, he]

/-- The groups of a list of digits, put together. -/
theorem append_groups (cs : List Char) :
    cs.take 8 ++ (cs.drop 8).take 4 ++ (cs.drop 12).take 4 ++ (cs.drop 16).take 4 ++ cs.drop 20 =
      cs := by
  rw [← @List.take_add _ cs 8 4, ← @List.take_add _ cs 12 4, ← @List.take_add _ cs 16 4,
    List.take_append_drop]

theorem ofGroups?_render (u : Uuid) : ofGroups? u.render.toList = some u := by
  have hlength := length_writeDigits 32 u.bits.toNat
  rw [render, String.toList_ofList, ofGroups?_hyphenated, append_groups, ofDigits?_writeDigits]
  all_goals simp [hlength]

/-- An identifier is read as it is written. -/
theorem ofText?_render (u : Uuid) : ofText? u.render = some u := by
  have hlong : u.render.toList.length = 36 := by
    simp [render, length_writeDigits]
  simp [ofText?, hlong, ofGroups?_render]

end StarQpu.Uuid
