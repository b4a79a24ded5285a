import Mathlib.Tactic.Ring
import StarQpu.Number.Decimal

/-!
# StarQpu.Proofs.Number.Places

**Numbers are compared place by place.** Of two numbers the one with the larger quotient is larger,
and if the quotients are the same the remainders decide (`compare_div_mod`). So numbers that are
written with the same number of decimal digits are ordered as their digits are, the first one first
(`compare_digitsValue`), and fewer digits write a smaller number than a one followed by zeros
(`digitsValue_lt`).
-/

namespace StarQpu

variable {c d : Char} {ds es : List Char} {k m n a b : Nat}

/-! ### Quotient and remainder -/

theorem compare_add_right (m n k : Nat) : compare (m + k) (n + k) = compare m n := by
  simp [compare, compareOfLessAndEq]

/-- What counts for more decides first. -/
theorem compare_mul_add (ha : a < k) (hb : b < k) :
    compare (m * k + a) (n * k + b) = (compare m n).then (compare a b) := by
  cases hmn : compare m n with
  | lt =>
      have hle : (m + 1) * k ≤ n * k := Nat.mul_le_mul_right k (Nat.compare_eq_lt.1 hmn)
      rw [Nat.succ_mul] at hle
      rw [Ordering.lt_then, Nat.compare_eq_lt]
      omega
  | eq =>
      obtain rfl := Nat.compare_eq_eq.1 hmn
      rw [Ordering.eq_then, Nat.add_comm, Nat.add_comm (m * k), compare_add_right]
  | gt =>
      have hle : (n + 1) * k ≤ m * k := Nat.mul_le_mul_right k (Nat.compare_eq_gt.1 hmn)
      rw [Nat.succ_mul] at hle
      rw [Ordering.gt_then, Nat.compare_eq_gt]
      omega

theorem compare_div_mod (hk : 0 < k) (m n : Nat) :
    compare m n = (compare (m / k) (n / k)).then (compare (m % k) (n % k)) := by
  rw [← compare_mul_add (Nat.mod_lt m hk) (Nat.mod_lt n hk), Nat.div_add_mod', Nat.div_add_mod']

/-! ### Decimal digits -/

theorem digitsValue_eq (ds : List Char) (start : Nat) :
    digitsValue ds start = start * 10 ^ ds.length + digitsValue ds 0 := by
  induction ds generalizing start with
  | nil => simp [digitsValue]
  | cons c ds ih =>
      have hstep : ∀ start, digitsValue (c :: ds) start =
          digitsValue ds (10 * start + digitValue c) := fun _ => rfl
      rw [hstep, hstep, ih, ih (10 * 0 + digitValue c), List.length_cons]
      ring

/-- The first digit counts for the most. -/
theorem digitsValue_cons (c : Char) (ds : List Char) :
    digitsValue (c :: ds) 0 = digitValue c * 10 ^ ds.length + digitsValue ds 0 := by
  have hstep : digitsValue (c :: ds) 0 = digitsValue ds (10 * 0 + digitValue c) := rfl
  rw [hstep, digitsValue_eq, Nat.mul_zero, Nat.zero_add]

theorem isDigit_iff : c.isDigit = true ↔ 48 ≤ c.toNat ∧ c.toNat ≤ 57 :=
  Char.isDigit_iff_toNat

/-- A number is less than the first one with more digits. -/
theorem digitsValue_lt (digits : ∀ c ∈ ds, c.isDigit = true) :
    digitsValue ds 0 < 10 ^ ds.length := by
  induction ds with
  | nil => simp [digitsValue]
  | cons c ds ih =>
      rw [List.forall_mem_cons, isDigit_iff] at digits
      have hrest := ih digits.2
      have hfirst : digitValue c + 1 ≤ 10 := by
        rw [digitValue]
        omega
      calc digitsValue (c :: ds) 0
          = digitValue c * 10 ^ ds.length + digitsValue ds 0 := digitsValue_cons c ds
        _ < digitValue c * 10 ^ ds.length + 10 ^ ds.length := by omega
        _ = (digitValue c + 1) * 10 ^ ds.length := by ring
        _ ≤ 10 * 10 ^ ds.length := Nat.mul_le_mul_right _ hfirst
        _ = 10 ^ (c :: ds).length := by rw [List.length_cons, Nat.pow_succ']

theorem compare_toNat (c d : Char) : compare c.toNat d.toNat = compare c d := by
  have hlt : c.toNat < d.toNat ↔ c < d := by
    rw [Char.lt_def, UInt32.lt_iff_toNat_lt]
    rfl
  simp only [compare, compareOfLessAndEq, hlt, Char.toNat_inj]

/-- Digits are ordered as characters as they are by what they stand for. -/
theorem compare_digitValue (hc : c.isDigit = true) (hd : d.isDigit = true) :
    compare (digitValue c) (digitValue d) = compare c d := by
  have hc' : digitValue c + 48 = c.toNat := Nat.sub_add_cancel (isDigit_iff.1 hc).1
  have hd' : digitValue d + 48 = d.toNat := Nat.sub_add_cancel (isDigit_iff.1 hd).1
  rw [← compare_toNat, ← hc', ← hd', compare_add_right]

/-- **Numbers of one length are ordered digit by digit.** -/
theorem compare_digitsValue (hds : ∀ c ∈ ds, c.isDigit = true) (hes : ∀ c ∈ es, c.isDigit = true)
    (hlength : ds.length = es.length) :
    compare (digitsValue ds 0) (digitsValue es 0) = compare ds es := by
  induction ds generalizing es with
  | nil =>
      obtain rfl := List.length_eq_zero_iff.1 hlength.symm
      rfl
  | cons c ds ih =>
      cases es with
      | nil => simp at hlength
      | cons d es =>
          have hrest : ds.length = es.length := Nat.succ.inj hlength
          rw [List.forall_mem_cons] at hds hes
          have hsmall := digitsValue_lt hes.2
          rw [← hrest] at hsmall
          rw [digitsValue_cons, digitsValue_cons, ← hrest,
            compare_mul_add (digitsValue_lt hds.2) hsmall, compare_digitValue hds.1 hes.1,
            ih hds.2 hes.2 hrest, List.compare_cons_cons]

end StarQpu
