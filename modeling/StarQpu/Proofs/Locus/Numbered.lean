import StarQpu.Proofs.Locus.NaturalOrder
import StarQpu.Proofs.Number.Places
import StarQpu.Proofs.Text.ByteOrder

/-!
# StarQpu.Proofs.Locus.Numbered

**Names with numbers.** Runs of digits are compared by what they look like: without the zeros in
front the longer one is larger, and of two of one length the one that comes first in the order of
characters is smaller. That is the order of the numbers that they write (`compareDigits_eq`),
however long they are. A name that ends in a number has its digits as the last run, unless there are
digits in front of them (`runs_append_digits`), so names that differ in such a number only are
ordered by it.
-/

namespace StarQpu

variable {ds es : List Char}

/-! ### Runs of digits -/

namespace NaturalOrder

theorem isDigit_of_mem_significantDigits (digits : ∀ c ∈ ds, c.isDigit = true) :
    ∀ c ∈ significantDigits ds, c.isDigit = true :=
  fun c hc => digits c ((List.dropWhile_suffix _).subset hc)

/-- Zeros in front do not count. -/
theorem digitsValue_significantDigits (ds : List Char) :
    digitsValue (significantDigits ds) 0 = digitsValue ds 0 := by
  induction ds with
  | nil => rfl
  | cons c ds ih =>
      by_cases hzero : c = '0'
      · subst hzero
        have hdrop : significantDigits ('0' :: ds) = significantDigits ds := by
          simp [significantDigits]
        have hvalue : digitValue '0' = 0 := rfl
        rw [hdrop, ih, digitsValue_cons, hvalue, Nat.zero_mul, Nat.zero_add]
      · have hdrop : significantDigits (c :: ds) = c :: ds := by
          simp [significantDigits, hzero]
        rw [hdrop]

/-- A number with more significant digits is larger. -/
theorem digitsValue_lt_of_length_lt (hds : ∀ c ∈ ds, c.isDigit = true)
    (hes : ∀ c ∈ es, c.isDigit = true)
    (hlength : (significantDigits ds).length < (significantDigits es).length) :
    digitsValue ds 0 < digitsValue es 0 := by
  -- the first significant digit of the larger one alone reaches a power of ten that the other one,
  -- with its fewer digits, stays below
  have hdigits := isDigit_of_mem_significantDigits hes
  rw [← digitsValue_significantDigits ds, ← digitsValue_significantDigits es]
  cases hfirst : significantDigits es with
  | nil => simp [hfirst] at hlength
  | cons d rest =>
      rw [hfirst] at hlength hdigits
      have hd : d ≠ '0' := by
        have hnot := List.head?_dropWhile_not (fun c => decide (c = '0')) es
        rw [← significantDigits, hfirst] at hnot
        simpa using hnot
      have hpositive : 1 ≤ digitValue d := by
        have hbounds := isDigit_iff.1 (hdigits d List.mem_cons_self)
        have hne : d.toNat ≠ 48 := fun h => hd (Char.toNat_inj.1 h)
        rw [digitValue]
        omega
      calc digitsValue (significantDigits ds) 0
          < 10 ^ (significantDigits ds).length :=
            digitsValue_lt (isDigit_of_mem_significantDigits hds)
        _ ≤ 10 ^ rest.length := Nat.pow_le_pow_right (by decide) (Nat.lt_succ_iff.1 hlength)
        _ ≤ digitValue d * 10 ^ rest.length := Nat.le_mul_of_pos_left _ hpositive
        _ ≤ digitsValue (d :: rest) 0 := by
            rw [digitsValue_cons]
            exact Nat.le_add_right _ _

/-- **Runs of digits are ordered as the numbers that they write.** -/
theorem compareDigits_eq (hds : ∀ c ∈ ds, c.isDigit = true) (hes : ∀ c ∈ es, c.isDigit = true) :
    compareDigits ds es = compare (digitsValue ds 0) (digitsValue es 0) := by
  simp only [compareDigits]
  cases hlength : compare (significantDigits ds).length (significantDigits es).length with
  | lt =>
      rw [Ordering.lt_then, eq_comm, Nat.compare_eq_lt]
      exact digitsValue_lt_of_length_lt hds hes (Nat.compare_eq_lt.1 hlength)
  | eq =>
      rw [Ordering.eq_then, ← digitsValue_significantDigits ds, ← digitsValue_significantDigits es]
      exact (compare_digitsValue (isDigit_of_mem_significantDigits hds)
        (isDigit_of_mem_significantDigits hes) (Nat.compare_eq_eq.1 hlength)).symm
  | gt =>
      rw [Ordering.gt_then, eq_comm, Nat.compare_eq_gt]
      exact digitsValue_lt_of_length_lt hes hds (Nat.compare_eq_gt.1 hlength)

/-! ### Names that end in digits -/

theorem Run.push_ne_nil (c : Char) (xs : List Run) : Run.push c xs ≠ [] := by
  unfold Run.push
  split <;> simp

/-- What follows the first run does not matter to a character in front of it. -/
theorem Run.push_append (c : Char) {xs : List Run} (hne : xs ≠ []) (ys : List Run) :
    Run.push c (xs ++ ys) = Run.push c xs ++ ys := by
  cases xs with
  | nil => exact absurd rfl hne
  | cons x xs => cases x <;> cases hc : c.isDigit <;> simp [Run.push, hc]

theorem runs_ne_nil (hne : ds ≠ []) : runs ds ≠ [] := by
  cases ds with
  | nil => exact absurd rfl hne
  | cons c ds => exact Run.push_ne_nil c _

theorem runs_digits (hne : ds ≠ []) (digits : ∀ c ∈ ds, c.isDigit = true) :
    runs ds = [.digits ds] := by
  induction ds with
  | nil => exact absurd rfl hne
  | cons c ds ih =>
      rw [List.forall_mem_cons] at digits
      cases ds with
      | nil => simp [runs, Run.push, digits.1]
      | cons d ds =>
          rw [runs, ih (List.cons_ne_nil d ds) digits.2]
          simp [Run.push, digits.1]

/-- Digits behind another character are a run of their own. -/
theorem runs_append_digits {p : List Char} (hp : ∀ c ∈ p.getLast?, c.isDigit = false)
    (hne : ds ≠ []) (digits : ∀ c ∈ ds, c.isDigit = true) :
    runs (p ++ ds) = runs p ++ [.digits ds] := by
  -- only the last character of the prefix meets the digits, and it is none
  induction p with
  | nil => exact runs_digits hne digits
  | cons c p ih =>
      cases p with
      | nil =>
          have hc : c.isDigit = false := hp c rfl
          simp [runs, runs_digits hne digits, Run.push, hc]
      | cons e p =>
          rw [List.getLast?_cons_cons] at hp
          rw [List.cons_append, runs, ih hp, Run.push_append c (runs_ne_nil (List.cons_ne_nil e p))]
          rfl

theorem compareRuns_append_left (xs ys zs : List Run) :
    compareRuns (xs ++ ys) (xs ++ zs) = compareRuns ys zs := by
  induction xs with
  | nil => rfl
  | cons x xs ih =>
      have hself : x.compare x = .eq := show compare x x = .eq from Std.ReflCmp.compare_self
      rw [List.cons_append, List.cons_append, compareRuns, hself, Ordering.eq_then, ih]

end NaturalOrder

open NaturalOrder

/-! ### The order -/

/-- A comparison that puts the items in a line: it says the opposite the other way round, only an
item and itself are equal to it, and it is transitive. -/
structure OrdersTotally {α : Type} (cmp : α → α → Ordering) : Prop where
  swap : ∀ a b, cmp a b = (cmp b a).swap
  eq_iff : ∀ a b, cmp a b = .eq ↔ a = b
  trans : ∀ a b c, (cmp a b).isLE = true → (cmp b c).isLE = true → (cmp a c).isLE = true

theorem ordersTotally {α : Type} (cmp : α → α → Ordering) [Std.TransCmp cmp]
    [Std.LawfulEqCmp cmp] : OrdersTotally cmp where
  swap := fun _ _ => Std.OrientedCmp.eq_swap
  eq_iff := fun _ _ => Std.LawfulEqCmp.compare_eq_iff_eq
  trans := fun _ _ _ => Std.TransCmp.isLE_trans

/-- Names that differ in the number at their end are ordered by it, and by their bytes if the
numbers are the same. -/
theorem compareNames_append {p m n : String} (hp : ∀ c ∈ p.toList.getLast?, c.isDigit = false)
    (hm : m ≠ "") (hn : n ≠ "") (hms : ∀ c ∈ m.toList, c.isDigit = true)
    (hns : ∀ c ∈ n.toList, c.isDigit = true) :
    compareNames (p ++ m) (p ++ n) =
      (compare (digitsValue m.toList 0) (digitsValue n.toList 0)).then
        (compare (bytes (p ++ m)) (bytes (p ++ n))) := by
  have hm' : m.toList ≠ [] := by simpa using hm
  have hn' : n.toList ≠ [] := by simpa using hn
  have hruns : compareRuns (runs (p ++ m).toList) (runs (p ++ n).toList) =
      compare (digitsValue m.toList 0) (digitsValue n.toList 0) := by
    rw [String.toList_append, String.toList_append, runs_append_digits hp hm' hms,
      runs_append_digits hp hn' hns, compareRuns_append_left, compareRuns, compareRuns,
      Ordering.then_eq, Run.compare, compareDigits_eq hms hns]
  rw [compareNames, hruns, compare_bytes]

/-- **The natural order is a total order that knows numbers.** Names and loci are put in a line, and
of two names that differ in the number at their end the one with the smaller number comes first. -/
theorem naturalOrder_laws :
    OrdersTotally compareNames ∧ OrdersTotally compareLoci ∧
    ∀ p m n : String, (∀ c ∈ p.toList.getLast?, c.isDigit = false) → m ≠ "" → n ≠ "" →
      (∀ c ∈ m.toList, c.isDigit = true) → (∀ c ∈ n.toList, c.isDigit = true) →
      compareNames (p ++ m) (p ++ n) =
        (compare (digitsValue m.toList 0) (digitsValue n.toList 0)).then
          (compare (bytes (p ++ m)) (bytes (p ++ n))) :=
  ⟨ordersTotally compareNames, ordersTotally compareLoci,
    fun _ _ _ hp hm hn hms hns => compareNames_append hp hm hn hms hns⟩

/-- Nine comes before ten although its digit is larger, and ten with a zero in front before ten. -/
theorem naturalOrder_laws_ten :
    compareNames ("QB" ++ "9") ("QB" ++ "10") = .lt ∧
    compareNames ("QB" ++ "010") ("QB" ++ "10") = .lt := by
  constructor
  · refine (naturalOrder_laws.2.2 "QB" "9" "10" (by simp) (by decide) (by decide) (by simp)
      (by simp)).trans ?_
    decide +kernel
  · refine (naturalOrder_laws.2.2 "QB" "010" "10" (by simp) (by decide) (by decide) (by simp)
      (by simp)).trans ?_
    decide +kernel

end StarQpu
