import Mathlib.Data.List.Basic
import StarQpu.Proofs.Text.ByteOrder
import StarQpu.Text.Percent
import StarQpu.Uuid

/-!
# StarQpu.Proofs.Text.Percent

**A form determines its fields.** The bytes of a text can be read back from the characters that
stand for it in a form (`formBytes_flatMap`), and neither of the separators is one of those. So the
fields are the parts between the separators, and two forms with different fields are different
(`form_injective`).
-/

namespace StarQpu.Text

variable {c : Char} {s : String} {rest : List Char}

/-- The byte that two digits to base 16 stand for. -/
def byteOfDigits (high low : Char) : UInt8 :=
  .ofNat (16 * (Uuid.digitValue? high).getD 0 + (Uuid.digitValue? low).getD 0)

/-- The bytes that characters in a form stand for. -/
def formBytes : List Char → List UInt8
  | '%' :: high :: low :: rest => byteOfDigits high low :: formBytes rest
  | '+' :: rest => 0x20 :: formBytes rest
  | c :: rest => .ofNat c.toNat :: formBytes rest
  | [] => []

/-! ### One character -/

theorem digitValue?_toUpper : ∀ n < 16, Uuid.digitValue? (hexDigit n).toUpper = some n := by
  decide

theorem formBytes_percentByte_append (b : UInt8) (rest : List Char) :
    formBytes (percentByte b ++ rest) = b :: formBytes rest := by
  have hhigh : b.toNat / 16 < 16 := Nat.div_lt_of_lt_mul b.toNat_lt
  have hlow : b.toNat % 16 < 16 := Nat.mod_lt _ (by decide)
  simp only [percentByte, List.map_cons, List.map_nil, List.cons_append, List.nil_append,
    formBytes, byteOfDigits, digitValue?_toUpper _ hhigh, digitValue?_toUpper _ hlow,
    Option.getD_some, Nat.div_add_mod, UInt8.ofNat_toNat]

theorem formBytes_flatMap_percentByte_append (bs : List UInt8) (rest : List Char) :
    formBytes (bs.flatMap percentByte ++ rest) = bs ++ formBytes rest := by
  induction bs with
  | nil => rfl
  | cons b bs ih =>
      rw [List.flatMap_cons, List.append_assoc, formBytes_percentByte_append, ih, List.cons_append]

theorem formBytes_cons (hpercent : c ≠ '%') (hplus : c ≠ '+') :
    formBytes (c :: rest) = .ofNat c.toNat :: formBytes rest := by
  rw [formBytes] <;> simp [hpercent, hplus]

/-- A character that stands for itself is none of those with a meaning of their own. -/
theorem ne_of_isFormChar (h : isFormChar c = true) :
    c ≠ '%' ∧ c ≠ '+' ∧ c ≠ '&' ∧ c ≠ '=' := by
  refine ⟨?_, ?_, ?_, ?_⟩ <;> rintro rfl <;> exact absurd h (by decide)

theorem toNat_lt_of_isAlphanum (h : c.isAlphanum = true) : c.toNat < 128 := by
  have hlast : c.val ≤ 'z'.val := by
    rcases Bool.or_eq_true_iff.1 h with halpha | hdigit
    · rcases Bool.or_eq_true_iff.1 halpha with hupper | hlower
      · exact UInt32.le_trans (of_decide_eq_true hupper).2 (by decide)
      · exact of_decide_eq_true (Bool.and_eq_true_iff.1 hlower).2
    · exact UInt32.le_trans (of_decide_eq_true (Bool.and_eq_true_iff.1 hdigit).2) (by decide)
  exact Nat.lt_of_le_of_lt (UInt32.le_iff_toNat_le.1 hlast) (by decide)

theorem toNat_lt_of_isFormChar (h : isFormChar c = true) : c.toNat < 128 := by
  simp only [isFormChar, Bool.or_eq_true, decide_eq_true_eq] at h
  rcases h with (((h | rfl) | rfl) | rfl) | rfl
  · exact toNat_lt_of_isAlphanum h
  all_goals decide

theorem utf8EncodeChar_of_lt (h : c.toNat < 128) :
    String.utf8EncodeChar c = [.ofNat c.toNat] := by
  have hcode : c.val.toNat ≤ 127 := Nat.le_of_lt_succ h
  simp only [String.utf8EncodeChar, hcode, if_true]
  rfl

/-- The characters that stand for a character are read as its bytes. -/
theorem formBytes_formChar_append (c : Char) (rest : List Char) :
    formBytes (formChar c ++ rest) = String.utf8EncodeChar c ++ formBytes rest := by
  rw [formChar]
  split
  next h =>
    obtain ⟨hpercent, hplus, -⟩ := ne_of_isFormChar h
    rw [utf8EncodeChar_of_lt (toNat_lt_of_isFormChar h)]
    exact formBytes_cons hpercent hplus
  next =>
    split
    next h =>
      subst h
      rfl
    next => exact formBytes_flatMap_percentByte_append _ rest

/-! ### Texts -/

theorem formBytes_flatMap (cs : List Char) :
    formBytes (cs.flatMap formChar) = cs.flatMap String.utf8EncodeChar := by
  induction cs with
  | nil => rfl
  | cons c cs ih =>
      rw [List.flatMap_cons, formBytes_formChar_append, ih, List.flatMap_cons]

theorem formBytes_formText (s : String) : formBytes (formText s).toList = bytes s := by
  rw [formText, String.toList_ofList, formBytes_flatMap, bytes_eq]

theorem formText_injective : Function.Injective formText := by
  intro s t h
  have hbytes : bytes s = bytes t := by
    rw [← formBytes_formText, h, formBytes_formText]
  exact Option.some.inj (by rw [← fromUTF8?_bytes, hbytes, fromUTF8?_bytes])

theorem ne_of_mem_percentByte {b : UInt8} (h : c ∈ percentByte b) : c ≠ '&' ∧ c ≠ '=' := by
  have hdigit : ∀ n < 16, (hexDigit n).toUpper ≠ '&' ∧ (hexDigit n).toUpper ≠ '=' := by decide
  simp only [percentByte, List.map_cons, List.map_nil, List.mem_cons, List.not_mem_nil,
    or_false] at h
  rcases h with rfl | rfl | rfl
  · decide
  · exact hdigit _ (Nat.div_lt_of_lt_mul b.toNat_lt)
  · exact hdigit _ (Nat.mod_lt _ (by decide))

/-- The separators do not occur in what stands for a text. -/
theorem ne_of_mem_formText (h : c ∈ (formText s).toList) : c ≠ '&' ∧ c ≠ '=' := by
  rw [formText, String.toList_ofList, List.mem_flatMap] at h
  obtain ⟨d, -, hc⟩ := h
  rw [formChar] at hc
  split at hc
  next hd =>
    rw [List.mem_singleton.1 hc]
    exact (ne_of_isFormChar hd).2.2
  next =>
    split at hc
    next =>
      rw [List.mem_singleton.1 hc]
      decide
    next =>
      obtain ⟨b, -, hb⟩ := List.mem_flatMap.1 hc
      exact ne_of_mem_percentByte hb

/-! ### Fields -/

/-- The characters of a field. -/
def fieldChars (field : String × String) : List Char :=
  (formText field.1).toList ++ '=' :: (formText field.2).toList

theorem fieldChars_injective : Function.Injective fieldChars := by
  rintro ⟨name, value⟩ ⟨name', value'⟩ h
  have hname : '=' ∉ (formText name).toList := fun hmem => (ne_of_mem_formText hmem).2 rfl
  have hvalue : '=' ∉ (formText value).toList := fun hmem => (ne_of_mem_formText hmem).2 rfl
  obtain ⟨hnames, -, hvalues⟩ := (List.append_cons_inj_of_notMem hname hvalue).1 h
  rw [formText_injective (String.toList_injective hnames),
    formText_injective (String.toList_injective hvalues)]

theorem notMem_fieldChars (field : String × String) : '&' ∉ fieldChars field := by
  rw [fieldChars, List.mem_append, List.mem_cons]
  rintro (h | h | h)
  · exact (ne_of_mem_formText h).1 rfl
  · cases h
  · exact (ne_of_mem_formText h).1 rfl

theorem toList_form (fields : List (String × String)) :
    (form fields).toList = ['&'].intercalate (fields.map fieldChars) := by
  rw [form, String.toList_intercalate, List.map_map]
  refine congrArg _ (List.map_congr_left fun field _ => ?_)
  simp [fieldChars]

/-- The fields of a form stand between its separators; an empty form is one empty part. -/
theorem splitOn_form (fields : List (String × String)) : (form fields).toList.splitOn '&' =
    if fields = [] then [[]] else fields.map fieldChars := by
  rw [toList_form]
  split
  next h =>
    subst h
    rfl
  next h =>
    refine List.splitOn_intercalate '&' ?_ (by simpa using h)
    intro part hpart
    obtain ⟨field, -, rfl⟩ := List.mem_map.1 hpart
    exact notMem_fieldChars field

/-- **A form determines its fields.** -/
theorem form_injective : Function.Injective form := by
  intro fields fields' h
  have hparts := (splitOn_form fields).symm.trans (h ▸ splitOn_form fields')
  -- a field has the character between name and value, so it is no empty part
  have hempty (fields : List (String × String)) : fields.map fieldChars ≠ [[]] := by
    cases fields <;> simp [fieldChars]
  split at hparts
  next hnil =>
    split at hparts
    next hnil' => rw [hnil, hnil']
    next => exact absurd hparts.symm (hempty fields')
  next =>
    split at hparts
    next => exact absurd hparts (hempty fields)
    next => exact (List.map_inj_right fun _ _ hfield => fieldChars_injective hfield).1 hparts

end StarQpu.Text
