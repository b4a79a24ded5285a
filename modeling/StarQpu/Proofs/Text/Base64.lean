import StarQpu.Text.Base64

/-!
# StarQpu.Proofs.Text.Base64

**Text in base 64 is read back.** What was written in one of the two alphabets is read as the bytes
it was written for (`decode_encode`), and what is left of it without the filling is filled up to the
same text (`fill_encodeBare`). The alphabets have no character in common that means different bits,
so a text that can be read in both is read as the same bytes in both (`decode_agree`): whoever does
not know the alphabet may try one after the other.
-/

namespace StarQpu.Base64

variable {a b : Alphabet} {n : Nat} {bytes bytes' : List UInt8} {cs : List Char}

/-! ### Characters -/

/-- One of the two alphabets. -/
def Alphabet.IsKnown (a : Alphabet) : Prop := a = .standard ∨ a = .urlSafe

/-- A character of one byte that is neither the filling nor a dot. -/
def IsPlain (c : Char) : Prop := c ≠ '=' ∧ c ≠ '.' ∧ c.utf8Size = 1
  deriving Decidable

namespace Alphabet.IsKnown

theorem value?_digit (ha : a.IsKnown) (hn : n < 64) : a.value? (a.digit n) = some n := by
  rcases ha with rfl | rfl <;> revert n <;> decide

theorem isPlain_digit (ha : a.IsKnown) (hn : n < 64) : IsPlain (a.digit n) := by
  rcases ha with rfl | rfl <;> revert n <;> decide

/-- No character stands for different bits in two alphabets. -/
theorem value?_agree (ha : a.IsKnown) (hb : b.IsKnown) {c : Char} {m n : Nat}
    (hm : a.value? c = some m) (hn : b.value? c = some n) : m = n := by
  rcases ha with rfl | rfl <;> rcases hb with rfl | rfl <;>
    grind [Alphabet.value?, Alphabet.standard, Alphabet.urlSafe]

end Alphabet.IsKnown

/-! ### Groups -/

theorem decodeOne_eq_some_iff {p q : Char} : decodeOne a p q = some bytes ↔
    ∃ k, a.value? p = some k ∧ ∃ l, a.value? q = some l ∧
      l % 16 = 0 ∧ [UInt8.ofNat (k * 4 + l / 16)] = bytes := by
  simp only [decodeOne, Option.bind_eq_bind, Option.bind_eq_some_iff, Option.ite_none_right_eq_some,
    Option.some.injEq]

theorem decodeTwo_eq_some_iff {p q r : Char} : decodeTwo a p q r = some bytes ↔
    ∃ k, a.value? p = some k ∧ ∃ l, a.value? q = some l ∧ ∃ m, a.value? r = some m ∧
      m % 4 = 0 ∧ [UInt8.ofNat (k * 4 + l / 16), UInt8.ofNat (l % 16 * 16 + m / 4)] = bytes := by
  simp only [decodeTwo, Option.bind_eq_bind, Option.bind_eq_some_iff, Option.ite_none_right_eq_some,
    Option.some.injEq]

theorem decodeThree_eq_some_iff {p q r s : Char} : decodeThree a p q r s = some bytes ↔
    ∃ k, a.value? p = some k ∧ ∃ l, a.value? q = some l ∧ ∃ m, a.value? r = some m ∧
      ∃ n, a.value? s = some n ∧ [UInt8.ofNat (k * 4 + l / 16), UInt8.ofNat (l % 16 * 16 + m / 4),
        UInt8.ofNat (m % 4 * 64 + n)] = bytes := by
  simp only [decodeThree, Option.bind_eq_bind, Option.bind_eq_some_iff, Option.some.injEq]

theorem decodeOne_digit (ha : a.IsKnown) (x : UInt8) :
    decodeOne a (a.digit (x.toNat / 4)) (a.digit (x.toNat % 4 * 16)) = some [x] := by
  have hx := x.toNat_lt
  refine decodeOne_eq_some_iff.2 ⟨_, ha.value?_digit (by omega), _, ha.value?_digit (by omega),
    by omega, ?_⟩
  have hbits : x.toNat / 4 * 4 + x.toNat % 4 * 16 / 16 = x.toNat := by omega
  rw [hbits, UInt8.ofNat_toNat]

theorem decodeTwo_digit (ha : a.IsKnown) (x y : UInt8) :
    decodeTwo a (a.digit (x.toNat / 4)) (a.digit (x.toNat % 4 * 16 + y.toNat / 16))
      (a.digit (y.toNat % 16 * 4)) = some [x, y] := by
  have hx := x.toNat_lt
  have hy := y.toNat_lt
  refine decodeTwo_eq_some_iff.2 ⟨_, ha.value?_digit (by omega), _, ha.value?_digit (by omega), _,
    ha.value?_digit (by omega), by omega, ?_⟩
  have hfirst : x.toNat / 4 * 4 + (x.toNat % 4 * 16 + y.toNat / 16) / 16 = x.toNat := by omega
  have hsecond : (x.toNat % 4 * 16 + y.toNat / 16) % 16 * 16 + y.toNat % 16 * 4 / 4 = y.toNat := by
    omega
  rw [hfirst, hsecond, UInt8.ofNat_toNat, UInt8.ofNat_toNat]

theorem decodeThree_digit (ha : a.IsKnown) (x y z : UInt8) :
    decodeThree a (a.digit (x.toNat / 4)) (a.digit (x.toNat % 4 * 16 + y.toNat / 16))
      (a.digit (y.toNat % 16 * 4 + z.toNat / 64)) (a.digit (z.toNat % 64)) = some [x, y, z] := by
  have hx := x.toNat_lt
  have hy := y.toNat_lt
  have hz := z.toNat_lt
  refine decodeThree_eq_some_iff.2 ⟨_, ha.value?_digit (by omega), _, ha.value?_digit (by omega), _,
    ha.value?_digit (by omega), _, ha.value?_digit (by omega), ?_⟩
  have hfirst : x.toNat / 4 * 4 + (x.toNat % 4 * 16 + y.toNat / 16) / 16 = x.toNat := by omega
  have hsecond : (x.toNat % 4 * 16 + y.toNat / 16) % 16 * 16 +
      (y.toNat % 16 * 4 + z.toNat / 64) / 4 = y.toNat := by omega
  have hthird : (y.toNat % 16 * 4 + z.toNat / 64) % 4 * 64 + z.toNat % 64 = z.toNat := by omega
  rw [hfirst, hsecond, hthird, UInt8.ofNat_toNat, UInt8.ofNat_toNat, UInt8.ofNat_toNat]

section Agree

variable {p q r s : Char} (ha : a.IsKnown) (hb : b.IsKnown)

include ha hb

theorem decodeOne_agree (h : decodeOne a p q = some bytes) (h' : decodeOne b p q = some bytes') :
    bytes = bytes' := by
  obtain ⟨k, hp, l, hq, -, rfl⟩ := decodeOne_eq_some_iff.1 h
  obtain ⟨k', hp', l', hq', -, rfl⟩ := decodeOne_eq_some_iff.1 h'
  rw [ha.value?_agree hb hp hp', ha.value?_agree hb hq hq']

theorem decodeTwo_agree (h : decodeTwo a p q r = some bytes)
    (h' : decodeTwo b p q r = some bytes') : bytes = bytes' := by
  obtain ⟨k, hp, l, hq, m, hr, -, rfl⟩ := decodeTwo_eq_some_iff.1 h
  obtain ⟨k', hp', l', hq', m', hr', -, rfl⟩ := decodeTwo_eq_some_iff.1 h'
  rw [ha.value?_agree hb hp hp', ha.value?_agree hb hq hq', ha.value?_agree hb hr hr']

theorem decodeThree_agree (h : decodeThree a p q r s = some bytes)
    (h' : decodeThree b p q r s = some bytes') : bytes = bytes' := by
  obtain ⟨k, hp, l, hq, m, hr, n, hs, rfl⟩ := decodeThree_eq_some_iff.1 h
  obtain ⟨k', hp', l', hq', m', hr', n', hs', rfl⟩ := decodeThree_eq_some_iff.1 h'
  rw [ha.value?_agree hb hp hp', ha.value?_agree hb hq hq', ha.value?_agree hb hr hr',
    ha.value?_agree hb hs hs']

end Agree

/-! ### Texts -/

/-- Reading undoes writing. -/
theorem decode_encode (ha : a.IsKnown) (bytes : List UInt8) :
    decode a (encode a bytes) = some bytes := by
  fun_induction encode a bytes with
  | case1 => rfl
  | case2 x => exact decodeOne_digit ha x
  | case3 x y =>
      -- a digit is never taken for filling, so the group is read as one of its own length
      have hdigit := (ha.isPlain_digit (n := y.toNat % 16 * 4) (by omega)).1
      rw [decode]
      · exact decodeTwo_digit ha x y
      · exact hdigit
  | case4 x y z rest ih =>
      have hdigit := (ha.isPlain_digit (n := z.toNat % 64) (by omega)).1
      rw [decode, decodeThree_digit ha, ih]
      · rfl
      · exact fun _ h _ => hdigit h
      · exact fun h _ => hdigit h

/-- What can be read in both alphabets means the same in both. -/
theorem decode_agree (ha : a.IsKnown) (hb : b.IsKnown) (h : decode a cs = some bytes)
    (h' : decode b cs = some bytes') : bytes = bytes' := by
  -- on the groups of the text, which are the same for every alphabet
  fun_induction decode a cs generalizing bytes bytes' with
  | case1 =>
      rw [← Option.some.inj h, ← Option.some.inj h']
  | case2 p q => exact decodeOne_agree ha hb h h'
  | case3 p q r hne =>
      rw [decode] at h'
      · exact decodeTwo_agree ha hb h h'
      · exact hne
  | case4 p q r s rest hne hne' ih =>
      rw [decode] at h'
      · simp only [Option.bind_eq_bind, Option.bind_eq_some_iff, Option.some.injEq] at h h'
        obtain ⟨group, hgroup, more, hmore, rfl⟩ := h
        obtain ⟨group', hgroup', more', hmore', rfl⟩ := h'
        rw [decodeThree_agree ha hb hgroup hgroup', ih hmore hmore']
      · exact hne
      · exact hne'
  | case5 => cases h

/-! ### Filling -/

/-- The bytes cut into groups of six bits, the last one filled up with zeros. -/
def sextets : List UInt8 → List Nat
  | [] => []
  | [x] => [x.toNat / 4, x.toNat % 4 * 16]
  | [x, y] => [x.toNat / 4, x.toNat % 4 * 16 + y.toNat / 16, y.toNat % 16 * 4]
  | x :: y :: z :: rest =>
    x.toNat / 4 :: (x.toNat % 4 * 16 + y.toNat / 16) :: (y.toNat % 16 * 4 + z.toNat / 64) ::
      z.toNat % 64 :: sextets rest

theorem lt_of_mem_sextets (h : n ∈ sextets bytes) : n < 64 := by
  fun_induction sextets bytes with
  | case1 => cases h
  | case2 x =>
      have hx := x.toNat_lt
      simp only [List.mem_cons, List.not_mem_nil, or_false] at h
      omega
  | case3 x y =>
      have hx := x.toNat_lt
      have hy := y.toNat_lt
      simp only [List.mem_cons, List.not_mem_nil, or_false] at h
      omega
  | case4 x y z rest ih =>
      have hx := x.toNat_lt
      have hy := y.toNat_lt
      have hz := z.toNat_lt
      simp only [List.mem_cons] at h
      rcases h with h | h | h | h | h
      · omega
      · omega
      · omega
      · omega
      · exact ih h

/-- The filling makes the length a multiple of four. -/
theorem encode_eq (a : Alphabet) (bytes : List UInt8) : encode a bytes =
    (sextets bytes).map a.digit ++ List.replicate ((4 - (sextets bytes).length % 4) % 4) '=' := by
  fun_induction sextets bytes with
  | case1 => rfl
  | case2 x => rfl
  | case3 x y => rfl
  | case4 x y z rest ih =>
      rw [encode, ih]
      simp only [List.length_cons, List.map_cons, List.cons_append, Nat.add_assoc, Nat.reduceAdd,
        Nat.add_mod_right]

theorem encodeBare_eq (ha : a.IsKnown) (bytes : List UInt8) :
    encodeBare a bytes = (sextets bytes).map a.digit := by
  have hkept : ∀ c ∈ (sextets bytes).map a.digit, decide (c ≠ '=') = true := by
    intro c hc
    obtain ⟨n, hn, rfl⟩ := List.mem_map.1 hc
    exact decide_eq_true (ha.isPlain_digit (lt_of_mem_sextets hn)).1
  rw [encodeBare, encode_eq, List.filter_append, List.filter_eq_self.2 hkept,
    List.filter_replicate_of_neg (by decide), List.append_nil]

theorem isPlain_of_mem_encodeBare (ha : a.IsKnown) {c : Char} (h : c ∈ encodeBare a bytes) :
    IsPlain c := by
  rw [encodeBare_eq ha] at h
  obtain ⟨n, hn, rfl⟩ := List.mem_map.1 h
  exact ha.isPlain_digit (lt_of_mem_sextets hn)

theorem eq_or_isPlain_of_mem_encode (ha : a.IsKnown) {c : Char} (h : c ∈ encode a bytes) :
    c = '=' ∨ IsPlain c := by
  by_cases hfilling : c = '='
  · exact Or.inl hfilling
  · exact Or.inr (isPlain_of_mem_encodeBare ha (List.mem_filter.2 ⟨h, decide_eq_true hfilling⟩))

theorem utf8ByteSize_ofList (h : ∀ c ∈ cs, c.utf8Size = 1) :
    (String.ofList cs).utf8ByteSize = cs.length := by
  induction cs with
  | nil => rfl
  | cons c cs ih =>
      rw [String.ofList_cons, String.utf8ByteSize_append, String.utf8ByteSize_singleton,
        h c List.mem_cons_self, ih fun d hd => h d (List.mem_cons_of_mem c hd), List.length_cons,
        Nat.add_comm]

theorem fill_ofList (h : ∀ c ∈ cs, c.utf8Size = 1) :
    fill (String.ofList cs) = cs ++ List.replicate ((4 - cs.length % 4) % 4) '=' := by
  rw [fill, utf8ByteSize_ofList h, String.toList_ofList]

/-- A text without its filling is filled up again. -/
theorem fill_encodeBare (ha : a.IsKnown) (bytes : List UInt8) :
    fill (String.ofList (encodeBare a bytes)) = encode a bytes := by
  rw [fill_ofList fun c hc => (isPlain_of_mem_encodeBare ha hc).2.2, encodeBare_eq ha,
    List.length_map, encode_eq]

/-- A text with its filling gets no more of it. -/
theorem fill_encode (ha : a.IsKnown) (bytes : List UInt8) :
    fill (String.ofList (encode a bytes)) = encode a bytes := by
  have hsize : ∀ c ∈ encode a bytes, c.utf8Size = 1 := by
    intro c hc
    rcases eq_or_isPlain_of_mem_encode ha hc with rfl | hplain
    · rfl
    · exact hplain.2.2
  have hlength : (4 - (encode a bytes).length % 4) % 4 = 0 := by
    rw [encode_eq, List.length_append, List.length_map, List.length_replicate]
    omega
  rw [fill_ofList hsize, hlength, List.replicate_zero, List.append_nil]

end StarQpu.Base64
