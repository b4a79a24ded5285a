import Mathlib.Data.List.TakeDrop
import Mathlib.Data.List.TakeWhile
import StarQpu.Auth.Token
import StarQpu.Proofs.Text.Base64
import StarQpu.Proofs.Text.ByteOrder

/-!
# StarQpu.Proofs.Auth.Token

**Every token is read.** The middle part of a token may be written in either alphabet, with or
without the filling; reading tries one alphabet after the other and finds the text that was written
(`unpack?_of_fill`). So a token is good until the time that its text says, however that time is
written down as a number, and what has fewer than two dots is good for no time at all
(`secondsLeft_exact`). The time until then has to be a number of 64 bits: a token that expired
longer ago than that is taken for one that expires in the far future (`secondsLeft_of_overflow`).
-/

namespace StarQpu

/-- The number is the integer `e`, whether it is written as one or not. -/
def Number.Denotes : Number → Int → Prop
  | .int n, e => n = e
  | .float x, e => x.isFinite = true ∧ ∃ k : Nat, x.magnitude.1 = k * x.magnitude.2 ∧
      e = if x.isNegative then -(k : Int) else k

namespace Binary64

variable {x : Binary64}

theorem magnitude_snd_pos (x : Binary64) : 0 < x.magnitude.2 := by
  unfold magnitude
  split
  next => exact Nat.one_pos
  next => exact Nat.pow_pos Nat.two_pos

/-- Cutting a number to an integer changes no integer. -/
theorem truncate_of_denotes {e : Int} (h : (Number.float x).Denotes e) : x.truncate = e := by
  obtain ⟨-, k, hk, rfl⟩ := h
  have hquotient : x.magnitude.1 / x.magnitude.2 = k := by
    rw [hk, Nat.mul_div_cancel _ (magnitude_snd_pos x)]
  simp only [truncate, hquotient]

end Binary64

namespace Token

variable {now e n : Int} {text token part : String} {cs header body signature : List Char}
  {a : Base64.Alphabet}

/-! ### Integers of 64 bits -/

/-- Is it an integer of 64 bits with a sign? -/
def Fits (n : Int) : Prop := -twoTo 63 ≤ n ∧ n < twoTo 63

theorem saturate_of_fits (h : Fits n) : saturate n = n := by
  obtain ⟨hlow, hhigh⟩ := h
  rw [saturate]
  omega

theorem wrapAround_of_fits (h : Fits n) : wrapAround n = n :=
  Int.bmod_eq_of_le h.1 h.2

/-- An integer that is too small comes out on the other side. -/
theorem wrapAround_of_lt (hlow : -twoTo 64 ≤ n) (h : n < -twoTo 63) :
    wrapAround n = n + twoTo 64 := by
  have hfits : Fits (n + twoTo 64) := by
    have htwice : (twoTo 64 : Int) = 2 * twoTo 63 := rfl
    constructor <;> omega
  rw [← wrapAround_of_fits hfits]
  exact (Int.add_bmod_right n (twoTo 64)).symm

/-- A token with an expiry that is not too far away is good for the time until then. -/
theorem secondsLeft_of_fits (h : expiry? token = some e) (hfits : Fits (e - now)) :
    secondsLeft now token = max 0 (e - now) := by
  simp only [secondsLeft, h, wrapAround_of_fits hfits]
  exact max_comm _ _

/-- It is good for longer than some time if it expires after that. -/
theorem lt_secondsLeft_iff {margin : Int} (hmargin : 0 ≤ margin) (h : expiry? token = some e)
    (hfits : Fits (e - now)) : margin < secondsLeft now token ↔ now + margin < e := by
  rw [secondsLeft_of_fits h hfits]
  omega

/-- A token that expired longer ago than 64 bits can count is taken for one that expires in the far
future. -/
theorem secondsLeft_of_overflow (h : expiry? token = some e) (hlow : -twoTo 64 ≤ e - now)
    (hfar : e - now < -twoTo 63) : secondsLeft now token = e - now + twoTo 64 := by
  simp only [secondsLeft, h, wrapAround_of_lt hlow hfar]
  exact max_eq_left (by omega)

/-- The earliest expiry there is, a second after 1970. -/
example : secondsLeft 1 "e30.eyJleHAiOi05MjIzMzcyMDM2ODU0Nzc1ODA4fQ.s" = 9223372036854775807 := by
  decide +kernel

/-! ### The parts -/

theorem decide_ne_dot (h : '.' ∉ cs) : ∀ c ∈ cs, decide (c ≠ '.') = true := by
  intro c hc
  refine decide_eq_true ?_
  rintro rfl
  exact h hc

theorem span_append_dot (h : '.' ∉ header) :
    (header ++ '.' :: cs).span (· ≠ '.') = (header, '.' :: cs) := by
  rw [List.span_eq_takeWhile_dropWhile, List.takeWhile_append_of_pos (decide_ne_dot h),
    List.dropWhile_append_of_pos (decide_ne_dot h), List.takeWhile_cons_of_neg (by decide),
    List.dropWhile_cons_of_neg (by decide), List.append_nil]

theorem span_of_notMem (h : '.' ∉ cs) : cs.span (· ≠ '.') = (cs, []) := by
  rw [List.span_eq_takeWhile_dropWhile, List.takeWhile_eq_self_iff.2 (decide_ne_dot h),
    List.dropWhile_eq_nil_iff.2 (decide_ne_dot h)]

theorem parts?_append (hheader : '.' ∉ header) (hbody : '.' ∉ body) :
    parts? (header ++ '.' :: (body ++ '.' :: signature)) = some (header, body, signature) := by
  simp only [parts?, span_append_dot hheader, span_append_dot hbody]

/-- A text is cut into parts unless it has fewer than two dots. -/
theorem parts?_eq_none_iff : parts? cs = none ↔ cs.count '.' < 2 := by
  by_cases hdot : '.' ∈ cs
  · obtain ⟨header, rest, rfl, hheader⟩ := List.eq_append_cons_of_mem hdot
    rw [List.count_append, List.count_eq_zero_of_not_mem hheader, List.count_cons_self]
    by_cases hdot' : '.' ∈ rest
    · obtain ⟨body, signature, rfl, hbody⟩ := List.eq_append_cons_of_mem hdot'
      rw [parts?_append hheader hbody, List.count_append, List.count_cons_self]
      exact iff_of_false (Option.some_ne_none _) (by omega)
    · rw [List.count_eq_zero_of_not_mem hdot']
      simp only [parts?, span_append_dot hheader, span_of_notMem hdot']
      decide
  · rw [List.count_eq_zero_of_not_mem hdot]
    simp only [parts?, span_of_notMem hdot]
    decide

/-! ### The text -/

/-- Whichever alphabet the text is written in, it is found. -/
theorem unpack?_of_fill (ha : a.IsKnown) (h : Base64.fill part = Base64.encode a (bytes text)) :
    unpack? part = some text := by
  rw [unpack?, h]
  cases hstandard : Base64.decode .standard (Base64.encode a (bytes text)) with
  | some found =>
      -- the text may happen to be readable in the other alphabet as well
      have hfound := Base64.decode_agree (Or.inl rfl) ha hstandard (Base64.decode_encode ha _)
      simp only [hfound, fromUTF8?_bytes]
  | none =>
      rcases ha with rfl | rfl
      · rw [Base64.decode_encode (Or.inl rfl)] at hstandard
        cases hstandard
      · simp only [Base64.decode_encode (Or.inr rfl), fromUTF8?_bytes]

/-- The token has the text in the middle, in one of the alphabets and with the filling or
without. -/
def Wraps (token text : String) : Prop :=
  ∃ a : Base64.Alphabet, a.IsKnown ∧ ∃ header signature : String, '.' ∉ header.toList ∧
    ∃ body, (body = Base64.encode a (bytes text) ∨ body = Base64.encodeBare a (bytes text)) ∧
      token = header ++ "." ++ String.ofList body ++ "." ++ signature

/-- The text is an object with the integer `e`, one of 64 bits, for `exp`. -/
def ExpiresAt (text : String) (e : Int) : Prop :=
  (∃ fields n, Json.read text = .ok (.obj fields) ∧ fields.lookup "exp" = some (.num n) ∧
    n.Denotes e) ∧ Fits e

/-- The object with the fields `?` and `exp`, the numbers 0 and 90. -/
theorem expiresAt_ninety : ExpiresAt "\x7b\"?\":0,\"exp\":90\x7d" 90 := by
  have hfirst : Source.readString
      ['?', '"', ':', '0', ',', '"', 'e', 'x', 'p', '"', ':', '9', '0', '\x7d'] =
        (.ok "?", .ok [':', '0', ',', '"', 'e', 'x', 'p', '"', ':', '9', '0', '\x7d']) := rfl
  have hzero : Source.readNumber ['0', ',', '"', 'e', 'x', 'p', '"', ':', '9', '0', '\x7d'] =
      .ok (some (.int 0), [',', '"', 'e', 'x', 'p', '"', ':', '9', '0', '\x7d']) := rfl
  have hsecond : Source.readString ['e', 'x', 'p', '"', ':', '9', '0', '\x7d'] =
      (.ok "exp", .ok [':', '9', '0', '\x7d']) := rfl
  have hninety : Source.readNumber ['9', '0', '\x7d'] = .ok (some (.int 90), ['\x7d']) := rfl
  have hsource : Source.read "\x7b\"?\":0,\"exp\":90\x7d" =
      (.obj [("?", .num (.int 0)), ("exp", .num (.int 90))] .closed, none) := by
    simp [Source.read, Source.readValue, Source.readFields, Source.readField, Source.skipGaps,
      Source.isGap, Source.maxDepth, Source.closeObj, hfirst, hzero, hsecond, hninety]
  refine ⟨⟨[("?", .num (.int 0)), ("exp", .num (.int 90))], .int 90, ?_, rfl, rfl⟩, by decide,
    by decide⟩
  rw [Json.read, hsource]
  rfl

theorem notMem_dot_of_wraps (ha : a.IsKnown)
    (h : body = Base64.encode a (bytes text) ∨ body = Base64.encodeBare a (bytes text)) :
    '.' ∉ body := by
  rcases h with rfl | rfl
  · intro hdot
    rcases Base64.eq_or_isPlain_of_mem_encode ha hdot with heq | hplain
    · exact absurd heq (by decide)
    · exact hplain.2.1 rfl
  · exact fun hdot => (Base64.isPlain_of_mem_encodeBare ha hdot).2.1 rfl

/-! ### The expiry -/

theorem expiryOf?_num {n : Number} (hn : n.Denotes e) (hfits : Fits e) :
    expiryOf? (.num n) = some e := by
  cases n with
  | int m =>
      obtain rfl : m = e := hn
      rw [expiryOf?, saturate_of_fits hfits]
  | float x => rw [expiryOf?, Binary64.truncate_of_denotes hn, saturate_of_fits hfits]

theorem expiry?_of_wraps (hwraps : Wraps token text) (hexpires : ExpiresAt text e) :
    expiry? token = some e := by
  obtain ⟨a, ha, header, signature, hheader, body, hbody, rfl⟩ := hwraps
  obtain ⟨⟨fields, n, hread, hexp, hn⟩, hfits⟩ := hexpires
  have hparts : (header ++ "." ++ String.ofList body ++ "." ++ signature).toList =
      header.toList ++ '.' :: (body ++ '.' :: signature.toList) := by
    simp
  have hfill : Base64.fill (String.ofList body) = Base64.encode a (bytes text) := by
    rcases hbody with rfl | rfl
    · exact Base64.fill_encode ha _
    · exact Base64.fill_encodeBare ha _
  rw [expiry?, hparts, parts?_append hheader (notMem_dot_of_wraps ha hbody)]
  simp only [unpack?_of_fill ha hfill, hread, expiryOfClaims?, Json.field?, hexp,
    expiryOf?_num hn hfits]

/-- **Every token is read.** Whatever way its text was wrapped, a token is good until the time that
the text says, unless that is too far away to be counted; what has fewer than two dots is good for
no time. -/
theorem secondsLeft_exact (now : Int) :
    (∀ token text e, Wraps token text → ExpiresAt text e → Fits (e - now) →
      secondsLeft now token = max 0 (e - now)) ∧
    ∀ token : String, token.toList.count '.' < 2 → secondsLeft now token = 0 := by
  refine ⟨fun token text e hwraps hexpires hfits => ?_, fun token hdots => ?_⟩
  · exact secondsLeft_of_fits (expiry?_of_wraps hwraps hexpires) hfits
  · rw [secondsLeft, expiry?, parts?_eq_none_iff.2 hdots]

/-- Without its filling and with a character that only one of the alphabets has. -/
theorem secondsLeft_exact_ninety :
    Wraps "h.eyI_IjowLCJleHAiOjkwfQ.s.t" "\x7b\"?\":0,\"exp\":90\x7d" ∧
      ExpiresAt "\x7b\"?\":0,\"exp\":90\x7d" 90 ∧ Fits (90 - 30) ∧
      secondsLeft 30 "h.eyI_IjowLCJleHAiOjkwfQ.s.t" = 60 ∧
      "h.eyI_".toList.count '.' < 2 ∧ secondsLeft 30 "h.eyI_" = 0 := by
  have hwraps : Wraps "h.eyI_IjowLCJleHAiOjkwfQ.s.t" "\x7b\"?\":0,\"exp\":90\x7d" :=
    ⟨.urlSafe, Or.inr rfl, "h", "s.t", by decide, _, Or.inr rfl, by decide⟩
  have hfits : Fits (90 - 30) := ⟨by decide, by decide⟩
  have hdots : "h.eyI_".toList.count '.' < 2 := by decide
  exact ⟨hwraps, expiresAt_ninety, hfits,
    (secondsLeft_exact 30).1 _ _ _ hwraps expiresAt_ninety hfits, hdots,
    (secondsLeft_exact 30).2 _ hdots⟩

end Token

end StarQpu
