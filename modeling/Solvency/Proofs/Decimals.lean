import Solvency.Text.Integer

/-! Integers as text: an integer that has few enough digits to be written is read back from its text, and integers of
    one text are one integer. Reading knows the digits of every script, so that a written digit is first found to have
    its ASCII value. -/

namespace Solvency.Text

/-! ### Digits -/

theorem isDigit_iff {c : Char} : c.isDigit = true ↔ 48 ≤ c.toNat ∧ c.toNat ≤ 57 := by
  simp only [Char.isDigit, ge_iff_le, Bool.and_eq_true, decide_eq_true_eq, UInt32.le_iff_toNat_le]
  rfl

theorem digitValue?_of_isDigit {c : Char} (h : c.isDigit = true) : digitValue? c = some (c.toNat - '0'.toNat) := by
  obtain ⟨hlow, hhigh⟩ := isDigit_iff.mp h
  unfold digitValue? zeroDigits
  rw [List.find?_cons_of_pos (by simp; omega)]
  rfl

theorem isPadding_of_isDigit {c : Char} (h : c.isDigit = true) : isPadding c = false := by
  obtain ⟨hlow, hhigh⟩ := isDigit_iff.mp h
  have hblank : isBlank c = false := by
    simp only [isBlank, blankRanges, List.any_eq_false, List.mem_cons, List.not_mem_nil, or_false,
      Bool.and_eq_true, decide_eq_true_eq, not_and]
    rintro range (rfl | rfl | rfl | rfl | rfl | rfl | rfl | rfl | rfl | rfl) <;> simp only <;> omega
  rw [isPadding, hblank, Bool.false_and]

theorem isDigit_of_mem_digits {n : Nat} {c : Char} (h : c ∈ digits n) : c.isDigit = true :=
  Nat.isDigit_of_mem_toDigits (by decide) (by decide) h

theorem digits_ne_nil (n : Nat) : digits n ≠ [] := List.ne_nil_of_length_pos Nat.length_toDigits_pos

theorem length_digits_le {n k : Nat} (hk : 0 < k) (h : n < Nat.pow 10 k) : (digits n).length ≤ k :=
  (Nat.length_toDigits_le_iff (by decide) hk).mpr h

theorem digits_injective {m n : Nat} (h : digits m = digits n) : m = n := by
  have hm := Nat.ofDigitChars_toDigits (b := 10) (n := m) (by decide) (by decide)
  have hn := Nat.ofDigitChars_toDigits (b := 10) (n := n) (by decide) (by decide)
  rw [← hm, ← hn]
  exact congrArg (Nat.ofDigitChars 10 · 0) h

/-! ### Reading digits -/

theorem readDigits_cons_of_isDigit {c : Char} {cs : List Char} {value count : Nat} {after : Bool}
    (h : c.isDigit = true) :
    readDigits value count after (c :: cs) = readDigits (10 * value + (c.toNat - '0'.toNat)) (count + 1) true cs := by
  have hc : c ≠ '_' := by
    rintro rfl
    exact absurd h (by decide)
  rw [readDigits.eq_3 _ _ _ _ _ (fun h => hc h), digitValue?_of_isDigit h, Nat.mul_comm]

theorem readDigits_of_isDigit {cs : List Char} {value count : Nat} (h : ∀ c ∈ cs, c.isDigit = true)
    (hlength : count + cs.length ≤ digitLimit) :
    readDigits value count true cs = some (Nat.ofDigitChars 10 cs value) := by
  induction cs generalizing value count with
  | nil =>
    have hcount : count ≤ digitLimit := hlength
    simp [readDigits, hcount]
  | cons c cs ih =>
    rw [List.length_cons] at hlength
    rw [readDigits_cons_of_isDigit (h c List.mem_cons_self), Nat.ofDigitChars_cons]
    exact ih (fun d hd => h d (List.mem_cons_of_mem c hd)) (by omega)

theorem length_le_of_readDigits {cs : List Char} {value count n : Nat} (h : ∀ c ∈ cs, c.isDigit = true)
    (hread : readDigits value count true cs = some n) : count + cs.length ≤ digitLimit := by
  induction cs generalizing value count with
  | nil =>
    by_cases hcount : count ≤ digitLimit
    · exact hcount
    · simp [readDigits, hcount] at hread
  | cons c cs ih =>
    rw [readDigits_cons_of_isDigit (h c List.mem_cons_self)] at hread
    have hlength := ih (fun d hd => h d (List.mem_cons_of_mem c hd)) hread
    rw [List.length_cons]
    omega

theorem lt_of_readDigits_digits {m n : Nat} (h : readDigits 0 0 false (digits n) = some m) :
    n < Nat.pow 10 digitLimit := by
  have hdigits : ∀ c ∈ digits n, c.isDigit = true := fun c hc => isDigit_of_mem_digits hc
  apply (Nat.length_toDigits_le_iff (by decide) (by decide)).mp
  change (digits n).length ≤ digitLimit
  cases hcs : digits n with
  | nil => exact Nat.zero_le _
  | cons c cs =>
    rw [hcs] at hdigits h
    rw [readDigits_cons_of_isDigit (hdigits c List.mem_cons_self)] at h
    have hlength := length_le_of_readDigits (fun d hd => hdigits d (List.mem_cons_of_mem c hd)) h
    rw [List.length_cons]
    omega

theorem readDigits_digits {n : Nat} (h : n < Nat.pow 10 digitLimit) : readDigits 0 0 false (digits n) = some n := by
  have hlength := length_digits_le (by decide) h
  have hvalue := Nat.ofDigitChars_toDigits (b := 10) (n := n) (by decide) (by decide)
  have hdigits : ∀ c ∈ digits n, c.isDigit = true := fun c hc => isDigit_of_mem_digits hc
  cases hcs : digits n with
  | nil => exact absurd hcs (digits_ne_nil n)
  | cons c cs =>
    rw [hcs] at hdigits hlength
    rw [List.length_cons] at hlength
    rw [readDigits_cons_of_isDigit (hdigits c List.mem_cons_self),
      readDigits_of_isDigit (fun d hd => hdigits d (List.mem_cons_of_mem c hd)) (by omega), ← Nat.ofDigitChars_cons,
      ← hcs]
    exact congrArg some hvalue

/-! ### Reading integers -/

theorem readSigned_digits (n : Nat) : readSigned (digits n) = (readDigits 0 0 false (digits n)).map Int.ofNat := by
  have hdigits : ∀ c ∈ digits n, c.isDigit = true := fun c hc => isDigit_of_mem_digits hc
  cases hcs : digits n with
  | nil => rfl
  | cons c cs =>
    have hc : c.isDigit = true := hdigits c (hcs ▸ List.mem_cons_self)
    unfold readSigned
    split
    · rename_i heq
      obtain ⟨rfl, -⟩ := List.cons.inj heq
      exact absurd hc (by decide)
    · rename_i heq
      obtain ⟨rfl, -⟩ := List.cons.inj heq
      exact absurd hc (by decide)
    · rfl

theorem trim_eq_self {drop : Char → Bool} {cs : List Char} (h : ∀ c ∈ cs, drop c = false) : trim drop cs = cs := by
  have keep : ∀ ds : List Char, (∀ c ∈ ds, drop c = false) → ds.dropWhile drop = ds := by
    intro ds hds
    cases ds with
    | nil => rfl
    | cons d ds => rw [List.dropWhile_cons, if_neg (by rw [hds d List.mem_cons_self]; decide)]
  rw [trim, keep cs h, keep cs.reverse fun c hc => h c (List.mem_reverse.mp hc), List.reverse_reverse]

theorem isPadding_of_mem_integerChars {n : Int} {c : Char} (h : c ∈ integerChars n) : isPadding c = false := by
  cases n with
  | ofNat n => exact isPadding_of_isDigit (isDigit_of_mem_digits h)
  | negSucc n =>
    rcases List.mem_cons.mp h with rfl | h
    · decide
    · exact isPadding_of_isDigit (isDigit_of_mem_digits h)

/-- An integer is read back from its text. -/
theorem readInteger_decimal {n : Int} (h : isWritable n = true) : readInteger (decimal n) = some n := by
  have hsmall : n.natAbs < Nat.pow 10 digitLimit := by simpa [isWritable] using h
  rw [readInteger, decimal, chars?_ofChars, Option.bind_some, trim_eq_self fun c hc => isPadding_of_mem_integerChars hc]
  cases n with
  | ofNat n =>
    have hn : n < Nat.pow 10 digitLimit := hsmall
    rw [integerChars, readSigned_digits, readDigits_digits hn]
    rfl
  | negSucc n =>
    have hn : n + 1 < Nat.pow 10 digitLimit := hsmall
    rw [integerChars, readSigned, readDigits_digits hn]
    rfl

/-- The text of an integer is read as no other one. -/
theorem eq_of_readInteger_decimal {m n : Int} (h : readInteger (decimal n) = some m) : m = n := by
  have hwritable : isWritable n = true := by
    rw [readInteger, decimal, chars?_ofChars, Option.bind_some,
      trim_eq_self fun c hc => isPadding_of_mem_integerChars hc] at h
    cases n with
    | ofNat n =>
      rw [integerChars, readSigned_digits] at h
      obtain ⟨_, hread, -⟩ := Option.map_eq_some_iff.mp h
      exact decide_eq_true (lt_of_readDigits_digits hread)
    | negSucc n =>
      rw [integerChars, readSigned] at h
      obtain ⟨_, h, -⟩ := Option.map_eq_some_iff.mp h
      obtain ⟨_, hread, -⟩ := Option.bind_eq_some_iff.mp h
      exact decide_eq_true (lt_of_readDigits_digits hread)
  rw [readInteger_decimal hwritable] at h
  exact (Option.some.inj h).symm

theorem decimal?_eq_some {n : Int} {text : Text} : decimal? n = some text ↔ isWritable n = true ∧ decimal n = text := by
  unfold decimal?
  split
  · rename_i hwritable
    simp [hwritable]
  · rename_i hlong
    simp [hlong]

theorem readInteger_of_decimal? {n : Int} {text : Text} (h : decimal? n = some text) : readInteger text = some n := by
  obtain ⟨hwritable, rfl⟩ := decimal?_eq_some.mp h
  exact readInteger_decimal hwritable

theorem ofChars_injective {cs ds : List Char} (h : ofChars cs = ofChars ds) : cs = ds := by
  have hchars := congrArg chars? h
  rw [chars?_ofChars, chars?_ofChars] at hchars
  exact Option.some.inj hchars

theorem decimal_injective {m n : Int} (h : decimal m = decimal n) : m = n := by
  have hchars := ofChars_injective h
  have hminus : ∀ {k : Nat} {cs : List Char}, digits k ≠ '-' :: cs := fun hk =>
    absurd (isDigit_of_mem_digits (hk ▸ List.mem_cons_self)) (by decide)
  cases m with
  | ofNat m =>
    cases n with
    | ofNat n => rw [digits_injective hchars]
    | negSucc n => exact absurd hchars hminus
  | negSucc m =>
    cases n with
    | ofNat n => exact absurd hchars.symm hminus
    | negSucc n => rw [Nat.succ.inj (digits_injective (List.cons.inj hchars).2)]

theorem eq_of_decimal? {m n : Int} {text : Text} (hm : decimal? m = some text) (hn : decimal? n = some text) : m = n :=
  decimal_injective ((decimal?_eq_some.mp hm).2.trans (decimal?_eq_some.mp hn).2.symm)

end Solvency.Text
