import Solvency.Json.Reader
import Solvency.Proofs.Decimals

/-! Lexemes: how the texts, the numbers and the names of JSON are spelled, and that each of them is read as what it
    spells. A text ends with its quote. A number ends where no further part of it follows, so that what stands behind it
    matters. -/

namespace Solvency.Json

/-! ### Texts -/

/-- The spellings of a text between its quotes. A point that is named by its number must not be the first half of a pair
    with the one behind it. -/
inductive SpellsText : Text → List Char → Prop
  | nil : SpellsText [] []
  | plain {c : Char} {text : Text} {cs : List Char} (visible : 0x20 ≤ c.toNat) (quote : c ≠ '"') (backslash : c ≠ '\\')
      (rest : SpellsText text cs) : SpellsText (.char c :: text) (c :: cs)
  | escape {letter c : Char} {text : Text} {cs : List Char} (stands : escape? letter = some c)
      (rest : SpellsText text cs) : SpellsText (.char c :: text) ('\\' :: letter :: cs)
  | point {a b c d : Char} {n : Nat} {point : CodePoint} {text : Text} {cs : List Char}
      (digits : hex4? a b c d = some n) (named : CodePoint.ofNat? n = some point)
      (alone : ∀ e f g h more, cs = '\\' :: 'u' :: e :: f :: g :: h :: more → (hex4? e f g h).bind (pair? n) = none)
      (rest : SpellsText text cs) : SpellsText (point :: text) ('\\' :: 'u' :: a :: b :: c :: d :: cs)
  | pair {a b c d e f g h char : Char} {n : Nat} {text : Text} {cs : List Char} (digits : hex4? a b c d = some n)
      (both : (hex4? e f g h).bind (pair? n) = some char) (rest : SpellsText text cs) :
      SpellsText (.char char :: text) ('\\' :: 'u' :: a :: b :: c :: d :: '\\' :: 'u' :: e :: f :: g :: h :: cs)

/-- A number behind `\u` that makes no pair with what follows names a point of its own. -/
theorem readText_point {done : Text} {a b c d : Char} {n : Nat} {point : CodePoint} {input : List Char}
    (digits : hex4? a b c d = some n) (named : CodePoint.ofNat? n = some point)
    (alone : ∀ e f g h more, input = '\\' :: 'u' :: e :: f :: g :: h :: more →
      (hex4? e f g h).bind (pair? n) = none) :
    readText done ('\\' :: 'u' :: a :: b :: c :: d :: input) = readText (point :: done) input := by
  by_cases hnext : ∃ e f g h more, input = '\\' :: 'u' :: e :: f :: g :: h :: more
  · obtain ⟨e, f, g, h, more, rfl⟩ := hnext
    simp only [readText.eq_3, digits, alone e f g h more rfl, named]
  · rw [readText.eq_4 _ _ _ _ _ _ fun e f g h more he => hnext ⟨e, f, g, h, more, he⟩]
    simp only [digits, Option.bind_some, named]

theorem SpellsText.eq_of_append {text : Text} {cs rest more : List Char} {e f g h : Char} (hs : SpellsText text cs)
    (heq : cs ++ '"' :: rest = '\\' :: 'u' :: e :: f :: g :: h :: more) :
    ∃ more', cs = '\\' :: 'u' :: e :: f :: g :: h :: more' := by
  cases hs with
  | nil => cases heq
  | plain visible quote backslash rest => exact absurd (List.cons.inj heq).1 backslash
  | escape stands rest =>
    obtain ⟨rfl, -⟩ := List.cons.inj (List.cons.inj heq).2
    cases stands
  | point digits named alone rest =>
    simp only [List.cons_append, List.cons.injEq, true_and] at heq
    obtain ⟨rfl, rfl, rfl, rfl, -⟩ := heq
    exact ⟨_, rfl⟩
  | pair digits both rest =>
    simp only [List.cons_append, List.cons.injEq, true_and] at heq
    obtain ⟨rfl, rfl, rfl, rfl, -⟩ := heq
    exact ⟨_, rfl⟩

/-- A spelled text is read up to its quote. -/
theorem readText_spelled {text : Text} {cs : List Char} (h : SpellsText text cs) (done : Text) (rest : List Char) :
    readText done (cs ++ '"' :: rest) = some (done.reverse ++ text, rest) := by
  induction h generalizing done with
  | nil => rw [List.append_nil]; exact readText.eq_2 done rest
  | @plain c text cs visible quote backslash _ ih =>
    have hplain : ¬(c = '\\' ∨ c.toNat < 0x20) := not_or.mpr ⟨backslash, Nat.not_lt.mpr visible⟩
    rw [List.cons_append, readText.eq_6 _ _ _ quote (fun _ _ _ _ _ _ _ _ _ h => absurd h backslash)
      (fun _ _ _ _ _ h => absurd h backslash) (fun _ _ h => absurd h backslash), if_neg hplain, ih,
      List.reverse_cons, List.append_assoc, List.singleton_append]
  | @escape letter c text cs stands _ ih =>
    have hletter : letter ≠ 'u' := by
      rintro rfl
      cases stands
    rw [List.cons_append, List.cons_append, readText.eq_5 _ _ _ (fun _ _ _ _ _ _ _ _ _ h => absurd h hletter)
      (fun _ _ _ _ _ h => absurd h hletter)]
    simp only [stands, ih, List.reverse_cons, List.append_assoc, List.singleton_append]
  | @point a b c d n point text cs digits named alone htext ih =>
    simp only [List.cons_append]
    rw [readText_point digits named, ih, List.reverse_cons, List.append_assoc, List.singleton_append]
    -- The quote behind the spelling completes no escape, so that what follows the point is part of the spelling.
    intro e f g h more heq
    obtain ⟨more', rfl⟩ := htext.eq_of_append heq
    exact alone e f g h more' rfl
  | @pair a b c d e f g h char n text cs digits both _ ih =>
    simp only [List.cons_append, readText.eq_3, digits, both, ih, List.reverse_cons, List.append_assoc,
      List.nil_append]

/-! ### Numbers -/

def AreDigits (ds : List Char) : Prop := ds ≠ [] ∧ ∀ d ∈ ds, d.isDigit = true

/-- The digits in front of a point: one zero, or digits that do not start with one. -/
def IsWhole (ds : List Char) : Prop := ds = ['0'] ∨ (AreDigits ds ∧ ds.head? ≠ some '0')

instance (ds : List Char) : Decidable (AreDigits ds) :=
  letI := List.decidableBAll (fun d : Char => d.isDigit = true) ds
  inferInstanceAs (Decidable (ds ≠ [] ∧ ∀ d ∈ ds, d.isDigit = true))

instance (ds : List Char) : Decidable (IsWhole ds) :=
  inferInstanceAs (Decidable (ds = ['0'] ∨ (AreDigits ds ∧ ds.head? ≠ some '0')))

/-- The spellings of the part behind the point, which may be missing. -/
inductive SpellsFraction : List Char → List Char → Prop
  | none : SpellsFraction [] []
  | digits {ds : List Char} (h : AreDigits ds) : SpellsFraction ds ('.' :: ds)

/-- The spellings of a power of ten, which may be missing. -/
inductive SpellsPower : Int → List Char → Prop
  | none : SpellsPower 0 []
  | bare {letter : Char} {ds : List Char} (mark : letter = 'e' ∨ letter = 'E') (h : AreDigits ds) :
      SpellsPower (digitsValue ds) (letter :: ds)
  | plus {letter : Char} {ds : List Char} (mark : letter = 'e' ∨ letter = 'E') (h : AreDigits ds) :
      SpellsPower (digitsValue ds) (letter :: '+' :: ds)
  | minus {letter : Char} {ds : List Char} (mark : letter = 'e' ∨ letter = 'E') (h : AreDigits ds) :
      SpellsPower (-(digitsValue ds : Int)) (letter :: '-' :: ds)

/-- The spellings of a number behind its sign, where integers have at most `limit` digits. -/
inductive SpellsUnsigned (limit : Nat) (negative : Bool) : Scalar → List Char → Prop
  | integer {ds : List Char} (whole : IsWhole ds) (few : ds.length ≤ limit) :
      SpellsUnsigned limit negative (.integer (if negative then -(digitsValue ds : Int) else digitsValue ds)) ds
  | float {ds fraction point mark : List Char} {power : Int} (whole : IsWhole ds)
      (behind : SpellsFraction fraction point) (times : SpellsPower power mark) (inexact : point ≠ [] ∨ mark ≠ []) :
      SpellsUnsigned limit negative
        (.float (.ofDecimal negative (digitsValue (ds ++ fraction)) (power - fraction.length))) (ds ++ point ++ mark)

/-- A character that cannot carry a number on. -/
def EndsNumber (c : Char) : Prop := c.isDigit = false ∧ c ≠ '.' ∧ c ≠ 'e' ∧ c ≠ 'E'

instance (c : Char) : Decidable (EndsNumber c) :=
  inferInstanceAs (Decidable (c.isDigit = false ∧ c ≠ '.' ∧ c ≠ 'e' ∧ c ≠ 'E'))

/-- An input with which a number has ended. -/
def Ended (input : List Char) : Prop := ∀ c ∈ input.head?, EndsNumber c

theorem spanDigits_append {ds rest : List Char} (h : ∀ d ∈ ds, d.isDigit = true)
    (hrest : ∀ c ∈ rest.head?, c.isDigit = false) : spanDigits (ds ++ rest) = (ds, rest) := by
  induction ds with
  | nil =>
    cases rest with
    | nil => rfl
    | cons c rest => simp [spanDigits, hrest c rfl]
  | cons d ds ih =>
    have hds := ih fun d hd => h d (List.mem_cons_of_mem _ hd)
    rw [spanDigits, Prod.mk.injEq] at hds
    rw [spanDigits, List.cons_append, List.takeWhile_cons_of_pos (h d List.mem_cons_self),
      List.dropWhile_cons_of_pos (h d List.mem_cons_self), hds.1, hds.2]

theorem readWhole_append {ds rest : List Char} (whole : IsWhole ds) (hrest : ∀ c ∈ rest.head?, c.isDigit = false) :
    readWhole (ds ++ rest) = some (ds, rest) := by
  rcases whole with rfl | ⟨⟨hne, hdigits⟩, hzero⟩
  · exact readWhole.eq_1 rest
  · have hspan := spanDigits_append hdigits hrest
    obtain ⟨d, ds, rfl⟩ := List.exists_cons_of_ne_nil hne
    rw [readWhole.eq_2, hspan]
    intro input heq
    exact hzero (congrArg some (List.cons.inj heq).1)

theorem readFraction_digits {ds rest : List Char} (h : AreDigits ds) (hrest : ∀ c ∈ rest.head?, c.isDigit = false) :
    readFraction ('.' :: (ds ++ rest)) = some (ds, rest) := by
  obtain ⟨d, ds, rfl⟩ := List.exists_cons_of_ne_nil h.1
  rw [readFraction, spanDigits_append h.2 hrest]

theorem readFraction_of_none {rest : List Char} (h : ∀ c ∈ rest.head?, c ≠ '.') : readFraction rest = none := by
  unfold readFraction
  split
  · exact absurd rfl (h '.' rfl)
  · rfl

theorem exponentSign_digits {ds rest : List Char} (h : AreDigits ds) :
    exponentSign (ds ++ rest) = (false, ds ++ rest) := by
  obtain ⟨hne, hdigits⟩ := h
  obtain ⟨d, ds, rfl⟩ := List.exists_cons_of_ne_nil hne
  have hd := hdigits d List.mem_cons_self
  refine exponentSign.eq_3 _ ?_ ?_ <;>
  · intro more heq
    obtain ⟨rfl, -⟩ := List.cons.inj heq
    cases hd

theorem readPower_spelled {power : Int} {mark rest : List Char} (times : SpellsPower power mark) (hmark : mark ≠ [])
    (hrest : ∀ c ∈ rest.head?, c.isDigit = false) : readPower (mark ++ rest) = some (power, rest) := by
  have hspan : ∀ ds, AreDigits ds → ∃ d more, ds = d :: more ∧ spanDigits (ds ++ rest) = (d :: more, rest) := by
    rintro ds ⟨hne, hdigits⟩
    obtain ⟨d, more, rfl⟩ := List.exists_cons_of_ne_nil hne
    exact ⟨d, more, rfl, spanDigits_append hdigits hrest⟩
  cases times with
  | none => exact absurd rfl hmark
  | bare mark h =>
    obtain ⟨d, more, rfl, hds⟩ := hspan _ h
    simp only [List.cons_append, readPower, if_pos mark]
    rw [← List.cons_append, exponentSign_digits h]
    dsimp only
    rw [hds]
    rfl
  | plus mark h =>
    obtain ⟨d, more, rfl, hds⟩ := hspan _ h
    simp only [List.cons_append, readPower, if_pos mark, exponentSign]
    rw [← List.cons_append, hds]
    rfl
  | minus mark h =>
    obtain ⟨d, more, rfl, hds⟩ := hspan _ h
    simp only [List.cons_append, readPower, if_pos mark, exponentSign]
    rw [← List.cons_append, hds]
    rfl

theorem readPower_of_none {rest : List Char} (h : ∀ c ∈ rest.head?, c ≠ 'e' ∧ c ≠ 'E') : readPower rest = none := by
  cases rest with
  | nil => rfl
  | cons c rest => rw [readPower, if_neg (not_or.mpr (h c rfl))]

theorem Ended.not_digit {rest : List Char} (h : Ended rest) : ∀ c ∈ rest.head?, c.isDigit = false :=
  fun c hc => (h c hc).1

theorem SpellsPower.head {power : Int} {mark rest : List Char} (times : SpellsPower power mark) (ended : Ended rest) :
    ∀ c ∈ (mark ++ rest).head?, c.isDigit = false ∧ c ≠ '.' := by
  have hmark : ∀ letter : Char, letter = 'e' ∨ letter = 'E' → letter.isDigit = false ∧ letter ≠ '.' := by
    rintro letter (rfl | rfl) <;> decide
  intro c hc
  cases times with
  | none => exact ⟨(ended c hc).1, (ended c hc).2.1⟩
  | bare mark h | plus mark h | minus mark h =>
    obtain rfl := Option.some.inj hc
    exact hmark _ mark

/-- An integer of more digits than can be read is no number. -/
theorem readUnsigned_long (negative : Bool) {ds rest : List Char} (whole : IsWhole ds)
    (long : Text.digitLimit < ds.length) (ended : Ended rest) : readUnsigned negative (ds ++ rest) = none := by
  rw [readUnsigned, readWhole_append whole ended.not_digit]
  simp [readFraction_of_none fun c hc => (ended c hc).2.1, readPower_of_none fun c hc => (ended c hc).2.2, long]

theorem readUnsigned_spelled {negative : Bool} {value : Scalar} {cs rest : List Char}
    (h : SpellsUnsigned Text.digitLimit negative value cs) (ended : Ended rest) :
    readUnsigned negative (cs ++ rest) = some (value, rest) := by
  cases h with
  | integer whole few =>
    rw [readUnsigned, readWhole_append whole ended.not_digit]
    simp [readFraction_of_none fun c hc => (ended c hc).2.1, readPower_of_none fun c hc => (ended c hc).2.2,
      Nat.not_lt.mpr few]
  | @float ds fraction point mark power whole behind times inexact =>
    have hmark := times.head ended
    cases behind with
    | none =>
      have hpower := readPower_spelled times (inexact.resolve_left fun h => h rfl) ended.not_digit
      rw [readUnsigned, List.append_nil, List.append_assoc, readWhole_append whole fun c hc => (hmark c hc).1]
      simp [readFraction_of_none fun c hc => (hmark c hc).2, hpower]
    | digits h =>
      have hfraction := readFraction_digits h fun c hc => (hmark c hc).1
      have hpower : (readPower (mark ++ rest)).getD (0, mark ++ rest) = (power, rest) := by
        by_cases hempty : mark = []
        · subst hempty
          cases times
          rw [List.nil_append, readPower_of_none fun c hc => (ended c hc).2.2]
          rfl
        · rw [readPower_spelled times hempty ended.not_digit]
          rfl
      rw [readUnsigned, List.append_assoc, List.append_assoc, readWhole_append whole (by rintro c ⟨⟩; decide)]
      simp [hfraction, hpower]

/-! ### Scalars that are no texts -/

/-- The spellings of a scalar that is no text. -/
inductive SpellsPlain (limit : Nat) : Scalar → List Char → Prop
  | null : SpellsPlain limit .null ['n', 'u', 'l', 'l']
  | true : SpellsPlain limit (.bool true) ['t', 'r', 'u', 'e']
  | false : SpellsPlain limit (.bool false) ['f', 'a', 'l', 's', 'e']
  | nan : SpellsPlain limit (.float .nan) ['N', 'a', 'N']
  | infinity : SpellsPlain limit (.float (.infinite false)) ['I', 'n', 'f', 'i', 'n', 'i', 't', 'y']
  | negativeInfinity : SpellsPlain limit (.float (.infinite true)) ['-', 'I', 'n', 'f', 'i', 'n', 'i', 't', 'y']
  | unsigned {value : Scalar} {cs : List Char} (h : SpellsUnsigned limit false value cs) : SpellsPlain limit value cs
  | negative {value : Scalar} {cs : List Char} (h : SpellsUnsigned limit true value cs) :
      SpellsPlain limit value ('-' :: cs)

theorem IsWhole.head {ds : List Char} (whole : IsWhole ds) : ∃ d more, ds = d :: more ∧ d.isDigit = true := by
  rcases whole with rfl | ⟨⟨hne, hdigits⟩, -⟩
  · exact ⟨'0', [], rfl, rfl⟩
  · obtain ⟨d, more, rfl⟩ := List.exists_cons_of_ne_nil hne
    exact ⟨d, more, rfl, hdigits d List.mem_cons_self⟩

theorem SpellsUnsigned.head {limit : Nat} {negative : Bool} {value : Scalar} {cs : List Char}
    (h : SpellsUnsigned limit negative value cs) : ∃ d more, cs = d :: more ∧ d.isDigit = true := by
  cases h with
  | integer whole few => exact whole.head
  | float whole behind times inexact =>
    obtain ⟨d, more, rfl, hd⟩ := whole.head
    exact ⟨d, _, rfl, hd⟩

theorem readPlain_digit {d : Char} {input : List Char} (h : d.isDigit = true) :
    readPlain (d :: input) = readUnsigned false (d :: input) := by
  have hne : ∀ {c : Char} {more : List Char}, c.isDigit = false → d :: input = c :: more → False := by
    intro c more hc heq
    obtain ⟨rfl, -⟩ := List.cons.inj heq
    cases h.symm.trans hc
  exact readPlain.eq_8 _ (fun _ => hne rfl) (fun _ => hne rfl) (fun _ => hne rfl) (fun _ => hne rfl) (fun _ => hne rfl)
    (fun _ => hne rfl) fun _ => hne rfl

theorem readPlain_minus {d : Char} {input : List Char} (h : d.isDigit = true) :
    readPlain ('-' :: d :: input) = readUnsigned true (d :: input) := by
  refine readPlain.eq_7 _ fun more heq => ?_
  obtain ⟨rfl, -⟩ := List.cons.inj heq
  cases h

theorem readPlain_spelled {value : Scalar} {cs rest : List Char} (h : SpellsPlain Text.digitLimit value cs)
    (ended : Ended rest) : readPlain (cs ++ rest) = some (value, rest) := by
  cases h with
  | unsigned h =>
    obtain ⟨d, more, rfl, hd⟩ := h.head
    rw [List.cons_append, readPlain_digit hd, ← List.cons_append, readUnsigned_spelled h ended]
  | negative h =>
    obtain ⟨d, more, rfl, hd⟩ := h.head
    rw [List.cons_append, List.cons_append, readPlain_minus hd, ← List.cons_append, readUnsigned_spelled h ended]
  | _ => rfl

end Solvency.Json
