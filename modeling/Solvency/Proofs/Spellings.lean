import Mathlib.Data.List.DropRight
import Solvency.Proofs.Depths
import Solvency.Proofs.Lexemes

/-! Spellings: which texts spell a document, blanks and all, and that each of them is read as that document. The grammar
    is one relation over the parts of a text, so that one induction covers values, lists and maps; what it carries says
    how much fuel a part needs and what may stand behind it. -/

namespace Solvency.Json

/-! ### The grammar -/

def AreBlank (cs : List Char) : Prop := ∀ c ∈ cs, isBlank c = true

def ofMembers (members : List (Text × Document)) : Document :=
  .ofEntries (members.map fun member => (.text member.1, member.2))

/-- A part of a JSON text: a value, the items of a list or the members of a map. -/
inductive Part where
  | value (document : Document)
  | items (documents : List Document)
  | members (members : List (Text × Document))

/-- The spellings of a name of a member with its colon. -/
inductive SpellsName : Text → List Char → Prop
  | mk {name : Text} {before cs after : List Char} (front : AreBlank before) (h : SpellsText name cs)
      (back : AreBlank after) : SpellsName name (before ++ '"' :: (cs ++ '"' :: (after ++ [':'])))

/-- The spellings of a part, where integers have at most `limit` digits, and lists and maps stand at most so deep inside
    each other. -/
inductive Spells (limit : Nat) : Nat → Part → List Char → Prop
  | plain {depth : Nat} {value : Scalar} {cs : List Char} (h : SpellsPlain limit value cs) :
      Spells limit depth (.value (.scalar value)) cs
  | text {depth : Nat} {text : Text} {cs : List Char} (h : SpellsText text cs) :
      Spells limit depth (.value (.ofText text)) ('"' :: (cs ++ ['"']))
  | padded {depth : Nat} {document : Document} {before cs after : List Char} (front : AreBlank before)
      (back : AreBlank after) (h : Spells limit depth (.value document) cs) :
      Spells limit depth (.value document) (before ++ cs ++ after)
  | emptyList {depth : Nat} {blanks : List Char} (h : AreBlank blanks) :
      Spells limit (depth + 1) (.value (.list [])) ('[' :: (blanks ++ [']']))
  | list {depth : Nat} {documents : List Document} {cs : List Char} (h : Spells limit depth (.items documents) cs) :
      Spells limit (depth + 1) (.value (.list documents)) ('[' :: (cs ++ [']']))
  | emptyMap {depth : Nat} {blanks : List Char} (h : AreBlank blanks) :
      Spells limit (depth + 1) (.value (.map [])) ('\x7b' :: (blanks ++ ['\x7d']))
  | map {depth : Nat} {members : List (Text × Document)} {cs : List Char} (h : Spells limit depth (.members members) cs) :
      Spells limit (depth + 1) (.value (ofMembers members)) ('\x7b' :: (cs ++ ['\x7d']))
  | item {depth : Nat} {document : Document} {cs : List Char} (h : Spells limit depth (.value document) cs) :
      Spells limit depth (.items [document]) cs
  | items {depth : Nat} {document : Document} {documents : List Document} {cs more : List Char}
      (h : Spells limit depth (.value document) cs) (rest : Spells limit depth (.items documents) more) :
      Spells limit depth (.items (document :: documents)) (cs ++ ',' :: more)
  | member {depth : Nat} {name : Text} {document : Document} {head cs : List Char} (named : SpellsName name head)
      (h : Spells limit depth (.value document) cs) : Spells limit depth (.members [(name, document)]) (head ++ cs)
  | members {depth : Nat} {name : Text} {document : Document} {members : List (Text × Document)}
      {head cs more : List Char} (named : SpellsName name head) (h : Spells limit depth (.value document) cs)
      (rest : Spells limit depth (.members members) more) :
      Spells limit depth (.members ((name, document) :: members)) (head ++ cs ++ ',' :: more)

/-! ### Blanks -/

theorem skip_append {blanks cs : List Char} (h : AreBlank blanks) : skip (blanks ++ cs) = skip cs :=
  List.dropWhile_append_of_pos h

theorem skip_cons {c : Char} {cs : List Char} (h : isBlank c = false) : skip (c :: cs) = c :: cs :=
  List.dropWhile_cons_of_neg (by rw [h]; exact Bool.false_ne_true)

theorem skip_skip (cs : List Char) : skip (skip cs) = skip cs := List.dropWhile_idempotent _ cs

theorem isBlank_iff {c : Char} : isBlank c = true ↔ c = ' ' ∨ c = '\t' ∨ c = '\n' ∨ c = '\r' := by
  simp only [isBlank, Bool.or_eq_true, decide_eq_true_eq, or_assoc]

theorem ended_of_blank {blanks rest : List Char} (h : AreBlank blanks) (ended : Ended rest) :
    Ended (blanks ++ rest) := by
  cases blanks with
  | nil => exact ended
  | cons b blanks =>
    rintro c ⟨⟩
    rcases isBlank_iff.mp (h b List.mem_cons_self) with rfl | rfl | rfl | rfl <;> decide

/-- What is read does not depend on the blanks in front. -/
theorem readValue_congr {fuel depth : Nat} {input input' : List Char} (h : skip input = skip input') :
    readValue fuel depth input = readValue fuel depth input' := by
  cases fuel with
  | zero => rfl
  | succ fuel => rw [readValue, readValue, h]

theorem readItems_congr {fuel depth : Nat} {done : List Document} {input input' : List Char}
    (h : skip input = skip input') : readItems fuel depth done input = readItems fuel depth done input' := by
  cases fuel with
  | zero => rfl
  | succ fuel => rw [readItems, readItems, readValue_congr h]

theorem readMembers_congr {fuel depth : Nat} {done : List (Scalar × Document)} {input input' : List Char}
    (h : skip input = skip input') : readMembers fuel depth done input = readMembers fuel depth done input' := by
  cases fuel with
  | zero => rfl
  | succ fuel => rw [readMembers, readMembers, h]

/-! ### What a part starts with -/

/-- The first character of a part that is no blank: members start with a quote, and nothing starts with the end of a
    list. -/
def Part.Opens : Part → Char → Prop
  | .value _, c | .items _, c => c ≠ ']'
  | .members _, c => c = '"'

/-- The first character of a spelling that is no blank, whatever stands behind the spelling. -/
def Opening (cs : List Char) (c : Char) : Prop := ∃ more, ∀ rest, skip (cs ++ rest) = c :: (more ++ rest)

theorem opening_cons {c : Char} {cs : List Char} (h : isBlank c = false) : Opening (c :: cs) c :=
  ⟨cs, fun _ => skip_cons h⟩

theorem Opening.pad {blanks cs : List Char} {c : Char} (h : Opening cs c) (blank : AreBlank blanks) :
    Opening (blanks ++ cs) c := by
  obtain ⟨more, hmore⟩ := h
  exact ⟨more, fun rest => by rw [List.append_assoc, skip_append blank, hmore]⟩

theorem Opening.append {cs : List Char} {c : Char} (h : Opening cs c) (behind : List Char) :
    Opening (cs ++ behind) c := by
  obtain ⟨more, hmore⟩ := h
  exact ⟨more ++ behind, fun rest => by rw [List.append_assoc, hmore, List.append_assoc]⟩

theorem isBlank_of_isDigit {d : Char} (h : d.isDigit = true) : isBlank d = false := by
  refine Bool.eq_false_iff.mpr fun hb => ?_
  rcases isBlank_iff.mp hb with rfl | rfl | rfl | rfl <;> cases h

/-- A character that starts a scalar that is no text. -/
def StartsPlain (c : Char) : Prop := isBlank c = false ∧ c ≠ '"' ∧ c ≠ '[' ∧ c ≠ ']' ∧ c ≠ '\x7b'

theorem startsPlain_of_isDigit {d : Char} (h : d.isDigit = true) : StartsPlain d := by
  refine ⟨isBlank_of_isDigit h, ?_, ?_, ?_, ?_⟩ <;>
  · rintro rfl
    cases h

theorem SpellsPlain.head {limit : Nat} {value : Scalar} {cs : List Char} (h : SpellsPlain limit value cs) :
    ∃ c more, cs = c :: more ∧ StartsPlain c := by
  cases h with
  | unsigned h =>
    obtain ⟨d, more, rfl, hd⟩ := h.head
    exact ⟨d, more, rfl, startsPlain_of_isDigit hd⟩
  | _ => exact ⟨_, _, rfl, by unfold StartsPlain; decide⟩

theorem SpellsName.opening {name : Text} {cs : List Char} (h : SpellsName name cs) : Opening cs '"' := by
  obtain ⟨front, -, -⟩ := h
  exact (opening_cons rfl).pad front

theorem Spells.opening {limit depth : Nat} {part : Part} {cs : List Char} (h : Spells limit depth part cs) :
    ∃ c, Opening cs c ∧ part.Opens c := by
  induction h with
  | plain h =>
    obtain ⟨c, more, rfl, hblank, -, -, hend, -⟩ := h.head
    exact ⟨c, opening_cons hblank, hend⟩
  | text | emptyList | list | emptyMap | map => exact ⟨_, opening_cons rfl, fun h => absurd h (by decide)⟩
  | padded front back _ ih =>
    obtain ⟨c, hc, hopens⟩ := ih
    exact ⟨c, (hc.pad front).append _, hopens⟩
  | item _ ih => exact ih
  | items _ _ ih _ =>
    obtain ⟨c, hc, hopens⟩ := ih
    exact ⟨c, hc.append _, hopens⟩
  | member named => exact ⟨'"', named.opening.append _, rfl⟩
  | members named => exact ⟨'"', (named.opening.append _).append _, rfl⟩

/-! ### Reading -/

theorem readValue_plain {fuel depth : Nat} {c : Char} {input : List Char} (h : StartsPlain c) :
    readValue (fuel + 1) depth (c :: input) =
      (readPlain (c :: input)).elim (.error .malformed) fun found => .ok (.scalar found.1, found.2) := by
  obtain ⟨hblank, hquote, hlist, -, hmap⟩ := h
  rw [readValue, skip_cons hblank]
  split
  · rename_i heq
    exact absurd (List.cons.inj heq).1 hquote
  · rename_i heq
    exact absurd (List.cons.inj heq).1 hlist
  · rename_i heq
    exact absurd (List.cons.inj heq).1 hmap
  · cases readPlain (c :: input) <;> rfl

theorem readValue_list {fuel depth : Nat} {c : Char} {cs rest : List Char} (h : Opening cs c) (hc : c ≠ ']') :
    readValue (fuel + 1) (depth + 1) ('[' :: (cs ++ rest)) = readItems fuel depth [] (cs ++ rest) := by
  obtain ⟨more, hmore⟩ := h
  have hskip : skip (skip (cs ++ rest)) = skip (cs ++ rest) := skip_skip _
  rw [readValue, skip_cons rfl]
  simp only
  rw [← readItems_congr hskip, hmore]
  split
  · rename_i heq
    exact absurd (List.cons.inj heq).1 hc
  · rfl

theorem readValue_map {fuel depth : Nat} {cs rest : List Char} (h : Opening cs '"') :
    readValue (fuel + 1) (depth + 1) ('\x7b' :: (cs ++ rest)) = readMembers fuel depth [] (cs ++ rest) := by
  obtain ⟨more, hmore⟩ := h
  have hskip : skip (skip (cs ++ rest)) = skip (cs ++ rest) := skip_skip _
  rw [readValue, skip_cons rfl]
  simp only
  rw [← readMembers_congr hskip, hmore]
  rfl

section Steps
variable {fuel depth : Nat} {input left rest : List Char} {document : Document}

theorem readItems_last {done : List Document} (hread : readValue fuel depth input = .ok (document, left))
    (hleft : skip left = ']' :: rest) :
    readItems (fuel + 1) depth done input = .ok (.list (document :: done).reverse, rest) := by
  rw [readItems, hread]
  simp only [hleft]

theorem readItems_more {done : List Document} (hread : readValue fuel depth input = .ok (document, left))
    (hleft : skip left = ',' :: rest) :
    readItems (fuel + 1) depth done input = readItems fuel depth (document :: done) rest := by
  rw [readItems, hread]
  simp only [hleft]

/-- A name is read up to its colon, and then a value. -/
theorem readMembers_named {done : List (Scalar × Document)} {name : Text} {head : List Char} (fuel depth : Nat)
    (input : List Char) (named : SpellsName name head) : readMembers (fuel + 1) depth done (head ++ input) =
      match readValue fuel depth input with
      | .error fault => .error fault
      | .ok (value, rest) =>
        match skip rest with
        | ',' :: rest => readMembers fuel depth ((.text name, value) :: done) rest
        | '\x7d' :: rest => .ok (.ofEntries ((.text name, value) :: done).reverse, rest)
        | _ => .error .malformed := by
  obtain ⟨front, h, back⟩ := named
  simp only [List.append_assoc, List.cons_append, readMembers, skip_append front]
  rw [skip_cons rfl]
  simp only [readText_spelled h, List.reverse_nil, List.nil_append, skip_append back]
  rw [skip_cons rfl]
  rfl

theorem readMembers_last {done : List (Scalar × Document)} {name : Text} {head : List Char}
    (named : SpellsName name head) (hread : readValue fuel depth input = .ok (document, left))
    (hleft : skip left = '\x7d' :: rest) : readMembers (fuel + 1) depth done (head ++ input) =
      .ok (.ofEntries ((.text name, document) :: done).reverse, rest) := by
  rw [readMembers_named fuel depth input named, hread]
  simp only [hleft]

theorem readMembers_more {done : List (Scalar × Document)} {name : Text} {head : List Char}
    (named : SpellsName name head) (hread : readValue fuel depth input = .ok (document, left))
    (hleft : skip left = ',' :: rest) : readMembers (fuel + 1) depth done (head ++ input) =
      readMembers fuel depth ((.text name, document) :: done) rest := by
  rw [readMembers_named fuel depth input named, hread]
  simp only [hleft]

end Steps

/-- A part is read from a spelling of it, with two units of fuel for each character. Blanks behind a value may be left,
    which no reader sees. -/
def Part.ReadFrom (depth : Nat) : Part → List Char → Prop
  | .value document, cs => ∀ fuel rest, 2 * cs.length ≤ fuel → Ended rest →
      ∃ left, readValue fuel depth (cs ++ rest) = .ok (document, left) ∧ skip left = skip rest
  | .items documents, cs => ∀ fuel done rest, 2 * cs.length + 1 ≤ fuel →
      readItems fuel depth done (cs ++ ']' :: rest) = .ok (.list (done.reverse ++ documents), rest)
  | .members fields, cs => ∀ fuel done rest, 2 * cs.length + 1 ≤ fuel →
      readMembers fuel depth done (cs ++ '\x7d' :: rest) =
        .ok (.ofEntries (done.reverse ++ fields.map fun field => (.text field.1, field.2)), rest)

theorem ended_cons {c : Char} {rest : List Char} (h : EndsNumber c) : Ended (c :: rest) := by
  rintro _ ⟨⟩
  exact h

theorem exists_fuel {fuel n : Nat} (h : n + 1 ≤ fuel) : ∃ k, fuel = k + 1 ∧ n ≤ k := ⟨fuel - 1, by omega, by omega⟩

/-- Every spelling of a part is read as that part. -/
theorem Spells.readFrom {depth : Nat} {part : Part} {cs : List Char} (h : Spells Text.digitLimit depth part cs) :
    part.ReadFrom depth cs := by
  -- A unit of fuel is used up where a list or a map opens and for each of the items or members; each of these steps has
  -- a character of its own, a bracket or a comma.
  induction h with
  | plain h =>
    -- A number is the one value whose end is not marked.
    intro fuel rest hfuel ended
    obtain ⟨c, more, rfl, hc⟩ := h.head
    obtain ⟨fuel, rfl, -⟩ := exists_fuel hfuel
    have hread := readPlain_spelled h ended
    rw [List.cons_append] at hread ⊢
    exact ⟨rest, by rw [readValue_plain hc, hread]; rfl, rfl⟩
  | @text depth text cs h =>
    intro fuel rest hfuel ended
    obtain ⟨fuel, rfl, -⟩ := exists_fuel hfuel
    refine ⟨rest, ?_, rfl⟩
    rw [List.cons_append, List.append_assoc, readValue, skip_cons rfl]
    simp only [List.singleton_append, readText_spelled h]
    rfl
  | @padded depth document before cs after front back _ ih =>
    intro fuel rest hfuel ended
    have hlength : 2 * cs.length ≤ fuel := by
      simp only [List.length_append] at hfuel
      omega
    obtain ⟨left, hread, hleft⟩ := ih fuel (after ++ rest) hlength (ended_of_blank back ended)
    refine ⟨left, ?_, hleft.trans (skip_append back)⟩
    rw [List.append_assoc, List.append_assoc, readValue_congr (skip_append front), hread]
  | @emptyList depth blanks h =>
    intro fuel rest hfuel ended
    obtain ⟨fuel, rfl, -⟩ := exists_fuel hfuel
    refine ⟨rest, ?_, rfl⟩
    rw [List.cons_append, List.append_assoc, readValue, skip_cons rfl]
    simp only [skip_append h]
    rfl
  | @list depth documents cs h ih =>
    intro fuel rest hfuel ended
    simp only [List.length_cons, List.length_append] at hfuel
    obtain ⟨fuel, rfl, hless⟩ : ∃ k, fuel = k + 1 ∧ 2 * cs.length + 1 ≤ k := exists_fuel (by omega)
    obtain ⟨c, hc, hopens⟩ := h.opening
    refine ⟨rest, ?_, rfl⟩
    rw [List.cons_append, List.append_assoc, List.singleton_append, readValue_list hc hopens, ih _ _ _ hless]
    rfl
  | @emptyMap depth blanks h =>
    intro fuel rest hfuel ended
    obtain ⟨fuel, rfl, -⟩ := exists_fuel hfuel
    refine ⟨rest, ?_, rfl⟩
    rw [List.cons_append, List.append_assoc, readValue, skip_cons rfl]
    simp only [skip_append h]
    rfl
  | @map depth members cs h ih =>
    intro fuel rest hfuel ended
    simp only [List.length_cons, List.length_append] at hfuel
    obtain ⟨fuel, rfl, hless⟩ : ∃ k, fuel = k + 1 ∧ 2 * cs.length + 1 ≤ k := exists_fuel (by omega)
    obtain ⟨c, hc, rfl⟩ := h.opening
    refine ⟨rest, ?_, rfl⟩
    rw [List.cons_append, List.append_assoc, List.singleton_append, readValue_map hc, ih _ _ _ hless]
    rfl
  | @item depth document cs _ ih =>
    intro fuel done rest hfuel
    obtain ⟨fuel, rfl, hless⟩ := exists_fuel hfuel
    obtain ⟨left, hread, hleft⟩ := ih fuel (']' :: rest) hless (ended_cons (by decide))
    rw [readItems_last hread (hleft.trans (skip_cons rfl)), List.reverse_cons]
  | @items depth document documents cs more _ _ ih ihrest =>
    intro fuel done rest hfuel
    obtain ⟨fuel, rfl, hless⟩ := exists_fuel hfuel
    simp only [List.length_append, List.length_cons] at hless
    obtain ⟨left, hread, hleft⟩ := ih fuel (',' :: (more ++ ']' :: rest)) (by omega) (ended_cons (by decide))
    rw [List.append_assoc, List.cons_append, readItems_more hread (hleft.trans (skip_cons rfl)),
      ihrest fuel (document :: done) rest (by omega), List.reverse_cons, List.append_assoc, List.singleton_append]
  | @member depth name document head cs named _ ih =>
    intro fuel done rest hfuel
    obtain ⟨fuel, rfl, hless⟩ := exists_fuel hfuel
    simp only [List.length_append] at hless
    obtain ⟨left, hread, hleft⟩ := ih fuel ('\x7d' :: rest) (by omega) (ended_cons (by decide))
    rw [List.append_assoc, readMembers_last named hread (hleft.trans (skip_cons rfl)), List.reverse_cons]
    rfl
  | @members depth name document members head cs more named _ _ ih ihrest =>
    intro fuel done rest hfuel
    obtain ⟨fuel, rfl, hless⟩ := exists_fuel hfuel
    simp only [List.length_append, List.length_cons] at hless
    obtain ⟨left, hread, hleft⟩ := ih fuel (',' :: (more ++ '\x7d' :: rest)) (by omega) (ended_cons (by decide))
    rw [List.append_assoc, List.append_assoc, List.cons_append,
      readMembers_more named hread (hleft.trans (skip_cons rfl)),
      ihrest fuel ((.text name, document) :: done) rest (by omega), List.reverse_cons, List.append_assoc,
      List.singleton_append, List.map_cons]

/-- A text that spells a document is read as that document. -/
theorem read_spelled {depth : Nat} {document : Document} {cs : List Char}
    (h : Spells Text.digitLimit depth (.value document) cs) : read depth cs = .ok document := by
  obtain ⟨left, hread, hleft⟩ := h.readFrom (2 * cs.length + 2) [] (by omega) (by rintro _ ⟨⟩)
  rw [List.append_nil] at hread
  rw [read, hread]
  simp only [hleft]
  rfl

/-! ### Texts that are not read -/

/-- A map is not read if the value of its first member is not. -/
theorem read_of_first_member {depth : Nat} {name : Text} {head value : List Char} {fault : Fault}
    (named : SpellsName name head)
    (hvalue : ∀ fuel, 2 * value.length ≤ fuel → readValue fuel depth value = .error fault) :
    read (depth + 1) ('\x7b' :: (head ++ value)) = .error fault := by
  have hmap : readValue (2 * value.length + 2 + 2 * head.length + 2) (depth + 1) ('\x7b' :: (head ++ value)) =
      .error fault := by
    rw [readValue_map named.opening, readMembers_named _ _ _ named, hvalue _ (by omega)]
  have hfuel : 2 * ('\x7b' :: (head ++ value)).length + 2 = 2 * value.length + 2 + 2 * head.length + 2 := by
    rw [List.length_cons, List.length_append]
    omega
  rw [read, hfuel, hmap]

/-- A map is not read if its first member is an integer of more digits than can be read. -/
theorem read_of_long_integer {depth : Nat} {name : Text} {head ds tail : List Char} (named : SpellsName name head)
    (whole : IsWhole ds) (long : Text.digitLimit < ds.length) (ended : Ended tail) :
    read (depth + 1) ('\x7b' :: (head ++ (ds ++ tail))) = .error .malformed := by
  refine read_of_first_member named fun fuel _ => ?_
  cases fuel with
  | zero => rfl
  | succ fuel =>
    have hunsigned := readUnsigned_long false whole long ended
    obtain ⟨d, more, rfl, hd⟩ := whole.head
    rw [List.cons_append] at hunsigned ⊢
    rw [readValue_plain (startsPlain_of_isDigit hd), readPlain_digit hd, hunsigned]
    rfl

/-- Lists that open inside each other are followed down to the depth, and no further. -/
theorem readValue_nested {fuel depth : Nat} (rest : List Char) (hfuel : 2 * depth + 1 ≤ fuel) :
    readValue fuel depth (List.replicate (depth + 1) '[' ++ rest) = .error .tooDeep := by
  induction depth generalizing fuel with
  | zero =>
    obtain ⟨fuel, rfl, -⟩ := exists_fuel hfuel
    rfl
  | succ depth ih =>
    obtain ⟨fuel, rfl, hfuel⟩ := exists_fuel hfuel
    obtain ⟨fuel, rfl, hless⟩ : ∃ k, fuel = k + 1 ∧ 2 * depth + 1 ≤ k := exists_fuel (by omega)
    have hopens : Opening (List.replicate (depth + 1) '[') '[' := opening_cons rfl
    rw [List.replicate_succ, List.cons_append, readValue_list hopens (by decide), readItems, ih hless]

/-- A map is given up if its first member nests as deep as the whole may. -/
theorem read_of_nested_member {depth : Nat} {name : Text} {head tail : List Char} (named : SpellsName name head) :
    read (depth + 1) ('\x7b' :: (head ++ (List.replicate (depth + 1) '[' ++ tail))) = .error .tooDeep := by
  refine read_of_first_member named fun fuel hfuel => readValue_nested tail ?_
  rw [List.length_append, List.length_replicate] at hfuel
  omega

/-- The brackets of lists inside each other, the innermost of which is empty. -/
def nestedChars (n : Nat) : List Char := List.replicate (n + 1) '[' ++ List.replicate (n + 1) ']'

theorem spells_nested {limit : Nat} (n : Nat) : Spells limit (n + 1) (.value (.nested n)) (nestedChars n) := by
  induction n with
  | zero => exact @Spells.emptyList limit 0 [] (List.forall_mem_nil _)
  | succ n ih =>
    have hchars : nestedChars (n + 1) = '[' :: (nestedChars n ++ [']']) := by
      rw [nestedChars, nestedChars, List.replicate_succ, List.replicate_succ' (n := n + 1), List.cons_append,
        List.append_assoc]
    exact hchars ▸ .list (.item ih)

/-! ### Plain texts -/

/-- Characters that stand for themselves inside a text. -/
def ArePlain (cs : List Char) : Prop := ∀ c ∈ cs, 0x20 ≤ c.toNat ∧ c ≠ '"' ∧ c ≠ '\\'

instance (cs : List Char) : Decidable (ArePlain cs) :=
  List.decidableBAll (fun c : Char => 0x20 ≤ c.toNat ∧ c ≠ '"' ∧ c ≠ '\\') cs

theorem spellsText_ofChars {cs : List Char} (h : ArePlain cs) : SpellsText (Text.ofChars cs) cs := by
  induction cs with
  | nil => exact .nil
  | cons c cs ih =>
    obtain ⟨⟨hvisible, hquote, hbackslash⟩, hcs⟩ := List.forall_mem_cons.mp h
    exact .plain hvisible hquote hbackslash (ih hcs)

/-- The name of a member with its colon, without blanks. -/
def nameChars (name : String) : List Char := '"' :: (name.toList ++ ['"', ':'])

theorem spellsName_nameChars {name : String} (h : ArePlain name.toList) : SpellsName name (nameChars name) :=
  @SpellsName.mk name [] _ [] (List.forall_mem_nil _) (spellsText_ofChars h) (List.forall_mem_nil _)

end Solvency.Json
