import Solvency.Environment.Reference
import Solvency.Proofs.Traversal

/-! References: what a text becomes whose references are replaced, and a document of such texts. A text is taken apart
    from its front into points, references, and marks that stand for themselves; everything that is said of a text
    follows these parts, so a value that stands in for a reference is never looked at again. -/

namespace Solvency

namespace Text

/-- The mark in front of a name that is referred to. -/
def opening : Text := "$\x7b"

/-- The mark behind it. -/
def closing : CodePoint := .char '\x7d'

/-- A name can stand between the marks of a reference. -/
def IsName (name : Text) : Prop := name ≠ [] ∧ closing ∉ name

instance : DecidablePred IsName := fun name => inferInstanceAs (Decidable (name ≠ [] ∧ closing ∉ name))

def reference (name : Text) : Text := opening ++ name ++ [closing]

def HasReference (text : Text) : Prop :=
  ∃ before name behind, IsName name ∧ text = before ++ reference name ++ behind

/-! ### Parts of a text -/

/-- How a text is taken apart. Only a mark that is closed, and not at once, makes a reference. -/
inductive Parted : Text → Prop
  | nil : Parted []
  | point {p : CodePoint} {rest : Text} (plain : ¬opening <+: p :: rest) (h : Parted rest) : Parted (p :: rest)
  | unclosed {rest : Text} (h : closing ∉ rest) : Parted (opening ++ rest)
  | empty {rest : Text} (h : Parted rest) : Parted (opening ++ closing :: rest)
  | reference {name rest : Text} (named : IsName name) (h : Parted rest) : Parted (reference name ++ rest)

theorem parted (text : Text) : Parted text := by
  induction hn : text.length using Nat.strongRecOn generalizing text with
  | _ n ih =>
    subst hn
    by_cases hopen : opening <+: text
    · obtain ⟨rest, rfl⟩ := hopen
      by_cases hclose : closing ∈ rest
      · obtain ⟨name, rest, rfl, hname⟩ := List.eq_append_cons_of_mem hclose
        have hrest : Parted rest := ih _ (by simp; omega) rest rfl
        by_cases hempty : name = []
        · subst hempty
          exact .empty hrest
        · have h := Parted.reference ⟨hempty, hname⟩ hrest
          rwa [reference, List.append_assoc, List.append_assoc] at h
      · exact .unclosed hclose
    · cases text with
      | nil => exact .nil
      | cons p rest => exact .point hopen (ih _ (by simp) rest rfl)

end Text

/-! ### Replacing -/

namespace Environment
open Text
variable {env : Environment}

theorem substituteFrom_unclosed {done rest : Text} (h : closing ∉ rest) :
    env.substituteFrom (some done) rest = opening ++ done ++ rest := by
  induction rest generalizing done with
  | nil => cases done <;> simp [substituteFrom, opening, ofString, ofChars]
  | cons p rest ih =>
    rw [List.mem_cons, not_or] at h
    have hp : p ≠ .char '\x7d' := Ne.symm h.1
    rw [substituteFrom, if_neg hp, ih h.2]
    · simp
    · rintro - rfl
      exact h.1 rfl

theorem substituteFrom_closed {done name rest : Text} (h : closing ∉ name) (hname : done ++ name ≠ []) :
    env.substituteFrom (some done) (name ++ closing :: rest) =
      (env (done ++ name)).getD [] ++ env.substituteText rest := by
  induction name generalizing done with
  | nil =>
    cases done with
    | nil => exact absurd rfl hname
    | cons p done =>
      rw [List.append_nil]
      exact if_pos rfl
  | cons p name ih =>
    rw [List.mem_cons, not_or] at h
    have hp : p ≠ .char '\x7d' := Ne.symm h.1
    rw [List.cons_append, substituteFrom, if_neg hp, ih h.2 (by simp)]
    · simp
    · rintro - rfl
      exact h.1 rfl

theorem substituteText_cons {p : CodePoint} {rest : Text} (plain : ¬opening <+: p :: rest) :
    env.substituteText (p :: rest) = p :: env.substituteText rest := by
  rw [substituteText, substituteFrom]
  · rfl
  · rintro rest' rfl rfl
    exact plain ⟨rest', rfl⟩

theorem substituteText_unclosed {rest : Text} (h : closing ∉ rest) :
    env.substituteText (opening ++ rest) = opening ++ rest := substituteFrom_unclosed h

theorem substituteText_empty (rest : Text) :
    env.substituteText (opening ++ closing :: rest) = opening ++ closing :: env.substituteText rest := rfl

theorem substituteText_reference {name : Text} (named : IsName name) (rest : Text) :
    env.substituteText (reference name ++ rest) = (env name).getD [] ++ env.substituteText rest := by
  have h : env.substituteText (reference name ++ rest) = env.substituteFrom (some []) (name ++ closing :: rest) := by
    rw [reference, List.append_assoc, List.append_assoc]
    rfl
  rw [h, substituteFrom_closed named.2 (by simpa using named.1), List.nil_append]

end Environment

/-! ### Names -/

namespace Text

theorem namesFrom_unclosed {done rest : Text} (h : closing ∉ rest) : namesFrom (some done) rest = [] := by
  induction rest generalizing done with
  | nil => cases done <;> rfl
  | cons p rest ih =>
    rw [List.mem_cons, not_or] at h
    have hp : p ≠ .char '\x7d' := Ne.symm h.1
    rw [namesFrom, if_neg hp, ih h.2]
    rintro - rfl
    exact h.1 rfl

theorem namesFrom_closed {done name rest : Text} (h : closing ∉ name) (hname : done ++ name ≠ []) :
    namesFrom (some done) (name ++ closing :: rest) = (done ++ name) :: names rest := by
  induction name generalizing done with
  | nil =>
    cases done with
    | nil => exact absurd rfl hname
    | cons p done =>
      rw [List.append_nil]
      exact if_pos rfl
  | cons p name ih =>
    rw [List.mem_cons, not_or] at h
    have hp : p ≠ .char '\x7d' := Ne.symm h.1
    rw [List.cons_append, namesFrom, if_neg hp, ih h.2 (by simp)]
    · simp
    · rintro - rfl
      exact h.1 rfl

theorem names_cons {p : CodePoint} {rest : Text} (plain : ¬opening <+: p :: rest) :
    names (p :: rest) = names rest := by
  rw [names, namesFrom]
  · rfl
  · rintro rest' rfl rfl
    exact plain ⟨rest', rfl⟩

theorem names_unclosed {rest : Text} (h : closing ∉ rest) : names (opening ++ rest) = [] := namesFrom_unclosed h

theorem names_empty (rest : Text) : names (opening ++ closing :: rest) = names rest := rfl

theorem names_reference {name : Text} (named : IsName name) (rest : Text) :
    names (reference name ++ rest) = name :: names rest := by
  have h : names (reference name ++ rest) = namesFrom (some []) (name ++ closing :: rest) := by
    rw [reference, List.append_assoc, List.append_assoc]
    rfl
  rw [h, namesFrom_closed named.2 (by simpa using named.1), List.nil_append]

theorem opening_prefix_iff {p : CodePoint} {rest : Text} :
    opening <+: p :: rest ↔ p = .char '$' ∧ rest.head? = some (.char '\x7b') := by
  have hopening : opening = [.char '$', .char '\x7b'] := rfl
  rw [hopening, List.cons_prefix_cons, eq_comm (b := p)]
  cases rest with
  | nil => simp
  | cons q rest => simp [List.cons_prefix_cons, eq_comm]

/-- A mark does not begin in front of what is not its second point. -/
theorem not_opening_prefix_append {p : CodePoint} {s t : Text} (plain : ¬opening <:+: p :: s)
    (apart : t.head? ≠ some (.char '\x7b')) : ¬opening <+: p :: (s ++ t) := by
  rw [opening_prefix_iff]
  rintro ⟨rfl, hhead⟩
  cases s with
  | nil => exact apart hhead
  | cons q s =>
    obtain rfl := Option.some.inj hhead
    exact plain ⟨[], s, rfl⟩

theorem HasReference.append_left {t : Text} (s : Text) (h : HasReference t) : HasReference (s ++ t) := by
  obtain ⟨before, name, behind, named, rfl⟩ := h
  exact ⟨s ++ before, name, behind, named, by simp⟩

end Text

namespace Environment
open Text

/-- A text with its references replaced, if all names in it can be looked up. -/
def resolveText (env : Environment) (text : Text) : Except NameFault Text :=
  match text.names.findSome? nameFault? with
  | some fault => .error fault
  | none => .ok (env.substituteText text)

section
variable {env : Environment} {text : Text}

theorem resolveText_eq_ok {text' : Text} : env.resolveText text = .ok text' ↔
    (∀ name ∈ text.names, nameFault? name = none) ∧ env.substituteText text = text' := by
  rw [resolveText, ← List.findSome?_eq_none_iff]
  cases text.names.findSome? nameFault? <;> simp

theorem resolveText_cons {p : CodePoint} (plain : ¬opening <+: p :: text) :
    env.resolveText (p :: text) = (env.resolveText text).map (p :: ·) := by
  rw [resolveText, resolveText, names_cons plain, substituteText_cons plain]
  cases text.names.findSome? nameFault? <;> rfl

theorem resolveText_unclosed (h : closing ∉ text) : env.resolveText (opening ++ text) = .ok (opening ++ text) := by
  rw [resolveText, names_unclosed h, substituteText_unclosed h]
  rfl

theorem resolveText_empty :
    env.resolveText (opening ++ closing :: text) = (env.resolveText text).map (opening ++ closing :: ·) := by
  rw [resolveText, resolveText, names_empty, substituteText_empty]
  cases text.names.findSome? nameFault? <;> rfl

theorem resolveText_reference {name : Text} (named : IsName name) :
    env.resolveText (reference name ++ text) =
      (nameFault? name).elim ((env.resolveText text).map ((env name).getD [] ++ ·)) .error := by
  rw [resolveText, resolveText, names_reference named, substituteText_reference named, List.findSome?_cons]
  cases nameFault? name with
  | some fault => rfl
  | none => cases text.names.findSome? nameFault? <;> rfl

/-- What stands in front of the first opening mark stays. -/
theorem resolveText_append {s : Text} (plain : ¬opening <:+: s) (apart : text.head? ≠ some (.char '\x7b')) :
    env.resolveText (s ++ text) = (env.resolveText text).map (s ++ ·) := by
  induction s with
  | nil => cases h : env.resolveText text <;> simp [h, Except.map]
  | cons p s ih =>
    have hrest : ¬opening <:+: s := fun h => plain (h.trans (List.suffix_cons p s).isInfix)
    rw [List.cons_append, resolveText_cons (not_opening_prefix_append plain apart), ih hrest]
    cases env.resolveText text <;> rfl

theorem resolveText_of_not_hasReference (h : ¬HasReference text) : env.resolveText text = .ok text := by
  induction parted text with
  | nil => rfl
  | point plain _ ih =>
    rw [resolveText_cons plain, ih (mt (HasReference.append_left [_]) h)]
    rfl
  | unclosed hclose => exact resolveText_unclosed hclose
  | empty _ ih =>
    rw [resolveText_empty, ih (mt (HasReference.append_left (opening ++ [closing])) (by simpa using h))]
    rfl
  | @reference name rest named => exact absurd ⟨[], name, rest, named, rfl⟩ h

end

end Environment

/-! ### Marks -/

namespace Text

/-- The points that the marks of references are made of. -/
def marks : Text := opening ++ [closing]

def Unmarked (text : Text) : Prop := ∀ p ∈ text, p ∉ marks

instance : DecidablePred Unmarked := fun text => inferInstanceAs (Decidable (∀ p ∈ text, p ∉ marks))

/-- Only the references of a text hold points that marks are made of. -/
inductive MarksReferences : Text → Prop
  | nil : MarksReferences []
  | point {p : CodePoint} {rest : Text} (plain : p ∉ marks) (h : MarksReferences rest) : MarksReferences (p :: rest)
  | reference {name rest : Text} (named : IsName name) (h : MarksReferences rest) :
      MarksReferences (reference name ++ rest)

theorem Unmarked.not_hasReference {text : Text} (h : Unmarked text) : ¬HasReference text := by
  rintro ⟨before, name, behind, -, rfl⟩
  exact h closing (by simp [reference]) (by simp [marks])

theorem MarksReferences.unmarked {env : Environment} {text : Text} (h : MarksReferences text)
    (values : ∀ name value, env name = some value → Unmarked value) : Unmarked (env.substituteText text) := by
  induction h with
  | nil => exact List.forall_mem_nil _
  | @point p rest plain _ ih =>
    have hplain : ¬opening <+: p :: rest := fun h =>
      plain ((opening_prefix_iff.mp h).1 ▸ List.mem_append_left _ List.mem_cons_self)
    rw [Environment.substituteText_cons hplain]
    exact List.forall_mem_cons.mpr ⟨plain, ih⟩
  | @reference name rest named _ ih =>
    rw [Environment.substituteText_reference named]
    refine List.forall_mem_append.mpr ⟨?_, ih⟩
    cases hvalue : env name with
    | none => exact List.forall_mem_nil _
    | some value => exact values name value hvalue

end Text

/-! ### Names without bytes -/

/-- A name has bytes that it can be looked up by: each surrogate in it stands for one. -/
def Text.HasBytes (name : Text) : Prop := ∀ surrogate, .surrogate surrogate ∈ name → standsForByte surrogate = true

theorem nameFaultFrom_eq_none {place : Nat} {name : Text} : nameFaultFrom place name = none ↔ name.HasBytes := by
  induction name generalizing place with
  | nil => simp [nameFaultFrom, Text.HasBytes]
  | cons p name ih =>
    cases p with
    | char c => simp [nameFaultFrom, ih, Text.HasBytes]
    | surrogate surrogate => by_cases h : standsForByte surrogate <;> simp [nameFaultFrom, h, ih, Text.HasBytes]

instance : DecidablePred Text.HasBytes := fun name =>
  decidable_of_iff (nameFaultFrom 0 name = none) nameFaultFrom_eq_none

end Solvency
