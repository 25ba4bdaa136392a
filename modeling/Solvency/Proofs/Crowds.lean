import Mathlib.Data.List.Perm.Basic
import Solvency.Lock

/-! Crowds: what the counts of a lock say of the threads at it. Whatever moves are made, the counts are those of the
    threads, since a move changes the counts of the phase that its thread leaves and of the one that it comes to; and a
    writer is inside alone, since it enters only where nobody is inside and nobody enters after it. -/

namespace Solvency

theorem perm_cons_eraseIdx {α : Type} {xs : List α} {x : α} {i : Nat} (h : xs[i]? = some x) :
    xs.Perm (x :: xs.eraseIdx i) := by
  obtain ⟨hi, rfl⟩ := List.getElem?_eq_some_iff.mp h
  exact (List.getElem_cons_eraseIdx_perm hi).symm

theorem set_perm_cons {α : Type} {xs : List α} {x : α} {i : Nat} (h : xs[i]? = some x) (y : α) :
    (xs.set i y).Perm (y :: xs.eraseIdx i) :=
  List.set_perm_cons_eraseIdx (List.getElem?_eq_some_iff.mp h).1 y

namespace Lock

@[simp] theorem await_read (l : Lock) : l.await .read = l := rfl

@[simp] theorem await_write (l : Lock) : l.await .write = { l with writersWaiting := l.writersWaiting + 1 } := rfl

@[simp] theorem abandon_read (l : Lock) : l.abandon .read = l := rfl

@[simp] theorem abandon_write (l : Lock) : l.abandon .write = { l with writersWaiting := l.writersWaiting - 1 } := rfl

@[simp] theorem leave_read (l : Lock) : l.leave .read = { l with readers := l.readers - 1 } := rfl

@[simp] theorem leave_write (l : Lock) : l.leave .write = { l with writer := false } := rfl

/-- The counts of a lock are those of the threads at it, and a writer is inside alone. -/
structure Guards (l : Lock) (threads : List ThreadPhase) : Prop where
  readers : l.readers = threads.count (.inside .read)
  writersWaiting : l.writersWaiting = threads.count (.waiting .write)
  writers : threads.count (.inside .write) = l.writer.toNat
  alone : l.writer = true → l.readers = 0

section
variable {l l' : Lock} {threads threads' : List ThreadPhase} {access : Access}

theorem enter?_read_eq_some : l.enter? .read = some l' ↔
    (l.writer = false ∧ l.writersWaiting = 0) ∧ { l with readers := l.readers + 1 } = l' := by
  simp [enter?, enterRead?]

theorem enter?_write_eq_some : l.enter? .write = some l' ↔
    (l.writer = false ∧ l.readers = 0) ∧
      { l with writersWaiting := l.writersWaiting - 1, writer := true } = l' := by
  simp [enter?, enterWrite?]

theorem guards_nil : Guards {} [] := ⟨rfl, rfl, rfl, fun _ => rfl⟩

namespace Guards

theorem perm (h : l.Guards threads) (hperm : threads.Perm threads') : l.Guards threads' where
  readers := by rw [h.readers, hperm.count_eq]
  writersWaiting := by rw [h.writersWaiting, hperm.count_eq]
  writers := by rw [← hperm.count_eq, h.writers]
  alone := h.alone

theorem await (h : l.Guards threads) (access : Access) : (l.await access).Guards (.waiting access :: threads) := by
  obtain ⟨hreaders, hwaiting, hwriters, halone⟩ := h
  cases access with
  | read => exact ⟨by simpa using hreaders, by simpa using hwaiting, by simpa using hwriters, halone⟩
  | write => exact ⟨by simpa using hreaders, by simp [hwaiting], by simpa using hwriters, halone⟩

theorem abandon (h : l.Guards (.waiting access :: threads)) : (l.abandon access).Guards threads := by
  obtain ⟨hreaders, hwaiting, hwriters, halone⟩ := h
  cases access with
  | read => exact ⟨by simpa using hreaders, by simpa using hwaiting, by simpa using hwriters, halone⟩
  | write => exact ⟨by simpa using hreaders, by simp [hwaiting], by simpa using hwriters, halone⟩

theorem enter (h : l.Guards (.waiting access :: threads)) (henter : l.enter? access = some l') :
    l'.Guards (.inside access :: threads) := by
  obtain ⟨hreaders, hwaiting, hwriters, halone⟩ := h
  cases access with
  | read =>
    obtain ⟨⟨hwriter, -⟩, rfl⟩ := enter?_read_eq_some.mp henter
    refine ⟨by simpa using hreaders, by simpa using hwaiting, by simpa using hwriters, fun h => ?_⟩
    rw [hwriter] at h
    cases h
  | write =>
    obtain ⟨⟨hwriter, hempty⟩, rfl⟩ := enter?_write_eq_some.mp henter
    refine ⟨by simpa using hreaders, by simp [hwaiting], ?_, fun _ => hempty⟩
    simpa [hwriter] using hwriters

theorem readers_eq_zero (h : l.Guards threads) : l.readers = 0 ↔ .inside .read ∉ threads := by
  rw [h.readers, Int.natCast_eq_zero, List.count_eq_zero]

theorem writersWaiting_eq_zero (h : l.Guards threads) : l.writersWaiting = 0 ↔ .waiting .write ∉ threads := by
  rw [h.writersWaiting, Int.natCast_eq_zero, List.count_eq_zero]

theorem writer_eq_false (h : l.Guards threads) : l.writer = false ↔ .inside .write ∉ threads := by
  rw [← List.count_eq_zero, h.writers, Bool.toNat_eq_zero]

theorem writer_of_reader (h : l.Guards threads) (hreader : .inside .read ∈ threads) : l.writer = false := by
  by_contra hwriter
  exact h.readers_eq_zero.mp (h.alone (by simpa using hwriter)) hreader

theorem leave (h : l.Guards (.inside access :: threads)) : (l.leave access).Guards threads := by
  cases access with
  | read =>
    have hwriter := h.writer_of_reader List.mem_cons_self
    obtain ⟨hreaders, hwaiting, hwriters, -⟩ := h
    refine ⟨by simp [hreaders], by simpa using hwaiting, by simpa using hwriters, fun h => ?_⟩
    exact absurd h (by simp [hwriter])
  | write =>
    obtain ⟨hreaders, hwaiting, hwriters, -⟩ := h
    have hcount : threads.count (.inside .write) = 0 := by
      have hle := l.writer.toNat_le
      simp only [List.count_cons_self] at hwriters
      omega
    exact ⟨by simpa using hreaders, by simpa using hwaiting, hcount, fun h => nomatch h⟩

theorem eq_empty (h : l.Guards []) : l = {} := by
  have hreaders := h.readers_eq_zero.mpr List.not_mem_nil
  have hwriter := h.writer_eq_false.mpr List.not_mem_nil
  have hwaiting := h.writersWaiting_eq_zero.mpr List.not_mem_nil
  cases l
  subst hreaders hwriter hwaiting
  rfl

end Guards

end

end Lock

namespace Crowd

/-- The threads let another one in: a reader unless a writer waits or is inside, a writer unless anyone is inside. -/
def Admits (c : Crowd) : Access → Prop
  | .read => .waiting .write ∉ c.threads ∧ .inside .write ∉ c.threads
  | .write => ∀ access, .inside access ∉ c.threads

/-- A thread comes to the lock and enters at once, if it may. -/
def come (c : Crowd) (access : Access) : Crowd := (c.move (.arrive access)).move (.enter c.threads.length)

/-- What a move does if it does anything. -/
inductive Change (c : Crowd) : LockMove → Crowd → Prop where
  | arrive (access : Access) :
    Change c (.arrive access) ⟨c.lock.await access, c.threads ++ [.waiting access]⟩
  | enter {place : Nat} {access : Access} {lock : Lock} (waits : c.threads[place]? = some (.waiting access))
    (enters : c.lock.enter? access = some lock) :
    Change c (.enter place) ⟨lock, c.threads.set place (.inside access)⟩
  | leave {place : Nat} {access : Access} (inside : c.threads[place]? = some (.inside access)) :
    Change c (.leave place) ⟨c.lock.leave access, c.threads.eraseIdx place⟩
  | abandon {place : Nat} {access : Access} (waits : c.threads[place]? = some (.waiting access)) :
    Change c (.abandon place) ⟨c.lock.abandon access, c.threads.eraseIdx place⟩

section
variable {c c' : Crowd} {threads : List ThreadPhase} {phase : ThreadPhase} {access : Access} {place : Nat}
  {m : LockMove}

theorem change_move (c : Crowd) (m : LockMove) : c.move m = c ∨ c.Change m (c.move m) := by
  cases m with
  | arrive access => exact Or.inr (.arrive access)
  | enter place =>
    rw [move]
    split
    · split
      · exact Or.inr (.enter ‹_› ‹_›)
      · exact Or.inl rfl
    · exact Or.inl rfl
  | leave place =>
    rw [move]
    split
    · exact Or.inr (.leave ‹_›)
    · exact Or.inl rfl
  | abandon place =>
    rw [move]
    split
    · exact Or.inr (.abandon ‹_›)
    · exact Or.inl rfl

theorem Change.guards (h : c.Change m c') (guards : c.lock.Guards c.threads) : c'.lock.Guards c'.threads := by
  cases h with
  | arrive access => exact (guards.await access).perm (List.perm_append_singleton _ _).symm
  | enter waits enters =>
    exact ((guards.perm (perm_cons_eraseIdx waits)).enter enters).perm (set_perm_cons waits _).symm
  | leave inside => exact (guards.perm (perm_cons_eraseIdx inside)).leave
  | abandon waits => exact (guards.perm (perm_cons_eraseIdx waits)).abandon

theorem guards_move (guards : c.lock.Guards c.threads) (m : LockMove) :
    (c.move m).lock.Guards (c.move m).threads := by
  rcases change_move c m with hsame | hchange
  · rwa [hsame]
  · exact hchange.guards guards

theorem guards_run (guards : c.lock.Guards c.threads) (moves : List LockMove) :
    (c.run moves).lock.Guards (c.run moves).threads := by
  induction moves generalizing c with
  | nil => exact guards
  | cons m moves ih => exact ih (guards_move guards m)

/-! ### Who enters -/

theorem enter?_iff (guards : c.lock.Guards c.threads) (access : Access) :
    (c.lock.enter? access).isSome ↔ c.Admits access := by
  rw [Option.isSome_iff_exists]
  cases access with
  | read =>
    simp only [Lock.enter?_read_eq_some, exists_and_left, exists_eq', and_true]
    rw [guards.writer_eq_false, guards.writersWaiting_eq_zero, Admits, and_comm]
  | write =>
    simp only [Lock.enter?_write_eq_some, exists_and_left, exists_eq', and_true]
    rw [guards.writer_eq_false, guards.readers_eq_zero, Admits]
    constructor
    · rintro ⟨hwriter, hreader⟩ access
      cases access with
      | read => exact hreader
      | write => exact hwriter
    · exact fun hnone => ⟨hnone .write, hnone .read⟩

theorem threads_move_enter (h : (c.move (.enter place)).threads[place]? = some phase) :
    (c.move (.enter place)).threads = c.threads.set place phase := by
  rcases change_move c (.enter place) with hsame | hchange
  · rw [hsame] at h ⊢
    obtain ⟨hplace, rfl⟩ := List.getElem?_eq_some_iff.mp h
    exact (List.set_getElem_self hplace).symm
  · generalize c.move (.enter place) = c' at h hchange
    cases hchange with
    | enter waits enters =>
      rw [List.getElem?_set_self (List.getElem?_eq_some_iff.mp waits).1] at h
      cases h
      rfl

theorem move_enter_iff (h : c.threads[place]? = some (.waiting access)) :
    (c.move (.enter place)).threads[place]? = some (.inside access) ↔ (c.lock.enter? access).isSome := by
  have hplace := (List.getElem?_eq_some_iff.mp h).1
  simp only [move, h]
  cases c.lock.enter? access with
  | none => simp [h]
  | some lock => simp [hplace]

theorem come_enter_iff (c : Crowd) (access : Access) :
    (c.come access).threads[c.threads.length]? = some (.inside access) ↔
      ((c.lock.await access).enter? access).isSome :=
  move_enter_iff (c := c.move (.arrive access)) (by simp [move])

theorem admits_of_arrive {other : Access} (h : (c.move (.arrive other)).Admits access) : c.Admits access := by
  cases access with
  | read =>
    obtain ⟨hwaiting, hinside⟩ := h
    exact ⟨fun hmem => hwaiting (List.mem_append_left _ hmem), fun hmem => hinside (List.mem_append_left _ hmem)⟩
  | write => exact fun other hmem => h other (List.mem_append_left _ hmem)

theorem admits_arrive (access : Access) : (c.move (.arrive access)).Admits access ↔ c.Admits access := by
  refine ⟨admits_of_arrive, fun h => ?_⟩
  cases access with
  | read => simpa [Admits, move] using h
  | write => simpa [Admits, move] using h

theorem threads_come (h : (c.come access).threads[c.threads.length]? = some phase) :
    (c.come access).threads = c.threads ++ [phase] := by
  rw [come, threads_move_enter h]
  simp [move]

/-- Only a thread that may enter gets inside. -/
theorem Change.admits (h : c.Change m c') (guards : c.lock.Guards c.threads)
    (hmore : c.count (.inside access) < c'.count (.inside access)) : c.Admits access := by
  have hcount : ∀ c : Crowd, c.count (.inside access) = c.threads.count (.inside access) := fun _ => rfl
  rw [hcount, hcount] at hmore
  cases h with
  | arrive other => simp at hmore
  | @enter place other lock waits enters =>
    rw [(perm_cons_eraseIdx waits).count_eq, (set_perm_cons waits _).count_eq] at hmore
    have hsame : other = access := by
      by_contra hne
      simp [hne] at hmore
    subst hsame
    exact (enter?_iff guards other).mp (by rw [enters]; rfl)
  | leave inside =>
    rw [(perm_cons_eraseIdx inside).count_eq] at hmore
    exact absurd hmore (Nat.not_lt.mpr (List.count_le_count_cons))
  | abandon waits =>
    rw [(perm_cons_eraseIdx waits).count_eq] at hmore
    exact absurd hmore (Nat.not_lt.mpr (List.count_le_count_cons))

theorem admits_of_move (guards : c.lock.Guards c.threads)
    (hmore : c.count (.inside access) < (c.move m).count (.inside access)) : c.Admits access := by
  rcases change_move c m with hsame | hchange
  · rw [hsame] at hmore
    exact absurd hmore (Nat.lt_irrefl _)
  · exact hchange.admits guards hmore

end

/-- The counts of the lock are those of the threads, a writer is inside alone, and a thread enters exactly where the
    others let it in. -/
structure Orderly (c : Crowd) : Prop where
  readers : c.lock.readers = c.count (.inside .read)
  readers_nonneg : 0 ≤ c.lock.readers
  writersWaiting : c.lock.writersWaiting = c.count (.waiting .write)
  writer : c.lock.writer = true ↔ c.count (.inside .write) = 1
  alone : .inside .write ∈ c.threads → c.count (.inside .write) = 1 ∧ .inside .read ∉ c.threads
  enters : ∀ place access, c.threads[place]? = some (.waiting access) →
    ((c.move (.enter place)).threads[place]? = some (.inside access) ↔ c.Admits access)
  comes : ∀ access, (c.come access).threads[c.threads.length]? = some (.inside access) ↔ c.Admits access
  admitted : ∀ m access, c.count (.inside access) < (c.move m).count (.inside access) → c.Admits access
  free : c.threads = [] → c.lock = {}

theorem orderly_of_guards {c : Crowd} (guards : c.lock.Guards c.threads) : c.Orderly where
  readers := guards.readers
  readers_nonneg := by
    rw [guards.readers]
    exact Int.natCast_nonneg _
  writersWaiting := guards.writersWaiting
  writer := by
    have hwriters : c.count (.inside .write) = c.lock.writer.toNat := guards.writers
    rw [hwriters, Bool.toNat_eq_one]
  alone := fun hinside => by
    have hwriter : c.lock.writer = true := by
      by_contra hwriter
      exact guards.writer_eq_false.mp (by simpa using hwriter) hinside
    have hwriters : c.count (.inside .write) = c.lock.writer.toNat := guards.writers
    rw [hwriters, hwriter]
    exact ⟨rfl, guards.readers_eq_zero.mp (guards.alone hwriter)⟩
  enters := fun place access h => (move_enter_iff h).trans (enter?_iff guards access)
  comes := fun access => (come_enter_iff c access).trans
    ((enter?_iff (guards_move guards (.arrive access)) access).trans (admits_arrive access))
  admitted := fun m access => admits_of_move guards
  free := fun hempty => (hempty ▸ guards : c.lock.Guards []).eq_empty

end Crowd

end Solvency
