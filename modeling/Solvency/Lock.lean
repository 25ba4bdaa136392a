/-!
A lock that many readers or one writer hold. Readers that come while a writer waits queue up behind it. The lock
itself counts; a crowd keeps track of the threads at the lock, each of which waits or is inside.
-/

namespace Solvency

/-- What a thread wants from what is guarded. -/
inductive Access where
  | read
  | write
  deriving DecidableEq, Repr

/-- The counts that a lock keeps. -/
structure Lock where
  readers : Int := 0
  writer : Bool := false
  writersWaiting : Int := 0
  deriving DecidableEq, Repr

namespace Lock

/-- A reader enters, unless a writer is inside or waits. -/
def enterRead? (l : Lock) : Option Lock :=
  if l.writer || l.writersWaiting ≠ 0 then none else some { l with readers := l.readers + 1 }

def leaveRead (l : Lock) : Lock := { l with readers := l.readers - 1 }

def awaitWrite (l : Lock) : Lock := { l with writersWaiting := l.writersWaiting + 1 }

def abandonWrite (l : Lock) : Lock := { l with writersWaiting := l.writersWaiting - 1 }

/-- A waiting writer enters, unless anyone is inside. -/
def enterWrite? (l : Lock) : Option Lock :=
  if l.writer || l.readers ≠ 0 then none
  else some { l with writersWaiting := l.writersWaiting - 1, writer := true }

def leaveWrite (l : Lock) : Lock := { l with writer := false }

/-- A thread starts to wait. -/
def await (l : Lock) : Access → Lock
  | .read => l
  | .write => l.awaitWrite

/-- A waiting thread gives up. -/
def abandon (l : Lock) : Access → Lock
  | .read => l
  | .write => l.abandonWrite

/-- A waiting thread enters, if it may. -/
def enter? (l : Lock) : Access → Option Lock
  | .read => l.enterRead?
  | .write => l.enterWrite?

/-- A thread that is inside leaves. -/
def leave (l : Lock) : Access → Lock
  | .read => l.leaveRead
  | .write => l.leaveWrite

end Lock

/-- Where a thread is. -/
inductive ThreadPhase where
  | waiting (access : Access)
  | inside (access : Access)
  deriving DecidableEq, Repr

/-- The threads at a lock, in the order in which they came. -/
structure Crowd where
  lock : Lock := {}
  threads : List ThreadPhase := []
  deriving DecidableEq, Repr

/-- What can happen at a lock. All but an arrival happens to the thread at a place. -/
inductive LockMove where
  | arrive (access : Access)
  | enter (place : Nat)
  | leave (place : Nat)
  | abandon (place : Nat)
  deriving DecidableEq, Repr

namespace Crowd

/-- One move. A thread that may not enter keeps waiting, and a move that fits no thread changes nothing. -/
def move (c : Crowd) : LockMove → Crowd
  | .arrive access => ⟨c.lock.await access, c.threads ++ [.waiting access]⟩
  | .enter place =>
    match c.threads[place]? with
    | some (.waiting access) =>
      match c.lock.enter? access with
      | some lock => ⟨lock, c.threads.set place (.inside access)⟩
      | none => c
    | _ => c
  | .leave place =>
    match c.threads[place]? with
    | some (.inside access) => ⟨c.lock.leave access, c.threads.eraseIdx place⟩
    | _ => c
  | .abandon place =>
    match c.threads[place]? with
    | some (.waiting access) => ⟨c.lock.abandon access, c.threads.eraseIdx place⟩
    | _ => c

/-- Moves one after another. -/
def run (c : Crowd) (moves : List LockMove) : Crowd := moves.foldl move c

def settle (c : Crowd) : Crowd := c.run ((List.range c.threads.length).map .enter)

/-- A thread has come and everything has settled. -/
def request (c : Crowd) (access : Access) : Crowd := (c.move (.arrive access)).settle

/-- A thread that was inside has left, if there was one, and everything has settled. -/
def release (c : Crowd) (access : Access) : Crowd :=
  match c.threads.findIdx? (· = .inside access) with
  | some place => (c.move (.leave place)).settle
  | none => c

def count (c : Crowd) (phase : ThreadPhase) : Nat := c.threads.countP (· = phase)

end Crowd

end Solvency
