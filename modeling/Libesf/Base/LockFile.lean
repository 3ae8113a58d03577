import Mathlib

/-!
# A name and the files under it

The POSIX rules for one name in a directory: `open` with `O_CREAT` gives the file under the name and makes a new one when there is none, `unlink` removes the name and not the file, and a `lockf` lock belongs to a file and a process. Closing the file gives the lock up, and so does the end of the process.
-/

namespace Libesf.LockFile

abbrev Pid := Nat

abbrev Inode := Nat

/-- A section of the file from its beginning, up to an offset or without end. -/
structure Lock where
  owner : Pid
  upTo : Option Nat
  deriving DecidableEq

/-- What is left of a lock when the section from `offset` on is given up. -/
def Lock.cut (offset : Nat) (lock : Lock) : Option Lock :=
  if offset = 0 then none else some
    { lock with upTo := some ((lock.upTo.map (min offset)).getD offset) }

theorem Lock.owner_of_cut {offset : Nat} {lock rest : Lock} (h : lock.cut offset = some rest) :
    rest.owner = lock.owner := by
  unfold cut at h
  split at h
  · cases h
  · exact Option.some.inj h ▸ rfl

structure Files where
  name : Option Inode
  made : Nat
  locks : Inode → Option Lock

namespace Files

def empty : Files := ⟨none, 0, fun _ => none⟩

/-- The process that has a lock on a file. -/
def owner (f : Files) (i : Inode) : Option Pid := (f.locks i).map Lock.owner

def setLock (f : Files) (i : Inode) (lock : Option Lock) : Files :=
  { f with locks := Function.update f.locks i lock }

/-- `open(name, O_RDWR | O_CREAT)`. -/
def openCreat (f : Files) : Inode × Files :=
  match f.name with
  | some i => (i, f)
  | none => (f.made, { f with name := some f.made, made := f.made + 1 })

/-- `lockf(fd, F_TLOCK, 0)` at the beginning of the file. -/
def tlock (f : Files) (p : Pid) (i : Inode) : Option Files :=
  if (f.owner i).all (· = p) then some (f.setLock i (some ⟨p, none⟩)) else none

/-- `lockf(fd, F_ULOCK, 0)` at `offset`. -/
def ulock (f : Files) (p : Pid) (i : Inode) (offset : Nat) : Files :=
  match f.locks i with
  | some lock => if lock.owner = p then f.setLock i (lock.cut offset) else f
  | none => f

/-- `close(fd)`. -/
def close (f : Files) (p : Pid) (i : Inode) : Files := f.setLock i ((f.locks i).filter (·.owner ≠ p))

/-- `unlink(name)`. -/
def unlink (f : Files) : Files := { f with name := none }

/-- The end of a process. -/
def exit (f : Files) (p : Pid) : Files :=
  { f with locks := fun i => (f.locks i).filter (·.owner ≠ p) }

variable {f g : Files} {p q : Pid} {i j : Inode}

theorem owner_setLock (lock : Option Lock) (j : Inode) :
    (f.setLock i lock).owner j = if j = i then lock.map Lock.owner else f.owner j := by
  change (Function.update f.locks i lock j).map Lock.owner = _
  by_cases hj : j = i
  · rw [hj, Function.update_self, if_pos rfl]
  · rw [Function.update_of_ne hj, if_neg hj]
    rfl

@[simp] theorem owner_openCreat (i : Inode) : f.openCreat.2.owner i = f.owner i := by
  unfold openCreat
  cases f.name <;> rfl

theorem name_openCreat_of_some (h : f.name = some i) : f.openCreat.2.name = some i := by
  rw [openCreat, h]
  exact h

theorem tlock_eq_some : f.tlock p i = some g ↔
    (∀ q, f.owner i = some q → q = p) ∧ g = f.setLock i (some ⟨p, none⟩) := by
  unfold tlock
  cases howner : f.owner i with
  | none => simp [eq_comm]
  | some q =>
    by_cases hq : q = p
    · simp [hq, eq_comm]
    · simp [hq]

theorem owner_tlock (h : f.tlock p i = some g) (j : Inode) :
    g.owner j = if j = i then some p else f.owner j := by
  obtain ⟨_, rfl⟩ := tlock_eq_some.1 h
  exact owner_setLock _ j

theorem name_tlock (h : f.tlock p i = some g) : g.name = f.name := by
  obtain ⟨_, rfl⟩ := tlock_eq_some.1 h
  rfl

@[simp] theorem name_ulock (offset : Nat) : (f.ulock p i offset).name = f.name := by
  unfold ulock
  split
  · split <;> rfl
  · rfl

theorem owner_of_owner_ulock {offset : Nat} (h : (f.ulock p i offset).owner j = some q) :
    f.owner j = some q := by
  unfold ulock at h
  cases hlock : f.locks i with
  | none => rwa [hlock] at h
  | some lock =>
    rw [hlock] at h
    dsimp only at h
    split at h
    · rw [owner_setLock] at h
      split at h
      · next hj =>
        obtain ⟨rest, hcut, hq⟩ := Option.map_eq_some_iff.1 h
        rw [hj, owner, hlock, Option.map_some, ← Lock.owner_of_cut hcut, hq]
      · exact h
    · exact h

private theorem map_owner_filter {lock : Option Lock} :
    (lock.filter (·.owner ≠ p)).map Lock.owner = some q ↔ lock.map Lock.owner = some q ∧ q ≠ p := by
  cases lock with
  | none => simp
  | some lock =>
    by_cases howner : lock.owner = p
    · simpa [howner] using fun h : p = q => h.symm
    · simpa [howner] using fun h : lock.owner = q => h ▸ howner

theorem owner_close : (f.close p i).owner j = some q ↔ f.owner j = some q ∧ ¬ (j = i ∧ q = p) := by
  rw [close, owner_setLock]
  by_cases hj : j = i
  · rw [if_pos hj, map_owner_filter, hj, owner]
    simp
  · simp [hj]

theorem owner_exit : (f.exit p).owner j = some q ↔ f.owner j = some q ∧ q ≠ p := map_owner_filter

end Files

end Libesf.LockFile
