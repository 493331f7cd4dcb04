import EspLinux.Ser2net.Transfer

/-!
# Descriptors, the selector and the lock files

What the ports share: the table of open descriptors, what the selector has been told to do when
one of them can be read, and the files by which programs agree on who uses a device.

The selector keeps its entry for a number when the descriptor is closed, and a new descriptor may
get the number again.
-/

namespace EspLinux.Ser2net

/-- What a descriptor is open on. -/
inductive FileKind
  /-- A stream socket that does not listen. -/
  | stream
  | listening
  | dgram
  /-- What `accept` has returned. -/
  | connection
  | device
deriving DecidableEq, Repr

/-- The read handlers that the ports give to the selector. -/
inductive ReadHandler
  | handle_accept_port_read
  | handle_initial_UDP_port_read
  | handle_tcp_fd_read
  | handle_dev_fd_read
deriving DecidableEq, Repr

/-- A descriptor, and the entry of the selector for its number. -/
structure Slot where
  file : Option FileKind
  handle_read : Option ReadHandler
  read_set : Bool

/-- What the ports share. -/
structure Kernel where
  fds : ℕ → Slot
  uucp_locking_enabled : Bool
  /-- The lock files that exist, by the part of the name behind `LCK..`. -/
  locks : List Char → Bool

namespace Kernel

/-- Nothing is open. -/
def empty : Kernel :=
  { fds := fun _ => { file := none, handle_read := none, read_set := false }
    uucp_locking_enabled := false
    locks := fun _ => false }

/-- Change the slot of a number.  There is none for -1: a call of the selector with it changes
nothing here, where the source stores in front of its table.  The claims about descriptors look at
the number itself. -/
def modify (f : Slot → Slot) : Option ℕ → Kernel → Kernel
  | none, k => k
  | some n, k => { k with fds := Function.update k.fds n (f (k.fds n)) }

/-- Make a number refer to an open file.  It must not refer to one already. -/
def open_fd (n : ℕ) (kind : FileKind) (k : Kernel) : Option Kernel :=
  if (k.fds n).file = none then some (k.modify (fun s => { s with file := some kind }) (some n))
  else none

/-- `close` -/
def close (fd : Option ℕ) (k : Kernel) : Kernel := k.modify (fun s => { s with file := none }) fd

/-- `listen` -/
def listen (fd : Option ℕ) (k : Kernel) : Kernel :=
  k.modify (fun s => { s with file := some .listening }) fd

/-- `sel_set_fd_handlers`, as far as reading is concerned. -/
def sel_set_fd_handlers (fd : Option ℕ) (h : Option ReadHandler) (k : Kernel) : Kernel :=
  k.modify (fun s => { s with handle_read := h }) fd

/-- `sel_set_fd_read_handler` -/
def sel_set_fd_read_handler (fd : Option ℕ) (state : Bool) (k : Kernel) : Kernel :=
  k.modify (fun s => { s with read_set := state }) fd

/-- `sel_clear_fd_handlers` -/
def sel_clear_fd_handlers (fd : Option ℕ) (k : Kernel) : Kernel :=
  k.modify (fun s => { s with handle_read := none, read_set := false }) fd

end Kernel

/-! ## Lock files -/

/-- `uucp_fname_lock`, without the directory and `LCK..`. -/
def uucp_fname_lock (devname : List Char) : List Char :=
  (if 5 ≤ devname.length then devname.drop 5 else devname).map fun c => if c = '/' then '_' else c

/-- What `uucp_mk_lock` finds. -/
structure LockCalls where
  /-- There is a directory for lock files. -/
  dir : Bool
  /-- The process that has made the lock file does not exist any more. -/
  dead : Bool
  /-- The lock file can be created. -/
  create : Bool

/-- `uucp_mk_lock`: 0 if the lock is taken, -1 on an error and 1 if it is somebody else's. -/
def uucp_mk_lock (devname : List Char) (c : LockCalls) (k : Kernel) : ℤ × Kernel :=
  if !k.uucp_locking_enabled then (0, k)
  else if !c.dir then (-1, k)
  else
    let lck_file := uucp_fname_lock devname
    if k.locks lck_file ∧ !c.dead then (1, k)
    else
      -- a dead lock file is removed
      let k := { k with locks := Function.update k.locks lck_file false }
      if c.create then (0, { k with locks := Function.update k.locks lck_file true })
      else (1, k)

/-- `uucp_rm_lock` -/
def uucp_rm_lock (devname : List Char) (k : Kernel) : Kernel :=
  if !k.uucp_locking_enabled then k
  else { k with locks := Function.update k.locks (uucp_fname_lock devname) false }

/-! ## What changes and what does not -/

namespace Kernel

variable {k k' : Kernel} {f : Slot → Slot} {fd : Option ℕ} {n m : ℕ} {kind : FileKind}
  {h : Option ReadHandler} {state : Bool}

@[simp] lemma modify_none : k.modify f none = k := rfl

lemma modify_self : (k.modify f (some n)).fds n = f (k.fds n) := Function.update_self ..

/-- Only the slot of the number changes. -/
lemma modify_of_ne (h : fd ≠ some m) : (k.modify f fd).fds m = k.fds m := by
  cases fd with
  | none => rfl
  | some n => exact Function.update_of_ne (fun hm => h (congrArg some hm.symm)) ..

/-- What does not touch the file leaves the descriptors open on what they are. -/
lemma modify_file (hf : ∀ s, (f s).file = s.file) (n : ℕ) :
    ((k.modify f fd).fds n).file = (k.fds n).file := by
  by_cases hn : fd = some n
  · rw [hn, modify_self, hf]
  · rw [modify_of_ne hn]

@[simp] lemma sel_set_fd_handlers_file (n : ℕ) :
    ((k.sel_set_fd_handlers fd h).fds n).file = (k.fds n).file := by
  rw [sel_set_fd_handlers]
  refine modify_file (fun s => ?_) n
  rfl

@[simp] lemma sel_set_fd_read_handler_file (n : ℕ) :
    ((k.sel_set_fd_read_handler fd state).fds n).file = (k.fds n).file := by
  rw [sel_set_fd_read_handler]
  refine modify_file (fun s => ?_) n
  rfl

@[simp] lemma sel_clear_fd_handlers_file (n : ℕ) :
    ((k.sel_clear_fd_handlers fd).fds n).file = (k.fds n).file := by
  rw [sel_clear_fd_handlers]
  refine modify_file (fun s => ?_) n
  rfl

lemma close_file (h : fd ≠ some n) : ((k.close fd).fds n).file = (k.fds n).file := by
  rw [close, modify_of_ne h]

@[simp] lemma modify_locks : (k.modify f fd).locks = k.locks := by cases fd <;> rfl

@[simp] lemma modify_uucp_locking_enabled :
    (k.modify f fd).uucp_locking_enabled = k.uucp_locking_enabled := by cases fd <;> rfl

lemma open_fd_eq_some (hopen : k.open_fd n kind = some k') :
    (k.fds n).file = none ∧ k' = k.modify (fun s => { s with file := some kind }) (some n) := by
  rw [open_fd] at hopen
  split at hopen
  case isTrue hfree =>
    cases hopen
    exact ⟨hfree, rfl⟩
  case isFalse => cases hopen

end Kernel

variable {devname : List Char} {c : LockCalls} {k : Kernel}

@[simp] lemma uucp_mk_lock_fds : (uucp_mk_lock devname c k).2.fds = k.fds := by
  simp only [uucp_mk_lock]
  split_ifs <;> rfl

@[simp] lemma uucp_mk_lock_uucp_locking_enabled :
    (uucp_mk_lock devname c k).2.uucp_locking_enabled = k.uucp_locking_enabled := by
  simp only [uucp_mk_lock]
  split_ifs <;> rfl

@[simp] lemma uucp_rm_lock_fds : (uucp_rm_lock devname k).fds = k.fds := by
  rw [uucp_rm_lock]
  split <;> rfl

end EspLinux.Ser2net
