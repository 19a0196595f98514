import Mathlib

/-!
# Descriptors of a process

The kernel keeps a table of the descriptors that are open. It gives out one that is not, and takes
back what a program closes. A program keeps its books when each open descriptor is in its books
once and it never closes one that is not open.
-/

namespace Descriptors

/-- What the kernel answers to the `n`-th call. -/
structure Kernel where
  /-- The call succeeds. -/
  grants : ℕ → Bool
  /-- The descriptor that is given out while others are open. -/
  choose : ℕ → List ℤ → ℤ
  choose_nonneg : ∀ n fds, 0 ≤ choose n fds
  choose_not_mem : ∀ n fds, choose n fds ∉ fds

/-- The descriptor behind the greatest one. -/
def behind : List ℤ → ℤ
  | [] => 0
  | fd :: fds => max (fd + 1) (behind fds)

lemma behind_nonneg : ∀ fds, 0 ≤ behind fds
  | [] => le_rfl
  | _ :: fds => (behind_nonneg fds).trans (le_max_right _ _)

lemma lt_behind {fd : ℤ} {fds : List ℤ} (h : fd ∈ fds) : fd < behind fds := by
  induction fds with
  | nil => cases h
  | cons a fds ih =>
    rcases List.mem_cons.mp h with rfl | h
    · exact (lt_add_one fd).trans_le (le_max_left _ _)
    · exact (ih h).trans_le (le_max_right _ _)

/-- A kernel that gives out the descriptor behind the greatest one. -/
def Kernel.giving (grants : ℕ → Bool) : Kernel where
  grants := grants
  choose _ fds := behind fds
  choose_nonneg _ fds := behind_nonneg fds
  choose_not_mem _ _ h := lt_irrefl _ (lt_behind h)

structure Table where
  openFds : List ℤ
  /-- The calls that were made so far. -/
  calls : ℕ
  /-- What was closed without being open. -/
  misClosed : List ℤ

namespace Table

variable (k : Kernel) (t : Table)

/-- A call that opens and closes nothing. -/
def ask : Bool × Table := (k.grants t.calls, { t with calls := t.calls + 1 })

/-- A call that gives out a descriptor, or -1. -/
def socket : ℤ × Table :=
  if k.grants t.calls then
    let fd := k.choose t.calls t.openFds
    (fd, { t with openFds := fd :: t.openFds, calls := t.calls + 1 })
  else (-1, { t with calls := t.calls + 1 })

def close (fd : ℤ) : Table :=
  { openFds := t.openFds.erase fd
    calls := t.calls + 1
    misClosed := if fd ∈ t.openFds then t.misClosed else t.misClosed ++ [fd] }

end Table

/-- The books of a program: what it takes for open is open, and nothing was closed that was not. -/
structure Keeps (t : Table) (fds : List ℤ) : Prop where
  perm : t.openFds.Perm fds
  nodup : fds.Nodup
  nonneg : ∀ fd ∈ fds, 0 ≤ fd
  misClosed : t.misClosed = []

namespace Keeps

variable {k : Kernel} {t : Table} {fd : ℤ} {fds fds' : List ℤ}

lemma perm_books (h : Keeps t fds) (hperm : fds.Perm fds') : Keeps t fds' where
  perm := h.perm.trans hperm
  nodup := hperm.nodup_iff.mp h.nodup
  nonneg := fun fd hfd => h.nonneg fd (hperm.mem_iff.mpr hfd)
  misClosed := h.misClosed

lemma ask (h : Keeps t fds) : Keeps (t.ask k).2 fds := ⟨h.perm, h.nodup, h.nonneg, h.misClosed⟩

/-- A new descriptor is entered into the books. -/
lemma socket (h : Keeps t fds) (hfd : 0 ≤ (t.socket k).1) :
    Keeps (t.socket k).2 ((t.socket k).1 :: fds) := by
  rw [Table.socket] at hfd ⊢
  split_ifs at hfd ⊢ with hgrants
  · refine ⟨h.perm.cons _, ?_, ?_, h.misClosed⟩
    · rw [List.nodup_cons]
      exact ⟨fun hmem => k.choose_not_mem _ _ (h.perm.mem_iff.mpr hmem), h.nodup⟩
    · rw [List.forall_mem_cons]
      exact ⟨k.choose_nonneg _ _, h.nonneg⟩
  · simp at hfd

lemma socket_refused (h : Keeps t fds) (hfd : (t.socket k).1 < 0) : Keeps (t.socket k).2 fds := by
  rw [Table.socket] at hfd ⊢
  split_ifs at hfd ⊢ with hgrants
  · exact absurd hfd (not_lt.mpr (k.choose_nonneg _ _))
  · exact ⟨h.perm, h.nodup, h.nonneg, h.misClosed⟩

/-- A descriptor that is in the books is taken out of them. -/
lemma close (h : Keeps t (fd :: fds)) : Keeps (t.close fd) fds where
  perm := by
    have herase := h.perm.erase fd
    rwa [List.erase_cons_head] at herase
  nodup := (List.nodup_cons.mp h.nodup).2
  nonneg := (List.forall_mem_cons.mp h.nonneg).2
  misClosed := by
    rw [Table.close, if_pos (h.perm.mem_iff.mpr List.mem_cons_self)]
    exact h.misClosed

end Keeps

end Descriptors
