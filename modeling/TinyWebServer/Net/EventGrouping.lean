import TinyWebServer.Net.Dispatch

/-!
# Which callbacks a batch of events runs

A descriptor can occur in a batch several times and with different masks. `ProcessBatch` runs at
most one callback of each kind for it, and none but the error callback when one of its events is
broken. The callbacks may throw: each call stands in a `try` block of its own.
-/

namespace TinyWebServer

universe u v

open Epoll BatchIoHandler EventLoop

namespace BatchIoHandler

/-- A mask with one of the bits at least. -/
def HasAny (events bits : UInt32) : Prop := events &&& bits ≠ 0

instance (events bits : UInt32) : Decidable (HasAny events bits) :=
  inferInstanceAs (Decidable (events &&& bits ≠ 0))

lemma hasAny_or {events bits bits' : UInt32} :
    HasAny events (bits ||| bits') ↔ HasAny events bits ∨ HasAny events bits' := by
  have hdistrib : events &&& (bits ||| bits') = events &&& bits ||| events &&& bits' := by
    rw [← UInt32.toBitVec_inj]
    exact BitVec.and_or_distrib_left
  rw [HasAny, hdistrib, Ne, UInt32.or_eq_zero_iff, not_and_or]
  rfl

/-- Some event of the descriptor has an error bit or no known bit. -/
def Broken (events : List EpollEvent) (fd : ℤ) : Prop :=
  ∃ e ∈ events, e.fd = fd ∧ (HasAny e.events (EPOLLERR ||| EPOLLHUP ||| EPOLLRDHUP) ∨
    ¬ HasAny e.events (EPOLLIN ||| EPOLLPRI ||| EPOLLOUT ||| EPOLLERR ||| EPOLLHUP ||| EPOLLRDHUP))

/-- Some event of the descriptor has an input bit. -/
def Readable (events : List EpollEvent) (fd : ℤ) : Prop :=
  ∃ e ∈ events, e.fd = fd ∧ (HasAny e.events EPOLLIN ∨ HasAny e.events EPOLLPRI)

/-- Some event of the descriptor has the output bit and no input bit. -/
def Writable (events : List EpollEvent) (fd : ℤ) : Prop :=
  ∃ e ∈ events, e.fd = fd ∧ HasAny e.events EPOLLOUT ∧ ¬ HasAny e.events EPOLLIN ∧
    ¬ HasAny e.events EPOLLPRI

instance (events : List EpollEvent) (fd : ℤ) : Decidable (Broken events fd) :=
  inferInstanceAs (Decidable (∃ e ∈ events, _))

instance (events : List EpollEvent) (fd : ℤ) : Decidable (Readable events fd) :=
  inferInstanceAs (Decidable (∃ e ∈ events, _))

instance (events : List EpollEvent) (fd : ℤ) : Decidable (Writable events fd) :=
  inferInstanceAs (Decidable (∃ e ∈ events, _))

/-! ### The three vectors -/

lemma isError_iff (events : UInt32) :
    isError events = true ↔ HasAny events (EPOLLERR ||| EPOLLHUP ||| EPOLLRDHUP) :=
  decide_eq_true_iff

lemma isReadable_iff (events : UInt32) :
    isReadable events = true ↔ HasAny events EPOLLIN ∨ HasAny events EPOLLPRI :=
  decide_eq_true_iff.trans hasAny_or

lemma isWritable_iff (events : UInt32) : isWritable events = true ↔ HasAny events EPOLLOUT :=
  decide_eq_true_iff

lemma mem_groupEvents_errors (events : List EpollEvent) (fd : ℤ) :
    fd ∈ (groupEvents events).2.2 ↔ Broken events fd := by
  have hmask : ∀ mask, (isError mask = true ∨ isReadable mask = false ∧ isWritable mask = false) ↔
      (HasAny mask (EPOLLERR ||| EPOLLHUP ||| EPOLLRDHUP) ∨ ¬ HasAny mask
        (EPOLLIN ||| EPOLLPRI ||| EPOLLOUT ||| EPOLLERR ||| EPOLLHUP ||| EPOLLRDHUP)) := by
    intro mask
    rw [← Bool.not_eq_true, ← Bool.not_eq_true, isError_iff, isReadable_iff, isWritable_iff]
    simp only [hasAny_or]
    tauto
  rw [groupEvents]
  dsimp only
  rw [mem_removeDuplicates, (mem_classify events fd).2.2]
  simp only [hmask]
  rfl

/-- An event of a descriptor that is not broken has no error bit. -/
lemma isError_of_not_broken {events : List EpollEvent} {fd : ℤ} (h : ¬ Broken events fd)
    {e : EpollEvent} (he : e ∈ events) (hfd : e.fd = fd) : isError e.events = false := by
  by_contra herror
  exact h ⟨e, he, hfd, Or.inl ((isError_iff _).mp (Bool.not_eq_false _ ▸ herror))⟩

lemma mem_groupEvents_readable (events : List EpollEvent) (fd : ℤ) :
    fd ∈ (groupEvents events).1 ↔ ¬ Broken events fd ∧ Readable events fd := by
  rw [← mem_groupEvents_errors, groupEvents]
  dsimp only
  rw [List.mem_filter, mem_removeDuplicates, (mem_classify events fd).1, decide_eq_true_iff,
    and_comm, and_congr_right_iff]
  intro hbroken
  have hnot : ¬ Broken events fd := by
    rwa [← mem_groupEvents_errors]
  simp only [isReadable_iff]
  constructor
  · rintro ⟨e, he, hfd, -, hread⟩
    exact ⟨e, he, hfd, hread⟩
  · rintro ⟨e, he, hfd, hread⟩
    exact ⟨e, he, hfd, isError_of_not_broken hnot he hfd, hread⟩

lemma mem_groupEvents_writable (events : List EpollEvent) (fd : ℤ) :
    fd ∈ (groupEvents events).2.1 ↔ ¬ Broken events fd ∧ Writable events fd := by
  rw [← mem_groupEvents_errors, groupEvents]
  dsimp only
  rw [List.mem_filter, mem_removeDuplicates, (mem_classify events fd).2.1, decide_eq_true_iff,
    and_comm, and_congr_right_iff]
  intro hbroken
  have hnot : ¬ Broken events fd := by
    rwa [← mem_groupEvents_errors]
  simp only [← Bool.not_eq_true, isReadable_iff, isWritable_iff, not_or]
  constructor
  · rintro ⟨e, he, hfd, -, ⟨hin, hpri⟩, hout⟩
    exact ⟨e, he, hfd, hout, hin, hpri⟩
  · rintro ⟨e, he, hfd, hout, hin, hpri⟩
    have herror := isError_of_not_broken hnot he hfd
    exact ⟨e, he, hfd, by simp [herror], ⟨hin, hpri⟩, hout⟩

end BatchIoHandler

/-! ### The calls of a batch -/

namespace EventLoop

/-- What an action does to the state. -/
def Action.run {σ : Type*} (h : Handlers σ) : Action → σ → σ
  | read fd => h.read fd
  | write fd => h.write fd
  | error fd => h.error fd

/-- Where the actions of a kind stand in a batch. -/
def Action.rank : Action → ℕ
  | read _ => 0
  | write _ => 1
  | error _ => 2

lemma pairwise_rank (readable writable errors : List ℤ) :
    (readable.map Action.read ++ writable.map Action.write ++ errors.map Action.error).Pairwise
      (fun a b => a.rank ≤ b.rank) := by
  have hconst : ∀ (act : ℤ → Action) (n : ℕ), (∀ fd, (act fd).rank = n) → ∀ fds : List ℤ,
      (fds.map act).Pairwise (fun a b => a.rank ≤ b.rank) := by
    intro act n hrank fds
    refine List.pairwise_map.mpr (List.pairwise_of_forall fun fd fd' => ?_)
    rw [hrank, hrank]
  rw [List.pairwise_append, List.pairwise_append]
  refine ⟨⟨hconst _ 0 (fun _ => rfl) _, hconst _ 1 (fun _ => rfl) _, ?_⟩,
    hconst _ 2 (fun _ => rfl) _, ?_⟩
  · simp only [List.mem_map]
    rintro a ⟨fd, -, rfl⟩ b ⟨fd', -, rfl⟩
    exact Nat.zero_le 1
  · simp only [List.mem_append, List.mem_map]
    rintro a (⟨fd, -, rfl⟩ | ⟨fd, -, rfl⟩) b ⟨fd', -, rfl⟩
    · exact Nat.zero_le 2
    · exact Nat.le_succ 1

end EventLoop

namespace BatchIoHandler

/-- A call in a `try` block: whatever it throws is logged, and the state is as the call left it. -/
def guarded {ε σ : Type*} (callback : ℤ → σ → Except ε Unit × σ) (fd : ℤ) (s : σ) : σ :=
  match callback fd s with
  | (.ok (), s) => s
  | (.error _, s) => s

/-- The calls of `ProcessBatch`, whatever the callbacks do: each broken descriptor is handed to the
error callback and to no other, each other one to the read and the write callback as its events
say, never twice to the same, and the kinds follow one after the other. -/
theorem processBatch_calls (events : List EpollEvent) :
    ∃ calls : List Action,
      (∀ (ε : Type u) (σ : Type v) (read write error : ℤ → σ → Except ε Unit × σ) (s : σ),
        (processBatch events (some (guarded read)) (some (guarded write))
            (some (guarded error)) s).2 =
          calls.foldl (fun s call => call.run ⟨guarded read, guarded write, guarded error⟩ s) s) ∧
      (∀ fd, calls.count (.error fd) = if Broken events fd then 1 else 0) ∧
      (∀ fd, calls.count (.read fd) =
        if ¬ Broken events fd ∧ Readable events fd then 1 else 0) ∧
      (∀ fd, calls.count (.write fd) =
        if ¬ Broken events fd ∧ Writable events fd then 1 else 0) ∧
      calls.Pairwise (fun a b => a.rank ≤ b.rank) := by
  obtain ⟨hreadable, hwritable, herrors⟩ := nodup_groupEvents events
  have hnodup := nodup_actions hreadable hwritable herrors
  refine ⟨_, fun ε σ read write error s => ?_, fun fd => ?_, fun fd => ?_, fun fd => ?_,
    pairwise_rank (groupEvents events).1 (groupEvents events).2.1 (groupEvents events).2.2⟩
  · rw [processBatch_some, List.foldl_append, List.foldl_append, List.foldl_map, List.foldl_map,
      List.foldl_map]
    rfl
  · rw [hnodup.count]
    exact if_congr (by simp [mem_groupEvents_errors]) rfl rfl
  · rw [hnodup.count]
    exact if_congr (by simp [mem_groupEvents_readable]) rfl rfl
  · rw [hnodup.count]
    exact if_congr (by simp [mem_groupEvents_writable]) rfl rfl

/-- A descriptor that is readable in one event and writable in another is handed to both
callbacks, and one with a hangup among its events to neither. -/
example :
    let events : List EpollEvent := [⟨7, EPOLLOUT⟩, ⟨7, EPOLLIN⟩, ⟨4, EPOLLIN⟩, ⟨4, EPOLLHUP⟩]
    groupEvents events = ([7], [7], [4]) := by
  decide

end BatchIoHandler

end TinyWebServer
