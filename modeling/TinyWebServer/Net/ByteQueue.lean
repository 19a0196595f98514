import TinyWebServer.Net.BufferChain

/-!
# The output buffer is a byte queue

Any sequence of calls leaves a buffer whose nodes all have bytes left and whose counter is right as
far as a `size_t` holds it. Seen from outside it is a queue of bytes: what is appended goes to the
end, what was sent goes from the front, and the entries for the kernel are the front nodes as they
stand.
-/

namespace TinyWebServer

namespace BufferChain

/-- What a `size_t` holds of a number. -/
def sizeT (n : ℕ) : ℕ := n % 2 ^ 64

/-- `Append` with the counter as it is declared. -/
def appendSizeT (chain : BufferChain) (data : NodeData) : BufferChain :=
  { chain.append data with totalBytes := sizeT (chain.append data).totalBytes }

/-- `Clear`. -/
def clear (_ : BufferChain) : BufferChain := empty

/-- The calls a buffer takes; a resource comes as a pointer that may be null. -/
inductive Call where
  | appendString (data : Bytes)
  | appendResource (resource : Option StaticResource)
  | getIov (maxCount : ℕ)
  | advance (len : ℕ)
  | clear

/-- The buffer after a call; `GetIov` only reads it. -/
def after (chain : BufferChain) : Call → BufferChain
  | .appendString data => chain.appendSizeT (.string data)
  | .appendResource none => chain
  | .appendResource (some resource) => chain.appendSizeT (.mmap resource)
  | .getIov _ => chain
  | .advance len => chain.advance len
  | .clear => chain.clear

/-- A new buffer after a sequence of calls. -/
def run (calls : List Call) : BufferChain := calls.foldl after empty

/-! ### The queue the buffer stands for -/

/-- The bytes a call adds to the end. -/
def Call.added : Call → Bytes
  | .appendString data => data
  | .appendResource (some resource) => resource.content
  | _ => []

/-- The number of bytes a call takes from the front of a queue of this length: all of them for an
`Advance` by more than the counter says. -/
def Call.taken (length : ℕ) : Call → ℕ
  | .advance len => if len ≤ sizeT length then len else length
  | .clear => length
  | _ => 0

/-- What a queue of bytes becomes. -/
def queueAfter (queue : Bytes) (call : Call) : Bytes :=
  queue.drop (call.taken queue.length) ++ call.added

/-- What a sequence of calls makes of the empty queue. -/
def queued (calls : List Call) : Bytes := calls.foldl queueAfter []

/-- The buffer behaves as a queue that holds `held`. -/
structure IsByteQueue (chain : BufferChain) : Prop where
  leftSize_pos : ∀ node ∈ chain.bufferQueue, 0 < node.leftSize
  totalBytes_eq : chain.totalBytes = sizeT chain.held.length
  isEmpty_iff : chain.isEmpty ↔ chain.held = []
  held_append : ∀ data, (chain.appendSizeT data).held = chain.held ++ data.bytes
  getIov_eq : ∀ maxCount,
    chain.getIov maxCount = (chain.bufferQueue.take maxCount).map BufferNode.unsent
  length_getIov : ∀ maxCount,
    (chain.getIov maxCount).length = min maxCount chain.bufferQueue.length
  getIov_isPrefix : ∀ maxCount, (chain.getIov maxCount).flatten <+: chain.held
  advance_of_le : ∀ len ≤ chain.totalBytes, (chain.advance len).held = chain.held.drop len
  advance_of_lt : ∀ len, chain.totalBytes < len → chain.advance len = empty

/-! ### One call -/

/-- While no node is used up, the loop of `GetIov` passes over none. -/
lemma fillIov_eq_take {nodes : List BufferNode} (h : ∀ node ∈ nodes, 0 < node.leftSize)
    (count : ℕ) : fillIov count nodes = (nodes.take count).map BufferNode.unsent := by
  induction nodes generalizing count with
  | nil => cases count <;> rfl
  | cons node nodes ih =>
    rw [List.forall_mem_cons] at h
    cases count with
    | zero => rfl
    | succ count => rw [fillIov, if_pos h.1, ih h.2, List.take_succ_cons, List.map_cons]

lemma held_empty : empty.held = [] := rfl

variable {chain : BufferChain}

/-- The counter is right as far as a `size_t` holds it, and no node is used up. -/
structure Sized (chain : BufferChain) : Prop where
  totalBytes_eq : chain.totalBytes = sizeT chain.held.length
  leftSize_pos : ∀ node ∈ chain.bufferQueue, 0 < node.leftSize

lemma sized_empty : empty.Sized := ⟨rfl, inv_empty.leftSize_pos⟩

/-- With the whole length for its counter the buffer would be as a connection keeps it. -/
lemma Sized.inv (h : chain.Sized) : Inv { chain with totalBytes := chain.held.length } :=
  ⟨rfl, h.leftSize_pos⟩

lemma held_appendSizeT (chain : BufferChain) (data : NodeData) :
    (chain.appendSizeT data).held = chain.held ++ data.bytes :=
  chain.held_append data

lemma Sized.append (h : chain.Sized) (data : NodeData) : (chain.appendSizeT data).Sized where
  totalBytes_eq := by
    have htotal : (chain.append data).totalBytes = chain.totalBytes + data.bytes.length := by
      rw [BufferChain.append]
      split_ifs with hnil
      · rw [hnil, List.length_nil, Nat.add_zero]
      · rfl
    rw [held_appendSizeT, List.length_append, appendSizeT]
    dsimp only
    rw [htotal, h.totalBytes_eq, sizeT, sizeT, Nat.mod_add_mod, sizeT]
  leftSize_pos := by
    have hqueue : (chain.appendSizeT data).bufferQueue =
        (({ chain with totalBytes := chain.held.length } : BufferChain).append data).bufferQueue := by
      rw [appendSizeT, BufferChain.append, BufferChain.append]
      split_ifs <;> rfl
    rw [hqueue]
    exact (h.inv.append data).leftSize_pos

lemma Sized.advance_of_counted (h : chain.Sized) {len : ℕ} (hlen : len ≤ chain.totalBytes) :
    (chain.advance len).held = chain.held.drop len ∧ (chain.advance len).Sized := by
  have hheld : (chain.advance len).held = chain.held.drop len := by
    rw [advance, if_neg (Nat.not_lt.mpr hlen)]
    exact heldBy_popSent len chain.bufferQueue
  refine ⟨hheld, ?_, ?_⟩
  · have htotal := h.totalBytes_eq
    rw [hheld, List.length_drop, advance, if_neg (Nat.not_lt.mpr hlen)]
    simp only [sizeT] at htotal ⊢
    omega
  · rw [advance, if_neg (Nat.not_lt.mpr hlen)]
    exact leftSize_pos_popSent h.leftSize_pos

lemma Sized.advance (h : chain.Sized) (len : ℕ) :
    (chain.advance len).held = chain.held.drop ((Call.advance len).taken chain.held.length) ∧
      (chain.advance len).Sized := by
  rw [Call.taken, ← h.totalBytes_eq]
  split_ifs with hlen
  · exact h.advance_of_counted hlen
  · rw [BufferChain.advance, if_pos (Nat.not_le.mp hlen), List.drop_length]
    exact ⟨held_empty, sized_empty⟩

lemma Sized.after (h : chain.Sized) (call : Call) : (chain.after call).Sized := by
  cases call with
  | appendString data => exact h.append _
  | appendResource resource =>
    cases resource with
    | none => exact h
    | some resource => exact h.append _
  | getIov maxCount => exact h
  | advance len => exact (h.advance len).2
  | clear => exact sized_empty

/-- A call does to the bytes held what it does to a queue. -/
lemma Sized.held_after (h : chain.Sized) (call : Call) :
    (chain.after call).held = queueAfter chain.held call := by
  cases call with
  | appendString data => exact held_appendSizeT chain _
  | appendResource resource =>
    cases resource with
    | none => simp [BufferChain.after, queueAfter, Call.taken, Call.added]
    | some resource => exact held_appendSizeT chain _
  | getIov maxCount => simp [BufferChain.after, queueAfter, Call.taken, Call.added]
  | advance len =>
    simp only [BufferChain.after, queueAfter, Call.added, List.append_nil]
    exact (h.advance len).1
  | clear => simp [BufferChain.after, BufferChain.clear, queueAfter, Call.taken, Call.added,
      held_empty]

lemma Sized.isByteQueue (h : chain.Sized) : chain.IsByteQueue where
  leftSize_pos := h.leftSize_pos
  totalBytes_eq := h.totalBytes_eq
  isEmpty_iff := h.inv.isEmpty_iff
  held_append := held_appendSizeT chain
  getIov_eq := fillIov_eq_take h.leftSize_pos
  length_getIov := fun maxCount => by
    rw [getIov, fillIov_eq_take h.leftSize_pos, List.length_map, List.length_take]
  getIov_isPrefix := getIov_prefix chain
  advance_of_le := fun len hlen => (h.advance_of_counted hlen).1
  advance_of_lt := fun len hlen => if_pos hlen

/-- As long as the bytes can be counted, which the limit of a connection sees to, the counter is
the number that a connection is modelled with. -/
theorem appendSizeT_eq_append (h : chain.Inv) {data : NodeData}
    (hlt : chain.held.length + data.bytes.length < 2 ^ 64) :
    chain.appendSizeT data = chain.append data := by
  have htotal : (chain.append data).totalBytes < 2 ^ 64 := by
    rwa [(h.append data).totalBytes_eq, BufferChain.held_append, List.length_append]
  rw [appendSizeT, sizeT, Nat.mod_eq_of_lt htotal]

/-! ### Any sequence of calls -/

lemma sized_foldl_after (calls : List Call) (h : chain.Sized) : (calls.foldl after chain).Sized := by
  induction calls generalizing chain with
  | nil => exact h
  | cons call calls ih => exact ih (h.after call)

lemma held_foldl_after (calls : List Call) (h : chain.Sized) :
    (calls.foldl after chain).held = calls.foldl queueAfter chain.held := by
  induction calls generalizing chain with
  | nil => rfl
  | cons call calls ih => rw [List.foldl_cons, List.foldl_cons, ih (h.after call), h.held_after]

/-- After any calls the buffer is a byte queue, and it holds what the calls make of an empty
queue. -/
theorem isByteQueue_run (calls : List Call) :
    (run calls).IsByteQueue ∧ (run calls).held = queued calls :=
  ⟨(sized_foldl_after calls sized_empty).isByteQueue, held_foldl_after calls sized_empty⟩

/-! ### More bytes than can be counted -/

lemma length_queued_replicate (resource : StaticResource) (n : ℕ) (queue : Bytes) :
    ((List.replicate n (Call.appendResource (some resource))).foldl queueAfter queue).length =
      queue.length + n * resource.content.length := by
  induction n generalizing queue with
  | zero => simp
  | succ n ih =>
    rw [List.replicate_succ, List.foldl_cons, ih]
    simp only [queueAfter, Call.taken, Call.added, List.drop_zero, List.length_append]
    ring

/-- A file of 64 tebibytes. -/
def hugeResource : StaticResource := ⟨List.replicate (2 ^ 46) 0, bytes "huge.bin"⟩

/-- The file is queued so often that the counter comes back to zero. -/
def flood : List Call := List.replicate (2 ^ 18) (.appendResource (some hugeResource))

theorem totalBytes_flood :
    (run flood).totalBytes = 0 ∧ (run flood).held.length = 2 ^ 64 ∧ ¬ (run flood).isEmpty := by
  have hsized : (run flood).Sized := sized_foldl_after flood sized_empty
  have hlength : (run flood).held.length = 2 ^ 64 := by
    have hcontent : hugeResource.content.length = 2 ^ 46 := List.length_replicate
    rw [run, held_foldl_after flood sized_empty, flood, length_queued_replicate, hcontent,
      held_empty]
    norm_num
  refine ⟨?_, hlength, ?_⟩
  · rw [hsized.totalBytes_eq, hlength, sizeT, Nat.mod_self]
  · intro hempty
    rw [hsized.isByteQueue.isEmpty_iff.mp hempty, List.length_nil] at hlength
    exact absurd hlength (by norm_num)

end BufferChain

end TinyWebServer
