import TinyWebServer.Http.StaticResource

/-!
# The output buffer

A queue of strings and mapped files with the offset up to which each was sent. `held` is what the
queue is for: the bytes that are still to be sent, in order.
-/

namespace TinyWebServer

/-- What a node of the queue holds. -/
inductive NodeData where
  | string (data : Bytes)
  | mmap (resource : StaticResource)
  deriving DecidableEq

def NodeData.bytes : NodeData → Bytes
  | .string data => data
  | .mmap resource => resource.content

structure BufferNode where
  data : NodeData
  offset : ℕ
  deriving DecidableEq

namespace BufferNode

def leftSize (node : BufferNode) : ℕ := node.data.bytes.length - node.offset

/-- The bytes from the current pointer on. -/
def unsent (node : BufferNode) : Bytes := node.data.bytes.drop node.offset

@[simp] lemma length_unsent (node : BufferNode) : node.unsent.length = node.leftSize :=
  List.length_drop

end BufferNode

structure BufferChain where
  bufferQueue : List BufferNode
  /-- The `size_t` as a number: a connection looks at its limit before it appends. -/
  totalBytes : ℕ
  deriving DecidableEq

namespace BufferChain

def empty : BufferChain := ⟨[], 0⟩

/-- Both overloads of `Append`; nothing is appended for an empty string or file. -/
def append (chain : BufferChain) (data : NodeData) : BufferChain :=
  if data.bytes = [] then chain
  else ⟨chain.bufferQueue ++ [⟨data, 0⟩], chain.totalBytes + data.bytes.length⟩

def isEmpty (chain : BufferChain) : Prop := chain.bufferQueue = []

instance (chain : BufferChain) : Decidable chain.isEmpty :=
  inferInstanceAs (Decidable (chain.bufferQueue = []))

/-- The loop of `GetIov`: at most `maxCount` nodes with bytes left. -/
def fillIov : ℕ → List BufferNode → List Bytes
  | 0, _ => []
  | _, [] => []
  | count + 1, node :: nodes =>
    if 0 < node.leftSize then node.unsent :: fillIov count nodes
    else fillIov (count + 1) nodes

def getIov (chain : BufferChain) (maxCount : ℕ) : List Bytes := fillIov maxCount chain.bufferQueue

/-- The loop of `Advance`. -/
def popSent : ℕ → List BufferNode → List BufferNode
  | _, [] => []
  | len, node :: nodes =>
    if len = 0 then node :: nodes
    else if node.leftSize ≤ len then popSent (len - node.leftSize) nodes
    else { node with offset := node.offset + len } :: nodes

def advance (chain : BufferChain) (len : ℕ) : BufferChain :=
  if chain.totalBytes < len then empty
  else ⟨popSent len chain.bufferQueue, chain.totalBytes - len⟩

/-! ### The bytes still to be sent -/

def heldBy (nodes : List BufferNode) : Bytes := nodes.flatMap BufferNode.unsent

def held (chain : BufferChain) : Bytes := heldBy chain.bufferQueue

/-- The counter is right and no node is used up. -/
structure Inv (chain : BufferChain) : Prop where
  totalBytes_eq : chain.totalBytes = chain.held.length
  leftSize_pos : ∀ node ∈ chain.bufferQueue, 0 < node.leftSize

lemma inv_empty : empty.Inv := ⟨rfl, fun _ h => nomatch h⟩

lemma heldBy_popSent (len : ℕ) (nodes : List BufferNode) :
    heldBy (popSent len nodes) = (heldBy nodes).drop len := by
  induction nodes generalizing len with
  | nil => simp [popSent, heldBy]
  | cons node nodes ih =>
    have hcons : heldBy (node :: nodes) = node.unsent ++ heldBy nodes := rfl
    rw [popSent]
    split_ifs with hzero hleft
    · simp [hzero]
    · have hgone : node.unsent.drop len = [] :=
        List.drop_eq_nil_of_le (by rwa [node.length_unsent])
      rw [ih, hcons, List.drop_append, node.length_unsent, hgone, List.nil_append]
    · rw [hcons, List.drop_append_of_le_length (by rw [node.length_unsent]; omega)]
      simp [heldBy, BufferNode.unsent, List.drop_drop]

lemma leftSize_pos_popSent {len : ℕ} {nodes : List BufferNode}
    (h : ∀ node ∈ nodes, 0 < node.leftSize) : ∀ node ∈ popSent len nodes, 0 < node.leftSize := by
  induction nodes generalizing len with
  | nil => simp [popSent]
  | cons node nodes ih =>
    have hrest : ∀ node ∈ nodes, 0 < node.leftSize :=
      fun n hn => h n (List.mem_cons_of_mem _ hn)
    rw [popSent]
    split_ifs with hzero hleft
    · exact h
    · exact ih hrest
    · intro n hn
      rcases List.mem_cons.mp hn with rfl | hn
      · simp only [BufferNode.leftSize] at hleft ⊢
        omega
      · exact hrest n hn

/-- The entries of the vector are the front of what is held. -/
lemma flatten_fillIov_prefix (count : ℕ) (nodes : List BufferNode) :
    (fillIov count nodes).flatten <+: heldBy nodes := by
  induction nodes generalizing count with
  | nil => cases count <;> simp [fillIov]
  | cons node nodes ih =>
    cases count with
    | zero => simp [fillIov]
    | succ count =>
      have hcons : heldBy (node :: nodes) = node.unsent ++ heldBy nodes := rfl
      rw [fillIov, hcons]
      split_ifs with hleft
      · rw [List.flatten_cons]
        exact (List.prefix_append_right_inj _).mpr (ih count)
      · have hnil : node.unsent = [] :=
          List.eq_nil_of_length_eq_zero (by rw [node.length_unsent]; omega)
        rw [hnil, List.nil_append]
        exact ih (count + 1)

variable {chain : BufferChain}

lemma held_append (chain : BufferChain) (data : NodeData) :
    (chain.append data).held = chain.held ++ data.bytes := by
  rw [append]
  split_ifs with hnil
  · simp [hnil]
  · simp [held, heldBy, BufferNode.unsent]

lemma Inv.append (h : chain.Inv) (data : NodeData) : (chain.append data).Inv := by
  constructor
  · rw [held_append, List.length_append, ← h.totalBytes_eq, BufferChain.append]
    split_ifs with hnil
    · simp [hnil]
    · rfl
  · rw [BufferChain.append]
    split_ifs with hnil
    · exact h.leftSize_pos
    · intro node hnode
      rcases List.mem_append.mp hnode with hnode | hnode
      · exact h.leftSize_pos node hnode
      · rw [List.mem_singleton.mp hnode]
        simpa [BufferNode.leftSize] using List.length_pos_of_ne_nil hnil

lemma Inv.held_advance (h : chain.Inv) {len : ℕ} (hlen : len ≤ chain.held.length) :
    (chain.advance len).held = chain.held.drop len := by
  rw [advance, if_neg (by rw [h.totalBytes_eq]; omega)]
  exact heldBy_popSent len chain.bufferQueue

lemma Inv.advance (h : chain.Inv) {len : ℕ} (hlen : len ≤ chain.held.length) :
    (chain.advance len).Inv := by
  constructor
  · rw [h.held_advance hlen, List.length_drop, ← h.totalBytes_eq, BufferChain.advance,
      if_neg (by rw [h.totalBytes_eq]; omega)]
  · rw [BufferChain.advance, if_neg (by rw [h.totalBytes_eq]; omega)]
    exact leftSize_pos_popSent h.leftSize_pos

lemma Inv.isEmpty_iff (h : chain.Inv) : chain.isEmpty ↔ chain.held = [] := by
  constructor
  · intro hempty
    rw [held, show chain.bufferQueue = [] from hempty]
    rfl
  · intro hheld
    rw [isEmpty]
    cases hqueue : chain.bufferQueue with
    | nil => rfl
    | cons node nodes =>
      have hpos := h.leftSize_pos node (by simp [hqueue])
      rw [held, hqueue] at hheld
      have hnil : node.unsent = [] := (List.append_eq_nil_iff.mp hheld).1
      rw [← node.length_unsent, hnil] at hpos
      exact absurd hpos (lt_irrefl 0)

lemma getIov_prefix (chain : BufferChain) (maxCount : ℕ) :
    (chain.getIov maxCount).flatten <+: chain.held :=
  flatten_fillIov_prefix maxCount chain.bufferQueue

lemma fillIov_ne_nil {nodes : List BufferNode} {node : BufferNode} (hnode : node ∈ nodes)
    (hleft : 0 < node.leftSize) (count : ℕ) : fillIov (count + 1) nodes ≠ [] := by
  induction nodes with
  | nil => cases hnode
  | cons first nodes ih =>
    rw [fillIov]
    split_ifs with hfirst
    · exact List.cons_ne_nil _ _
    · rcases List.mem_cons.mp hnode with rfl | hnode
      · exact absurd hleft hfirst
      · exact ih hnode

/-- What has just been appended is offered, if nothing else is. -/
lemma getIov_append_ne_nil (chain : BufferChain) {data : NodeData} (h : data.bytes ≠ [])
    (count : ℕ) : (chain.append data).getIov (count + 1) ≠ [] := by
  rw [append, if_neg h]
  refine fillIov_ne_nil (List.mem_append_right _ (List.mem_singleton_self _)) ?_ count
  exact List.length_pos_of_ne_nil h

/-- Something is offered whenever something is held. -/
lemma Inv.getIov_eq_nil_iff (h : chain.Inv) {maxCount : ℕ} (hpos : 0 < maxCount) :
    chain.getIov maxCount = [] ↔ chain.held = [] := by
  rw [← h.isEmpty_iff, isEmpty, getIov]
  obtain ⟨count, rfl⟩ := Nat.exists_eq_succ_of_ne_zero hpos.ne'
  cases hqueue : chain.bufferQueue with
  | nil => simp [fillIov]
  | cons node nodes =>
    have hleft := h.leftSize_pos node (by simp [hqueue])
    simp [fillIov, hleft]

end BufferChain

end TinyWebServer
