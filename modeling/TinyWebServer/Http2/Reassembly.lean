import TinyWebServer.Http2.FrameLoop

/-!
# Reassembly of the HTTP/2 byte stream

Past the preface the way the bytes are cut into calls does not matter. The preface itself is only
taken off correctly when no call ends inside it.
-/

namespace TinyWebServer

open ParseLoop

namespace H2Connection

/-! ### Chunks past the preface -/

/-- A nine-byte header and as many bytes as its length field says. -/
def IsFrame (frame : Bytes) : Prop :=
  9 ≤ frame.length ∧ frame.length = 9 + H2FrameParser.bigEndian (frame.take 3)

/-- The bytes are a frame of which the end is still missing. -/
def StrictFramePrefix (buffer : Bytes) : Prop := ∃ tail, tail ≠ [] ∧ IsFrame (buffer ++ tail)

lemma strictFramePrefix_of_wait {c : H2Connection} {buffer : Bytes}
    (h : c.frameTurn buffer = .wait) : StrictFramePrefix buffer := by
  rw [frameTurn] at h
  by_cases hnine : buffer.length < 9
  · let zeros : Bytes := List.replicate (9 - buffer.length) 0
    let payload : Bytes := List.replicate (H2FrameParser.bigEndian ((buffer ++ zeros).take 3)) 0
    have hhead : (buffer ++ zeros).length = 9 := by
      simp only [zeros, List.length_append, List.length_replicate]
      omega
    refine ⟨zeros ++ payload, ?_, ?_⟩
    · intro hnil
      have hzeros := congrArg List.length (List.append_eq_nil_iff.mp hnil).1
      simp only [zeros, List.length_replicate, List.length_nil] at hzeros
      omega
    · rw [IsFrame, ← List.append_assoc, List.take_append_of_le_length (by omega),
        List.length_append, hhead, List.length_replicate]
      omega
  · rw [if_neg hnine] at h
    cases hheader : H2FrameParser.parseHeader buffer with
    | none => simp [hheader] at h
    | some header =>
      rw [hheader] at h
      dsimp only at h
      by_cases hsize : buffer.length < header.frameSize
      · have hlength := H2FrameParser.length_of_parseHeader hheader
        rw [H2FrameHeader.frameSize] at hsize
        refine ⟨List.replicate (9 + header.length.toNat - buffer.length) 0, ?_, ?_⟩
        · intro hnil
          have := congrArg List.length hnil
          simp only [List.length_replicate, List.length_nil] at this
          omega
        · rw [IsFrame, List.take_append_of_le_length (by omega), List.length_append,
            List.length_replicate, ← hlength]
          omega
      · rw [if_neg hsize] at h
        split_ifs at h

lemma not_isSuccess_of_fail {c : H2Connection} {buffer : Bytes} {e : Error}
    (h : c.frameTurn buffer = .fail e) : ¬ e.isSuccess := by
  rw [frameTurn] at h
  split_ifs at h
  split at h
  · cases h
    exact Error.not_isSuccess_kProtocolError _
  · dsimp only at h
    split_ifs at h with hsize hfail
    cases h
    exact hfail

lemma strictFramePrefix_of_isSuccess {o : Outcome H2Connection UInt8 Error} {data : Bytes}
    (h : ((frameLoop.feed o data).error.getD .success).isSuccess) :
    StrictFramePrefix (frameLoop.feed o data).rest := by
  have hturn := frameLoop.turn_drain o.state (o.rest ++ data)
  change ((frameLoop.drain o.state (o.rest ++ data)).error.getD .success).isSuccess at h
  cases herror : (frameLoop.drain o.state (o.rest ++ data)).error with
  | none =>
    rw [herror] at hturn
    exact strictFramePrefix_of_wait hturn
  | some e =>
    rw [herror] at hturn h
    exact absurd h (not_isSuccess_of_fail hturn)

/-- Calls on the chunks end as one call on their concatenation does, and a call that succeeds
leaves a strict prefix of one frame in the buffer. -/
theorem processChunks_eq_processData {c : H2Connection} (hc : c.Ready) {chunks : List Bytes}
    (hne : chunks ≠ []) :
    ∃ err c', c.processData chunks.flatten = some (err, c') ∧
      c.processChunks chunks = some (err, c') ∧
      (err.isSuccess → StrictFramePrefix c'.readBuffer) := by
  have hread : c.readData chunks.flatten = ofOutcome
      (frameLoop.feed c.toOutcome chunks.flatten) (c.received ++ chunks.flatten) :=
    readData_ofOutcome c.toOutcome c.received chunks.flatten hc
  refine ⟨(c.readData chunks.flatten).1, (c.readData chunks.flatten).2,
    processData_of_ready hc _, ?_, ?_⟩
  · rw [processChunks_of_ready hc, frameLoop.foldl_feed _ hne, hread]
  · rw [hread]
    exact strictFramePrefix_of_isSuccess

/-- A PING cut inside its header, then its payload and the start of a SETTINGS frame. -/
theorem processChunks_ping :
    let c := { (new 3 true).setFrameCallback with state := .H2_OPEN, prefaceRemaining := 0 }
    let chunks : List Bytes :=
      [[0, 0, 8, 6], [0, 0, 0, 0, 0, 1, 2, 3], [4, 5, 6, 7, 8, 0, 0, 6, 4]]
    ∃ err c', c.processData chunks.flatten = some (err, c') ∧
      c.processChunks chunks = some (err, c') ∧
      (err.isSuccess → StrictFramePrefix c'.readBuffer) :=
  processChunks_eq_processData ⟨by decide, by decide, rfl⟩ (by decide)

/-! ### Chunks of the preface -/

/-- A new server connection with a frame callback. -/
def server (fd : ℤ) : H2Connection := (new fd true).setFrameCallback

/-- The server when it has seen the first `n` bytes of the preface. -/
def waiting (fd : ℤ) (n : ℕ) : H2Connection :=
  { server fd with prefaceRemaining := clientPrefaceLen - n }

/-- The server when it has seen the preface and sent its settings. -/
def opened (fd : ℤ) : H2Connection :=
  { server fd with
    state := .H2_OPEN
    prefaceRemaining := 0
    emitted := [(⟨36, 4, 0, 0, 0⟩, settingsPayload (initialSettings .default))] }

/-- The calls end as one call on all bytes does: the preface is taken off once, the server opens
and sends its settings once, and the frame loop sees all of `rest` and nothing else. -/
def Reassembles (fd : ℤ) (rest : Bytes) (chunks : List Bytes) : Prop :=
  (server fd).processChunks chunks = (server fd).processData (clientPreface ++ rest) ∧
    (server fd).processChunks chunks = some ((opened fd).readData rest)

/-- The first chunk that is not empty holds the whole preface. -/
def PrefaceInOneChunk (chunks : List Bytes) : Prop :=
  ∀ chunk ∈ chunks.find? (· ≠ []), clientPrefaceLen ≤ chunk.length

lemma length_clientPreface : clientPreface.length = clientPrefaceLen := by decide

lemma ready_opened (fd : ℤ) : (opened fd).Ready := ⟨by simp [isClosed, opened], by simp [opened], rfl⟩

lemma processPreface_waiting {fd : ℤ} {n : ℕ} {data more rest : Bytes} (hn : n < clientPrefaceLen)
    (h : data ++ more = clientPreface.drop n ++ rest) :
    (waiting fd n).processPreface data =
      (true, if data.length < clientPrefaceLen - n then waiting fd (n + data.length)
        else opened fd) := by
  have hrem : (waiting fd n).prefaceRemaining = clientPrefaceLen - n := rfl
  have hmatch : data.take (min data.length (clientPrefaceLen - n)) =
      (clientPreface.drop n).take (min data.length (clientPrefaceLen - n)) := by
    have := congrArg (List.take (min data.length (clientPrefaceLen - n))) h
    rw [List.take_append_of_le_length (min_le_left _ _), List.take_append_of_le_length] at this
    · exact this
    · rw [List.length_drop, length_clientPreface]
      exact min_le_right _ _
  have hdrop : clientPrefaceLen - (clientPrefaceLen - n) = n := by omega
  rw [processPreface, hrem, if_neg (by omega)]
  dsimp only
  rw [hdrop, if_neg (not_not.mpr hmatch)]
  by_cases hlt : data.length < clientPrefaceLen - n
  · rw [if_neg (by omega), if_pos hlt, min_eq_left (by omega),
      show clientPrefaceLen - n - data.length = clientPrefaceLen - (n + data.length) by omega]
    rfl
  · have hready : Ready { waiting fd n with state := .H2_OPEN, prefaceRemaining := 0 } :=
      ⟨by simp [isClosed], by simp, rfl⟩
    have hallowed : H2FrameParser.lengthAllowed
        (BitVec.ofNat 24 (settingsPayload (initialSettings .default)).length).toNat
        (some .settings) := by rfl
    have hsend := sendFrame_of_ready hready .settings 0 0 hallowed
    rw [min_eq_right (by omega), if_pos (by omega), if_neg hlt, Nat.sub_self]
    exact congrArg (fun result => (true, result.2)) hsend

lemma processData_waiting (fd : ℤ) {n : ℕ} {data more rest : Bytes} (hn : n < clientPrefaceLen)
    (h : data ++ more = clientPreface.drop n ++ rest) :
    (waiting fd n).processData data =
      if data.length < clientPrefaceLen - n then
        if n = 0 then some (.success, waiting fd data.length) else none
      else if data.length < clientPrefaceLen then none
      else some ((opened fd).readData (data.drop clientPrefaceLen)) := by
  rw [processData, if_neg (by simp [isClosed, waiting, server, new, setFrameCallback]),
    if_pos ⟨rfl, rfl⟩, processPreface_waiting hn h]
  dsimp only
  rw [if_neg (by simp)]
  by_cases hlt : data.length < clientPrefaceLen - n
  · have hconsumed : clientPrefaceLen - (waiting fd (n + data.length)).prefaceRemaining =
        n + data.length := by
      change clientPrefaceLen - (clientPrefaceLen - (n + data.length)) = _
      omega
    rw [if_pos hlt, if_pos hlt, hconsumed]
    by_cases hzero : n = 0
    · subst hzero
      rw [if_neg (by omega), if_pos rfl, Nat.zero_add, List.drop_length]
      rfl
    · rw [if_pos (by omega), if_neg hzero]
  · rw [if_neg hlt, if_neg hlt]
    rfl

lemma processChunks_cons {c : H2Connection} {chunk : Bytes} {result : Error × H2Connection}
    (chunks : List Bytes) (h : c.processData chunk = some result) :
    c.processChunks (chunk :: chunks) =
      chunks.foldlM (fun result chunk => result.2.processData chunk) result := by
  rw [processChunks, List.foldlM_cons, h]
  rfl

/-- Once the server is open, the chunks behind the preface are read as they come. -/
lemma foldlM_opened (fd : ℤ) (data : Bytes) (chunks : List Bytes) :
    chunks.foldlM (fun result chunk => result.2.processData chunk) ((opened fd).readData data) =
      some ((opened fd).readData (data ++ chunks.flatten)) := by
  have hfirst : (opened fd).readData data =
      ofOutcome (frameLoop.feed (opened fd).toOutcome data) data :=
    readData_ofOutcome (opened fd).toOutcome [] data (ready_opened fd)
  have hall : (opened fd).readData (data ++ chunks.flatten) =
      ofOutcome (frameLoop.feed (opened fd).toOutcome (data ++ chunks.flatten))
        (data ++ chunks.flatten) :=
    readData_ofOutcome (opened fd).toOutcome [] (data ++ chunks.flatten) (ready_opened fd)
  rw [hfirst, foldlM_processData _ _ (ready_feed (ready_opened fd) data), hall,
    ← List.flatten_cons, ← frameLoop.foldl_feed _ (List.cons_ne_nil data chunks), List.foldl_cons]

lemma received_opened_readData (fd : ℤ) (data : Bytes) :
    ((opened fd).readData data).2.received = data := by
  have hread : (opened fd).readData data =
      ofOutcome (frameLoop.feed (opened fd).toOutcome data) data :=
    readData_ofOutcome (opened fd).toOutcome [] data (ready_opened fd)
  rw [hread]
  rfl

/-- One call with the whole preface in front. -/
lemma processData_server (fd : ℤ) (rest : Bytes) :
    (server fd).processData (clientPreface ++ rest) = some ((opened fd).readData rest) := by
  have hall : clientPreface ++ rest ++ [] = clientPreface.drop 0 ++ rest := by simp
  have h := processData_waiting fd (n := 0) (by decide) hall
  have hlen : clientPrefaceLen ≤ (clientPreface ++ rest).length := by
    rw [List.length_append, length_clientPreface]
    omega
  rw [if_neg (by omega), if_neg (by omega), ← length_clientPreface, List.drop_left] at h
  exact h

/-- A first chunk that ends inside the preface is fatal: the next call counts its bytes again, so
that either the remaining length goes below zero or as many bytes of `rest` are skipped. -/
lemma processChunks_of_straddling {fd : ℤ} {rest chunk : Bytes} {chunks : List Bytes}
    (hne : chunk ≠ []) (hlt : chunk.length < clientPrefaceLen)
    (h : (chunk :: chunks).flatten = clientPreface ++ rest) :
    (server fd).processChunks (chunk :: chunks) ≠ some ((opened fd).readData rest) := by
  rw [List.flatten_cons] at h
  have hpos := List.length_pos_iff.mpr hne
  have hfirst := processData_waiting fd (n := 0) (by decide) h
  rw [if_pos (by omega), if_pos rfl] at hfirst
  have hlen := congrArg List.length h
  simp only [List.length_append, length_clientPreface] at hlen
  have hrest : chunks.flatten = clientPreface.drop chunk.length ++ rest := by
    have := congrArg (List.drop chunk.length) h
    rw [List.drop_left, List.drop_append_of_le_length] at this
    · exact this
    · rw [length_clientPreface]
      omega
  rw [processChunks_cons (c := server fd) chunks hfirst]
  cases chunks with
  | nil =>
    simp only [List.flatten_nil, List.length_nil] at hlen
    omega
  | cons second chunks =>
    rw [List.flatten_cons] at hrest hlen
    have hsecond := processData_waiting fd hlt hrest
    change (waiting fd chunk.length).processChunks (second :: chunks) ≠ _
    by_cases hshort : second.length < clientPrefaceLen
    · rw [if_neg (show ¬ chunk.length = 0 by omega), if_pos hshort, ite_self] at hsecond
      rw [processChunks, List.foldlM_cons, hsecond]
      exact nofun
    · rw [if_neg (by omega), if_neg hshort] at hsecond
      rw [processChunks_cons chunks hsecond, foldlM_opened]
      intro heq
      have hreceived := congrArg (fun result => result.2.received.length) (Option.some.inj heq)
      simp only [received_opened_readData, List.length_append, List.length_drop] at hreceived hlen
      omega

/-- A server reassembles the preface exactly when no call ends inside it. -/
theorem reassembles_iff_prefaceInOneChunk (fd : ℤ) (rest : Bytes) (chunks : List Bytes)
    (h : chunks.flatten = clientPreface ++ rest) :
    Reassembles fd rest chunks ↔ PrefaceInOneChunk chunks := by
  rw [Reassembles, processData_server, and_self]
  induction chunks with
  | nil =>
    have := congrArg List.length h
    simp only [List.flatten_nil, List.length_nil, List.length_append, length_clientPreface] at this
    rw [clientPrefaceLen] at this
    omega
  | cons chunk chunks ih =>
    by_cases hnil : chunk = []
    · -- An empty chunk leaves the server as it is.
      subst hnil
      have hempty : (server fd).processData [] = some (.success, server fd) := by
        have hnone : [] ++ clientPreface = clientPreface.drop 0 ++ ([] : Bytes) := by simp
        exact processData_waiting fd (n := 0) (by decide) hnone
      have hskip : (server fd).processChunks ([] :: chunks) = (server fd).processChunks chunks :=
        processChunks_cons chunks hempty
      rw [hskip, ih h]
      simp [PrefaceInOneChunk]
    · have hfind : (chunk :: chunks).find? (· ≠ []) = some chunk := by simp [hnil]
      have hwhole : PrefaceInOneChunk (chunk :: chunks) ↔ clientPrefaceLen ≤ chunk.length := by
        simp only [PrefaceInOneChunk, hfind, Option.mem_some_iff, forall_eq']
      rw [hwhole]
      constructor
      · intro hread
        by_contra hlt
        exact processChunks_of_straddling hnil (by omega) h hread
      · intro hlen
        rw [List.flatten_cons] at h
        obtain ⟨data, rfl⟩ : clientPreface <+: chunk := by
          have hprefix : clientPreface <+: chunk ++ chunks.flatten := by
            rw [h]
            exact List.prefix_append _ _
          rw [← length_clientPreface] at hlen
          exact List.prefix_of_prefix_length_le hprefix (List.prefix_append _ _) hlen
        rw [List.append_assoc] at h
        rw [processChunks_cons chunks (processData_server fd data), foldlM_opened,
          List.append_cancel_left h]

/-- The preface in a single call, then a PING cut in two. -/
theorem reassembles_ping :
    Reassembles 3 [0, 0, 8, 6, 0, 0, 0, 0, 0, 1, 2, 3, 4, 5, 6, 7, 8]
        [clientPreface, [0, 0, 8, 6, 0], [0, 0, 0, 0, 1, 2, 3, 4, 5, 6, 7, 8]] ↔
      PrefaceInOneChunk [clientPreface, [0, 0, 8, 6, 0], [0, 0, 0, 0, 1, 2, 3, 4, 5, 6, 7, 8]] :=
  reassembles_iff_prefaceInOneChunk 3 _ _ (by decide)

/-- The preface cut after ten bytes: fourteen bytes arrive and twenty-four are taken off. -/
theorem not_reassembles_cut_preface :
    ¬ Reassembles 3 [] [clientPreface.take 10, clientPreface.drop 10] := by
  intro h
  have hnone : (server 3).processChunks [clientPreface.take 10, clientPreface.drop 10] = none := by
    decide
  rw [Reassembles, hnone] at h
  exact nomatch h.2

end H2Connection

end TinyWebServer
