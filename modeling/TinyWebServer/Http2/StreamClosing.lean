import TinyWebServer.Http2.StreamLife

/-!
# Refused operations and the end of a stream

Every operation validates first, changes the stream next and asks for the transition last. What the
validation lets through the transition does not refuse, so an operation that fails has done nothing.
A stream is closed once, whoever sets its callbacks in between.
-/

namespace TinyWebServer

/-- What the owner of a stream does to it. -/
inductive H2StreamMove where
  | operation (op : H2StreamOp)
  | setDataCallback (callback : Bool)
  | setHeadersCallback (callback : Bool)
  | setCloseCallback (callback : Bool)

def H2StreamCall.isClose : H2StreamCall → Bool
  | .close _ => true
  | _ => false

namespace H2Stream

def move (s : H2Stream) : H2StreamMove → Option H2Stream
  | .operation op => s.next op
  | .setDataCallback callback => some { s with hasDataCallback := callback }
  | .setHeadersCallback callback => some { s with hasHeadersCallback := callback }
  | .setCloseCallback callback => some { s with hasCloseCallback := callback }

/-- How often the close callback has been called. -/
def closeCalls (s : H2Stream) : ℕ := s.calls.countP H2StreamCall.isClose

/-! ### A failed operation -/

/-- An operation that reports an error leaves the whole stream as it was, the calls it has made
included. -/
lemma operate_of_failed {s : H2Stream} {op : H2StreamOp} (h : ¬ (s.operate op).1.isSuccess) :
    (s.operate op).2 = s := by
  cases op with
  | handleHeaders headers endStream =>
    by_cases hallowed : s.canTransition (receivedState endStream)
    · obtain ⟨calls, heq⟩ := handleHeaders_of_allowed headers hallowed
      simp [operate, heq] at h
    · rw [operate, handleHeaders_of_refused headers hallowed]
  | handleData data endStream =>
    cases endStream with
    | false =>
      obtain ⟨calls, heq⟩ := handleData_false s data
      simp [operate, heq] at h
    | true =>
      by_cases hallowed : s.canTransition .halfClosedRemote
      · obtain ⟨calls, heq⟩ := handleData_of_allowed data hallowed
        simp [operate, heq] at h
      · rw [operate, handleData_of_refused data hallowed]
  | sendHeaders headers endStream =>
    by_cases hallowed : s.canTransition (sentState endStream)
    · simp [operate, sendHeaders_of_allowed headers hallowed] at h
    · rw [operate, sendHeaders_of_refused headers hallowed]
  | sendData data endStream =>
    cases endStream with
    | false => simp [operate, sendData_false] at h
    | true =>
      by_cases hallowed : s.canTransition .halfClosedLocal
      · simp [operate, sendData_of_allowed data hallowed] at h
      · rw [operate, sendData_of_refused data hallowed]
  | sendRstStream errorCode => simp [operate, sendRstStream] at h
  | close errorCode => simp [operate] at h

/-! ### Closing -/

@[simp]
lemma closeCalls_transitionState (s : H2Stream) (newState : H2StreamState) :
    (s.transitionState newState).closeCalls = s.closeCalls := by
  rw [transitionState]
  split_ifs
  · rfl
  · rfl
  · rfl

/-- The other callbacks do not count. -/
lemma closeCalls_append {call : H2StreamCall} (hcall : call.isClose = false) (s : H2Stream) :
    ({ s with calls := s.calls ++ [call] }).closeCalls = s.closeCalls := by
  simp [closeCalls, List.countP_append, hcall]

lemma closeCalls_append_close (s : H2Stream) (errorCode : UInt32) :
    ({ s with calls := s.calls ++ [H2StreamCall.close errorCode] }).closeCalls = s.closeCalls + 1 := by
  simp [closeCalls, List.countP_append, H2StreamCall.isClose]

lemma closeCalls_handleHeaders (s : H2Stream) (headers : H2Headers) (endStream : Bool) :
    (s.handleHeaders headers endStream).2.closeCalls = s.closeCalls := by
  rw [handleHeaders, ← receivedState]
  dsimp only
  split_ifs
  · exact (closeCalls_append rfl _).trans (closeCalls_transitionState _ _)
  · exact closeCalls_transitionState _ _
  · rfl

lemma closeCalls_handleData (s : H2Stream) (data : Bytes) (endStream : Bool) :
    (s.handleData data endStream).2.closeCalls = s.closeCalls := by
  rw [handleData]
  cases endStream with
  | false =>
    simp only [Bool.false_eq_true, if_false, Error.isSuccess_success, not_true_eq_false]
    split_ifs
    · exact closeCalls_append rfl _
    · rfl
  | true =>
    simp only [if_true]
    split_ifs
    · exact (closeCalls_append rfl _).trans (closeCalls_transitionState _ _)
    · exact closeCalls_transitionState _ _
    · rfl

lemma closeCalls_sendHeaders (s : H2Stream) (headers : H2Headers) (endStream : Bool) :
    (s.sendHeaders headers endStream).2.closeCalls = s.closeCalls := by
  rw [sendHeaders, ← sentState]
  dsimp only
  split_ifs
  · exact closeCalls_transitionState _ _
  · rfl

lemma closeCalls_sendData (s : H2Stream) (data : Bytes) (endStream : Bool) :
    (s.sendData data endStream).2.closeCalls = s.closeCalls := by
  rw [sendData]
  cases endStream with
  | false => rfl
  | true =>
    simp only [if_true]
    split_ifs
    · exact closeCalls_transitionState _ _
    · rfl

/-- The call that closing makes is the only one of its kind. -/
lemma closeCalls_close_le (s : H2Stream) (errorCode : UInt32) :
    (s.close errorCode).closeCalls ≤ s.closeCalls + 1 := by
  rw [close]
  dsimp only
  split_ifs
  · exact Nat.le_succ _
  · rw [closeCalls_append_close, closeCalls_transitionState]
  · rw [closeCalls_transitionState]
    exact Nat.le_succ _

/-- Nothing leads out of the closed state. -/
lemma state_operate_of_closed {s : H2Stream} (h : s.state = .closed) (op : H2StreamOp) :
    (s.operate op).2.state = .closed := by
  have hrefused : ∀ newState, ¬ s.canTransition newState := fun newState hallowed =>
    not_closed_of_canTransition hallowed h
  cases op with
  | handleHeaders headers endStream =>
    rw [operate, handleHeaders_of_refused headers (hrefused _)]
    exact h
  | handleData data endStream =>
    cases endStream with
    | false =>
      obtain ⟨calls, heq⟩ := handleData_false s data
      rw [operate, heq]
      exact h
    | true =>
      rw [operate, handleData_of_refused data (hrefused _)]
      exact h
  | sendHeaders headers endStream =>
    rw [operate, sendHeaders_of_refused headers (hrefused _)]
    exact h
  | sendData data endStream =>
    cases endStream with
    | false => exact h
    | true =>
      rw [operate, sendData_of_refused data (hrefused _)]
      exact h
  | sendRstStream errorCode => exact state_close s errorCode
  | close errorCode => exact state_close s errorCode

lemma state_move_of_closed {s t : H2Stream} {m : H2StreamMove} (h : s.state = .closed)
    (hmove : s.move m = some t) : t.state = .closed := by
  cases m with
  | operation op =>
    cases hmove
    exact state_operate_of_closed h op
  | setDataCallback callback =>
    cases hmove
    exact h
  | setHeadersCallback callback =>
    cases hmove
    exact h
  | setCloseCallback callback =>
    cases hmove
    exact h

/-- The close callback is called no earlier than the stream is closed, and then once. -/
def ClosesOnce (s : H2Stream) : Prop := s.closeCalls ≤ if s.state = .closed then 1 else 0

lemma ClosesOnce.of_closeCalls_eq {s t : H2Stream} (hs : s.ClosesOnce)
    (hcalls : t.closeCalls = s.closeCalls) (hstate : s.state = .closed → t.state = .closed) :
    t.ClosesOnce := by
  rw [ClosesOnce, hcalls]
  apply hs.trans
  split_ifs with hclosed hnot
  · exact le_refl 1
  · exact absurd (hstate hclosed) hnot
  · exact Nat.zero_le 1
  · exact le_refl 0

lemma ClosesOnce.close {s : H2Stream} (hs : s.ClosesOnce) (errorCode : UInt32) :
    (s.close errorCode).ClosesOnce := by
  by_cases hclosed : s.state = .closed
  · rwa [close_of_closed hclosed]
  · rw [ClosesOnce, if_neg hclosed] at hs
    rw [ClosesOnce, state_close, if_pos rfl]
    exact (closeCalls_close_le s errorCode).trans (Nat.succ_le_succ hs)

lemma ClosesOnce.move {s t : H2Stream} {m : H2StreamMove} (hs : s.ClosesOnce)
    (hmove : s.move m = some t) : t.ClosesOnce := by
  have hclosed : s.state = .closed → t.state = .closed := fun h => state_move_of_closed h hmove
  cases m with
  | operation op =>
    cases hmove
    cases op with
    | handleHeaders headers endStream =>
      exact hs.of_closeCalls_eq (closeCalls_handleHeaders s headers endStream) hclosed
    | handleData data endStream =>
      exact hs.of_closeCalls_eq (closeCalls_handleData s data endStream) hclosed
    | sendHeaders headers endStream =>
      exact hs.of_closeCalls_eq (closeCalls_sendHeaders s headers endStream) hclosed
    | sendData data endStream =>
      exact hs.of_closeCalls_eq (closeCalls_sendData s data endStream) hclosed
    | sendRstStream errorCode => exact hs.close errorCode
    | close errorCode => exact hs.close errorCode
  | setDataCallback callback =>
    cases hmove
    exact hs
  | setHeadersCallback callback =>
    cases hmove
    exact hs
  | setCloseCallback callback =>
    cases hmove
    exact hs

/-- An operation that fails leaves the stream alone, a closed stream stays closed, and the close
callback is called at most once. -/
theorem fails_cleanly_and_closes_once :
    (∀ (s : H2Stream) (op : H2StreamOp), ¬ (s.operate op).1.isSuccess → (s.operate op).2 = s) ∧
    ∀ (streamId : UInt32) (moves : List H2StreamMove) (s : H2Stream),
      Runs.run move (new streamId) moves = some s →
      s.closeCalls ≤ 1 ∧
      (s.state = .closed → ∀ moves' t, Runs.run move s moves' = some t → t.state = .closed) := by
  constructor
  · intro s op
    exact operate_of_failed
  · intro streamId moves s hrun
    have honce : s.ClosesOnce :=
      Runs.invariant_run move (fun _ _ _ hs => hs.move) (Nat.zero_le _) hrun
    constructor
    · apply honce.trans
      split_ifs
      · exact le_refl 1
      · exact Nat.zero_le 1
    · intro hclosed moves' t
      exact Runs.invariant_run move (fun _ _ _ => state_move_of_closed) hclosed

end H2Stream

end TinyWebServer
