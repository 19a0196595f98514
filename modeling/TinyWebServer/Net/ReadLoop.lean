import TinyWebServer.Net.ConnectionFrame

/-!
# The loop around `read`

`HandleRead` appends what `read` returns until the kernel has no more, and looks at the limit of the
input buffer only then.
-/

namespace TinyWebServer

namespace ReadResult

/-- The bytes that the loop appends. -/
def received : List ReadResult → Bytes
  | .data block :: reads => block ++ received reads
  | _ => []

/-- The loop meets the end of the stream or an error, and closes the connection. -/
def ends : List ReadResult → Bool
  | .data _ :: reads => ends reads
  | .eof :: _ => true
  | .failed :: _ => true
  | _ => false

end ReadResult

namespace Session

open ReadResult

/-- The session when a read event comes to the callback. -/
def filled (s : Session) (reads : List ReadResult) : Session :=
  let s := s.readAll reads
  if s.conn.checkInputBufferLimit then s.pauseReading else s

lemma handleRead_some (s : Session) (callback : Session → Session) (reads : List ReadResult) :
    s.handleRead (some callback) reads =
      if (s.filled reads).conn.inputBuffer = [] then s.filled reads
      else callback (s.filled reads) := rfl

lemma filled_queues (s : Session) (reads : List ReadResult) :
    Queues [] (s.readAll reads) (s.filled reads) := by
  rw [filled]
  split_ifs
  · exact ⟨rfl, (List.append_nil _).symm⟩
  · exact Queues.refl _

/-- What the loop does to the connection. -/
structure ReadsAll (s : Session) (reads : List ReadResult) (t : Session) : Prop where
  fd : t.conn.fd = s.conn.fd
  config : t.conn.config = s.conn.config
  inputBuffer : t.conn.inputBuffer = s.conn.inputBuffer ++ received reads
  state : t.conn.state = if ends reads then .kClosed else s.conn.state

lemma readsAll_handleClose (s : Session) {reads : List ReadResult} (hends : ends reads = true)
    (hreceived : received reads = []) : ReadsAll s reads s.handleClose := by
  have hkeeps := keepsInput_handleClose s
  refine ⟨hkeeps.fd, hkeeps.config, ?_, ?_⟩
  · rw [hreceived, List.append_nil, hkeeps.inputBuffer]
  · rw [hends, if_pos rfl, state_handleClose]

lemma readsAll_readAll (s : Session) (reads : List ReadResult) :
    ReadsAll s reads (s.readAll reads) := by
  induction reads generalizing s with
  | nil => exact ⟨rfl, rfl, (List.append_nil _).symm, rfl⟩
  | cons read reads ih =>
    cases read with
    | data data =>
      let appended : Session :=
        { s with conn := { s.conn with inputBuffer := s.conn.inputBuffer ++ data } }
      have htimers := timersOnly_updateActivityTimestamp appended
      obtain ⟨hfd, hconfig, hinput, hstate⟩ := ih appended.updateActivityTimestamp
      rw [htimers.keepsInput.fd] at hfd
      rw [htimers.keepsInput.config] at hconfig
      rw [htimers.keepsInput.inputBuffer] at hinput
      rw [htimers.state_eq] at hstate
      exact ⟨hfd, hconfig, hinput.trans (List.append_assoc ..), hstate⟩
    | eof => exact readsAll_handleClose s rfl rfl
    | again => exact ⟨rfl, rfl, (List.append_nil _).symm, rfl⟩
    | failed => exact readsAll_handleClose s rfl rfl

/-- The buffer is over its limit when the loop is through. -/
def Overfills (s : Session) (reads : List ReadResult) : Prop :=
  s.conn.maxInputBuffer < (s.conn.inputBuffer ++ received reads).length

lemma checkInputBufferLimit_readAll (s : Session) (reads : List ReadResult) :
    (s.readAll reads).conn.checkInputBufferLimit = true ↔ s.Overfills reads := by
  have hread := readsAll_readAll s reads
  rw [Connection.checkInputBufferLimit, Connection.maxInputBuffer, hread.config, hread.inputBuffer,
    decide_eq_true_eq]
  rfl

lemma filled_of_overfills {s : Session} {reads : List ReadResult} (h : s.Overfills reads) :
    s.filled reads = (s.readAll reads).pauseReading :=
  if_pos ((checkInputBufferLimit_readAll s reads).mpr h)

lemma filled_of_not_overfills {s : Session} {reads : List ReadResult} (h : ¬ s.Overfills reads) :
    s.filled reads = s.readAll reads :=
  if_neg (mt (checkInputBufferLimit_readAll s reads).mp h)

end Session

end TinyWebServer
