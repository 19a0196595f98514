import TinyWebServer.Http.HalfClose
import TinyWebServer.Net.OutputLedger

/-!
# The stream of responses

What the message callback queues in the life of a connection are whole responses, in the order of
the requests. Only the last one can be without its body, and then the connection has been closed.
The file system and the clock may be others at each event.
-/

namespace TinyWebServer

namespace Session

/-- The callback is the only one that queues anything. -/
def Moment.Own (moment : Moment) : Prop := ∀ op, moment.2 = .operate op → ¬ Sends op

/-- The exchanges of a connection, each with the surroundings that it found. -/
def exchangesOver (s : Session) : List Moment → List (ServerEnv × Exchange)
  | [] => []
  | moment :: moments =>
    (s.eventExchanges moment.1 moment.2).map (moment.1, ·) ++
      (s.occur moment.1 moment.2).exchangesOver moments

def printAll (exchanges : List (ServerEnv × Exchange)) : Bytes :=
  exchanges.flatMap fun e => e.2.response.print

lemma printAll_append (exchanges exchanges' : List (ServerEnv × Exchange)) :
    printAll (exchanges ++ exchanges') = printAll exchanges ++ printAll exchanges' :=
  List.flatMap_append

/-- The exchanges behind the last response that was queued whole, and what is queued of them. -/
inductive Unsent (t : Session) : List (ServerEnv × Exchange) → Bytes → Prop where
  | none : Unsent t [] []
  | refused {lost : List (ServerEnv × Exchange)} (hstopped : ¬ t.conn.isConnected)
      (hlost : ∀ e ∈ lost, e.2.queued = false) : Unsent t lost []
  | cut {e : ServerEnv × Exchange} {lost : List (ServerEnv × Exchange)}
      (hstopped : ¬ t.conn.isConnected) (hqueued : e.2.queued = true)
      (hbody : e.2.response.body ≠ []) (hlost : ∀ e ∈ lost, e.2.queued = false) :
      Unsent t (e :: lost) e.2.response.headerString

/-- What the exchanges between two moments have added to the queue. -/
structure Posts (s : Session) (exchanges : List (ServerEnv × Exchange)) (t : Session) : Prop where
  posted : ∃ sent lost tail, exchanges = sent ++ lost ∧ (∀ e ∈ sent, e.2.queued = true) ∧
    t.queued = s.queued ++ (printAll sent ++ tail) ∧ Unsent t lost tail
  stopped : ¬ s.conn.isConnected → ¬ t.conn.isConnected
  silent : ¬ s.conn.isConnected → ∀ e ∈ exchanges, e.2.queued = false

/-! ### Posts follow each other -/

lemma posts_nil {s t : Session} (hqueued : t.queued = s.queued)
    (hstopped : ¬ s.conn.isConnected → ¬ t.conn.isConnected) : Posts s [] t :=
  ⟨⟨[], [], [], rfl, by simp, by simpa [printAll] using hqueued, .none⟩, hstopped, by simp⟩

/-- Behind the end of the connection nothing is posted. -/
lemma Posts.queued_of_stopped {s t : Session} {exchanges : List (ServerEnv × Exchange)}
    (h : Posts s exchanges t) (hstopped : ¬ s.conn.isConnected) : t.queued = s.queued := by
  obtain ⟨sent, lost, tail, rfl, hsent, hqueued, hunsent⟩ := h.posted
  have hsilent := h.silent hstopped
  have hnil : sent = [] := by
    rw [List.eq_nil_iff_forall_not_mem]
    intro e hmem
    have hfalse := hsilent e (List.mem_append_left _ hmem)
    rw [hsent e hmem] at hfalse
    cases hfalse
  subst hnil
  cases hunsent with
  | none => simpa [printAll] using hqueued
  | refused => simpa [printAll] using hqueued
  | cut _ htrue =>
    have hfalse := hsilent _ (List.mem_append_right _ (List.mem_cons_self ..))
    rw [htrue] at hfalse
    cases hfalse

lemma Posts.trans {s t u : Session} {exchanges exchanges' : List (ServerEnv × Exchange)}
    (h : Posts s exchanges t) (h' : Posts t exchanges' u) : Posts s (exchanges ++ exchanges') u where
  posted := by
    obtain ⟨sent, lost, tail, rfl, hsent, hqueued, hunsent⟩ := h.posted
    cases hunsent with
    | none =>
      obtain ⟨sent', lost', tail', rfl, hsent', hqueued', hunsent'⟩ := h'.posted
      refine ⟨sent ++ sent', lost', tail', by simp, ?_, ?_, hunsent'⟩
      · exact List.forall_mem_append.mpr ⟨hsent, hsent'⟩
      · rw [hqueued', hqueued, printAll_append]
        simp
    | refused hstopped hlost =>
      refine ⟨sent, lost ++ exchanges', [], by simp, hsent, ?_, .refused (h'.stopped hstopped) ?_⟩
      · rw [h'.queued_of_stopped hstopped, hqueued]
      · exact List.forall_mem_append.mpr ⟨hlost, h'.silent hstopped⟩
    | @cut e lost hstopped htrue hbody hlost =>
      refine ⟨sent, e :: (lost ++ exchanges'), _, by simp, hsent, ?_,
        .cut (h'.stopped hstopped) htrue hbody ?_⟩
      · rw [h'.queued_of_stopped hstopped, hqueued]
      · exact List.forall_mem_append.mpr ⟨hlost, h'.silent hstopped⟩
  stopped hstopped := h'.stopped (h.stopped hstopped)
  silent hstopped := List.forall_mem_append.mpr
    ⟨h.silent hstopped, h'.silent (h.stopped hstopped)⟩

/-! ### One exchange -/

/-- A response goes out whole, or the connection ends before it or behind its header. -/
lemma queued_sendResponse_cases {s : Session} {response : HttpResponse}
    (hheader : response.headerString ≠ []) :
    (s.sendResponse response).queued = s.queued ++ response.print ∨
      ¬ (s.sendResponse response).conn.isConnected ∧
        ((s.sendResponse response).queued = s.queued ∨
          response.body ≠ [] ∧
            (s.sendResponse response).queued = s.queued ++ response.headerString) := by
  obtain ⟨data, hdata, heq⟩ := sendResponse_eq s response
  have hbytes : (NodeData.string response.headerString).bytes ≠ [] := hheader
  rw [heq, HttpResponse.print, ← hdata]
  by_cases hconn : s.conn.isConnected
  · rcases Nat.lt_or_ge s.conn.maxOutputBuffer
      (s.conn.outputBuffer.totalBytes + response.headerString.length) with hfull | hfits
    · have hclosed := not_isConnected_handleClose s
      rw [sendData_of_full hconn hbytes hfull, sendData_of_not_isConnected hclosed]
      exact .inr ⟨hclosed, .inl (queued_handleClose s)⟩
    · obtain ⟨hqueued, hwritten⟩ := accepts_sendData hconn hbytes hfits
      have hheader' : (NodeData.string response.headerString).bytes = response.headerString := rfl
      rw [hheader'] at hqueued
      generalize s.sendData (.string response.headerString) = t at hqueued hwritten ⊢
      by_cases hempty : data.bytes = []
      · left
        have hsame : t.sendData data = t := by
          rw [sendData, appendInLoop, if_pos hempty, ite_id]
        rw [hsame, hqueued, hempty, List.append_nil]
      rcases hwritten with ⟨-, hclosed⟩ | ⟨-, hstate, -⟩
      · have hstopped : ¬ t.conn.isConnected := fun h => h.1 hclosed
        rw [sendData_of_not_isConnected hstopped]
        exact .inr ⟨hstopped, .inr ⟨hempty, hqueued⟩⟩
      · have hopen : t.conn.isConnected := by rwa [Connection.isConnected, hstate]
        rcases Nat.lt_or_ge t.conn.maxOutputBuffer
          (t.conn.outputBuffer.totalBytes + data.bytes.length) with hfull | hroom
        · rw [sendData_of_full hopen hempty hfull, queued_handleClose]
          exact .inr ⟨not_isConnected_handleClose t, .inr ⟨hempty, hqueued⟩⟩
        · left
          rw [(accepts_sendData hopen hempty hroom).queued, hqueued, List.append_assoc]
  · rw [sendData_of_not_isConnected hconn, sendData_of_not_isConnected hconn]
    exact .inr ⟨hconn, .inl rfl⟩

variable (env : ServerEnv)

/-- The queue behind a turn that answers a request. -/
lemma queued_messageTurn_cases {s : Session} {e : Exchange} (h : s.exchange env = some e) :
    (s.messageTurn env).1.queued = s.queued ++ e.response.print ∨
      ¬ (s.messageTurn env).1.conn.isConnected ∧
        ((s.messageTurn env).1.queued = s.queued ∨
          e.response.body ≠ [] ∧
            (s.messageTurn env).1.queued = s.queued ++ e.response.headerString) := by
  obtain ⟨headerEnd, resources, accessed, hfind, hparse, hanswer, -⟩ := exchange_eq_some env h
  have hready := (queues_note s (.parse s.conn.inputBuffer)).trans
    (responding_rests env (s.note (.parse s.conn.inputBuffer)) e.request e.response resources
      accessed).queues
  have hqueued := queued_of_queues_nil hready
  have hsend := queued_sendResponse_cases (s := (s.note (.parse s.conn.inputBuffer)).responding env
    e.request e.response resources accessed) (env.headerString_ne_nil hanswer)
  rw [hqueued] at hsend
  rw [messageTurn_of_find env hfind, hparse, if_pos rfl,
    handleRequest_of_some env headerEnd (s := s.note (.parse s.conn.inputBuffer)) hanswer]
  generalize (s.note (.parse s.conn.inputBuffer)).responding env e.request e.response resources
    accessed = t at hsend ⊢
  dsimp only
  split_ifs
  · rw [queued_shutdown]
    exact hsend.imp_right fun ⟨_, hcases⟩ => ⟨not_isConnected_shutdown _, hcases⟩
  · exact hsend

/-- A turn that answers nothing queues nothing. -/
lemma queued_messageTurn_of_none {s : Session} (h : s.exchange env = none) :
    (s.messageTurn env).1.queued = s.queued := by
  have hparse : (s.note (.parse s.conn.inputBuffer)).queued = s.queued := by
    simp [queued, note, Event.queuedBytes]
  cases hfind : Bytes.find headEnd s.conn.inputBuffer with
  | none => rw [show s.messageTurn env = (s, false) by simp only [messageTurn, hfind]]
  | some headerEnd =>
    rw [messageTurn_of_find env hfind]
    cases hresult : s.conn.httpParser.parse s.conn.inputBuffer with
    | mk parsed request =>
      cases parsed with
      | false =>
        rw [if_neg Bool.false_ne_true]
        exact (queued_shutdown _).trans hparse
      | true =>
        rw [if_pos rfl]
        cases hanswer : env.answer s.resources request with
        | mk result accessed =>
          cases result with
          | none =>
            have hnone := handleRequest_of_none env headerEnd
              (s := s.note (.parse s.conn.inputBuffer)) hanswer
            have haccess := keepsOutput_noteAll
              ((s.note (.parse s.conn.inputBuffer)).accepting env request) accessed
            rw [hnone, haccess.queued, (keepsOutput_accepting env _ request).queued, hparse]
          | some result =>
            simp only [exchange, hfind, hresult, hanswer] at h
            cases h

lemma posts_messageTurn (s : Session) :
    Posts s ((s.exchange env).toList.map (env, ·)) (s.messageTurn env).1 := by
  have hstopped : ¬ s.conn.isConnected → ¬ (s.messageTurn env).1.conn.isConnected :=
    fun h => not_isConnected_of_queues (messageTurn_of_not_isConnected env h).queues h
  cases hexchange : s.exchange env with
  | none => exact posts_nil (queued_messageTurn_of_none env hexchange) hstopped
  | some e =>
    obtain ⟨_, _, _, _, _, hanswer, _, hflag⟩ := exchange_eq_some env hexchange
    have hheader := env.headerString_ne_nil hanswer
    refine ⟨?_, hstopped, fun h => ?_⟩
    · rcases queued_messageTurn_cases env hexchange with hwhole | ⟨hend, hnone | ⟨hbody, hcut⟩⟩
      · refine ⟨[(env, e)], [], [], rfl, ?_, by simpa [printAll] using hwhole, .none⟩
        simp [hflag, hwhole, HttpResponse.print, hheader]
      · refine ⟨[], [(env, e)], [], rfl, by simp, by simpa [printAll] using hnone, .refused hend ?_⟩
        simp [hflag, hnone]
      · refine ⟨[], [(env, e)], _, rfl, by simp, ?_, .cut hend ?_ hbody (by simp)⟩
        · simpa [printAll] using hcut
        · simp [hflag, hcut, hheader]
    · simpa using exchange_of_not_isConnected env hexchange h

/-! ### A connection -/

lemma posts_onMessage (s : Session) : Posts s ((s.exchanges env).map (env, ·)) (s.onMessage env) :=
  exchanges_induction env (P := fun s exchanges t => Posts s (exchanges.map (env, ·)) t)
    (fun s _ => posts_messageTurn env s)
    (fun s _ _ _ ih => by
      rw [List.map_append]
      exact (posts_messageTurn env s).trans ih) s

lemma posts_filled (s : Session) (reads : List ReadResult) : Posts s [] (s.filled reads) :=
  posts_nil (outputActs_filled s reads).queued_eq fun h => filled_of_not_isConnected h reads

lemma posts_occur (s : Session) {moment : Moment} (h : moment.Own) :
    Posts s ((s.eventExchanges moment.1 moment.2).map (moment.1, ·))
      (s.occur moment.1 moment.2) := by
  obtain ⟨env, event⟩ := moment
  have hstopped : ¬ s.conn.isConnected → ¬ (s.occur env event).conn.isConnected :=
    fun h => occur_of_not_isConnected env h event
  cases event with
  | read reads =>
    change Posts s ((s.eventExchanges env (.read reads)).map (env, ·))
      (if (s.filled reads).conn.inputBuffer = [] then s.filled reads
        else (s.filled reads).onMessage env)
    rw [eventExchanges]
    split_ifs
    · exact posts_filled s reads
    · exact (posts_filled s reads).trans (posts_onMessage env _)
  | write => exact posts_nil (outputActs_handleWrite s).queued_eq hstopped
  | operate op => exact posts_nil (outputActs_operate s (h op rfl)).queued_eq hstopped
  | timeout timeoutType => exact posts_nil (outputActs_onTimeout s timeoutType).queued_eq hstopped
  | elsewhere loop keepAlive resources kernel => exact posts_nil rfl hstopped

/-- In the life of a connection the responses go out whole and in order, but for the last one. -/
lemma posts_after (s : Session) {moments : List Moment} (h : ∀ moment ∈ moments, moment.Own) :
    Posts s (s.exchangesOver moments) (s.after moments) := by
  induction moments generalizing s with
  | nil => exact posts_nil rfl id
  | cons moment moments ih =>
    rw [List.forall_mem_cons] at h
    exact (posts_occur s h.1).trans (ih _ h.2)

end Session

end TinyWebServer
