import TinyWebServer.Http.Announcement
import TinyWebServer.Http.Framing
import TinyWebServer.Net.ReadLoop

/-!
# Requests in front of the end of the stream

A peer sends its requests and closes its side. What is still to be answered when the end of the
stream is read is lost: the connection is closed before the message callback runs.
-/

namespace TinyWebServer

open ParseLoop WireRequest

namespace HttpResponse

def print (response : HttpResponse) : Bytes := response.headerString ++ response.body

/-- What the loop sends of the responses: none behind an error. -/
def sent : List HttpResponse → List HttpResponse
  | [] => []
  | response :: responses => response :: if 400 ≤ response.code then [] else sent responses

lemma sent_prefix_self (responses : List HttpResponse) : sent responses <+: responses := by
  induction responses with
  | nil => exact List.prefix_rfl
  | cons response responses ih =>
    rw [sent, List.prefix_cons_inj]
    split_ifs
    · apply List.nil_prefix
    · exact ih

lemma sent_eq_self_iff (responses : List HttpResponse) :
    sent responses = responses ↔ ∀ response ∈ responses.dropLast, response.code < 400 := by
  induction responses with
  | nil => simp [sent]
  | cons response responses ih =>
    rw [sent, List.cons_inj_right]
    cases responses with
    | nil => simp [sent]
    | cons next responses =>
      rw [List.dropLast_cons_cons, List.forall_mem_cons]
      split_ifs with hcode
      · simp [not_lt.mpr hcode]
      · rw [ih]
        simp [not_le.mp hcode]

end HttpResponse

open HttpResponse

namespace ServerEnv

variable (env : ServerEnv)

lemma headerString_of_replies {resources : StaticResourceManager} {requests : List HttpRequest}
    {responses : List HttpResponse} (h : env.replies resources requests = some responses) :
    ∀ response ∈ responses, response.headerString ≠ [] := by
  induction requests generalizing resources responses with
  | nil =>
    cases h
    simp
  | cons request requests ih =>
    rw [replies] at h
    cases hanswer : env.answer resources request with
    | mk result accessed =>
      cases result with
      | none => simp [hanswer] at h
      | some result =>
        simp only [hanswer] at h
        obtain ⟨later, hlater, rfl⟩ := Option.map_eq_some_iff.mp h
        rw [List.forall_mem_cons]
        exact ⟨env.headerString_ne_nil hanswer, ih hlater⟩

end ServerEnv

namespace MessageState

variable (env : ServerEnv)

lemma turn_print {st : MessageState} (hlive : st.live = true) (head : WireHead) (rest : Bytes)
    {response : HttpResponse} {resources : StaticResourceManager} {accessed : List Bytes}
    (hanswer : env.answer st.resources head.request = (some (response, resources), accessed)) :
    st.turn env (head.print ++ rest) =
      .consume (head.text.length + 4) (st.answered response resources) := by
  rw [turn, if_neg (not_not.mpr hlive), head.find_print rest]
  simp only [parse_print, hanswer]

/-- The beginning of a head is waited on. -/
lemma turn_of_short {st : MessageState} (hlive : st.live = true) {head : WireHead}
    {buffer more rest : Bytes} (hcut : buffer ++ more = head.print ++ rest)
    (hshort : buffer.length < head.print.length) : st.turn env buffer = .wait := by
  have hfind : Bytes.find headEnd buffer = none := by
    cases hfound : Bytes.find headEnd buffer with
    | none => rfl
    | some n =>
      have hsame := Bytes.find_append more hfound
      rw [hcut, head.find_print rest, Option.some.injEq] at hsame
      have hle := Bytes.find_add_length_le hfound
      rw [WireHead.print, List.length_append] at hshort
      omega
  rw [turn, if_neg (not_not.mpr hlive), hfind]

/-- A loop that has got a part of the requests has sent the responses to some of them, and to all
of them only if nothing is missing. -/
lemma log_drain {requests : List WireRequest} (hbody : ∀ request ∈ requests, request.body = [])
    {st : MessageState} {buffer more : Bytes} (hcut : buffer ++ more = printAll requests)
    (hlive : st.live = true) {responses : List HttpResponse}
    (hreplies : env.replies st.resources (requests.map (·.request)) = some responses) :
    ∃ n, ((machine env).drain st buffer).state.log =
        st.log ++ (sent (responses.take n)).flatMap HttpResponse.print ∧
      (responses.length ≤ n ↔ more = []) := by
  induction requests generalizing st buffer responses with
  | nil =>
    obtain ⟨rfl, rfl⟩ := List.append_eq_nil_iff.mp hcut
    cases hreplies
    have hwait : (machine env).turn st [] = .wait := by
      change st.turn env [] = .wait
      rw [turn, if_neg (not_not.mpr hlive)]
      rfl
    rw [(machine env).drain_of_wait hwait]
    exact ⟨0, by simp [sent], by simp⟩
  | cons request requests ih =>
    rw [List.forall_mem_cons] at hbody
    rw [printAll_cons, hbody.1, List.nil_append] at hcut
    rw [List.map_cons, ServerEnv.replies] at hreplies
    cases hanswer : env.answer st.resources request.request with
    | mk result accessed =>
      cases result with
      | none => simp [hanswer] at hreplies
      | some result =>
        obtain ⟨response, resources⟩ := result
        simp only [hanswer] at hreplies
        obtain ⟨later, hlater, rfl⟩ := Option.map_eq_some_iff.mp hreplies
        by_cases hshort : buffer.length < request.print.length
        · have hwait := turn_of_short env hlive hcut hshort
          rw [(machine env).drain_of_wait hwait]
          refine ⟨0, by simp [sent], ?_⟩
          have hmore : more ≠ [] := by
            rintro rfl
            have hlength := congrArg List.length hcut
            simp only [List.append_nil, List.length_append] at hlength
            omega
          simp [hmore]
        · obtain ⟨buffer, rfl⟩ : request.print <+: buffer :=
            List.prefix_of_prefix_length_le (List.prefix_append _ _)
              (hcut ▸ List.prefix_append _ _) (not_lt.mp hshort)
          rw [List.append_assoc, List.append_cancel_left_eq] at hcut
          have hturn := turn_print env hlive request.toWireHead buffer hanswer
          rw [(machine env).drain_of_consume hturn, WireHead.drop_print]
          by_cases hcode : 400 ≤ response.code
          · -- the loop is done, and the other requests count only for what is missing
            have hdone := turn_answered env st resources hcode buffer
            rw [(machine env).drain_of_fail hdone]
            obtain ⟨n, -, hn⟩ := ih hbody.2 hcut
              (rfl : (MessageState.mk [] true resources).live = true) hlater
            refine ⟨n + 1, ?_, by simpa using hn⟩
            rw [List.take_succ_cons, sent, if_pos hcode]
            simp [answered, HttpResponse.print]
          · have hlive' : (st.answered response resources).live = true := by
              simpa [answered] using hcode
            obtain ⟨n, hlog, hn⟩ := ih hbody.2 hcut hlive' hlater
            refine ⟨n + 1, ?_, by simpa using hn⟩
            rw [hlog, List.take_succ_cons, sent, if_neg hcode]
            simp [answered, HttpResponse.print]

end MessageState

namespace Session

variable (env : ServerEnv)

/-- `HandleRead` when the end of the stream stands behind the blocks. -/
def receiveEnd (s : Session) (blocks : List Bytes) : Session :=
  s.handleRead (some (onMessage env)) (blocks.map .data ++ [.eof])

/-- The responses to all requests have been queued since `s`. -/
def AllAnswered (s t : Session) (requests : List WireRequest) : Prop :=
  ∃ responses, env.replies s.resources (requests.map (·.request)) = some responses ∧
    t.queued = s.queued ++ responses.flatMap HttpResponse.print

lemma readAll_append (s : Session) (blocks : List Bytes) (reads : List ReadResult) :
    s.readAll (blocks.map .data ++ reads) = (s.readAll (blocks.map .data)).readAll reads := by
  induction blocks generalizing s with
  | nil => rfl
  | cons block blocks ih => exact ih _

/-- The end of the stream closes the connection before the callback sees what came with it. -/
lemma queued_receiveEnd (s : Session) (blocks : List Bytes) :
    (s.receiveEnd env blocks).queued = s.queued := by
  have ht := filled_queues s (blocks.map .data ++ [.eof])
  have heq := handleRead_some s (onMessage env) (blocks.map .data ++ [.eof])
  generalize s.filled (blocks.map .data ++ [.eof]) = t at ht heq
  rw [readAll_append, readAll] at ht
  have hclosed : ¬ t.conn.isConnected := by
    apply not_isConnected_of_queues ht
    rw [Connection.isConnected, state_handleClose]
    simp
  have hqueued : t.queued = s.queued := by
    rw [queued_of_queues_nil ht, queued_handleClose]
    exact queued_of_queues_nil (receives_readAll s blocks).queues
  rw [receiveEnd, heq]
  split_ifs
  · exact hqueued
  · exact (queued_of_queues_nil (onMessage_of_not_isConnected env hclosed).queues).trans hqueued

lemma eq_of_flatMap_print {responses responses' : List HttpResponse} (h : responses <+: responses')
    (hheader : ∀ response ∈ responses', response.headerString ≠ [])
    (hprint : responses.flatMap HttpResponse.print = responses'.flatMap HttpResponse.print) :
    responses = responses' := by
  obtain ⟨rest, rfl⟩ := h
  rw [List.flatMap_append, List.self_eq_append_right, List.flatMap_eq_nil_iff] at hprint
  rw [List.self_eq_append_right, List.eq_nil_iff_forall_not_mem]
  intro response hmem
  exact hheader response (List.mem_append_right _ hmem)
    (List.append_eq_nil_iff.mp (hprint response hmem)).1

/-- Every request is answered before the connection is closed if and only if no byte of a request
is read together with the end of the stream and no error comes before the last response. -/
theorem allAnswered_iff {s : Session} (h : s.Idle) {requests : List WireRequest}
    (hbody : ∀ request ∈ requests, request.body = []) (events : List InputEvent)
    (blocks : List Bytes)
    (hstream : events.flatMap InputEvent.bytes ++ blocks.flatten = printAll requests)
    (hopen : (s.receiveAll env events).conn.state ≠ .kClosed) :
    AllAnswered env s ((s.receiveAll env events).receiveEnd env blocks) requests ↔
      blocks.flatten = [] ∧
        ∃ responses, env.replies s.resources (requests.map (·.request)) = some responses ∧
          ∀ response ∈ responses.dropLast, response.code < 400 := by
  have hqueued := (queued_receiveEnd env (s.receiveAll env events) blocks).trans
    (follows_receiveAll env h events hopen).queued
  have hlog := fun responses (hreplies : env.replies s.resources _ = some responses) =>
    MessageState.log_drain env hbody hstream (rfl : s.start.live = true) hreplies
  constructor
  · rintro ⟨responses, hreplies, hall⟩
    obtain ⟨n, hn, hmissing⟩ := hlog responses hreplies
    have hsent : sent (responses.take n) = responses := by
      have hprefix := (sent_prefix_self (responses.take n)).trans (List.take_prefix n responses)
      apply eq_of_flatMap_print hprefix (env.headerString_of_replies hreplies)
      rw [hqueued, hn] at hall
      exact List.append_cancel_left hall
    have hle : responses.length ≤ n := by
      have hlength := (sent_prefix_self (responses.take n)).length_le
      rw [hsent, List.length_take] at hlength
      omega
    rw [List.take_of_length_le hle] at hsent
    exact ⟨hmissing.mp hle, responses, hreplies, (sent_eq_self_iff responses).mp hsent⟩
  · rintro ⟨hnone, responses, hreplies, hcodes⟩
    obtain ⟨n, hn, hmissing⟩ := hlog responses hreplies
    refine ⟨responses, hreplies, ?_⟩
    rw [hqueued, hn, List.take_of_length_le (hmissing.mpr hnone),
      (sent_eq_self_iff responses).mpr hcodes]
    rfl

/-- The end of the stream comes in a read of its own. -/
theorem allAnswered_iff_apart :
    let s := new { Connection.new 0 5 none false with state := .kConnected } fun _ => .again
    AllAnswered onePageSite s ((s.receiveAll onePageSite [.read [pageRequest.print]]).receiveEnd
      onePageSite []) [pageRequest] :=
  (allAnswered_iff onePageSite ⟨by decide, rfl, rfl⟩ (by decide +kernel) _ _ (by decide +kernel)
    (by decide +kernel)).mpr ⟨rfl, _, rfl, by decide +kernel⟩

/-- The end of the stream comes with the request: nothing is sent. -/
theorem not_allAnswered_together :
    ¬ ∀ (env : ServerEnv) (s : Session) (requests : List WireRequest) (events : List InputEvent)
      (blocks : List Bytes), s.Idle → (∀ request ∈ requests, request.body = []) →
      events.flatMap InputEvent.bytes ++ blocks.flatten = printAll requests →
        AllAnswered env s ((s.receiveAll env events).receiveEnd env blocks) requests := by
  intro hall
  let s := new { Connection.new 0 5 none false with state := .kConnected } fun _ => .again
  obtain ⟨responses, hreplies, hqueued⟩ := hall onePageSite s [pageRequest] []
    [pageRequest.print] ⟨by decide, rfl, rfl⟩ (by decide +kernel) (by decide +kernel)
  rw [queued_receiveEnd] at hqueued
  have hnone : responses.flatMap HttpResponse.print = [] := List.self_eq_append_right.mp hqueued
  have hsome : (onePageSite.replies .new [pageRequest.request]).map
      (·.flatMap HttpResponse.print) ≠ some [] := by decide +kernel
  apply hsome
  rw [show onePageSite.replies .new [pageRequest.request] = some responses from hreplies]
  exact congrArg some hnone

end Session

end TinyWebServer
