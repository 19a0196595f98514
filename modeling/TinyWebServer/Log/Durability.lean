import TinyWebServer.Log.AsyncLogger

/-!
# What the logger owes to its file

Every appended byte stands in one place: in the file, in what a thread has taken and not written,
in the queue or in the current buffer, and these four in a row are what has been appended.
-/

namespace TinyWebServer

namespace AsyncLogger

/-- What the calls left in the buffers, in the order of their sections. -/
def stored (calls : List AppendCall) : Bytes := calls.flatMap (·.stored)

def joined (buffers : List BufferPtr) : Bytes := buffers.flatMap contents

end AsyncLogger

open AsyncLogger Runs

def Remainder.held : Remainder → List BufferPtr
  | .write buffers => buffers
  | _ => []

def BackendPc.held : BackendPc → List BufferPtr
  | .write buffersToWrite => buffersToWrite
  | .leave remainder => remainder.held
  | _ => []

def StopPc.held : StopPc → List BufferPtr
  | .leave remainder => remainder.held
  | _ => []

namespace AsyncLogger

/-- What has been taken out of the queue and is not in the file. -/
def unwritten (s : AsyncLogger) : Bytes :=
  s.stream ++ joined s.backend.held ++ joined s.stopper.held

/-- What has left the current buffer. -/
def handed (s : AsyncLogger) : Bytes := s.file ++ s.unwritten ++ joined s.buffers

@[simp] lemma stored_append (calls calls' : List AppendCall) :
    stored (calls ++ calls') = stored calls ++ stored calls' := List.flatMap_append

@[simp] lemma stored_singleton (call : AppendCall) : stored [call] = call.stored := by
  simp [stored]

@[simp] lemma joined_nil : joined [] = [] := rfl

@[simp] lemma joined_cons (p : BufferPtr) (ps : List BufferPtr) :
    joined (p :: ps) = contents p ++ joined ps := List.flatMap_cons

@[simp] lemma joined_append (ps qs : List BufferPtr) : joined (ps ++ qs) = joined ps ++ joined qs :=
  List.flatMap_append

@[simp] lemma contents_none : contents none = [] := rfl

@[simp] lemma contents_some (b : FixedBuffer kLargeBuffer) : contents (some b) = b.data := rfl

@[simp] lemma data_empty {kSize : ℕ} : (FixedBuffer.empty : FixedBuffer kSize).data = [] := rfl

lemma stored_mono {calls calls' : List AppendCall} (h : calls <+: calls') :
    stored calls <+: stored calls' := by
  obtain ⟨rest, rfl⟩ := h
  rw [stored_append]
  apply List.prefix_append

/-! ### The invariant -/

/-- The buffers in reserve are empty. -/
structure Spare (s : AsyncLogger) : Prop where
  next : contents s.nextBuffer = []
  first : contents s.buffer1 = []
  second : contents s.buffer2 = []

lemma Spare.congr {s t : AsyncLogger} (hs : s.Spare) (hnext : t.nextBuffer = s.nextBuffer)
    (hfirst : t.buffer1 = s.buffer1) (hsecond : t.buffer2 = s.buffer2) : t.Spare :=
  ⟨hnext ▸ hs.next, hfirst ▸ hs.first, hsecond ▸ hs.second⟩

/-- How the backend and the thread in `Stop` follow each other. -/
structure Phases (s : AsyncLogger) : Prop where
  running_iff : s.running = true ↔ s.stopper = .idle
  left : ∀ remainder, s.stopper = .leave remainder → s.backend = .leave .done
  drained : ∀ remainder, s.stopper = .leave remainder → remainder ≠ .collect →
    joined s.buffers = [] ∧ contents s.currentBuffer = []
  flushed : s.stopper = .leave .done → s.stream = []

structure Inv (s : AsyncLogger) : Prop where
  flow : s.handed ++ contents s.currentBuffer = stored s.calls
  spare : s.Spare
  phases : s.Phases
  refused : ∀ call ∈ s.calls, call.result = false →
    call.line = [] ∨ kLargeBuffer < call.line.length
  called : ∀ call ∈ s.flushes, call.before <+: s.calls
  queued : ∀ call ∈ s.flushes, call.waiting = true → stored call.before <+: s.handed

theorem inv_started : started.Inv where
  flow := rfl
  spare := ⟨rfl, rfl, rfl⟩
  phases :=
    { running_iff := by simp [started]
      left := by simp [started]
      drained := by simp [started]
      flushed := by simp [started] }
  refused := by simp [started]
  called := by simp [started]
  queued := by simp [started]

/-- Bytes move on towards the file; the calls see nothing of it. -/
structure Passes (s t : AsyncLogger) : Prop where
  calls : t.calls = s.calls
  flushes : t.flushes = s.flushes
  total : t.handed ++ contents t.currentBuffer = s.handed ++ contents s.currentBuffer
  handed : s.handed <+: t.handed

lemma Inv.passes {s t : AsyncLogger} (hs : s.Inv) (h : Passes s t) (hspare : t.Spare)
    (hphases : t.Phases) : t.Inv where
  flow := by rw [h.total, h.calls, hs.flow]
  spare := hspare
  phases := hphases
  refused := by
    rw [h.calls]
    exact hs.refused
  called := by
    rw [h.calls, h.flushes]
    exact hs.called
  queued := by
    rw [h.flushes]
    intro call hcall hwaiting
    exact (hs.queued call hcall hwaiting).trans h.handed

/-! ### The sections -/

@[simp] lemma contents_queueCurrent {s : AsyncLogger} {p : BufferPtr} (hp : contents p = []) :
    contents (s.queueCurrent p).currentBuffer = [] := by
  rw [queueCurrent]
  split_ifs with h
  · exact h
  · exact hp

lemma joined_queueCurrent (s : AsyncLogger) (p : BufferPtr) :
    joined (s.queueCurrent p).buffers = joined s.buffers ++ contents s.currentBuffer := by
  rw [queueCurrent]
  split_ifs with h
  · simp [h]
  · simp

/-- Nothing but the queue and the current buffer. -/
lemma queueCurrent_eq (s : AsyncLogger) (p : BufferPtr) :
    s.queueCurrent p =
      { s with
        buffers := (s.queueCurrent p).buffers
        currentBuffer := (s.queueCurrent p).currentBuffer } := by
  rw [queueCurrent]
  split_ifs <;> rfl

lemma handed_queueCurrent (s : AsyncLogger) (p : BufferPtr) :
    (s.queueCurrent p).handed = s.handed ++ contents s.currentBuffer := by
  have hqueue := joined_queueCurrent s p
  rw [queueCurrent_eq] at hqueue ⊢
  simp only [handed, unwritten] at hqueue ⊢
  rw [hqueue]
  simp

lemma data_append_of_ne_zero {kSize : ℕ} {b : FixedBuffer kSize} {line : Bytes}
    (h : (b.append line).1 ≠ 0) : (b.append line).2.data = b.data ++ line := by
  rw [FixedBuffer.append] at h ⊢
  split_ifs with hfits
  · rfl
  · simp [hfits] at h

lemma data_of_appendCurrent {s : AsyncLogger} {line : Bytes} {b : FixedBuffer kLargeBuffer}
    (h : s.appendCurrent line = some b) : b.data = contents s.currentBuffer ++ line := by
  rw [appendCurrent] at h
  cases hcurrent : s.currentBuffer with
  | none => simp [hcurrent] at h
  | some c =>
    simp only [hcurrent, Option.ite_none_right_eq_some, Option.some.injEq] at h
    obtain ⟨-, hne, rfl⟩ := h
    exact data_append_of_ne_zero hne

lemma data_appendSafe_of_empty {kSize : ℕ} {b : FixedBuffer kSize} (hb : b.data = [])
    (line : Bytes) : (b.appendSafe line).2.data = line.take kSize := by
  simp [FixedBuffer.appendSafe, FixedBuffer.avail, hb]

lemma appendSafe_iff_of_empty {kSize : ℕ} {b : FixedBuffer kSize} (hb : b.data = [])
    (line : Bytes) : (b.appendSafe line).1 = true ↔ line.length ≤ kSize := by
  simp [FixedBuffer.appendSafe, FixedBuffer.avail, hb]

/-- What a call of `Append` does. -/
structure Appends (line : Bytes) (s : AsyncLogger) (r : Bool × AsyncLogger) : Prop where
  total : r.2.handed ++ contents r.2.currentBuffer =
    s.handed ++ contents s.currentBuffer ++ (AppendCall.mk line r.1).stored
  handed : s.handed <+: r.2.handed
  refused : r.1 = false → line = [] ∨ kLargeBuffer < line.length
  next : contents r.2.nextBuffer = []
  eq : r.2 =
    { s with
      buffers := r.2.buffers, currentBuffer := r.2.currentBuffer, nextBuffer := r.2.nextBuffer }

lemma appends_nil {s : AsyncLogger} (hspare : s.Spare) : Appends [] s (false, s) where
  total := by simp [AppendCall.stored]
  handed := List.prefix_rfl
  refused := fun _ => .inl rfl
  next := hspare.next
  eq := rfl

lemma appends_current {s : AsyncLogger} {line : Bytes} {b : FixedBuffer kLargeBuffer}
    (hspare : s.Spare) (h : s.appendCurrent line = some b) :
    Appends line s (true, { s with currentBuffer := some b }) where
  total := by simp [AppendCall.stored, data_of_appendCurrent h, AsyncLogger.handed, unwritten]
  handed := List.prefix_rfl
  refused := by simp
  next := hspare.next
  eq := rfl

lemma append_spec {s : AsyncLogger} (hspare : s.Spare) (hrunning : s.running = true)
    (line : Bytes) : Appends line s (s.append line) := by
  by_cases hline : line = []
  · subst hline
    simp only [append, or_true, if_true]
    exact appends_nil hspare
  have hguard : ¬(s.running = false ∨ line = []) := by simp [hrunning, hline]
  rw [append, if_neg hguard]
  cases hcurrent : s.appendCurrent line with
  | some b => exact appends_current hspare hcurrent
  | none =>
    -- the spare buffer, or a new one
    have hempty : (s.nextBuffer.getD .empty).data = [] := by
      have hnext := hspare.next
      cases hn : s.nextBuffer with
      | none => rfl
      | some b => simpa [hn] using hnext
    have hqueue := s.joined_queueCurrent none
    have hnext : (s.queueCurrent none).nextBuffer = s.nextBuffer := by rw [queueCurrent_eq]
    simp only [hnext]
    rw [queueCurrent_eq]
    split_ifs with hfits
    · have hlength := (appendSafe_iff_of_empty hempty line).mp hfits
      have hdata := data_appendSafe_of_empty hempty line
      constructor
      · simp [AppendCall.stored, AsyncLogger.handed, unwritten, hdata,
          List.take_of_length_le hlength, hqueue]
      · simp [AsyncLogger.handed, unwritten, hqueue]
      · simp
      · rfl
      · rfl
    · have hlong : kLargeBuffer < line.length := by
        rw [appendSafe_iff_of_empty hempty] at hfits
        exact not_le.mp hfits
      have hdata := data_appendSafe_of_empty (@data_empty kLargeBuffer) line
      constructor
      · simp [AppendCall.stored, AsyncLogger.handed, unwritten, hdata, hqueue]
      · simp [AsyncLogger.handed, unwritten, hqueue]
      · exact fun _ => .inr hlong
      · rfl
      · rfl

/-- A step of `WriteBuffersToFile`. -/
structure Writes (s : AsyncLogger) (before after : Remainder) (t : AsyncLogger) : Prop where
  total : t.file ++ t.stream ++ joined after.held ++ joined t.buffers ++ contents t.currentBuffer =
    s.file ++ s.stream ++ joined before.held ++ joined s.buffers ++ contents s.currentBuffer
  handed : s.file ++ s.stream ++ joined before.held ++ joined s.buffers <+:
    t.file ++ t.stream ++ joined after.held ++ joined t.buffers
  drained : (before ≠ .collect → joined s.buffers = [] ∧ contents s.currentBuffer = []) →
    joined t.buffers = [] ∧ contents t.currentBuffer = []
  flushed : after = .done → t.stream = []
  eq : t =
    { s with
      buffers := t.buffers, currentBuffer := t.currentBuffer, stream := t.stream, file := t.file }

lemma writeRemainder_spec {s t : AsyncLogger} {before after : Remainder}
    (h : s.writeRemainder before = some (after, t)) : Writes s before after t := by
  cases before with
  | collect =>
    have hqueue := s.joined_queueCurrent none
    have hcurrent := contents_queueCurrent (s := s) contents_none
    rw [writeRemainder, collect, queueCurrent_eq] at h
    cases h
    constructor
    · simp [Remainder.held, hqueue, hcurrent]
    · simp [Remainder.held, hqueue]
    · simp [hcurrent]
    · simp
    · rfl
  | write buffers =>
    cases buffers with
    | nil =>
      cases h
      constructor
      · simp [Remainder.held, fflush]
      · simp [Remainder.held, fflush]
      · intro hdrained
        exact hdrained (by simp)
      · intro
        rfl
      · rfl
    | cons buffer rest =>
      cases h
      constructor
      · simp [Remainder.held]
      · simp [Remainder.held]
      · intro hdrained
        exact hdrained (by simp)
      · simp
      · rfl
  | done => simp [writeRemainder] at h

/-! ### The steps of the two threads -/

lemma Phases.not_left {s : AsyncLogger} (hs : s.Phases) (hbackend : s.backend ≠ .leave .done)
    (remainder : Remainder) : s.stopper ≠ .leave remainder :=
  fun hstopper => hbackend (hs.left remainder hstopper)

lemma Phases.held_stopper {s : AsyncLogger} (hs : s.Phases) (hbackend : s.backend ≠ .leave .done) :
    s.stopper.held = [] := by
  cases hstopper : s.stopper with
  | leave remainder => exact absurd hstopper (hs.not_left hbackend remainder)
  | _ => rfl

/-- While the backend runs, the other thread has not come past `join`. -/
lemma Phases.of_backend {s t : AsyncLogger} (hs : s.Phases) (hbackend : s.backend ≠ .leave .done)
    (hrunning : t.running = s.running) (hstopper : t.stopper = s.stopper) : t.Phases := by
  have hnot := hs.not_left hbackend
  rw [← hstopper] at hnot
  constructor
  · rw [hrunning, hstopper]
    exact hs.running_iff
  · exact fun remainder h => absurd h (hnot remainder)
  · exact fun remainder h => absurd h (hnot remainder)
  · exact fun h => absurd h (hnot .done)

lemma passes_takeBuffers {s : AsyncLogger} (hs : s.Inv) (hbackend : s.backend = .take) :
    Passes s s.takeBuffers ∧ s.takeBuffers.Spare := by
  have hstopper := hs.phases.held_stopper (by simp [hbackend])
  have hfirst := hs.spare.first
  rw [takeBuffers]
  dsimp only
  split_ifs
  · refine ⟨⟨rfl, rfl, ?_, ?_⟩, hs.spare.second, rfl, rfl⟩
    · simp [AsyncLogger.handed, unwritten, hbackend, hstopper, BackendPc.held, hfirst]
    · simp [AsyncLogger.handed, unwritten, hbackend, hstopper, BackendPc.held]
  · refine ⟨⟨rfl, rfl, ?_, ?_⟩, hs.spare.next, rfl, hs.spare.second⟩
    · simp [AsyncLogger.handed, unwritten, hbackend, hstopper, BackendPc.held, hfirst]
    · simp [AsyncLogger.handed, unwritten, hbackend, hstopper, BackendPc.held]

/-- Nothing but the stream and the backend's own buffers. -/
lemma writeBuffer_eq (s : AsyncLogger) (buffer : BufferPtr) :
    s.writeBuffer buffer =
      { s with
        stream := s.stream ++ contents buffer
        buffer1 := (s.writeBuffer buffer).buffer1
        buffer2 := (s.writeBuffer buffer).buffer2 } := by
  rw [writeBuffer]
  split_ifs with hempty
  · simp [hempty]
  · dsimp only
    split_ifs <;> rfl

lemma Spare.writeBuffer {s : AsyncLogger} (hs : s.Spare) (buffer : BufferPtr) :
    (s.writeBuffer buffer).Spare := by
  rw [AsyncLogger.writeBuffer]
  split_ifs
  · exact hs
  · dsimp only
    split_ifs
    · exact ⟨hs.next, rfl, hs.second⟩
    · exact ⟨hs.next, hs.first, rfl⟩
    · exact ⟨hs.next, hs.first, hs.second⟩

lemma inv_backendStep {s t : AsyncLogger} (hs : s.Inv) (h : s.backendStep = some t) : t.Inv := by
  rw [backendStep] at h
  cases hbackend : s.backend with
  | check =>
    simp only [hbackend, Option.some.injEq] at h
    subst h
    have hne : s.backend ≠ .leave .done := by simp [hbackend]
    refine hs.passes ⟨rfl, rfl, ?_, ?_⟩ (hs.spare.congr rfl rfl rfl)
        (hs.phases.of_backend hne rfl rfl)
    all_goals cases s.running <;> simp [handed, unwritten, hbackend, BackendPc.held, Remainder.held]
  | take =>
    simp only [hbackend, Option.some.injEq] at h
    subst h
    obtain ⟨hpasses, hspare⟩ := passes_takeBuffers hs hbackend
    refine hs.passes hpasses hspare (hs.phases.of_backend (by simp [hbackend]) ?_ ?_)
    all_goals rw [takeBuffers]; dsimp only; split_ifs <;> rfl
  | write buffers =>
    have hne : s.backend ≠ .leave .done := by simp [hbackend]
    cases buffers with
    | nil =>
      simp only [hbackend, Option.some.injEq] at h
      subst h
      refine hs.passes ⟨rfl, rfl, ?_, ?_⟩ (hs.spare.congr rfl rfl rfl)
        (hs.phases.of_backend hne rfl rfl)
      all_goals simp [handed, unwritten, hbackend, BackendPc.held, fflush]
    | cons buffer rest =>
      simp only [hbackend, Option.some.injEq] at h
      subst h
      have hspare := hs.spare.writeBuffer buffer
      rw [writeBuffer_eq] at hspare ⊢
      refine hs.passes ⟨rfl, rfl, ?_, ?_⟩ (hspare.congr rfl rfl rfl)
        (hs.phases.of_backend hne rfl rfl)
      all_goals simp [handed, unwritten, hbackend, BackendPc.held]
  | notify =>
    simp only [hbackend, Option.some.injEq] at h
    subst h
    have hne : s.backend ≠ .leave .done := by simp [hbackend]
    refine hs.passes ⟨rfl, rfl, ?_, ?_⟩ (hs.spare.congr rfl rfl rfl)
        (hs.phases.of_backend hne rfl rfl)
    all_goals simp [handed, unwritten, hbackend, BackendPc.held]
  | leave remainder =>
    simp only [hbackend, Option.map_eq_some_iff, Prod.exists] at h
    obtain ⟨after, u, hwrite, rfl⟩ := h
    have hne : s.backend ≠ .leave .done := by
      rintro hdone
      cases hbackend.symm.trans hdone
      cases hwrite
    have hstopper := hs.phases.held_stopper hne
    obtain ⟨htotal, hhanded, -, -, heq⟩ := writeRemainder_spec hwrite
    rw [heq]
    refine hs.passes ⟨rfl, rfl, ?_, ?_⟩ (hs.spare.congr rfl rfl rfl)
        (hs.phases.of_backend hne rfl rfl)
    · simpa [handed, unwritten, hbackend, hstopper, BackendPc.held] using htotal
    · simpa [handed, unwritten, hbackend, hstopper, BackendPc.held] using hhanded

lemma inv_stopStep {s t : AsyncLogger} (hs : s.Inv) (h : s.stopStep = some t) : t.Inv := by
  rw [stopStep] at h
  cases hstopper : s.stopper with
  | idle =>
    simp only [hstopper, Option.some.injEq] at h
    subst h
    refine hs.passes ⟨rfl, rfl, ?_, ?_⟩ (hs.spare.congr rfl rfl rfl) ⟨?_, ?_, ?_, ?_⟩
    all_goals simp [handed, unwritten, hstopper, StopPc.held]
  | join =>
    simp only [hstopper, Option.ite_none_right_eq_some, Option.some.injEq] at h
    obtain ⟨hdone, rfl⟩ := h
    have hrunning := hs.phases.running_iff
    refine hs.passes ⟨rfl, rfl, ?_, ?_⟩ (hs.spare.congr rfl rfl rfl) ⟨?_, ?_, ?_, ?_⟩
    all_goals simp_all [handed, unwritten, StopPc.held, Remainder.held]
  | leave remainder =>
    simp only [hstopper, Option.map_eq_some_iff, Prod.exists] at h
    obtain ⟨after, u, hwrite, rfl⟩ := h
    have hbackend := hs.phases.left remainder hstopper
    have hrunning := hs.phases.running_iff
    obtain ⟨htotal, hhanded, hdrained, hflushed, heq⟩ := writeRemainder_spec hwrite
    have hempty := hdrained (hs.phases.drained remainder hstopper)
    rw [heq]
    refine hs.passes ⟨rfl, rfl, ?_, ?_⟩ (hs.spare.congr rfl rfl rfl) ⟨?_, ?_, ?_, ?_⟩
    · simpa [handed, unwritten, hbackend, hstopper, BackendPc.held, StopPc.held, Remainder.held]
        using htotal
    · simpa [handed, unwritten, hbackend, hstopper, BackendPc.held, StopPc.held, Remainder.held]
        using hhanded
    · simpa [hstopper] using hrunning
    · exact fun _ _ => hbackend
    · exact fun _ _ _ => hempty
    · intro hdone
      exact hflushed (StopPc.leave.inj hdone)

/-! ### Interleavings -/

lemma Phases.congr {s t : AsyncLogger} (hs : s.Phases) (hrunning : t.running = s.running)
    (hstopper : t.stopper = s.stopper) (hbackend : t.backend = s.backend)
    (hdrained : joined s.buffers = [] ∧ contents s.currentBuffer = [] →
      joined t.buffers = [] ∧ contents t.currentBuffer = [])
    (hflushed : s.stream = [] → t.stream = []) : t.Phases where
  running_iff := by rw [hrunning, hstopper, hs.running_iff]
  left := by
    rw [hstopper, hbackend]
    exact hs.left
  drained := by
    rw [hstopper]
    exact fun remainder h hne => hdrained (hs.drained remainder h hne)
  flushed := by
    rw [hstopper]
    exact fun h => hflushed (hs.flushed h)

lemma inv_append {s : AsyncLogger} (hs : s.Inv) (hidle : s.stopper = .idle) (line : Bytes) :
    Inv { (s.append line).2 with calls := s.calls ++ [⟨line, (s.append line).1⟩] } := by
  have hrunning := hs.phases.running_iff.mpr hidle
  obtain ⟨htotal, hhanded, hrefused, hnext, heq⟩ := append_spec hs.spare hrunning line
  rw [heq] at htotal hhanded ⊢
  constructor
  · rw [stored_append, stored_singleton, ← hs.flow]
    exact htotal
  · exact ⟨hnext, hs.spare.first, hs.spare.second⟩
  · have hnot : ∀ remainder, s.stopper ≠ .leave remainder := by simp [hidle]
    exact ⟨hs.phases.running_iff, fun r h => absurd h (hnot r), fun r h => absurd h (hnot r),
      fun h => absurd h (hnot .done)⟩
  · intro call hcall
    rcases List.mem_append.mp hcall with hcall | hcall
    · exact hs.refused call hcall
    · rw [List.mem_singleton] at hcall
      subst hcall
      exact hrefused
  · intro call hcall
    exact (hs.called call hcall).trans (List.prefix_append _ _)
  · intro call hcall hwaiting
    exact (hs.queued call hcall hwaiting).trans hhanded

lemma inv_flushCall {s : AsyncLogger} (hs : s.Inv) :
    Inv { s with flushes := s.flushes ++ [⟨s.calls, false⟩] } where
  flow := hs.flow
  spare := hs.spare.congr rfl rfl rfl
  phases := hs.phases.congr rfl rfl rfl id id
  refused := hs.refused
  called := by
    intro call hcall
    rcases List.mem_append.mp hcall with hcall | hcall
    · exact hs.called call hcall
    · rw [List.mem_singleton] at hcall
      subst hcall
      exact List.prefix_rfl
  queued := by
    intro call hcall hwaiting
    rcases List.mem_append.mp hcall with hcall | hcall
    · exact hs.queued call hcall hwaiting
    · rw [List.mem_singleton] at hcall
      subst hcall
      cases hwaiting

/-- Behind the section of `Flush` all that has been appended has left the current buffer. -/
lemma inv_flushQueue {s : AsyncLogger} (hs : s.Inv) {call : FlushCall} (hmem : call ∈ s.flushes)
    (i : ℕ) : Inv { s.flush with flushes := s.flushes.set i { call with waiting := true } } := by
  have hhanded := s.handed_queueCurrent (some .empty)
  have hcurrent := contents_queueCurrent (s := s) (contents_some .empty)
  have hqueue := s.joined_queueCurrent (some .empty)
  rw [flush, queueCurrent_eq] at *
  have hflow := hs.flow
  rw [← hhanded] at hflow
  constructor
  · rw [hcurrent, List.append_nil]
    exact hflow
  · exact hs.spare.congr rfl rfl rfl
  · refine hs.phases.congr rfl rfl rfl ?_ id
    rintro ⟨hbuffers, hempty⟩
    exact ⟨by simpa [hbuffers, hempty] using hqueue, hcurrent⟩
  · exact hs.refused
  · intro other hother
    rcases List.mem_or_eq_of_mem_set hother with hother | rfl
    · exact hs.called other hother
    · exact hs.called call hmem
  · intro other hother hwaiting
    rcases List.mem_or_eq_of_mem_set hother with hother | rfl
    · apply (hs.queued other hother hwaiting).trans
      apply (List.prefix_append _ _).trans
      rw [← hhanded]
      exact List.prefix_rfl
    · apply (stored_mono (hs.called call hmem)).trans
      rw [← hflow]
      exact List.prefix_rfl

lemma inv_step {s t : AsyncLogger} {move : Move} (hs : s.Inv) (h : s.step move = some t) :
    t.Inv := by
  cases move with
  | append line =>
    simp only [step, Option.ite_none_right_eq_some, Option.some.injEq] at h
    obtain ⟨hidle, rfl⟩ := h
    exact inv_append hs hidle line
  | flushCall =>
    simp only [step, Option.ite_none_right_eq_some, Option.some.injEq] at h
    obtain ⟨-, rfl⟩ := h
    exact inv_flushCall hs
  | flushQueue i =>
    simp only [step] at h
    split at h
    · cases h
    · rename_i call hcall
      simp only [Option.ite_none_left_eq_some, Option.some.injEq] at h
      obtain ⟨-, rfl⟩ := h
      exact inv_flushQueue hs (List.mem_of_getElem? hcall) i
  | flushReturn i =>
    simp only [step] at h
    split at h
    · cases h
    · simp only [Option.ite_none_right_eq_some, Option.some.injEq] at h
      obtain ⟨-, rfl⟩ := h
      constructor
      · exact hs.flow
      · exact hs.spare.congr rfl rfl rfl
      · exact hs.phases.congr rfl rfl rfl id id
      · exact hs.refused
      · exact fun other hother => hs.called other (List.mem_of_mem_eraseIdx hother)
      · exact fun other hother => hs.queued other (List.mem_of_mem_eraseIdx hother)
  | backend => exact inv_backendStep hs h
  | stop => exact inv_stopStep hs h
  | commit n =>
    cases h
    have hcut := List.take_append_drop n s.stream
    refine hs.passes ⟨rfl, rfl, ?_, ?_⟩ (hs.spare.congr rfl rfl rfl)
      (hs.phases.congr rfl rfl rfl id ?_)
    · simp only [handed, unwritten, List.append_assoc]
      rw [← List.append_assoc (s.stream.take n), hcut]
    · simp only [handed, unwritten, List.append_assoc]
      rw [← List.append_assoc (s.stream.take n), hcut]
    · intro hstream
      simp [hstream]

theorem inv_of_reachable {s : AsyncLogger} (h : Reachable step started s) : s.Inv :=
  h.invariant step (fun _ _ _ hs hstep => inv_step hs hstep) inv_started

/-! ### `Flush` -/

/-- Every line that was accepted before the call stands in the file, in its place. -/
def Flushed (s : AsyncLogger) (call : FlushCall) : Prop :=
  ∀ earlier last, earlier ++ [last] <+: call.before → last.result = true →
    stored (earlier ++ [last]) <+: s.file

lemma file_of_inv {s : AsyncLogger} (hs : s.Inv) : s.file <+: stored s.calls := by
  rw [← hs.flow, handed, List.append_assoc, List.append_assoc]
  apply List.prefix_append

/-- What the calls before the `Flush` left, when it returns: the file, and what is held. -/
lemma stored_before {s t : AsyncLogger} (hs : s.Inv) {i : ℕ} {call : FlushCall}
    (hcall : s.flushes[i]? = some call) (hreturn : s.step (.flushReturn i) = some t) :
    stored call.before <+: s.file ++ s.unwritten ∧ t.file = s.file := by
  simp only [step, hcall, Option.ite_none_right_eq_some, Option.some.injEq] at hreturn
  obtain ⟨⟨hwaiting, hempty⟩, rfl⟩ := hreturn
  have hqueued := hs.queued call (List.mem_of_getElem? hcall) hwaiting
  rw [handed, hempty, joined_nil, List.append_nil] at hqueued
  exact ⟨hqueued, rfl⟩

/-- When a call of `Flush` returns, the backend holds nothing that it has taken: all of it has been
written, and the stream is empty. -/
def Settled (s : AsyncLogger) : Move → Prop
  | .flushReturn _ => s.unwritten = []
  | _ => True

/-- The wait looks at the queue alone. In a run where no call of `Flush` returns while the backend
is busy with what it took from the queue, every call that returns has flushed. -/
theorem flushed_of_settled {ms : List Move}
    (hsettled : ∀ ms' m s, ms' ++ [m] <+: ms → run step started ms' = some s → s.Settled m) :
    ∀ ms' i s t call, ms' ++ [.flushReturn i] <+: ms → run step started ms' = some s →
      s.flushes[i]? = some call → s.step (.flushReturn i) = some t → t.Flushed call := by
  intro ms' i s t call hbegins hs hcall hreturn earlier last hbefore _
  have hnone : s.unwritten = [] := hsettled ms' _ s hbegins hs
  obtain ⟨hstored, hfile⟩ := stored_before (inv_of_reachable ⟨ms', hs⟩) hcall hreturn
  rw [hnone, List.append_nil] at hstored
  rw [hfile]
  exact (stored_mono hbefore).trans hstored

/-- With nothing appended since the call, it has flushed only if the backend held nothing. -/
theorem settled_of_flushed {s t : AsyncLogger} (h : Reachable step started s) {i : ℕ}
    {call : FlushCall} (hcall : s.flushes[i]? = some call)
    (hreturn : s.step (.flushReturn i) = some t) (hlast : call.before = s.calls)
    (haccepted : ∀ last ∈ s.calls.getLast?, last.result = true) (hflushed : t.Flushed call) :
    s.Settled (.flushReturn i) := by
  have hs := inv_of_reachable h
  obtain ⟨-, hfile⟩ := stored_before hs hcall hreturn
  have hwhole : stored s.calls <+: s.file := by
    rcases List.eq_nil_or_concat s.calls with hnil | ⟨earlier, last, hcalls⟩
    · rw [hnil]
      exact List.nil_prefix
    · rw [List.concat_eq_append] at hcalls
      have hbefore : earlier ++ [last] <+: call.before := by rw [hlast, hcalls]
      have hresult := haccepted last (by rw [hcalls, List.getLast?_concat]; rfl)
      rw [hcalls, ← hfile]
      exact hflushed earlier last hbefore hresult
  have hlength := hwhole.length_le
  rw [← hs.flow, handed] at hlength
  simp only [List.length_append] at hlength
  exact List.eq_nil_of_length_eq_zero (by omega)

/-- A line, a flush, and the backend that takes the line and writes it. -/
def awaited : List Move :=
  [.append [97], .flushCall, .flushQueue 0, .backend, .backend, .backend, .backend, .backend]

theorem flushed_of_settled_awaited :
    ∃ s t, run step started awaited = some s ∧ s.step (.flushReturn 0) = some t ∧
      t.Flushed ⟨[⟨[97], true⟩], true⟩ := by
  have hrun : (run step started awaited).any (fun s => s.flushes = [⟨[⟨[97], true⟩], true⟩] ∧
      s.unwritten = [] ∧ (s.step (.flushReturn 0)).isSome) = true := by decide +kernel
  obtain ⟨s, hs, hstate⟩ := (Option.any_eq_true _ _).mp hrun
  obtain ⟨hflushes, hunwritten, hreturn⟩ := of_decide_eq_true hstate
  obtain ⟨t, ht⟩ := Option.isSome_iff_exists.mp hreturn
  have hcall : s.flushes[0]? = some ⟨[⟨[97], true⟩], true⟩ := congrArg (·[0]?) hflushes
  have hsettled : ∀ ms' m u, ms' ++ [m] <+: awaited ++ [.flushReturn 0] →
      run step started ms' = some u → u.Settled m := by
    intro ms' m u hbegins hu
    rcases List.prefix_concat_iff.mp hbegins with heq | hbegins
    · obtain ⟨rfl, heq⟩ := List.append_inj' heq rfl
      cases heq
      cases hs.symm.trans hu
      exact hunwritten
    · have hother : ∀ m ∈ awaited, ∀ i, m ≠ .flushReturn i := by simp [awaited]
      have hm := hother m (mem_of_snoc_isPrefix hbegins)
      cases m with
      | flushReturn i => exact absurd rfl (hm i)
      | _ => trivial
  exact ⟨s, t, hs, ht, flushed_of_settled hsettled awaited 0 s t _ List.prefix_rfl hs hcall ht⟩

/-- A line, the backend that takes it, and a flush that comes before the write. -/
def overtaken : List Move :=
  [.append [97], .backend, .backend, .flushCall, .flushQueue 0]

/-- The flush returns and the file is empty. -/
theorem not_flushed_overtaken :
    ¬ ∀ (s t : AsyncLogger) (i : ℕ) (call : FlushCall), Reachable step started s →
      s.running = true → s.flushes[i]? = some call → s.step (.flushReturn i) = some t →
        t.Flushed call := by
  intro hall
  have hrun : (run step started overtaken).any (fun s => s.running = true ∧
      s.flushes = [⟨[⟨[97], true⟩], true⟩] ∧
      (s.step (.flushReturn 0)).any (·.file = [])) = true := by decide +kernel
  obtain ⟨s, hs, hstate⟩ := (Option.any_eq_true _ _).mp hrun
  obtain ⟨hrunning, hflushes, hreturn⟩ := of_decide_eq_true hstate
  obtain ⟨t, ht, hfile⟩ := (Option.any_eq_true _ _).mp hreturn
  have hcall : s.flushes[0]? = some ⟨[⟨[97], true⟩], true⟩ := congrArg (·[0]?) hflushes
  have hflushed := hall s t 0 _ ⟨_, hs⟩ hrunning hcall ht [] ⟨[97], true⟩ List.prefix_rfl rfl
  rw [of_decide_eq_true hfile] at hflushed
  exact absurd (List.prefix_nil.mp hflushed) (by decide)

/-! ### `Stop` -/

theorem stored_eq_accepted {s : AsyncLogger} (hs : s.Inv)
    (hlines : ∀ call ∈ s.calls, 1 ≤ call.line.length ∧ call.line.length ≤ 4096000) :
    stored s.calls = (s.calls.filter (·.result)).flatMap (·.line) := by
  have haccepted : ∀ call ∈ s.calls, call.result = true := by
    intro call hcall
    by_contra hresult
    rw [Bool.not_eq_true] at hresult
    obtain ⟨hpos, hle⟩ := hlines call hcall
    rcases hs.refused call hcall hresult with hempty | hlong
    · rw [hempty] at hpos
      cases hpos
    · exact absurd hle (not_le.mpr hlong)
  rw [List.filter_eq_self.mpr haccepted, stored]
  apply List.flatMap_congr
  intro call hcall
  rw [AppendCall.stored, if_pos (haccepted call hcall)]

/-- The lines that were accepted, in order, are what is in the file in the end. -/
theorem file_of_stopped {s : AsyncLogger} (h : Reachable step started s)
    (hstopped : s.stopper = .leave .done)
    (hlines : ∀ call ∈ s.calls, 1 ≤ call.line.length ∧ call.line.length ≤ 4096000) :
    s.file = (s.calls.filter (·.result)).flatMap (·.line) := by
  have hs := inv_of_reachable h
  have hbackend := hs.phases.left _ hstopped
  obtain ⟨hbuffers, hcurrent⟩ := hs.phases.drained _ hstopped (by simp)
  rw [← stored_eq_accepted hs hlines, ← hs.flow]
  simp [handed, unwritten, hs.phases.flushed hstopped, hbackend, hstopped, hbuffers, hcurrent,
    BackendPc.held, StopPc.held, Remainder.held]

/-- Two lines, the second of which the backend takes after `Stop` has begun. -/
def stopped : List Move :=
  [.append [97], .backend, .backend, .backend, .backend, .append [98], .backend, .backend, .stop,
    .backend, .backend, .backend, .backend, .backend, .backend, .backend, .stop, .stop, .stop]

theorem file_of_stopped_two : ∃ s, run step started stopped = some s ∧ s.file = [97, 98] := by
  have hrun : (run step started stopped).any (fun s => s.stopper = .leave .done ∧
      s.calls = [⟨[97], true⟩, ⟨[98], true⟩]) = true := by decide +kernel
  obtain ⟨s, hs, hstate⟩ := (Option.any_eq_true _ _).mp hrun
  obtain ⟨hstopped, hcalls⟩ := of_decide_eq_true hstate
  refine ⟨s, hs, ?_⟩
  have hfile := file_of_stopped ⟨stopped, hs⟩ hstopped (by simp [hcalls])
  rw [hfile, hcalls]
  rfl

end AsyncLogger

end TinyWebServer
