import TinyWebServer.Log.StructuredLogger

/-!
# The files of the structured logger

Each entry that is logged goes to the logger that is installed, and there it becomes the next line
of the file: at any time the file holds the first lines and perhaps a part of the next one, and
when the logger has been destroyed it holds them all.
-/

namespace TinyWebServer

open AsyncLogger Runs

variable {localtimeR : ℤ → Option Tm}

namespace LogRecord

variable {record : LogRecord}

lemma formatted_ne_nil (record : LogRecord) (localtimeR : ℤ → Option Tm) :
    record.formatted localtimeR ≠ [] := by
  rw [formatted]
  split_ifs
  · rw [StructuredLogEntry.toJson_eq]
    exact List.cons_ne_nil _ _
  · simp [StructuredLogEntry.toColoredText, bytes]
  · simp [StructuredLogEntry.toText, bytes]

lemma line_eq (record : LogRecord) :
    record.line localtimeR = record.text localtimeR ++ [Bytes.lf] := by
  have hne := record.formatted_ne_nil localtimeR
  rw [text, line]
  split_ifs with hadd
  · rw [List.dropLast_concat]
  · have hlast : (record.formatted localtimeR).getLast? = some Bytes.lf := by
      by_contra hlast
      exact hadd ⟨hne, hlast⟩
    exact (List.dropLast_append_getLast? _ hlast).symm

/-- A record in JSON ends in a brace. -/
lemma text_of_json (h : record.format = bytes "json") :
    record.text localtimeR = record.entry.toJson := by
  have hformatted : record.formatted localtimeR = record.entry.toJson := if_pos h
  have hbrace : bytes "\x7d" = [125] := rfl
  have hlast : record.entry.toJson.getLast? ≠ some Bytes.lf := by
    rw [StructuredLogEntry.toJson, hbrace, List.getLast?_concat]
    simp [Bytes.lf]
  have hne := record.formatted_ne_nil localtimeR
  rw [hformatted] at hne
  rw [text, line, hformatted, if_pos ⟨hne, hlast⟩, List.dropLast_concat]

end LogRecord

namespace AsyncLogger

variable {s t : AsyncLogger}

/-! ### What the asynchronous logger accepts -/

/-- A line that is accepted has room in a buffer. -/
lemma length_le_of_append {line : Bytes} (hspare : s.Spare) (h : (s.append line).1 = true) :
    line.length ≤ kLargeBuffer := by
  rw [append] at h
  split_ifs at h with hguard
  cases hcurrent : s.appendCurrent line with
  | some b =>
    have hdata := congrArg List.length (data_of_appendCurrent hcurrent)
    have hle := b.length_le
    rw [hdata, List.length_append] at hle
    exact (Nat.le_add_left ..).trans hle
  | none =>
    have hempty : (s.nextBuffer.getD .empty).data = [] := by
      have hnext := hspare.next
      cases hn : s.nextBuffer with
      | none => rfl
      | some b => simpa [hn] using hnext
    have hnext : (s.queueCurrent none).nextBuffer = s.nextBuffer := by rw [queueCurrent_eq]
    simp only [hcurrent, hnext] at h
    split_ifs at h with hfits
    exact (appendSafe_iff_of_empty hempty line).mp hfits

lemma calls_of_writeRemainder {before after : Remainder}
    (h : s.writeRemainder before = some (after, t)) :
    t.calls = s.calls ∧ t.stopper = s.stopper := by
  rw [(writeRemainder_spec h).eq]
  exact ⟨rfl, rfl⟩

lemma calls_of_backendStep (h : s.backendStep = some t) :
    t.calls = s.calls ∧ t.stopper = s.stopper := by
  rw [backendStep] at h
  split at h
  · cases h
    exact ⟨rfl, rfl⟩
  · cases h
    rw [takeBuffers]
    split_ifs
    all_goals exact ⟨rfl, rfl⟩
  · cases h
    simp only [writeBuffer]
    split_ifs
    all_goals exact ⟨rfl, rfl⟩
  · cases h
    exact ⟨rfl, rfl⟩
  · cases h
    exact ⟨rfl, rfl⟩
  · simp only [Option.map_eq_some_iff, Prod.exists] at h
    obtain ⟨after, u, hwrite, rfl⟩ := h
    have hframe := calls_of_writeRemainder hwrite
    exact hframe

/-- Only a call of `Append` changes what has been appended, and only `Stop` the thread in it. -/
lemma calls_of_besides {m : Move} (hm : StructuredLogManager.besides m = true)
    (h : s.step m = some t) : t.calls = s.calls ∧ t.stopper = s.stopper := by
  cases m with
  | append line => cases hm
  | stop => cases hm
  | flushCall =>
    simp only [step, Option.ite_none_right_eq_some, Option.some.injEq] at h
    obtain ⟨-, rfl⟩ := h
    exact ⟨rfl, rfl⟩
  | flushQueue i =>
    simp only [step] at h
    split at h
    · cases h
    · simp only [Option.ite_none_left_eq_some, Option.some.injEq] at h
      obtain ⟨-, rfl⟩ := h
      rw [flush, queueCurrent_eq]
      exact ⟨rfl, rfl⟩
  | flushReturn i =>
    simp only [step] at h
    split at h
    · cases h
    · simp only [Option.ite_none_right_eq_some, Option.some.injEq] at h
      obtain ⟨-, rfl⟩ := h
      exact ⟨rfl, rfl⟩
  | backend => exact calls_of_backendStep h
  | commit n =>
    cases h
    exact ⟨rfl, rfl⟩

lemma calls_of_stop (h : s.step .stop = some t) : t.calls = s.calls := by
  rw [step, stopStep] at h
  split at h
  · cases h
    rfl
  · simp only [Option.ite_none_right_eq_some, Option.some.injEq] at h
    obtain ⟨-, rfl⟩ := h
    rfl
  · simp only [Option.map_eq_some_iff, Prod.exists] at h
    obtain ⟨after, u, hwrite, rfl⟩ := h
    exact (calls_of_writeRemainder hwrite).1

lemma calls_of_append {line : Bytes} (hs : s.Inv) (h : s.step (.append line) = some t) :
    t.calls = s.calls ++ [⟨line, (s.append line).1⟩] ∧ t.stopper = .idle := by
  simp only [step, Option.ite_none_right_eq_some, Option.some.injEq] at h
  obtain ⟨hidle, rfl⟩ := h
  have hrunning := hs.phases.running_iff.mpr hidle
  rw [(append_spec hs.spare hrunning line).eq]
  exact ⟨rfl, hidle⟩

/-- What the file owes to the calls. -/
structure Holds (s : AsyncLogger) : Prop extends Inv s where
  accepted : ∀ call ∈ s.calls, call.result = true → call.line.length ≤ kLargeBuffer

lemma holds_step {m : Move} (hs : s.Holds) (h : s.step m = some t) : t.Holds := by
  refine ⟨inv_step hs.toInv h, ?_⟩
  cases m with
  | append line =>
    rw [(calls_of_append hs.toInv h).1]
    intro call hcall
    rcases List.mem_append.mp hcall with hcall | hcall
    · exact hs.accepted call hcall
    · rw [List.mem_singleton] at hcall
      subst hcall
      exact length_le_of_append hs.spare
  | stop =>
    rw [calls_of_stop h]
    exact hs.accepted
  | _ =>
    rw [(calls_of_besides rfl h).1]
    exact hs.accepted

lemma holds_started : started.Holds := ⟨inv_started, by simp [started]⟩

/-! ### The lines of a file -/

lemma stored_isPrefix (call : AppendCall) : call.stored <+: call.line := by
  rw [AppendCall.stored]
  split_ifs
  · exact List.prefix_rfl
  · exact List.take_prefix _ _

lemma length_stored (hs : s.Holds) {call : AppendCall} (hcall : call ∈ s.calls) :
    call.stored.length ≤ call.line.length ∧
      (call.stored.length = call.line.length ↔ call.line.length ≤ kLargeBuffer) := by
  rw [AppendCall.stored]
  split_ifs with hresult
  · exact ⟨le_rfl, iff_of_true rfl (hs.accepted call hcall hresult)⟩
  · rw [List.length_take, min_eq_right_iff]
    exact ⟨min_le_right .., Iff.rfl⟩

end AsyncLogger

namespace AsyncStructuredLogger

variable {l l' : AsyncStructuredLogger}

/-- The lines that have been appended are those of the records. -/
structure Inv (localtimeR : ℤ → Option Tm) (l : AsyncStructuredLogger) : Prop where
  holds : l.asyncLogger.Holds
  lines : l.asyncLogger.calls.map (·.line) = l.records.map (·.line localtimeR)

lemma inv_construct (format : Bytes) (steps : ℕ) :
    (construct format steps).Inv localtimeR ∧
      (construct format steps).asyncLogger.stopper = .idle := by
  have hall : ((fun s => s.backendStep.getD s)^[steps] started).Holds ∧
      ((fun s => s.backendStep.getD s)^[steps] started).calls = [] ∧
      ((fun s => s.backendStep.getD s)^[steps] started).stopper = .idle := by
    induction steps with
    | zero => exact ⟨holds_started, rfl, rfl⟩
    | succ steps ih =>
      rw [Function.iterate_succ_apply']
      generalize (fun s => s.backendStep.getD s)^[steps] started = s at ih
      cases hstep : s.backendStep with
      | none => exact ih
      | some t =>
        obtain ⟨hcalls, hstopper⟩ := calls_of_backendStep hstep
        exact ⟨holds_step (m := .backend) ih.1 hstep, hcalls.trans ih.2.1, hstopper.trans ih.2.2⟩
  exact ⟨⟨hall.1, by rw [construct, hall.2.1]; rfl⟩, hall.2.2⟩

lemma Inv.append {record : LogRecord} (hl : l.Inv localtimeR)
    (h : l.append localtimeR record = some l') :
    l'.Inv localtimeR ∧ l'.asyncLogger.stopper = .idle ∧ l'.records = l.records ++ [record] := by
  obtain ⟨t, ht, rfl⟩ := Option.map_eq_some_iff.mp h
  obtain ⟨hcalls, hidle⟩ := calls_of_append hl.holds.toInv ht
  refine ⟨⟨holds_step hl.holds ht, ?_⟩, hidle, rfl⟩
  rw [hcalls, List.map_append, hl.lines, List.map_append]
  rfl

lemma Inv.besides {m : AsyncLogger.Move} (hl : l.Inv localtimeR)
    (hm : StructuredLogManager.besides m = true) (h : l.move m = some l') :
    l'.Inv localtimeR ∧ l'.asyncLogger.stopper = l.asyncLogger.stopper ∧
      l'.records = l.records := by
  obtain ⟨t, ht, rfl⟩ := Option.map_eq_some_iff.mp h
  obtain ⟨hcalls, hstopper⟩ := calls_of_besides hm ht
  exact ⟨⟨holds_step hl.holds ht, (congrArg _ hcalls).trans hl.lines⟩, hstopper, rfl⟩

lemma Inv.stop (hl : l.Inv localtimeR) (h : l.move .stop = some l') :
    l'.Inv localtimeR ∧ l'.records = l.records := by
  obtain ⟨t, ht, rfl⟩ := Option.map_eq_some_iff.mp h
  exact ⟨⟨holds_step hl.holds ht, (congrArg _ (calls_of_stop ht)).trans hl.lines⟩, rfl⟩

/-- A property of the lines in terms of the records. -/
lemma Inv.forall_line (hl : l.Inv localtimeR) (p : Bytes → Prop) :
    (∀ call ∈ l.asyncLogger.calls, p call.line) ↔ ∀ r ∈ l.records, p (r.line localtimeR) := by
  have hlines := hl.lines
  constructor
  · intro h r hr
    have hmem : r.line localtimeR ∈ l.asyncLogger.calls.map (·.line) :=
      hlines ▸ List.mem_map_of_mem hr
    obtain ⟨call, hcall, heq⟩ := List.mem_map.mp hmem
    exact heq ▸ h call hcall
  · intro h call hcall
    have hmem : call.line ∈ l.records.map (·.line localtimeR) :=
      hlines ▸ List.mem_map_of_mem hcall
    obtain ⟨r, hr, heq⟩ := List.mem_map.mp hmem
    exact heq ▸ h r hr

lemma ended_texts (l : AsyncStructuredLogger) :
    Lines.ended Bytes.lf (l.texts localtimeR) = l.records.flatMap (·.line localtimeR) := by
  rw [Lines.ended, texts, List.flatMap_map]
  exact List.flatMap_congr fun r _ => r.line_eq.symm

lemma Inv.flatMap_line (hl : l.Inv localtimeR) :
    l.asyncLogger.calls.flatMap (·.line) = Lines.ended Bytes.lf (l.texts localtimeR) := by
  rw [ended_texts, List.flatMap_def, hl.lines, ← List.flatMap_def]

/-- Nothing is cut if and only if each record has room in a buffer. -/
lemma Inv.stored_eq_iff (hl : l.Inv localtimeR) :
    stored l.asyncLogger.calls = Lines.ended Bytes.lf (l.texts localtimeR) ↔
      ∀ r ∈ l.records, (r.line localtimeR).length ≤ kLargeBuffer := by
  rw [← hl.flatMap_line, ← hl.forall_line (fun line => line.length ≤ kLargeBuffer)]
  constructor
  · -- a call that has been cut leaves fewer bytes than it was given
    intro h call hcall
    by_contra hlong
    have hlt : ((l.asyncLogger.calls.map (·.stored.length)).sum <
        (l.asyncLogger.calls.map (·.line.length)).sum) := by
      apply List.sum_lt_sum
      · exact fun call hcall => (length_stored hl.holds hcall).1
      · obtain ⟨hle, heq⟩ := length_stored hl.holds hcall
        exact ⟨call, hcall, lt_of_le_of_ne hle fun h => hlong (heq.mp h)⟩
    have hlength := congrArg List.length h
    rw [stored, List.length_flatMap, List.length_flatMap] at hlength
    exact hlt.ne hlength
  · intro h
    apply List.flatMap_congr
    intro call hcall
    obtain ⟨-, heq⟩ := length_stored hl.holds hcall
    exact (stored_isPrefix call).eq_of_length (heq.mpr (h call hcall))

/-- The file holds a front part of the lines, if none has been cut. -/
lemma Inv.file_isPrefix (hl : l.Inv localtimeR)
    (h : ∀ r ∈ l.records, (r.line localtimeR).length ≤ kLargeBuffer) :
    l.asyncLogger.file <+: Lines.ended Bytes.lf (l.texts localtimeR) := by
  rw [← hl.stored_eq_iff.mpr h]
  exact file_of_inv hl.holds.toInv

/-- In the end the file holds what has been stored. -/
lemma Inv.file_of_done (hl : l.Inv localtimeR) (hdone : l.asyncLogger.stopper = .leave .done) :
    l.asyncLogger.file = stored l.asyncLogger.calls := by
  have hs := hl.holds.toInv
  have hbackend := hs.phases.left _ hdone
  obtain ⟨hbuffers, hcurrent⟩ := hs.phases.drained _ hdone (by simp)
  rw [← hs.flow]
  simp [handed, unwritten, hs.phases.flushed hdone, hbackend, hdone, hbuffers, hcurrent,
    BackendPc.held, StopPc.held, Remainder.held]

lemma forall_text (l : AsyncStructuredLogger) (p : Bytes → Prop) :
    (∀ text ∈ l.texts localtimeR, p text) ↔ ∀ r ∈ l.records, p (r.text localtimeR) :=
  List.forall_mem_map

/-- What can be read in the file at any time. -/
lemma Inv.breaksOff (hl : l.Inv localtimeR) (h : ∀ r ∈ l.records, r.Whole localtimeR) :
    Lines.BreaksOff (l.texts localtimeR) l.fileLines := by
  apply Lines.breaksOff_of_prefix
  · exact (l.forall_text (Bytes.lf ∉ ·)).mpr fun r hr => (h r hr).single
  · exact hl.file_isPrefix fun r hr => (h r hr).fits

/-- What can be read in the file in the end. -/
lemma Inv.fileLines_iff (hl : l.Inv localtimeR) (hdone : l.asyncLogger.stopper = .leave .done) :
    l.fileLines = l.texts localtimeR ++ [[]] ↔ ∀ r ∈ l.records, r.Whole localtimeR := by
  rw [fileLines, Lines.splitOn_ended_iff, hl.file_of_done hdone, hl.stored_eq_iff,
    l.forall_text (Bytes.lf ∉ ·), ← forall₂_and]
  exact forall₂_congr fun r _ => ⟨fun h => ⟨h.1, h.2⟩, fun h => ⟨h.fits, h.single⟩⟩

end AsyncStructuredLogger

/-! ### The manager -/

def ManagerCall.old : ManagerCall → Option AsyncStructuredLogger
  | destroy old => some old
  | _ => none

namespace StructuredLogManager

/-- The logger that is being destroyed. -/
def replaced (s : StructuredLogManager) : Option AsyncStructuredLogger := s.call.bind (·.old)

/-- All loggers in the order in which they were installed. -/
def loggers (s : StructuredLogManager) : List AsyncStructuredLogger :=
  s.destroyed ++ s.replaced.toList ++ s.logger.toList

structure Inv (localtimeR : ℤ → Option Tm) (s : StructuredLogManager) : Prop where
  destroyed : ∀ l ∈ s.destroyed, l.Inv localtimeR ∧ l.asyncLogger.stopper = .leave .done
  replaced : ∀ l ∈ s.replaced, l.Inv localtimeR
  logger : ∀ l ∈ s.logger, l.Inv localtimeR ∧ l.asyncLogger.stopper = .idle
  logged : s.loggers.flatMap (·.records.map (·.entry)) = s.logged

variable {s t : StructuredLogManager} {l : AsyncStructuredLogger}

lemma Inv.of_mem (hs : s.Inv localtimeR) (hl : l ∈ s.loggers) : l.Inv localtimeR := by
  simp only [loggers, List.mem_append, Option.mem_toList] at hl
  rcases hl with (hl | hl) | hl
  · exact (hs.destroyed l hl).1
  · exact hs.replaced l hl
  · exact (hs.logger l hl).1

lemma inv_initial : initial.Inv localtimeR where
  destroyed := by simp [initial]
  replaced := by simp [initial, StructuredLogManager.replaced]
  logger := by simp [initial]
  logged := rfl

/-- A call gets the mutex or gives it back, and no logger is being destroyed. -/
lemma Inv.of_call (hs : s.Inv localtimeR) (hnone : s.replaced = none) {call : Option ManagerCall}
    (hcall : call.bind (·.old) = none) : Inv localtimeR { s with call := call } where
  destroyed := hs.destroyed
  replaced l hl := by simp [StructuredLogManager.replaced, hcall] at hl
  logger := hs.logger
  logged := by
    have hlogged := hs.logged
    simp only [loggers, hnone] at hlogged
    simp only [loggers, StructuredLogManager.replaced, hcall]
    exact hlogged

/-- The logger that is installed goes on. -/
lemma Inv.of_logger (hs : s.Inv localtimeR) {l' : AsyncStructuredLogger} (hl : l ∈ s.logger)
    (hinv : l'.Inv localtimeR) (hidle : l'.asyncLogger.stopper = .idle)
    (hrecords : l'.records = l.records) : Inv localtimeR { s with logger := some l' } where
  destroyed := hs.destroyed
  replaced := hs.replaced
  logger := by
    intro _ hl
    cases hl
    exact ⟨hinv, hidle⟩
  logged := by
    have hlogged := hs.logged
    rw [Option.mem_def] at hl
    simp only [loggers, hl] at hlogged
    simpa [loggers, StructuredLogManager.replaced, hrecords] using hlogged

/-- The logger that is being destroyed goes on. -/
lemma Inv.of_replaced (hs : s.Inv localtimeR) {old : AsyncStructuredLogger}
    (hcall : s.call = some (.destroy l)) (hinv : old.Inv localtimeR)
    (hrecords : old.records = l.records) :
    Inv localtimeR { s with call := some (.destroy old) } where
  destroyed := hs.destroyed
  replaced := by
    intro _ hl
    cases hl
    exact hinv
  logger := hs.logger
  logged := by
    have hlogged := hs.logged
    simp only [loggers, StructuredLogManager.replaced, hcall] at hlogged
    simpa [loggers, StructuredLogManager.replaced, ManagerCall.old, hrecords] using hlogged

lemma inv_callStep (hs : s.Inv localtimeR) (h : s.callStep localtimeR = some t) :
    t.Inv localtimeR := by
  rw [callStep] at h
  split at h
  · cases h
  · next entry hcall =>
    have hnone : s.replaced = none := by rw [StructuredLogManager.replaced, hcall]; rfl
    split at h
    · cases h
      exact hs.of_call hnone rfl
    · cases h
      exact hs.of_call hnone rfl
  · next record hcall =>
    have hnone : s.replaced = none := by rw [StructuredLogManager.replaced, hcall]; rfl
    split at h
    · cases h
    · next l hl =>
      obtain ⟨l', hl', rfl⟩ := Option.map_eq_some_iff.mp h
      obtain ⟨hinv, hidle, hrecords⟩ := (hs.logger l hl).1.append hl'
      have hlogged := hs.logged
      constructor
      · exact hs.destroyed
      · simp [StructuredLogManager.replaced]
      · intro _ hl
        cases hl
        exact ⟨hinv, hidle⟩
      · simp only [loggers, hnone, hl] at hlogged
        simp [loggers, StructuredLogManager.replaced, hrecords, ← hlogged]
  · next old hcall =>
    have hold : s.replaced = some old := by rw [StructuredLogManager.replaced, hcall]; rfl
    split_ifs at h with hdone
    · cases h
      have hlogged := hs.logged
      constructor
      · intro l hl
        rcases List.mem_append.mp hl with hl | hl
        · exact hs.destroyed l hl
        · rw [List.mem_singleton] at hl
          subst hl
          exact ⟨hs.replaced l hold, hdone⟩
      · simp [StructuredLogManager.replaced]
      · exact hs.logger
      · simp only [loggers, hold] at hlogged
        simpa [loggers, StructuredLogManager.replaced] using hlogged
    · obtain ⟨old', hstop, rfl⟩ := Option.map_eq_some_iff.mp h
      obtain ⟨hinv, hrecords⟩ := (hs.replaced old hold).stop hstop
      exact hs.of_replaced hcall hinv hrecords

lemma inv_init {new : Option AsyncStructuredLogger} (hs : s.Inv localtimeR) (hcall : s.call = none)
    (hnew : ∀ l ∈ new, l.Inv localtimeR ∧ l.asyncLogger.stopper = .idle ∧ l.records = [])
    (h : s.init new = some t) : t.Inv localtimeR := by
  have hnone : s.replaced = none := by rw [StructuredLogManager.replaced, hcall]; rfl
  have hlogged := hs.logged
  have hrecords : new.toList.flatMap (fun l => l.records.map (·.entry)) = [] := by
    simp only [List.flatMap_eq_nil_iff, Option.mem_toList]
    intro l hl
    rw [(hnew l hl).2.2, List.map_nil]
  rw [init] at h
  split at h
  · next hlogger =>
    cases h
    refine ⟨hs.destroyed, hs.replaced, fun l hl => ⟨(hnew l hl).1, (hnew l hl).2.1⟩, ?_⟩
    simp only [loggers, hnone, hlogger] at hlogged
    simp only [loggers, StructuredLogManager.replaced, hcall, List.flatMap_append, hrecords]
    simpa using hlogged
  · next old hlogger =>
    split_ifs at h
    cases h
    obtain ⟨hold, -⟩ := hs.logger old hlogger
    refine ⟨hs.destroyed, ?_, fun l hl => ⟨(hnew l hl).1, (hnew l hl).2.1⟩, ?_⟩
    · intro _ hl
      cases hl
      exact hold
    · simp only [loggers, hnone, hlogger] at hlogged
      simp only [loggers, List.flatMap_append, hrecords]
      simpa [StructuredLogManager.replaced, ManagerCall.old] using hlogged

lemma inv_step {m : Move} (hs : s.Inv localtimeR) (h : s.step localtimeR m = some t) :
    t.Inv localtimeR := by
  cases m with
  | log entry =>
    rw [step] at h
    split at h
    · next hcall =>
      cases h
      exact hs.of_call (by rw [replaced, hcall]; rfl) rfl
    · cases h
  | init logger =>
    rw [step] at h
    split at h
    · next hcall =>
      refine inv_init hs hcall ?_ h
      intro l hl
      obtain ⟨new, -, rfl⟩ := Option.map_eq_some_iff.mp hl
      obtain ⟨hinv, hidle⟩ := AsyncStructuredLogger.inv_construct new.1 new.2
      exact ⟨hinv, hidle, rfl⟩
    · cases h
  | call => exact inv_callStep hs h
  | installed m =>
    rw [step] at h
    split_ifs at h with hm
    split at h
    · cases h
    · next l hl =>
      obtain ⟨l', hl', rfl⟩ := Option.map_eq_some_iff.mp h
      obtain ⟨hinv, hidle⟩ := hs.logger l hl
      obtain ⟨hinv', hstopper, hrecords⟩ := hinv.besides hm hl'
      exact hs.of_logger hl hinv' (hstopper.trans hidle) hrecords
  | replaced m =>
    rw [step] at h
    split_ifs at h with hm
    split at h
    · next old hcall =>
      obtain ⟨old', hold', rfl⟩ := Option.map_eq_some_iff.mp h
      have hold : s.replaced = some old := by rw [replaced, hcall]; rfl
      have hbesides : besides m = true := by cases m <;> first | rfl | cases hm
      obtain ⟨hinv, -, hrecords⟩ := (hs.replaced old hold).besides hbesides hold'
      exact hs.of_replaced hcall hinv hrecords
    · cases h
  | setOutputFormat format =>
    cases h
    cases hl : s.logger with
    | none =>
      have hsame : { s with logger := none } = s := by rw [← hl]
      rw [Option.map_none, hsame]
      exact hs
    | some l =>
      obtain ⟨hinv, hidle⟩ := hs.logger l hl
      exact hs.of_logger hl ⟨hinv.holds, hinv.lines⟩ hidle rfl

theorem inv_of_reachable (h : Reachable (step localtimeR) initial s) : s.Inv localtimeR :=
  h.invariant (step localtimeR) (fun _ _ _ hs hstep => inv_step hs hstep) inv_initial

/-- The entries of a logger are printed in JSON, and nothing in their strings is in the way. -/
def CleanJson (localtimeR : ℤ → Option Tm) (l : AsyncStructuredLogger) : Prop :=
  ∀ r ∈ l.records, r.format = bytes "json" ∧ r.entry.Clean ∧
    (∀ field ∈ r.entry.strings, ∀ s ∈ field.2, Utf8.Valid s) ∧
    (r.line localtimeR).length ≤ kLargeBuffer

lemma whole_of_cleanJson (h : CleanJson localtimeR l) : ∀ r ∈ l.records, r.Whole localtimeR := by
  intro r hr
  obtain ⟨hformat, hclean, hutf8, hfits⟩ := h r hr
  refine ⟨hfits, ?_⟩
  rw [LogRecord.text_of_json hformat]
  exact fun hlf => ((StructuredLogEntry.faithful_of_clean hutf8 hclean).singleLine _ hlf).1 rfl

lemma texts_of_cleanJson (h : CleanJson localtimeR l) :
    l.texts localtimeR = l.records.map (·.entry.toJson) :=
  List.map_congr_left fun r hr => LogRecord.text_of_json (h r hr).1

/-- Each entry comes to the file of the logger that was installed, in its place: the file holds the
first records as its lines at any time, and all of them in the end if and only if each is one line
that has room in a buffer; where they are clean JSON each line says what its entry says. -/
theorem entries_in_files (h : Reachable (step localtimeR) initial s) :
    s.loggers.flatMap (·.records.map (·.entry)) = s.logged ∧
    (∀ l ∈ s.loggers, (∀ r ∈ l.records, r.Whole localtimeR) →
      Lines.BreaksOff (l.texts localtimeR) l.fileLines) ∧
    (∀ l ∈ s.destroyed, l.fileLines = l.texts localtimeR ++ [[]] ↔
      ∀ r ∈ l.records, r.Whole localtimeR) ∧
    ∀ l ∈ s.loggers, CleanJson localtimeR l →
      l.fileLines.dropLast <+: l.records.map (·.entry.toJson) ∧ ∀ r ∈ l.records, r.entry.Faithful := by
  have hs := inv_of_reachable h
  refine ⟨hs.logged, ?_, ?_, ?_⟩
  · exact fun l hl hwhole => (hs.of_mem hl).breaksOff hwhole
  · exact fun l hl => (hs.destroyed l hl).1.fileLines_iff (hs.destroyed l hl).2
  · intro l hl hclean
    have hbreaks := (hs.of_mem hl).breaksOff (whole_of_cleanJson hclean)
    rw [texts_of_cleanJson hclean] at hbreaks
    refine ⟨hbreaks.dropLast, fun r hr => ?_⟩
    obtain ⟨-, hclean, hutf8, -⟩ := hclean r hr
    exact StructuredLogEntry.faithful_of_clean hutf8 hclean

/-- A record without any strings. -/
def startup : StructuredLogEntry where
  timestamp := 0
  level := .info
  message := []
  file := []
  line := 7
  function := []
  requestId := none
  connectionId := none
  clientIp := none
  userAgent := none
  responseStatus := none

/-- An entry that the backend takes, and a logger that is destroyed with it on the way. -/
def replacedOnce : List Move :=
  [.init (some (bytes "text", 1)), .log startup, .call, .call, .installed .backend, .init none,
    .call, .replaced .backend, .replaced .backend, .replaced .backend, .replaced .backend,
    .replaced .backend, .replaced .backend, .call, .call, .call, .call]

theorem entries_in_files_replacedOnce :
    ∃ s l, run (step fun _ => none) initial replacedOnce = some s ∧ s.destroyed = [l] ∧
      l.fileLines = l.texts (fun _ => none) ++ [[]] := by
  have hrun : (run (step fun _ => none) initial replacedOnce).any (fun s =>
      s.destroyed.length = 1 ∧ ∀ l ∈ s.destroyed, ∀ r ∈ l.records,
        (r.line fun _ => none).length ≤ kLargeBuffer ∧ Bytes.lf ∉ r.text fun _ => none) = true := by
    decide +kernel
  obtain ⟨s, hs, hstate⟩ := (Option.any_eq_true _ _).mp hrun
  obtain ⟨hlength, hwhole⟩ := of_decide_eq_true hstate
  obtain ⟨l, hl⟩ := List.length_eq_one_iff.mp hlength
  have hmem : l ∈ s.destroyed := hl ▸ List.mem_singleton_self l
  refine ⟨s, l, hs, hl, ((entries_in_files ⟨_, hs⟩).2.2.1 l hmem).mpr fun r hr => ?_⟩
  exact ⟨(hwhole l hmem r hr).1, (hwhole l hmem r hr).2⟩

end StructuredLogManager

end TinyWebServer
