import TinyWebServer.Http2.HpackCounters

/-!
# The limit of the HPACK table

An insertion evicts until the new entry fits, and a size update evicts once. So the usage stays
within the limit as long as every size update asks for what is left without the oldest entry.
-/

namespace TinyWebServer

open Fitting

namespace HpackDecoder

def WithinLimit (d : HpackDecoder) : Prop := d.dynamicTableUsage ≤ d.maxDynamicTableSize

instance (d : HpackDecoder) : Decidable d.WithinLimit := inferInstanceAs (Decidable (_ ≤ _))

/-- The bytes in use once the oldest entry is gone. -/
def leftover (d : HpackDecoder) : ℕ := total DynamicTableEntry.size d.dynamicTable.dropLast

/-- A size update that is accepted leaves room for all entries but the oldest one. -/
def UpdateFits (d : HpackDecoder) : TableAct → Prop
  | .update newSize => newSize ≤ d.maxDynamicTableSize → d.leftover ≤ newSize
  | _ => True

/-- The changes that the operations of a run make, one after the other. -/
def runActs (d : HpackDecoder) : List HpackOp → List TableAct
  | [] => []
  | op :: ops => d.opActs op ++ runActs (d.operate op) ops

lemma run_runActs (d : HpackDecoder) (ops : List HpackOp) :
    Runs.run perform d (d.runActs ops) = Runs.run next d ops := by
  induction ops generalizing d with
  | nil => rfl
  | cons op ops ih =>
    rw [runActs, Runs.run_append, run_opActs]
    exact ih (d.operate op)

lemma runActs_isPrefix (d : HpackDecoder) {ops ops' : List HpackOp} (h : ops' <+: ops) :
    d.runActs ops' <+: d.runActs ops := by
  induction ops generalizing d ops' with
  | nil =>
    rw [List.prefix_nil.mp h]
  | cons op ops ih =>
    cases ops' with
    | nil => exact List.nil_prefix
    | cons op' ops' =>
      obtain ⟨rfl, hrest⟩ := List.cons_prefix_cons.mp h
      rw [runActs, runActs, List.prefix_append_right_inj]
      exact ih (d.operate op') hrest

lemma short_runActs {d : HpackDecoder} (hd : d.ShortEntries) (ops : List HpackOp) :
    ∀ act ∈ d.runActs ops, act.Short := by
  induction ops generalizing d with
  | nil => exact fun _ h => absurd h List.not_mem_nil
  | cons op ops ih =>
    have hop := short_opActs hd op
    rw [runActs, List.forall_mem_append]
    exact ⟨hop, ih (Runs.invariant_run_of perform (fun _ _ _ hact hu => hu.perform hact) hop hd
      (run_opActs d op))⟩

/-- The only change that can leave more than the limit is a size update. -/
lemma withinLimit_perform_iff {limit : ℕ} (hlimit : Tame limit) {d d' : HpackDecoder}
    {act : TableAct} (hact : act.Short) (hd : Counted limit d) (hwithin : d.WithinLimit)
    (h : d.perform act = some d') : d'.WithinLimit ↔ d.UpdateFits act := by
  cases act with
  | start =>
    cases h
    exact iff_of_true hwithin trivial
  | stop =>
    cases h
    exact iff_of_true hwithin trivial
  | add header =>
    cases h
    refine iff_of_true ?_ trivial
    rw [hd.addToDynamicTable_eq hlimit hact]
    split_ifs
    · exact hwithin
    · exact total_fitting_le _ _ _
  | update newSize =>
    cases h
    rw [hd.updateDynamicTableSize_eq hlimit, UpdateFits]
    split_ifs with hlarge
    · exact iff_of_true hwithin fun hle => absurd hle (Nat.not_le.mpr hlarge)
    · exact ⟨fun hleft _ => hleft, fun hleft => hleft (Nat.le_of_not_lt hlarge)⟩
  | clear =>
    cases h
    exact iff_of_true (Nat.zero_le _) trivial

/-- Every size update of the run, alone or inside a block, asks for what is left without the oldest
entry. -/
def UpdatesFit (limit : ℕ) (ops : List HpackOp) : Prop :=
  ∀ acts act d, acts ++ [act] <+: (new limit).runActs ops →
    Runs.run perform (new limit) acts = some d → d.UpdateFits act

/-- The usage is within the limit after every change of the table if and only if the size updates
leave room, and then it is so after every operation. -/
theorem withinLimit_iff {limit : ℕ} (hlimit : limit ≤ 2 ^ 31) (ops : List HpackOp) :
    ((∀ acts d, acts <+: (new limit).runActs ops →
      Runs.run perform (new limit) acts = some d → d.WithinLimit) ↔ UpdatesFit limit ops) ∧
    (UpdatesFit limit ops → ∀ ops' d, ops' <+: ops → Runs.run next (new limit) ops' = some d →
      d.WithinLimit) := by
  have htame := tame_of_le hlimit
  have hcounted := counted_new limit
  obtain ⟨t, ht⟩ : ∃ t, Runs.run perform (new limit) ((new limit).runActs ops) = some t := by
    rw [run_runActs]
    generalize new limit = d
    induction ops generalizing d with
    | nil => exact ⟨d, rfl⟩
    | cons op ops ih => exact ih (d.operate op)
  have hiff := Runs.forall_run_iff_of perform (I := Counted limit) (P := WithinLimit)
    (C := UpdateFits) (M := TableAct.Short) (fun _ _ _ hact hu hv => hu.perform htame hact hv)
    (fun _ _ _ hact hu hwithin hv => withinLimit_perform_iff htame hact hu hwithin hv) hcounted
    (Nat.zero_le limit) (short_runActs hcounted.shortEntries ops) ht
  refine ⟨hiff, fun hfits ops' d hops' hd => ?_⟩
  apply hiff.mpr hfits _ d (runActs_isPrefix _ hops')
  rw [run_runActs, hd]

/-- Two entries, and a size update that evicts one of them. -/
theorem not_withinLimit :
    ¬ ∀ ops d, Runs.run next (new 100) ops = some d → d.WithinLimit := by
  intro h
  have hlast := h [.decode [0x41, 0x01, 0x61, 0x41, 0x01, 0x62], .updateDynamicTableSize 0] _ rfl
  revert hlast
  decide

/-- The size update of that run leaves no room. -/
theorem not_updatesFit_zero :
    ¬ UpdatesFit 100
      [.decode [0x41, 0x01, 0x61, 0x41, 0x01, 0x62], .updateDynamicTableSize 0] := by
  intro h
  have hlimit : 100 ≤ 2 ^ 31 := by decide
  have hlast := (withinLimit_iff hlimit _).2 h _ _ (List.prefix_refl _) rfl
  revert hlast
  decide

end HpackDecoder

end TinyWebServer
