import TinyWebServer.Http2.Hpack
import TinyWebServer.Library.Cursor

/-!
# The decoder and its cursor

The routines of the decoder as they move `data` and `remaining`, with a count for each loop and
for the recursion behind size updates. They examine nothing but the bytes that are left, they do
not use up their counts, and they are the functions over byte strings that the rest of the
development is about.
-/

namespace TinyWebServer

namespace HpackCursor

open Reader

/-- A routine of the decoder. -/
abbrev Routine (α : Type) := Reader HpackDecoder Error α

/-- The loop of `DecodeInteger`; every turn takes a byte. -/
def decodeContinuation : ℕ → ℕ → ℕ → Routine ℕ
  | 0, _, _ => outOfFuel
  | fuel + 1, m, result => do
    if (← remaining) = 0 then fail ⟨.kParseError, bytes "Incomplete multi-byte integer"⟩
    else
      let byte ← first
      advance 1
      let result := HpackDecoder.uint32 (result + (byte &&& 0x7F).toNat <<< m)
      if 28 < m + 7 then fail ⟨.kParseError, bytes "Integer too large"⟩
      else if byte &&& 0x80 ≠ 0 then decodeContinuation fuel (m + 7) result
      else pure result

def decodeInteger (prefixBits : ℕ) : Routine ℕ := do
  if (← remaining) = 0 then fail ⟨.kParseError, bytes "No data for integer decoding"⟩
  else
    let mask := 2 ^ prefixBits - 1
    let result := (← first).toNat % 2 ^ prefixBits
    advance 1
    if result = mask then decodeContinuation ((← remaining) + 1) 0 result else pure result

def decodeString : Routine Bytes := do
  if (← remaining) = 0 then fail ⟨.kParseError, bytes "No data for string decoding"⟩
  else
    -- Only looked at for the warning that Huffman coding is not implemented.
    let _firstByte ← first
    let length ← decodeInteger 7
    if (← remaining) < length then fail ⟨.kParseError, bytes "Incomplete string data"⟩
    else
      let result ← assign length
      advance length
      pure result

/-- `DecodeHeaderField` with a count of its calls. -/
def decodeHeaderFieldFuel (header : HpackHeader) : ℕ → Routine HpackHeader
  | 0 => outOfFuel
  | fuel + 1 => do
    if (← remaining) = 0 then
      fail ⟨.kParseError, bytes "No data remaining for HPACK decoding"⟩
    else
      let firstByte ← first
      if firstByte &&& 0x80 ≠ 0 then
        let index ← decodeInteger 7
        match (← getState).getTableEntry index with
        | none => fail ⟨.kParseError, bytes "Invalid HPACK table index: " ++ Bytes.ofNat index⟩
        | some entry => pure entry
      else if firstByte &&& 0xC0 = 0x40 then
        let nameIndex ← decodeInteger 6
        match (← getState).getTableEntry nameIndex with
        | none => fail ⟨.kParseError, bytes "Invalid HPACK name index: " ++ Bytes.ofNat nameIndex⟩
        | some nameEntry =>
          let value ← decodeString
          let header := { header with name := nameEntry.name, value := value }
          setState ((← getState).addToDynamicTable header)
          pure header
      else if firstByte &&& 0xF0 = 0x00 then
        let name ← decodeString
        let value ← decodeString
        let header := { header with name := name, value := value }
        setState ((← getState).addToDynamicTable header)
        pure header
      else if firstByte &&& 0xE0 = 0x20 then
        if ¬ (← getState).decodingStarted then
          fail ⟨.kParseError, bytes "Dynamic table size update at invalid position"⟩
        else
          let newSize ← decodeInteger 5
          let updated := (← getState).updateDynamicTableSize newSize
          setState updated.2
          if ¬ updated.1.isSuccess then fail updated.1 else decodeHeaderFieldFuel header fuel
      else
        fail ⟨.kParseError,
          bytes "Unknown HPACK encoding: 0x" ++ Bytes.ofNat firstByte.toNat⟩

/-- One call more than there are bytes is enough. -/
def decodeHeaderField (header : HpackHeader) : Routine HpackHeader := do
  decodeHeaderFieldFuel header ((← remaining) + 1)

/-- The loop of `Decode` with a count of its tests. -/
def decodeFields : ℕ → Routine (List HpackHeader)
  | 0 => outOfFuel
  | fuel + 1 => do
    if (← remaining) = 0 then pure []
    else
      let header ← decodeHeaderField ⟨[], [], false⟩
      let headers ← decodeFields fuel
      pure (header :: headers)

def decode : Routine (List HpackHeader) := do
  setState { (← getState) with decodingStarted := true }
  decodeFields ((← remaining) + 1)

/-! ### The routines and the functions over byte strings -/

variable {mem : ℕ → UInt8}

/-- The routine ends as a function of the bytes that were left says, and a success takes a byte. -/
def Agrees (mem : ℕ → UInt8) {α : Type} (c : Cursor)
    (expected : Except Error (α × Bytes) × HpackDecoder) :
    Ending Error α → HpackDecoder → Cursor → Prop := fun out d' c' =>
  d' = expected.2 ∧
    match expected.1 with
    | .error err => out = .failed err
    | .ok (value, rest) => out = .ok value ∧ c'.rest mem = rest ∧ c.data < c'.data

lemma Agrees.mono {α : Type} {c c₁ c' : Cursor} {out : Ending Error α} {d : HpackDecoder}
    {expected : Except Error (α × Bytes) × HpackDecoder} (hle : c.data ≤ c₁.data)
    (h : Agrees mem c₁ expected out d c') : Agrees mem c expected out d c' := by
  obtain ⟨result, d'⟩ := expected
  cases result with
  | error err => exact h
  | ok result => exact ⟨h.1, h.2.1, h.2.2.1, hle.trans_lt h.2.2.2⟩

/-- What a routine that agrees says about how the next one may start. -/
lemma remaining_lt {c c' : Cursor} (hstop : c'.stop = c.stop) (hlt : c.data < c'.data) :
    c'.remaining < c.remaining := by
  simp only [Cursor.stop] at hstop
  omega

lemma ensures_decodeContinuation {fuel m result : ℕ} {d : HpackDecoder} {c : Cursor}
    (hfuel : c.remaining < fuel) :
    (decodeContinuation fuel m result).Ensures mem d c
      (Agrees mem c (HpackDecoder.decodeContinuation m result (c.rest mem), d)) := by
  induction fuel generalizing m result c with
  | zero => exact absurd hfuel (Nat.not_lt_zero _)
  | succ fuel ih =>
    rw [decodeContinuation]
    refine ensures_test_remaining (fun hnil => ?_) fun hpos hcons => ?_
    · rw [hnil]
      exact ensures_fail ⟨rfl, rfl⟩
    · rw [hcons, HpackDecoder.decodeContinuation]
      apply ensures_first_bind hpos
      apply ensures_advance_bind hpos
      dsimp only
      split_ifs with hlong hmore
      · exact ensures_fail ⟨rfl, rfl⟩
      · have hless : (c.advance 1).remaining < fuel := by
          simp only [Cursor.advance]
          omega
        exact (ih hless).mono fun _ _ _ h => h.mono (Nat.le_succ _)
      · exact ensures_pure ⟨rfl, rfl, rfl, Nat.lt_succ_self _⟩

lemma ensures_decodeInteger (prefixBits : ℕ) (d : HpackDecoder) (c : Cursor) :
    (decodeInteger prefixBits).Ensures mem d c
      (Agrees mem c (HpackDecoder.decodeInteger prefixBits (c.rest mem), d)) := by
  rw [decodeInteger]
  refine ensures_test_remaining (fun hnil => ?_) fun hpos hcons => ?_
  · rw [hnil]
    exact ensures_fail ⟨rfl, rfl⟩
  · rw [hcons, HpackDecoder.decodeInteger]
    apply ensures_first_bind hpos
    apply ensures_advance_bind hpos
    split_ifs with hfull
    · apply ensures_remaining_bind
      exact (ensures_decodeContinuation (Nat.lt_succ_self _)).mono fun _ _ _ h =>
        h.mono (Nat.le_succ _)
    · exact ensures_pure ⟨rfl, rfl, rfl, Nat.lt_succ_self _⟩

/-- A routine behind one that agrees with a function of the bytes. -/
lemma ensures_bind_agrees {α β : Type} {p : Routine β} {f : β → Routine α} {d d₁ : HpackDecoder}
    {c : Cursor} {result : Except Error (β × Bytes)}
    {Q : Ending Error α → HpackDecoder → Cursor → Prop}
    (hp : p.Ensures mem d c (Agrees mem c (result, d₁)))
    (herror : ∀ err c', result = .error err → Q (.failed err) d₁ c')
    (hok : ∀ value c', result = .ok (value, c'.rest mem) → c.data < c'.data →
      c'.remaining < c.remaining → (f value).Ensures mem d₁ c' Q) :
    (p >>= f).Ensures mem d c Q := by
  refine ensures_bind hp ?_ ?_ ?_
  · rintro value d' c' - hstop ⟨rfl, h⟩
    cases hresult : result with
    | error err =>
      rw [hresult] at h
      cases h
    | ok expected =>
      rw [hresult] at h
      obtain ⟨hvalue, hrest, hlt⟩ := h
      cases hvalue
      exact hok _ c' (by rw [hresult, hrest]) hlt (remaining_lt hstop hlt)
  · rintro err d' c' ⟨rfl, h⟩
    cases hresult : result with
    | error err' =>
      rw [hresult] at h
      cases h
      exact herror _ _ hresult
    | ok expected =>
      rw [hresult] at h
      cases h.1
  · rintro d' c' ⟨rfl, h⟩
    cases hresult : result with
    | error err' =>
      rw [hresult] at h
      cases h
    | ok expected =>
      rw [hresult] at h
      cases h.1

/-- An error of the first routine is the one of the function. -/
lemma ensures_bind_expected {α β : Type} {p : Routine β} {f : β → Routine α} {d d₁ : HpackDecoder}
    {c c₀ : Cursor} {result : Except Error (β × Bytes)}
    {expected : Except Error (α × Bytes) × HpackDecoder}
    (hp : p.Ensures mem d c (Agrees mem c (result, d₁)))
    (herror : ∀ err, result = .error err → expected = (.error err, d₁))
    (hok : ∀ value c', result = .ok (value, c'.rest mem) → c.data < c'.data →
      c'.remaining < c.remaining → (f value).Ensures mem d₁ c' (Agrees mem c₀ expected)) :
    (p >>= f).Ensures mem d c (Agrees mem c₀ expected) := by
  refine ensures_bind_agrees hp ?_ hok
  intro err c' herr
  rw [herror err herr]
  exact ⟨rfl, rfl⟩

lemma ensures_decodeString (d : HpackDecoder) (c : Cursor) :
    decodeString.Ensures mem d c (Agrees mem c (HpackDecoder.decodeString (c.rest mem), d)) := by
  rw [decodeString]
  refine ensures_test_remaining (fun hnil => ?_) fun hpos hcons => ?_
  · rw [hnil]
    exact ensures_fail ⟨rfl, rfl⟩
  · have hne : c.rest mem ≠ [] := by
      rw [hcons]
      exact List.cons_ne_nil _ _
    rw [HpackDecoder.decodeString, if_neg hne]
    apply ensures_first_bind hpos
    refine ensures_bind_expected (ensures_decodeInteger 7 d c) (fun err herr => by rw [herr]) ?_
    intro length c' hlength hlt _
    rw [hlength]
    apply ensures_remaining_bind
    dsimp only
    rw [Cursor.length_rest]
    split_ifs with hshort
    · exact ensures_fail ⟨rfl, rfl⟩
    · have hle := Nat.le_of_not_lt hshort
      apply ensures_assign_bind hle
      apply ensures_advance_bind hle
      refine ensures_pure ⟨rfl, ?_, (Cursor.drop_rest hle).symm, ?_⟩
      · rw [Cursor.rest, Cursor.take_slice hle]
      · exact hlt.trans_le (Nat.le_add_right _ _)

/-- The value of a literal field is read, and the field put into the table. -/
lemma ensures_literal {header : Bytes → HpackHeader} {d : HpackDecoder} {c c₀ : Cursor}
    {expected : Except Error (HpackHeader × Bytes) × HpackDecoder} (hlt : c₀.data < c.data)
    (herror : ∀ err, HpackDecoder.decodeString (c.rest mem) = .error err →
      expected = (.error err, d))
    (hok : ∀ value rest, HpackDecoder.decodeString (c.rest mem) = .ok (value, rest) →
      expected = (.ok (header value, rest), d.addToDynamicTable (header value))) :
    (do
      let value ← decodeString
      setState ((← getState).addToDynamicTable (header value))
      pure (header value) : Routine HpackHeader).Ensures mem d c (Agrees mem c₀ expected) := by
  refine ensures_bind_expected (ensures_decodeString d c) herror ?_
  intro value c' hvalue hlt' _
  rw [hok value _ hvalue]
  apply ensures_getState_bind
  apply ensures_setState_bind
  exact ensures_pure ⟨rfl, rfl, rfl, hlt.trans hlt'⟩

/-- With a count above the number of bytes, a call of `DecodeHeaderField` and the calls behind it
do what the function over byte strings does. -/
lemma ensures_decodeHeaderFieldFuel (header : HpackHeader) {fuel : ℕ} {d : HpackDecoder}
    {c : Cursor} (hfuel : c.remaining ≤ fuel) :
    (decodeHeaderFieldFuel header (fuel + 1)).Ensures mem d c
      (Agrees mem c (HpackDecoder.decodeHeaderFieldFuel header fuel d (c.rest mem))) := by
  induction fuel generalizing d c with
  | zero =>
    have hzero : c.remaining = 0 := Nat.le_zero.mp hfuel
    rw [decodeHeaderFieldFuel]
    apply ensures_remaining_bind
    rw [if_pos hzero]
    exact ensures_fail ⟨rfl, rfl⟩
  | succ fuel ih =>
    rw [decodeHeaderFieldFuel]
    refine ensures_test_remaining (fun hnil => ?_) fun hpos hcons => ?_
    · rw [hnil]
      exact ensures_fail ⟨rfl, rfl⟩
    · apply ensures_first_bind hpos
      have hint := fun prefixBits => @ensures_decodeInteger mem prefixBits d c
      have hstring := @ensures_decodeString mem d c
      rw [hcons] at hint hstring ⊢
      rw [HpackDecoder.decodeHeaderFieldFuel]
      split_ifs with hindexed hincremental hplain hupdate hstarted
      · refine ensures_bind_expected (hint 7) (fun err herr => by rw [herr]) ?_
        intro index c' hindex hlt _
        rw [hindex]
        apply ensures_getState_bind
        dsimp only
        cases d.getTableEntry index with
        | none => exact ensures_fail ⟨rfl, rfl⟩
        | some entry => exact ensures_pure ⟨rfl, rfl, rfl, hlt⟩
      · refine ensures_bind_expected (hint 6) (fun err herr => by rw [herr]) ?_
        intro nameIndex c' hindex hlt _
        rw [hindex]
        apply ensures_getState_bind
        dsimp only
        cases d.getTableEntry nameIndex with
        | none => exact ensures_fail ⟨rfl, rfl⟩
        | some nameEntry =>
          dsimp only
          exact ensures_literal hlt (fun err herr => by rw [herr]) fun value rest hvalue => by
            rw [hvalue]
      · refine ensures_bind_expected hstring (fun err herr => by rw [herr]) ?_
        intro name c' hname hlt _
        rw [hname]
        dsimp only
        exact ensures_literal hlt (fun err herr => by rw [herr]) fun value rest hvalue => by
          rw [hvalue]
      · apply ensures_getState_bind
        rw [if_neg (not_not.mpr hstarted)]
        refine ensures_bind_expected (hint 5) (fun err herr => by rw [herr]) ?_
        intro newSize c' hsize hlt hless
        rw [hsize]
        apply ensures_getState_bind
        apply ensures_setState_bind
        dsimp only
        split_ifs with hrefused
        · exact (ih (by omega)).mono fun _ _ _ h => h.mono hlt.le
        · exact ensures_fail ⟨rfl, rfl⟩
      · apply ensures_getState_bind
        rw [if_pos hstarted]
        exact ensures_fail ⟨rfl, rfl⟩
      · exact ensures_fail ⟨rfl, rfl⟩

lemma ensures_decodeHeaderField (header : HpackHeader) (d : HpackDecoder) (c : Cursor) :
    (decodeHeaderField header).Ensures mem d c
      (Agrees mem c (d.decodeHeaderField (c.rest mem) header)) := by
  rw [decodeHeaderField]
  apply ensures_remaining_bind
  rw [HpackDecoder.decodeHeaderField, Cursor.length_rest]
  exact ensures_decodeHeaderFieldFuel header (le_refl _)

/-- The routine ends as a function says that keeps no error. -/
def AgreesUpToError {α : Type} (expected : Option α × HpackDecoder) :
    Ending Error α → HpackDecoder → Cursor → Prop := fun out d' _ =>
  d' = expected.2 ∧
    match expected.1 with
    | none => ∃ err, out = .failed err
    | some value => out = .ok value

lemma ensures_decodeFields {fuel : ℕ} {d : HpackDecoder} {c : Cursor} (hfuel : c.remaining ≤ fuel) :
    (decodeFields (fuel + 1)).Ensures mem d c
      (AgreesUpToError (HpackDecoder.decodeFields fuel d (c.rest mem))) := by
  induction fuel generalizing d c with
  | zero =>
    have hzero : c.remaining = 0 := Nat.le_zero.mp hfuel
    rw [decodeFields]
    apply ensures_remaining_bind
    rw [if_pos hzero]
    exact ensures_pure ⟨rfl, rfl⟩
  | succ fuel ih =>
    rw [decodeFields]
    refine ensures_test_remaining (fun hnil => ?_) fun hpos hcons => ?_
    · rw [hnil]
      exact ensures_pure ⟨rfl, rfl⟩
    · have hfield := @ensures_decodeHeaderField mem ⟨[], [], false⟩ d c
      rw [hcons] at hfield ⊢
      rw [HpackDecoder.decodeFields]
      generalize d.decodeHeaderField (mem c.data :: Cursor.rest mem (c.advance 1))
        ⟨[], [], false⟩ = expected at hfield ⊢
      obtain ⟨result, d₁⟩ := expected
      refine ensures_bind_agrees hfield ?_ ?_
      · rintro err c' rfl
        exact ⟨rfl, err, rfl⟩
      · rintro header c' rfl hlt hless
        have hfields := ih (d := d₁) (c := c') (by omega)
        dsimp only
        generalize HpackDecoder.decodeFields fuel d₁ (c'.rest mem) = expected at hfields ⊢
        obtain ⟨fields, d₂⟩ := expected
        refine ensures_bind hfields ?_ ?_ ?_
        · rintro headers d' c'' - - ⟨rfl, hok⟩
          cases fields with
          | none => exact nomatch hok
          | some expected =>
            cases hok
            exact ensures_pure ⟨rfl, rfl⟩
        · rintro err d' c'' ⟨rfl, hfailed⟩
          cases fields with
          | none => exact ⟨rfl, err, rfl⟩
          | some expected => cases hfailed
        · rintro d' c'' ⟨rfl, hfuel⟩
          cases fields with
          | none => exact nomatch hfuel
          | some expected => cases hfuel

lemma ensures_decode (d : HpackDecoder) (c : Cursor) :
    decode.Ensures mem d c (AgreesUpToError (d.decode (c.rest mem))) := by
  rw [decode]
  apply ensures_getState_bind
  apply ensures_setState_bind
  apply ensures_remaining_bind
  rw [HpackDecoder.decode, Cursor.length_rest]
  exact ensures_decodeFields (le_refl _)

/-! ### Bounds -/

/-- Every byte the routine examines is one of those that were left. -/
def ReadsWithin (mem : ℕ → UInt8) {α : Type} (p : Routine α) (d : HpackDecoder) (c : Cursor) :
    Prop :=
  ∀ a ∈ (p mem d c).examined, c.data ≤ a ∧ a < c.data + c.remaining

/-- The routine ends, and if it succeeds then the cursor has moved on by some bytes and as many
fewer are left. -/
def Advances (mem : ℕ → UInt8) {α : Type} (p : Routine α) (d : HpackDecoder) (c : Cursor) : Prop :=
  match (p mem d c).outcome with
  | .ok _ => ∃ n, 0 < n ∧ (p mem d c).cursor.data = c.data + n ∧
      (p mem d c).cursor.remaining + n = c.remaining
  | .failed _ => True
  | .outOfFuel => False

lemma advances_of_agrees {α : Type} {p : Routine α} {d : HpackDecoder} {c : Cursor}
    {expected : Except Error (α × Bytes) × HpackDecoder}
    (h : p.Ensures mem d c (Agrees mem c expected)) : Advances mem p d c := by
  obtain ⟨-, hdata, hstop, -, hpost⟩ := h
  rw [Advances]
  cases hresult : expected.1 with
  | error err =>
    rw [hresult] at hpost
    rw [hpost]
    trivial
  | ok result =>
    rw [hresult] at hpost
    obtain ⟨hout, -, hlt⟩ := hpost
    rw [hout]
    simp only [Cursor.stop] at hstop
    exact ⟨(p mem d c).cursor.data - c.data, by omega, by omega, by omega⟩

/-- From every state and at every cursor the routines of the decoder examine only what is left; a
header field takes at least a byte and as many bytes as the cursor moves on; however many calls
and turns are admitted, those that the remaining bytes allow for are enough; and the outcome is
that of the functions over byte strings. -/
theorem decode_within (mem : ℕ → UInt8) (d : HpackDecoder) (c : Cursor) :
    (∀ prefixBits, ReadsWithin mem (decodeInteger prefixBits) d c) ∧
    ReadsWithin mem decodeString d c ∧
    (∀ header, ReadsWithin mem (decodeHeaderField header) d c ∧
      Advances mem (decodeHeaderField header) d c ∧
      ∀ more, Advances mem (decodeHeaderFieldFuel header (c.remaining + more + 1)) d c) ∧
    ReadsWithin mem decode d c ∧
    AgreesUpToError (d.decode (c.rest mem)) (decode mem d c).outcome (decode mem d c).state
      (decode mem d c).cursor := by
  refine ⟨fun prefixBits => (ensures_decodeInteger prefixBits d c).examined,
    (ensures_decodeString d c).examined, fun header => ⟨?_, ?_, fun more => ?_⟩,
    (ensures_decode d c).examined, (ensures_decode d c).post⟩
  · exact (ensures_decodeHeaderField header d c).examined
  · exact advances_of_agrees (ensures_decodeHeaderField header d c)
  · exact advances_of_agrees (ensures_decodeHeaderFieldFuel header (Nat.le_add_right _ _))

end HpackCursor

end TinyWebServer
