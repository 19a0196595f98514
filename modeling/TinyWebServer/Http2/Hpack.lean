import TinyWebServer.Error

/-!
# The HPACK decoder

Header fields are read off the front of a header block with the help of a static and a dynamic
table. All `uint32_t` arithmetic is modulo `2 ^ 32`. An operation returns the bytes that are left;
on a failure nobody looks at the position, but the decoder may have changed.
-/

namespace TinyWebServer

structure HpackHeader where
  name : Bytes
  value : Bytes
  sensitive : Bool
  deriving DecidableEq

structure DynamicTableEntry where
  header : HpackHeader
  size : ℕ
  deriving DecidableEq

structure HpackDecoder where
  /-- The newest entry comes first. -/
  dynamicTable : List DynamicTableEntry
  maxDynamicTableSize : ℕ
  dynamicTableSize : ℕ
  dynamicTableUsage : ℕ
  decodingStarted : Bool
  deriving DecidableEq

namespace HpackDecoder

def uint32 (n : ℕ) : ℕ := n % 2 ^ 32

def new (maxDynamicTableSize : ℕ) : HpackDecoder :=
  { dynamicTable := [], maxDynamicTableSize := maxDynamicTableSize, dynamicTableSize := 0
    dynamicTableUsage := 0, decodingStarted := false }

/-! ### Tables -/

def staticTableSize : ℕ := 61

/-- The first row only makes the indices start at one. -/
def staticTable : List HpackHeader :=
  [ ("", ""), (":authority", ""), (":method", "GET"), (":method", "POST"), (":path", "/"),
    (":path", "/index.html"), (":scheme", "http"), (":scheme", "https"), (":status", "200"),
    (":status", "204"), (":status", "206"), (":status", "304"), (":status", "400"),
    (":status", "404"), (":status", "500"), ("accept-charset", ""),
    ("accept-encoding", "gzip, deflate"), ("accept-language", ""), ("accept-ranges", ""),
    ("accept", ""), ("access-control-allow-origin", ""), ("age", ""), ("allow", ""),
    ("authorization", ""), ("cache-control", ""), ("content-disposition", ""),
    ("content-encoding", ""), ("content-language", ""), ("content-length", ""),
    ("content-location", ""), ("content-range", ""), ("content-type", ""), ("cookie", ""),
    ("date", ""), ("etag", ""), ("expect", ""), ("expires", ""), ("from", ""), ("host", ""),
    ("if-match", ""), ("if-modified-since", ""), ("if-none-match", ""), ("if-range", ""),
    ("if-unmodified-since", ""), ("last-modified", ""), ("link", ""), ("location", ""),
    ("max-forwards", ""), ("proxy-authenticate", ""), ("proxy-authorization", ""), ("range", ""),
    ("referer", ""), ("refresh", ""), ("retry-after", ""), ("server", ""), ("set-cookie", ""),
    ("strict-transport-security", ""), ("transfer-encoding", ""), ("user-agent", ""),
    ("vary", ""), ("via", ""), ("www-authenticate", "") ].map
    fun row => ⟨bytes row.1, bytes row.2, false⟩

def getStaticTableEntry (index : ℕ) : Option HpackHeader :=
  if index = 0 ∨ staticTableSize < index then none else staticTable[index]?

def getDynamicTableEntry (d : HpackDecoder) (index : ℕ) : Option HpackHeader :=
  if index = 0 ∨ d.dynamicTable.length < index then none
  else d.dynamicTable[index - 1]?.map (·.header)

def getTableEntry (d : HpackDecoder) (index : ℕ) : Option HpackHeader :=
  if index ≤ staticTableSize then getStaticTableEntry index
  else d.getDynamicTableEntry (index - staticTableSize)

/-- Drop the oldest entry. -/
def evictDynamicTable (d : HpackDecoder) : HpackDecoder :=
  match d.dynamicTable.getLast? with
  | none => d
  | some entry =>
    { d with
      dynamicTable := d.dynamicTable.dropLast
      dynamicTableUsage := uint32 (d.dynamicTableUsage + 2 ^ 32 - entry.size)
      dynamicTableSize := uint32 (d.dynamicTableSize + 2 ^ 32 - 1) }

/-- The loop of `AddToDynamicTable`; each turn drops an entry. -/
def evictFor (entrySize : ℕ) : ℕ → HpackDecoder → HpackDecoder
  | 0, d => d
  | fuel + 1, d =>
    if d.dynamicTable ≠ [] ∧ d.maxDynamicTableSize < uint32 (d.dynamicTableUsage + entrySize) then
      evictFor entrySize fuel d.evictDynamicTable
    else d

def addToDynamicTable (d : HpackDecoder) (header : HpackHeader) : HpackDecoder :=
  let entrySize := uint32 (header.name.length + header.value.length + 32)
  if d.maxDynamicTableSize < entrySize then d
  else
    let d := evictFor entrySize d.dynamicTable.length d
    { d with
      dynamicTable := ⟨header, entrySize⟩ :: d.dynamicTable
      dynamicTableUsage := uint32 (d.dynamicTableUsage + entrySize)
      dynamicTableSize := uint32 (d.dynamicTableSize + 1) }

def updateDynamicTableSize (d : HpackDecoder) (newSize : ℕ) : Error × HpackDecoder :=
  if d.maxDynamicTableSize < newSize then
    (⟨.kProtocolError, bytes "Dynamic table size exceeds maximum: " ++ Bytes.ofNat newSize ++
      bytes " > " ++ Bytes.ofNat d.maxDynamicTableSize⟩, d)
  else (.success, { d with maxDynamicTableSize := newSize }.evictDynamicTable)

def clearDynamicTable (d : HpackDecoder) : HpackDecoder :=
  { d with dynamicTable := [], dynamicTableSize := 0, dynamicTableUsage := 0 }

def reset (d : HpackDecoder) : HpackDecoder := { d.clearDynamicTable with decodingStarted := false }

/-! ### Integers and strings -/

/-- The loop of `DecodeInteger` over the bytes behind a full prefix. -/
def decodeContinuation (m result : ℕ) : Bytes → Except Error (ℕ × Bytes)
  | [] => .error ⟨.kParseError, bytes "Incomplete multi-byte integer"⟩
  | byte :: data =>
    let result := uint32 (result + (byte &&& 0x7F).toNat <<< m)
    if 28 < m + 7 then .error ⟨.kParseError, bytes "Integer too large"⟩
    else if byte &&& 0x80 ≠ 0 then decodeContinuation (m + 7) result data
    else .ok (result, data)

def decodeInteger (prefixBits : ℕ) : Bytes → Except Error (ℕ × Bytes)
  | [] => .error ⟨.kParseError, bytes "No data for integer decoding"⟩
  | byte :: data =>
    let mask := 2 ^ prefixBits - 1
    let result := byte.toNat % 2 ^ prefixBits
    if result = mask then decodeContinuation 0 result data else .ok (result, data)

/-- A Huffman-coded string is passed on as it stands. -/
def decodeString (data : Bytes) : Except Error (Bytes × Bytes) :=
  if data = [] then .error ⟨.kParseError, bytes "No data for string decoding"⟩
  else
    match decodeInteger 7 data with
    | .error err => .error err
    | .ok (length, data) =>
      if data.length < length then .error ⟨.kParseError, bytes "Incomplete string data"⟩
      else .ok (data.take length, data.drop length)

/-! ### Header fields -/

/-- `DecodeHeaderField`, which calls itself behind a size update. Every call takes a byte off the
front, so that the number of bytes is enough fuel. -/
def decodeHeaderFieldFuel (header : HpackHeader) : ℕ → HpackDecoder → Bytes →
    Except Error (HpackHeader × Bytes) × HpackDecoder
  | 0, d, _ => (.error ⟨.kParseError, bytes "No data remaining for HPACK decoding"⟩, d)
  | _ + 1, d, [] => (.error ⟨.kParseError, bytes "No data remaining for HPACK decoding"⟩, d)
  | fuel + 1, d, firstByte :: rest =>
    let data := firstByte :: rest
    if firstByte &&& 0x80 ≠ 0 then
      match decodeInteger 7 data with
      | .error err => (.error err, d)
      | .ok (index, data) =>
        match d.getTableEntry index with
        | none => (.error ⟨.kParseError, bytes "Invalid HPACK table index: " ++ Bytes.ofNat index⟩, d)
        | some entry => (.ok (entry, data), d)
    else if firstByte &&& 0xC0 = 0x40 then
      match decodeInteger 6 data with
      | .error err => (.error err, d)
      | .ok (nameIndex, data) =>
        match d.getTableEntry nameIndex with
        | none =>
          (.error ⟨.kParseError, bytes "Invalid HPACK name index: " ++ Bytes.ofNat nameIndex⟩, d)
        | some nameEntry =>
          match decodeString data with
          | .error err => (.error err, d)
          | .ok (value, data) =>
            let header := { header with name := nameEntry.name, value := value }
            (.ok (header, data), d.addToDynamicTable header)
    else if firstByte &&& 0xF0 = 0x00 then
      match decodeString data with
      | .error err => (.error err, d)
      | .ok (name, data) =>
        match decodeString data with
        | .error err => (.error err, d)
        | .ok (value, data) =>
          let header := { header with name := name, value := value }
          (.ok (header, data), d.addToDynamicTable header)
    else if firstByte &&& 0xE0 = 0x20 then
      if ¬ d.decodingStarted then
        (.error ⟨.kParseError, bytes "Dynamic table size update at invalid position"⟩, d)
      else
        match decodeInteger 5 data with
        | .error err => (.error err, d)
        | .ok (newSize, data) =>
          let (err, d) := d.updateDynamicTableSize newSize
          if ¬ err.isSuccess then (.error err, d) else decodeHeaderFieldFuel header fuel d data
    else
      (.error ⟨.kParseError, bytes "Unknown HPACK encoding: 0x" ++ Bytes.ofNat firstByte.toNat⟩, d)

def decodeHeaderField (d : HpackDecoder) (data : Bytes) (header : HpackHeader) :
    Except Error (HpackHeader × Bytes) × HpackDecoder :=
  decodeHeaderFieldFuel header data.length d data

/-- The loop of `Decode`; every field takes at least one byte. -/
def decodeFields : ℕ → HpackDecoder → Bytes → Option (List HpackHeader) × HpackDecoder
  | 0, d, _ => (some [], d)
  | _ + 1, d, [] => (some [], d)
  | fuel + 1, d, byte :: rest =>
    match d.decodeHeaderField (byte :: rest) ⟨[], [], false⟩ with
    | (.error _, d) => (none, d)
    | (.ok (header, data), d) =>
      match decodeFields fuel d data with
      | (none, d) => (none, d)
      | (some headers, d) => (some (header :: headers), d)

def decode (d : HpackDecoder) (data : Bytes) : Option (List HpackHeader) × HpackDecoder :=
  decodeFields data.length { d with decodingStarted := true } data

end HpackDecoder

end TinyWebServer
