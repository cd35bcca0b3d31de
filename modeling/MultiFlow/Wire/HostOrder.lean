import MultiFlow.Wire.Header

/-!
# The wire header on a host of either byte order

`wire_header.c` converts each field with `htons`, `htonl` or a swap of the halves of a 64-bit
number, and copies the result as the host stores it.  On a little-endian host this is the format of
`MultiFlow.Wire.Header`; on either host a header is read back as it was written.
-/

namespace MultiFlow.HostWire

open Lib Wire List

inductive HostOrder where
  | little
  | big
deriving DecidableEq

/-- The bytes of a number in the memory of the host. -/
def HostOrder.store : HostOrder → Nat → Nat → List UInt8
  | .little, width, value => (putBigEndian width value).reverse
  | .big, width, value => putBigEndian width value

def HostOrder.load : HostOrder → List UInt8 → Nat
  | .little, bytes => getBigEndian bytes.reverse
  | .big, bytes => getBigEndian bytes

section Order

variable (order : HostOrder)

/-- The number whose bytes in memory are those of the argument in network order. -/
def htons (value : UInt16) : UInt16 := UInt16.ofNat (order.load (putBigEndian 2 value.toNat))

def htonl (value : UInt32) : UInt32 := UInt32.ofNat (order.load (putBigEndian 4 value.toNat))

def ntohs (value : UInt16) : UInt16 := UInt16.ofNat (getBigEndian (order.store 2 value.toNat))

def ntohl (value : UInt32) : UInt32 := UInt32.ofNat (getBigEndian (order.store 4 value.toNat))

def hostToBe64 (value : UInt64) : UInt64 :=
  let high := htonl order (value >>> 32).toUInt32
  let low := htonl order value.toUInt32
  low.toUInt64 <<< 32 ||| high.toUInt64

def be64ToHost (value : UInt64) : UInt64 :=
  let high := ntohl order value.toUInt32
  let low := ntohl order (value >>> 32).toUInt32
  high.toUInt64 <<< 32 ||| low.toUInt64

def put16 (value : UInt16) : List UInt8 := order.store 2 (htons order value).toNat

def put32 (value : UInt32) : List UInt8 := order.store 4 (htonl order value).toNat

def put64 (value : UInt64) : List UInt8 := order.store 8 (hostToBe64 order value).toNat

def get16 (bytes : List UInt8) : UInt16 := ntohs order (UInt16.ofNat (order.load bytes))

def get32 (bytes : List UInt8) : UInt32 := ntohl order (UInt32.ofNat (order.load bytes))

def get64 (bytes : List UInt8) : UInt64 := be64ToHost order (UInt64.ofNat (order.load bytes))

def wireHeaderEncodeBase (header : WireHeader) (version : UInt8) : List UInt8 :=
  put32 order (UInt32.ofNat WIRE_MAGIC) ++
    [version, header.type, header.finalDst, header.ttl] ++
    put32 order header.flowId ++ put64 order header.blockId ++
    put16 order header.shardIndex ++ put16 order header.shardCount ++
    put16 order header.validLen ++ put16 order header.payloadLen ++
    put64 order header.encodeBeginNs ++ put64 order header.encodeEndNs

def wireHeaderEncode (header : WireHeader) : List UInt8 :=
  wireHeaderEncodeBase order header WIRE_VERSION_V3

def wireHeaderEncodeV4 (header : WireHeader) : List UInt8 :=
  wireHeaderEncodeBase order header WIRE_VERSION_V4 ++ [header.originNode, header.flags] ++
    order.store 2 0 ++ put32 order header.segmentBytes

def slice (data : List UInt8) (offset width : Nat) : List UInt8 := (data.drop offset).take width

def wireHeaderDecode (data : List UInt8) : Option WireHeader :=
  if data.length < WIRE_HEADER_SIZE then none
  else
    let version := data.getD 4 0
    if get32 order (slice data 0 4) ≠ UInt32.ofNat WIRE_MAGIC ∨
        (version ≠ WIRE_VERSION_V3 ∧ version ≠ WIRE_VERSION_V4) ∨
        (version = WIRE_VERSION_V4 ∧ data.length < WIRE_V4_HEADER_SIZE) then none
    else
      let isV4 := version = WIRE_VERSION_V4
      some
        { version := version
          type := data.getD 5 0
          finalDst := data.getD 6 0
          ttl := data.getD 7 0
          flowId := get32 order (slice data 8 4)
          blockId := get64 order (slice data 12 8)
          shardIndex := get16 order (slice data 20 2)
          shardCount := get16 order (slice data 22 2)
          validLen := get16 order (slice data 24 2)
          payloadLen := get16 order (slice data 26 2)
          encodeBeginNs := get64 order (slice data 28 8)
          encodeEndNs := get64 order (slice data 36 8)
          originNode := if isV4 then data.getD 44 0 else 0
          flags := if isV4 then data.getD 45 0 else 0
          segmentBytes := if isV4 then get32 order (slice data 48 4) else 0 }

/-- The header that `ingress_submit_owned` of the relay writes over a datagram that it
forwards. -/
def rewriteTtl (header : WireHeader) (datagram : List UInt8) : List UInt8 :=
  let header := { header with ttl := header.ttl - 1 }
  let bytes :=
    if header.version = WIRE_VERSION_V4 then wireHeaderEncodeV4 order header
    else wireHeaderEncode order header
  bytes ++ datagram.drop bytes.length

end Order

section Fields

variable (order : HostOrder)

@[simp] theorem length_store (width value : Nat) : (order.store width value).length = width := by
  cases order <;> simp [HostOrder.store]

theorem store_load (bytes : List UInt8) : order.store bytes.length (order.load bytes) = bytes := by
  cases order with
  | little =>
    have written := putBigEndian_getBigEndian bytes.reverse
    rw [length_reverse] at written
    rw [HostOrder.store, HostOrder.load, written, reverse_reverse]
  | big => exact putBigEndian_getBigEndian bytes

theorem load_lt (bytes : List UInt8) : order.load bytes < 256 ^ bytes.length := by
  cases order with
  | little =>
    rw [← length_reverse]
    exact getBigEndian_lt _
  | big => exact getBigEndian_lt bytes

theorem store_converted (width value : Nat) :
    order.store width (order.load (putBigEndian width value) % 256 ^ width) =
      putBigEndian width value := by
  have small := load_lt order (putBigEndian width value)
  have written := store_load order (putBigEndian width value)
  rw [length_putBigEndian] at small written
  rw [Nat.mod_eq_of_lt small, written]

theorem converted_load (bytes : List UInt8) :
    getBigEndian (order.store bytes.length (order.load bytes % 256 ^ bytes.length)) %
      256 ^ bytes.length = getBigEndian bytes := by
  rw [Nat.mod_eq_of_lt (load_lt order bytes), store_load, Nat.mod_eq_of_lt (getBigEndian_lt bytes)]

theorem put16_eq (value : UInt16) : put16 order value = putBigEndian 2 value.toNat := by
  unfold put16 htons
  rw [UInt16.toNat_ofNat']
  exact store_converted order 2 value.toNat

theorem put32_eq (value : UInt32) : put32 order value = putBigEndian 4 value.toNat := by
  unfold put32 htonl
  rw [UInt32.toNat_ofNat']
  exact store_converted order 4 value.toNat

variable {bytes : List UInt8}

theorem get16_eq (width : bytes.length = 2) : (get16 order bytes).toNat = getBigEndian bytes := by
  have converted := converted_load order bytes
  unfold get16 ntohs
  rw [UInt16.toNat_ofNat', UInt16.toNat_ofNat']
  rwa [width] at converted

theorem get32_eq (width : bytes.length = 4) : (get32 order bytes).toNat = getBigEndian bytes := by
  have converted := converted_load order bytes
  unfold get32 ntohl
  rw [UInt32.toNat_ofNat', UInt32.toNat_ofNat']
  rwa [width] at converted

theorem get16_put16 (value : UInt16) : get16 order (put16 order value) = value := by
  refine UInt16.toNat_inj.mp ?_
  rw [put16_eq, get16_eq order (length_putBigEndian 2 _)]
  exact getBigEndian_putBigEndian_of_lt 2 _ value.toNat_lt

theorem get32_put32 (value : UInt32) : get32 order (put32 order value) = value := by
  refine UInt32.toNat_inj.mp ?_
  rw [put32_eq, get32_eq order (length_putBigEndian 4 _)]
  exact getBigEndian_putBigEndian_of_lt 4 _ value.toNat_lt

theorem put16_get16 (width : bytes.length = 2) : put16 order (get16 order bytes) = bytes := by
  rw [put16_eq, get16_eq order width, ← width, putBigEndian_getBigEndian]

theorem put32_get32 (width : bytes.length = 4) : put32 order (get32 order bytes) = bytes := by
  rw [put32_eq, get32_eq order width, ← width, putBigEndian_getBigEndian]

variable (value : UInt64)

theorem toNat_highHalf : (value >>> 32).toUInt32.toNat = value.toNat / 2 ^ 32 := by
  have small := value.toNat_lt
  rw [UInt64.toNat_toUInt32, UInt64.toNat_shiftRight]
  change value.toNat >>> 32 % 2 ^ 32 = _
  rw [Nat.shiftRight_eq_div_pow, Nat.mod_eq_of_lt (by omega)]

theorem toNat_lowHalf : value.toUInt32.toNat = value.toNat % 2 ^ 32 :=
  UInt64.toNat_toUInt32 value

/-- The halves of eight bytes in memory: the host's order decides which comes first. -/
def HostOrder.pair : HostOrder → List UInt8 → List UInt8 → List UInt8
  | .little, high, low => low ++ high
  | .big, high, low => high ++ low

theorem store_halves (high low : UInt32) :
    order.store 8 (high.toNat * 2 ^ 32 + low.toNat) =
      order.pair (order.store 4 high.toNat) (order.store 4 low.toNat) := by
  have highLt := high.toNat_lt
  have lowLt := low.toNat_lt
  have split : putBigEndian 8 (high.toNat * 2 ^ 32 + low.toNat) =
      putBigEndian 4 high.toNat ++ putBigEndian 4 low.toNat := by
    have wide := putBigEndian_add 4 4 (high.toNat * 2 ^ 32 + low.toNat)
    have top : (high.toNat * 2 ^ 32 + low.toNat) / 256 ^ 4 = high.toNat := by omega
    have bottom : (high.toNat * 2 ^ 32 + low.toNat) % 256 ^ 4 = low.toNat := by omega
    rw [top, ← putBigEndian_mod 4 (high.toNat * 2 ^ 32 + low.toNat), bottom] at wide
    exact wide
  cases order with
  | little => simp only [HostOrder.store, HostOrder.pair, split, reverse_append]
  | big => exact split

theorem put64_eq :
    put64 order value = order.pair (put32 order value.toUInt32)
      (put32 order (value >>> 32).toUInt32) := by
  unfold put64 hostToBe64 put32
  rw [toNat_halves, store_halves]

theorem load_pair {high low : List UInt8} (width : low.length = 4) :
    order.load (order.pair high low) = order.load high * 2 ^ 32 + order.load low := by
  have general : ∀ first second : List UInt8, second.length = 4 →
      getBigEndian (first ++ second) = getBigEndian first * 2 ^ 32 + getBigEndian second := by
    intro first second four
    obtain ⟨a, b, c, d, rfl⟩ : ∃ a b c d, second = [a, b, c, d] := by
      match second, four with
      | [a, b, c, d], _ => exact ⟨a, b, c, d, rfl⟩
    simp only [getBigEndian, foldl_append, foldl_cons, foldl_nil]
    omega
  cases order with
  | little =>
    simp only [HostOrder.load, HostOrder.pair, reverse_append]
    exact general _ _ (by rw [length_reverse, width])
  | big => exact general _ _ width

theorem get64_pair {high low : List UInt8} (highWidth : high.length = 4)
    (lowWidth : low.length = 4) :
    get64 order (order.pair high low) =
      (get32 order low).toUInt64 <<< 32 ||| (get32 order high).toUInt64 := by
  have highLt := load_lt order high
  have lowLt := load_lt order low
  rw [highWidth] at highLt
  rw [lowWidth] at lowLt
  have value : (UInt64.ofNat (order.load high * 2 ^ 32 + order.load low)).toNat =
      order.load high * 2 ^ 32 + order.load low := by
    rw [UInt64.toNat_ofNat', Nat.mod_eq_of_lt (by omega)]
  have top : (UInt64.ofNat (order.load high * 2 ^ 32 + order.load low) >>> 32).toUInt32 =
      UInt32.ofNat (order.load high) := by
    refine UInt32.toNat_inj.mp ?_
    rw [toNat_highHalf, value, UInt32.toNat_ofNat', Nat.mod_eq_of_lt (by omega)]
    omega
  have bottom : (UInt64.ofNat (order.load high * 2 ^ 32 + order.load low)).toUInt32 =
      UInt32.ofNat (order.load low) := by
    refine UInt32.toNat_inj.mp ?_
    rw [toNat_lowHalf, value, UInt32.toNat_ofNat']
    omega
  unfold get64 be64ToHost get32
  rw [load_pair order lowWidth, top, bottom]

theorem get64_put64 : get64 order (put64 order value) = value := by
  have small := value.toNat_lt
  rw [put64_eq, get64_pair order (by rw [put32_eq, length_putBigEndian])
    (by rw [put32_eq, length_putBigEndian]), get32_put32, get32_put32]
  refine UInt64.toNat_inj.mp ?_
  rw [toNat_halves, toNat_highHalf, toNat_lowHalf]
  omega

theorem exists_pair (width : bytes.length = 8) :
    ∃ high low : List UInt8, high.length = 4 ∧ low.length = 4 ∧ bytes = order.pair high low := by
  have front : (bytes.take 4).length = 4 := by simp [width]
  have back : (bytes.drop 4).length = 4 := by simp [width]
  cases order with
  | little => exact ⟨_, _, back, front, (take_append_drop 4 bytes).symm⟩
  | big => exact ⟨_, _, front, back, (take_append_drop 4 bytes).symm⟩

theorem put64_get64 (width : bytes.length = 8) : put64 order (get64 order bytes) = bytes := by
  obtain ⟨high, low, highWidth, lowWidth, rfl⟩ := exists_pair order width
  have value : (get64 order (order.pair high low)).toNat =
      (get32 order low).toNat * 2 ^ 32 + (get32 order high).toNat := by
    rw [get64_pair order highWidth lowWidth, toNat_halves]
  have lowLt := (get32 order low).toNat_lt
  have highLt := (get32 order high).toNat_lt
  have top : (get64 order (order.pair high low) >>> 32).toUInt32 = get32 order low := by
    refine UInt32.toNat_inj.mp ?_
    rw [toNat_highHalf, value]
    omega
  have bottom : (get64 order (order.pair high low)).toUInt32 = get32 order high := by
    refine UInt32.toNat_inj.mp ?_
    rw [toNat_lowHalf, value]
    omega
  rw [put64_eq, top, bottom, put32_get32 order highWidth, put32_get32 order lowWidth]

@[simp] theorem length_put16 (value : UInt16) : (put16 order value).length = 2 :=
  length_store order 2 _

@[simp] theorem length_put32 (value : UInt32) : (put32 order value).length = 4 :=
  length_store order 4 _

@[simp] theorem length_put64 : (put64 order value).length = 8 := length_store order 8 _

end Fields

section RoundTrip

variable (order : HostOrder)

theorem slice_skip (part rest : List UInt8) (offset width : Nat) (beyond : part.length ≤ offset) :
    slice (part ++ rest) offset width = slice rest (offset - part.length) width := by
  rw [slice, slice, drop_append, drop_of_length_le beyond, nil_append]

theorem slice_here (part rest : List UInt8) (width : Nat) (length_eq : part.length = width) :
    slice (part ++ rest) 0 width = part := by
  rw [slice, drop_zero, take_append_of_le_length length_eq.ge, take_of_length_le length_eq.le]

@[simp] theorem length_encodeBase (hdr : WireHeader) (version : UInt8) :
    (wireHeaderEncodeBase order hdr version).length = WIRE_HEADER_SIZE := by
  simp [wireHeaderEncodeBase, WIRE_HEADER_SIZE]

theorem slice_encodeBase (hdr : WireHeader) (version : UInt8) (rest : List UInt8) :
    let data := wireHeaderEncodeBase order hdr version ++ rest
    slice data 0 4 = put32 order (UInt32.ofNat WIRE_MAGIC) ∧
      slice data 4 4 = [version, hdr.type, hdr.finalDst, hdr.ttl] ∧
      slice data 8 4 = put32 order hdr.flowId ∧ slice data 12 8 = put64 order hdr.blockId ∧
      slice data 20 2 = put16 order hdr.shardIndex ∧
      slice data 22 2 = put16 order hdr.shardCount ∧
      slice data 24 2 = put16 order hdr.validLen ∧
      slice data 26 2 = put16 order hdr.payloadLen ∧
      slice data 28 8 = put64 order hdr.encodeBeginNs ∧
      slice data 36 8 = put64 order hdr.encodeEndNs := by
  simp only [wireHeaderEncodeBase, append_assoc]
  refine ⟨slice_here _ _ _ (by simp), ?_, ?_, ?_, ?_, ?_, ?_, ?_, ?_, ?_⟩
  all_goals
    simp (disch := simp) only [slice_skip, length_put16, length_put32, length_put64,
      length_cons, length_nil, Nat.reduceAdd, Nat.reduceSub]
    exact slice_here _ _ _ (by simp)

variable {data : List UInt8} {offset : Nat}

theorem getD_slice {width : Nat} {bytes : List UInt8} (slice_eq : slice data offset width = bytes)
    {idx : Nat} (inSlice : idx < bytes.length) : data.getD (offset + idx) 0 = bytes.getD idx 0 := by
  have inWidth : idx < width := by
    rw [← slice_eq, slice, length_take] at inSlice
    omega
  rw [← slice_eq, slice, getD_eq_getElem?_getD, getD_eq_getElem?_getD,
    List.getElem?_take_of_lt inWidth, List.getElem?_drop]

theorem decode_encodeBase (hdr : WireHeader) {version : UInt8} {rest : List UInt8}
    (known : version = WIRE_VERSION_V3 ∨
      version = WIRE_VERSION_V4 ∧ WIRE_V4_HEADER_SIZE ≤ WIRE_HEADER_SIZE + rest.length) :
    wireHeaderDecode order (wireHeaderEncodeBase order hdr version ++ rest) =
      some { hdr with
        version := version
        originNode := if version = WIRE_VERSION_V4 then rest.getD 0 0 else 0
        flags := if version = WIRE_VERSION_V4 then rest.getD 1 0 else 0
        segmentBytes :=
          if version = WIRE_VERSION_V4 then get32 order (slice rest 4 4) else 0 } := by
  obtain ⟨magic, bytes, flow, block, index, count, valid, body, began, ended⟩ :=
    slice_encodeBase order hdr version rest
  have length_eq : (wireHeaderEncodeBase order hdr version ++ rest).length =
      WIRE_HEADER_SIZE + rest.length := by
    rw [length_append, length_encodeBase]
  have four := getD_slice bytes (Nat.zero_lt_succ 3)
  have five := getD_slice bytes (by decide : 1 < 4)
  have six := getD_slice bytes (by decide : 2 < 4)
  have seven := getD_slice bytes (by decide : 3 < 4)
  have origin : (wireHeaderEncodeBase order hdr version ++ rest).getD 44 0 = rest.getD 0 0 := by
    rw [getD_append_right _ _ _ _ (by rw [length_encodeBase]; decide), length_encodeBase]
    rfl
  have flags : (wireHeaderEncodeBase order hdr version ++ rest).getD 45 0 = rest.getD 1 0 := by
    rw [getD_append_right _ _ _ _ (by rw [length_encodeBase]; decide), length_encodeBase]
    rfl
  have segment : slice (wireHeaderEncodeBase order hdr version ++ rest) 48 4 =
      slice rest 4 4 := by
    rw [slice_skip _ _ _ _ (by rw [length_encodeBase]; decide), length_encodeBase]
    rfl
  unfold wireHeaderDecode
  rw [if_neg (by omega), magic, get32_put32, four, five, six, seven, flow, block, index, count,
    valid, body, began, ended, origin, flags, segment]
  simp only [get16_put16, get32_put32, get64_put64, getD_cons_zero, getD_cons_succ]
  rw [if_neg]
  rintro (contrary | ⟨notV3, notV4⟩ | ⟨isV4, short⟩)
  · exact contrary rfl
  · exact known.elim notV3 fun both => notV4 both.1
  rw [length_eq] at short
  rcases known with isV3 | ⟨_, _⟩
  · rw [isV3] at isV4
    cases isV4
  · omega

theorem decode_encode (hdr : WireHeader) (rest : List UInt8) :
    wireHeaderDecode order (wireHeaderEncode order hdr ++ rest) =
      some { hdr with
        version := WIRE_VERSION_V3, originNode := 0, flags := 0, segmentBytes := 0 } :=
  decode_encodeBase order hdr (Or.inl rfl)

theorem decode_encodeV4 (hdr : WireHeader) (rest : List UInt8) :
    wireHeaderDecode order (wireHeaderEncodeV4 order hdr ++ rest) =
      some { hdr with version := WIRE_VERSION_V4 } := by
  have regroup : wireHeaderEncodeV4 order hdr ++ rest =
      wireHeaderEncodeBase order hdr WIRE_VERSION_V4 ++ ([hdr.originNode, hdr.flags] ++
        (order.store 2 0 ++ (put32 order hdr.segmentBytes ++ rest))) := by
    simp only [wireHeaderEncodeV4, append_assoc]
  have segment : slice ([hdr.originNode, hdr.flags] ++
      (order.store 2 0 ++ (put32 order hdr.segmentBytes ++ rest))) 4 4 =
        put32 order hdr.segmentBytes := by
    rw [slice_skip _ _ _ _ (by simp), slice_skip _ _ _ _ (by simp)]
    simp only [length_store, length_cons, length_nil, Nat.reduceAdd, Nat.reduceSub]
    exact slice_here _ _ _ (by simp)
  have long : WIRE_V4_HEADER_SIZE ≤ WIRE_HEADER_SIZE + ([hdr.originNode, hdr.flags] ++
      (order.store 2 0 ++ (put32 order hdr.segmentBytes ++ rest))).length := by
    simp only [length_append, length_cons, length_nil, length_store, length_put32,
      WIRE_HEADER_SIZE, WIRE_V4_HEADER_SIZE]
    omega
  rw [regroup, decode_encodeBase order hdr (Or.inr ⟨rfl, long⟩), segment, get32_put32]
  rfl

theorem length_slice {width : Nat} (inside : offset + width ≤ data.length) :
    (slice data offset width).length = width := by
  rw [slice, length_take, length_drop]
  omega

theorem take_split (data : List UInt8) (total front width : Nat) (sum : front + width = total) :
    data.take total = data.take front ++ slice data front width := by
  rw [← sum, take_add, slice]

theorem slice_split (data : List UInt8) (offset total front width : Nat)
    (sum : front + width = total) :
    slice data offset total = slice data offset front ++ slice data (offset + front) width := by
  rw [slice, take_split _ total front width sum, slice, slice, slice, drop_drop]

theorem slice_byte (inside : offset < data.length) :
    slice data offset 1 = [data.getD offset 0] := by
  rw [slice, drop_eq_getElem_cons inside, take_succ_cons, take_zero, getD_eq_getElem _ _ inside]

theorem take_base (long : WIRE_HEADER_SIZE ≤ data.length) :
    data.take WIRE_HEADER_SIZE = slice data 0 4 ++
      [data.getD 4 0, data.getD 5 0, data.getD 6 0, data.getD 7 0] ++ slice data 8 4 ++
      slice data 12 8 ++ slice data 20 2 ++ slice data 22 2 ++ slice data 24 2 ++
      slice data 26 2 ++ slice data 28 8 ++ slice data 36 8 := by
  have bound : 44 ≤ data.length := long
  have bytes : slice data 4 4 = [data.getD 4 0, data.getD 5 0, data.getD 6 0, data.getD 7 0] := by
    rw [slice_split data 4 4 1 3 rfl, slice_split data 5 3 1 2 rfl, slice_split data 6 2 1 1 rfl,
      slice_byte (by omega), slice_byte (by omega), slice_byte (by omega), slice_byte (by omega)]
    rfl
  unfold WIRE_HEADER_SIZE
  rw [take_split data 44 36 8 rfl, take_split data 36 28 8 rfl, take_split data 28 26 2 rfl,
    take_split data 26 24 2 rfl, take_split data 24 22 2 rfl, take_split data 22 20 2 rfl,
    take_split data 20 12 8 rfl, take_split data 12 8 4 rfl, take_split data 8 4 4 rfl, bytes]
  rfl

/-- What a datagram has when its header is accepted. -/
structure Accepted (data : List UInt8) (header : WireHeader) : Prop where
  long : WIRE_HEADER_SIZE ≤ data.length
  version_eq : header.version = data.getD 4 0
  known : header.version = WIRE_VERSION_V3 ∨
    header.version = WIRE_VERSION_V4 ∧ WIRE_V4_HEADER_SIZE ≤ data.length
  base_eq : wireHeaderEncodeBase order header header.version = data.take WIRE_HEADER_SIZE
  extension : header.version = WIRE_VERSION_V4 →
    header.originNode = data.getD 44 0 ∧ header.flags = data.getD 45 0 ∧
      header.segmentBytes = get32 order (slice data 48 4)

theorem accepted_of_decode {header : WireHeader}
    (decoded : wireHeaderDecode order data = some header) : Accepted order data header := by
  unfold wireHeaderDecode at decoded
  split at decoded
  · cases decoded
  rename_i long
  have bound : 44 ≤ data.length := not_lt.mp long
  dsimp only at decoded
  split at decoded
  · cases decoded
  rename_i checks
  simp only [not_or, not_and, not_not, not_lt, ne_eq] at checks
  obtain ⟨magic, version, longV4⟩ := checks
  have magicBytes : put32 order (UInt32.ofNat WIRE_MAGIC) = slice data 0 4 := by
    rw [← magic, put32_get32 order (length_slice (by omega))]
  cases Option.some.inj decoded
  refine ⟨bound, rfl, ?_, ?_, ?_⟩
  · by_cases isV3 : data.getD 4 0 = WIRE_VERSION_V3
    · exact Or.inl isV3
    · exact Or.inr ⟨version isV3, longV4 (version isV3)⟩
  · -- the header is the fields of its first bytes, in order
    rw [take_base (not_lt.mp long)]
    unfold wireHeaderEncodeBase
    rw [magicBytes, put32_get32 order (length_slice (by omega)),
      put64_get64 order (length_slice (by omega)), put16_get16 order (length_slice (by omega)),
      put16_get16 order (length_slice (by omega)), put16_get16 order (length_slice (by omega)),
      put16_get16 order (length_slice (by omega)), put64_get64 order (length_slice (by omega)),
      put64_get64 order (length_slice (by omega))]
  · intro isV4
    rw [if_pos isV4, if_pos isV4, if_pos isV4]
    exact ⟨rfl, rfl, rfl⟩

theorem isSome_decode_iff (data : List UInt8) :
    (wireHeaderDecode order data).isSome = true ↔
      data.take 4 = [0x57, 0x47, 0x50, 0x31] ∧
        (data.getD 4 0 = WIRE_VERSION_V3 ∧ WIRE_HEADER_SIZE ≤ data.length ∨
          data.getD 4 0 = WIRE_VERSION_V4 ∧ WIRE_V4_HEADER_SIZE ≤ data.length) := by
  have magic_eq : put32 order (UInt32.ofNat WIRE_MAGIC) = [0x57, 0x47, 0x50, 0x31] := by
    rw [put32_eq]
    decide
  constructor
  · intro accepted
    obtain ⟨_, decoded⟩ := Option.isSome_iff_exists.mp accepted
    have facts := accepted_of_decode order decoded
    constructor
    · have start := congrArg (List.take 4) facts.base_eq
      rw [take_take] at start
      rw [← magic_eq]
      refine start.symm.trans ?_
      simp only [wireHeaderEncodeBase, append_assoc]
      exact take_left' (length_put32 order _)
    · rw [← facts.version_eq]
      rcases facts.known with isV3 | isV4
      · exact Or.inl ⟨isV3, facts.long⟩
      · exact Or.inr isV4
  · rintro ⟨start, version⟩
    have long : WIRE_HEADER_SIZE ≤ data.length := by
      rcases version with ⟨_, long⟩ | ⟨_, long⟩
      · exact long
      · exact le_trans (by decide) long
    have magic : get32 order (slice data 0 4) = UInt32.ofNat WIRE_MAGIC := by
      rw [slice, drop_zero, start, ← magic_eq, get32_put32]
    unfold wireHeaderDecode
    rw [if_neg (not_lt.mpr long), if_neg]
    · rfl
    rintro (contrary | ⟨notV3, notV4⟩ | ⟨isV4, _⟩)
    · exact contrary magic
    · exact version.elim (fun both => notV3 both.1) fun both => notV4 both.1
    rcases version with ⟨isV3, _⟩ | ⟨_, _⟩
    · rw [isV3] at isV4
      cases isV4
    · omega

theorem store_zero (width : Nat) : order.store width 0 = List.replicate width 0 := by
  have zeros : ∀ width, putBigEndian width 0 = List.replicate width 0 := by
    intro width
    induction width with
    | zero => rfl
    | succ width ih =>
      rw [putBigEndian, Nat.zero_div, ih, replicate_succ']
      rfl
  cases order with
  | little => rw [HostOrder.store, zeros, reverse_replicate]
  | big => exact zeros width

variable {data : List UInt8} {hdr : WireHeader}

variable (accepted : Accepted order data hdr)
include accepted

theorem Accepted.encode_eq (isV3 : hdr.version = WIRE_VERSION_V3) :
    wireHeaderEncode order hdr = data.take WIRE_HEADER_SIZE := by
  rw [wireHeaderEncode, ← isV3]
  exact accepted.base_eq

theorem Accepted.encodeV4_eq (isV4 : hdr.version = WIRE_VERSION_V4) :
    wireHeaderEncodeV4 order hdr = ((data.take WIRE_V4_HEADER_SIZE).set 46 0).set 47 0 := by
  have notV3 : ¬ WIRE_VERSION_V4 = WIRE_VERSION_V3 := by decide
  have long : 52 ≤ data.length := by
    rcases accepted.known with isV3 | ⟨_, long⟩
    · exact absurd (isV4.symm.trans isV3) notV3
    · exact long
  obtain ⟨origin, flags, segment⟩ := accepted.extension isV4
  have reserved : slice data 46 2 = [data.getD 46 0, data.getD 47 0] := by
    rw [slice_split data 46 2 1 1 rfl, slice_byte (by omega), slice_byte (by omega)]
    rfl
  have extension : slice data 44 2 = [hdr.originNode, hdr.flags] := by
    rw [slice_split data 44 2 1 1 rfl, slice_byte (by omega), slice_byte (by omega), origin, flags]
    rfl
  have base := accepted.base_eq
  rw [isV4] at base
  have front : (data.take 46).length = 46 := by
    rw [length_take]
    omega
  unfold wireHeaderEncodeV4 WIRE_V4_HEADER_SIZE
  rw [base, ← extension, segment, put32_get32 order (length_slice (by omega)), store_zero,
    take_split data 52 48 4 rfl, take_split data 48 46 2 rfl, reserved,
    append_assoc (data.take 46), set_append_right _ _ front.le,
    set_append_right _ _ (by rw [front]; decide), front, take_split data 46 44 2 rfl]
  simp only [append_assoc]
  rfl

omit accepted

theorem encodeBase_ttl (hdr : WireHeader) (version ttl : UInt8) :
    wireHeaderEncodeBase order { hdr with ttl := ttl } version =
      (wireHeaderEncodeBase order hdr version).set 7 ttl := by
  unfold wireHeaderEncodeBase
  simp only [append_assoc]
  rw [set_append_right _ _ (by rw [length_put32]; decide), length_put32]
  rfl

theorem encodeV4_ttl (hdr : WireHeader) (ttl : UInt8) :
    wireHeaderEncodeV4 order { hdr with ttl := ttl } =
      (wireHeaderEncodeV4 order hdr).set 7 ttl := by
  unfold wireHeaderEncodeV4
  rw [encodeBase_ttl]
  simp only [append_assoc]
  rw [set_append_left _ _ (by rw [length_encodeBase]; decide)]

include accepted

theorem Accepted.rewriteTtl_v3 (isV3 : hdr.version = WIRE_VERSION_V3) :
    rewriteTtl order hdr data = data.set 7 (hdr.ttl - 1) := by
  have notV4 : hdr.version ≠ WIRE_VERSION_V4 := by
    rw [isV3]
    decide
  have bytes : wireHeaderEncode order { hdr with ttl := hdr.ttl - 1 } =
      (data.take WIRE_HEADER_SIZE).set 7 (hdr.ttl - 1) := by
    rw [← accepted.encode_eq order isV3]
    exact encodeBase_ttl order hdr _ _
  have front : (data.take WIRE_HEADER_SIZE).length = WIRE_HEADER_SIZE := by
    rw [length_take, min_eq_left accepted.long]
  unfold rewriteTtl
  dsimp only
  rw [if_neg notV4, bytes, length_set, front, ← set_append_left _ _ (by
    rw [front]; decide), take_append_drop]

theorem Accepted.rewriteTtl_v4 (isV4 : hdr.version = WIRE_VERSION_V4) :
    rewriteTtl order hdr data = ((data.set 46 0).set 47 0).set 7 (hdr.ttl - 1) := by
  have notV3 : ¬ WIRE_VERSION_V4 = WIRE_VERSION_V3 := by decide
  have long : WIRE_V4_HEADER_SIZE ≤ data.length := by
    rcases accepted.known with isV3 | ⟨_, long⟩
    · exact absurd (isV4.symm.trans isV3) notV3
    · exact long
  have bytes : wireHeaderEncodeV4 order { hdr with ttl := hdr.ttl - 1 } =
      (((data.take WIRE_V4_HEADER_SIZE).set 46 0).set 47 0).set 7 (hdr.ttl - 1) := by
    rw [← accepted.encodeV4_eq order isV4]
    exact encodeV4_ttl order hdr _
  have front : (data.take WIRE_V4_HEADER_SIZE).length = WIRE_V4_HEADER_SIZE := by
    rw [length_take, min_eq_left long]
  unfold rewriteTtl
  dsimp only
  rw [if_pos isV4, bytes]
  simp only [length_set, front]
  rw [← set_append_left _ _ (by simp only [length_set, front]; decide),
    ← set_append_left _ _ (by simp only [length_set, front]; decide),
    ← set_append_left _ _ (by rw [front]; decide), take_append_drop]

end RoundTrip

theorem put64_little : put64 .little value = putBigEndian 8 value.toNat := by
  have wide := putBigEndian_add 4 4 value.toNat
  have low := putBigEndian_mod 4 value.toNat
  rw [put64_eq, HostOrder.pair, put32_eq, put32_eq, toNat_highHalf, toNat_lowHalf]
  rw [← low] at wide
  exact wide.symm

theorem get64_little {bytes : List UInt8} (width : bytes.length = 8) :
    get64 .little bytes = UInt64.ofNat (getBigEndian bytes) := by
  have written := put64_get64 .little width
  rw [put64_little] at written
  rw [← written, getBigEndian_putBigEndian_of_lt 8 _ (get64 .little bytes).toNat_lt,
    UInt64.ofNat_toNat, written]

theorem wireHeaderEncodeBase_little (hdr : WireHeader) (version : UInt8) :
    wireHeaderEncodeBase .little hdr version = Wire.wireHeaderEncodeBase hdr version := by
  unfold wireHeaderEncodeBase Wire.wireHeaderEncodeBase
  simp only [put16_eq, put32_eq, put64_little]
  rfl

theorem wireHeaderEncode_little (header : WireHeader) :
    wireHeaderEncode .little header = Wire.wireHeaderEncode header ∧
      wireHeaderEncodeV4 .little header = Wire.wireHeaderEncodeV4 header := by
  unfold wireHeaderEncode wireHeaderEncodeV4
  rw [wireHeaderEncodeBase_little, wireHeaderEncodeBase_little, put32_eq, store_zero]
  exact ⟨rfl, rfl⟩

theorem wireHeaderDecode_little (data : List UInt8) :
    wireHeaderDecode .little data = Wire.wireHeaderDecode data := by
  have two : ∀ offset, offset + 2 ≤ data.length →
      get16 .little (slice data offset 2) = UInt16.ofNat (field data offset 2) := by
    intro offset inside
    rw [← UInt16.ofNat_toNat (x := get16 .little (slice data offset 2)),
      get16_eq .little (length_slice inside)]
    rfl
  have four : ∀ offset, offset + 4 ≤ data.length →
      get32 .little (slice data offset 4) = UInt32.ofNat (field data offset 4) := by
    intro offset inside
    rw [← UInt32.ofNat_toNat (x := get32 .little (slice data offset 4)),
      get32_eq .little (length_slice inside)]
    rfl
  have eight : ∀ offset, offset + 8 ≤ data.length →
      get64 .little (slice data offset 8) = UInt64.ofNat (field data offset 8) :=
    fun offset inside => get64_little (length_slice inside)
  unfold wireHeaderDecode Wire.wireHeaderDecode
  by_cases short : data.length < WIRE_HEADER_SIZE
  · rw [if_pos short, if_pos short]
  have bound : 44 ≤ data.length := not_lt.mp short
  have small : field data 0 4 < 2 ^ 32 := by
    have fits := getBigEndian_lt (slice data 0 4)
    rw [length_slice (by omega)] at fits
    exact fits
  have magic : get32 .little (slice data 0 4) ≠ UInt32.ofNat WIRE_MAGIC ↔
      field data 0 4 ≠ WIRE_MAGIC := by
    rw [four 0 (by omega), not_iff_not]
    constructor
    · intro same
      have numbers := congrArg UInt32.toNat same
      rw [UInt32.toNat_ofNat', Nat.mod_eq_of_lt small] at numbers
      exact numbers
    · intro same
      rw [same]
  rw [if_neg short, if_neg short]
  simp only [magic]
  split
  · rfl
  rename_i checks
  simp only [not_or, not_and, not_not, not_lt] at checks
  obtain ⟨_, _, longV4⟩ := checks
  rw [four 8 (by omega), eight 12 (by omega), two 20 (by omega), two 22 (by omega),
    two 24 (by omega), two 26 (by omega), eight 28 (by omega), eight 36 (by omega)]
  by_cases isV4 : data.getD 4 0 = WIRE_VERSION_V4
  · have long : 52 ≤ data.length := longV4 isV4
    simp only [if_pos isV4, four 48 (by omega)]
  · simp only [if_neg isV4]

/-- The codec of the wire header on either host: headers are read back as they were written,
exactly the datagrams with the right magic, version and length are accepted, an accepted
header is written back as it was read, and the relay's new hop budget changes byte 7 and
the reserved bytes only. -/
theorem wireHeader_codec (order : HostOrder) :
    (∀ header rest, wireHeaderDecode order (wireHeaderEncode order header ++ rest) =
      some { header with version := 3, originNode := 0, flags := 0, segmentBytes := 0 }) ∧
    (∀ header rest, wireHeaderDecode order (wireHeaderEncodeV4 order header ++ rest) =
      some { header with version := 4 }) ∧
    (∀ data, (wireHeaderDecode order data).isSome = true ↔
      data.take 4 = [0x57, 0x47, 0x50, 0x31] ∧
        (data.getD 4 0 = 3 ∧ 44 ≤ data.length ∨ data.getD 4 0 = 4 ∧ 52 ≤ data.length)) ∧
    ∀ data header, wireHeaderDecode order data = some header →
      (header.version = 3 ∧ wireHeaderEncode order header = data.take 44 ∧
        rewriteTtl order header data = data.set 7 (header.ttl - 1)) ∨
      (header.version = 4 ∧
        wireHeaderEncodeV4 order header = ((data.take 52).set 46 0).set 47 0 ∧
        rewriteTtl order header data = ((data.set 46 0).set 47 0).set 7 (header.ttl - 1)) := by
  refine ⟨decode_encode order, decode_encodeV4 order, isSome_decode_iff order, ?_⟩
  intro data header decoded
  have accepted := accepted_of_decode order decoded
  rcases accepted.known with isV3 | ⟨isV4, _⟩
  · exact Or.inl ⟨isV3, accepted.encode_eq order isV3, accepted.rewriteTtl_v3 order isV3⟩
  · exact Or.inr ⟨isV4, accepted.encodeV4_eq order isV4, accepted.rewriteTtl_v4 order isV4⟩

def sampleHeader : WireHeader :=
  { version := 4, type := WIRE_TYPE_DATA, finalDst := 2, ttl := 5, flowId := 6, blockId := 7,
    shardCount := 8 }

theorem wireHeader_codec_reserved :
    let datagram := (wireHeaderEncodeV4 .little sampleHeader).set 46 9
    wireHeaderDecode .little datagram = some sampleHeader ∧
      rewriteTtl .little sampleHeader datagram = ((datagram.set 46 0).set 47 0).set 7 4 := by
  intro datagram
  have decoded : wireHeaderDecode .little datagram = some sampleHeader := by decide +kernel
  refine ⟨decoded, ?_⟩
  rcases (wireHeader_codec .little).2.2.2 datagram sampleHeader decoded with
    ⟨contrary, _⟩ | ⟨_, _, rewritten⟩
  · cases contrary
  · exact rewritten

end MultiFlow.HostWire

namespace MultiFlow.Wire

open HostWire

theorem wireHeaderDecode_encode (hdr : WireHeader) (rest : List UInt8) :
    wireHeaderDecode (wireHeaderEncode hdr ++ rest) =
      some { hdr with
        version := WIRE_VERSION_V3, originNode := 0, flags := 0, segmentBytes := 0 } := by
  rw [← wireHeaderDecode_little, ← (wireHeaderEncode_little hdr).1]
  exact decode_encode .little hdr rest

theorem wireHeaderDecode_encodeV4 (hdr : WireHeader) (rest : List UInt8) :
    wireHeaderDecode (wireHeaderEncodeV4 hdr ++ rest) =
      some { hdr with version := WIRE_VERSION_V4 } := by
  rw [← wireHeaderDecode_little, ← (wireHeaderEncode_little hdr).2]
  exact decode_encodeV4 .little hdr rest

end MultiFlow.Wire
