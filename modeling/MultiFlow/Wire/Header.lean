import MultiFlow.Lib.Bytes
import Mathlib.Data.List.GetD

/-!
# The wire header

The v3 header of `wire_header.c` is 44 bytes in network byte order; v4 appends eight
more.
-/

namespace MultiFlow.Wire

open Lib

def WIRE_MAGIC : Nat := 0x57475031

def WIRE_VERSION_V3 : UInt8 := 3

def WIRE_VERSION_V4 : UInt8 := 4

def WIRE_TYPE_DATA : UInt8 := 1

def WIRE_TYPE_END : UInt8 := 2

def WIRE_HEADER_SIZE : Nat := 44

def WIRE_V4_HEADER_SIZE : Nat := 52

@[ext] structure WireHeader where
  version : UInt8 := 0
  type : UInt8
  finalDst : UInt8
  ttl : UInt8
  flowId : UInt32
  blockId : UInt64
  shardIndex : UInt16 := 0
  shardCount : UInt16
  validLen : UInt16 := 0
  payloadLen : UInt16 := 0
  encodeBeginNs : UInt64 := 0
  encodeEndNs : UInt64 := 0
  originNode : UInt8 := 0
  flags : UInt8 := 0
  segmentBytes : UInt32 := 0
deriving DecidableEq

def wireHeaderEncodeBase (header : WireHeader) (version : UInt8) : List UInt8 :=
  putBigEndian 4 WIRE_MAGIC ++ [version, header.type, header.finalDst, header.ttl] ++
    putBigEndian 4 header.flowId.toNat ++ putBigEndian 8 header.blockId.toNat ++
    putBigEndian 2 header.shardIndex.toNat ++ putBigEndian 2 header.shardCount.toNat ++
    putBigEndian 2 header.validLen.toNat ++ putBigEndian 2 header.payloadLen.toNat ++
    putBigEndian 8 header.encodeBeginNs.toNat ++ putBigEndian 8 header.encodeEndNs.toNat

def wireHeaderEncode (header : WireHeader) : List UInt8 :=
  wireHeaderEncodeBase header WIRE_VERSION_V3

def wireHeaderEncodeV4 (header : WireHeader) : List UInt8 :=
  wireHeaderEncodeBase header WIRE_VERSION_V4 ++ [header.originNode, header.flags] ++
    [0, 0] ++ putBigEndian 4 header.segmentBytes.toNat

def wireHeaderSize (header : WireHeader) : Nat :=
  if header.version = WIRE_VERSION_V4 then WIRE_V4_HEADER_SIZE else WIRE_HEADER_SIZE

def field (data : List UInt8) (offset width : Nat) : Nat :=
  getBigEndian ((data.drop offset).take width)

def wireHeaderDecode (data : List UInt8) : Option WireHeader :=
  if data.length < WIRE_HEADER_SIZE then none
  else
    let version := data.getD 4 0
    if field data 0 4 ≠ WIRE_MAGIC ∨
        (version ≠ WIRE_VERSION_V3 ∧ version ≠ WIRE_VERSION_V4) ∨
        (version = WIRE_VERSION_V4 ∧ data.length < WIRE_V4_HEADER_SIZE) then none
    else
      let isV4 := version = WIRE_VERSION_V4
      some
        { version := version
          type := data.getD 5 0
          finalDst := data.getD 6 0
          ttl := data.getD 7 0
          flowId := UInt32.ofNat (field data 8 4)
          blockId := UInt64.ofNat (field data 12 8)
          shardIndex := UInt16.ofNat (field data 20 2)
          shardCount := UInt16.ofNat (field data 22 2)
          validLen := UInt16.ofNat (field data 24 2)
          payloadLen := UInt16.ofNat (field data 26 2)
          encodeBeginNs := UInt64.ofNat (field data 28 8)
          encodeEndNs := UInt64.ofNat (field data 36 8)
          originNode := if isV4 then data.getD 44 0 else 0
          flags := if isV4 then data.getD 45 0 else 0
          segmentBytes := if isV4 then UInt32.ofNat (field data 48 4) else 0 }

def wireHeaderIsLocal (header : WireHeader) (localNodeId : UInt8) : Bool :=
  if localNodeId = 0 then false else header.finalDst == localNodeId

theorem length_wireHeaderEncodeBase (header : WireHeader) (version : UInt8) :
    (wireHeaderEncodeBase header version).length = WIRE_HEADER_SIZE := by
  simp [wireHeaderEncodeBase, WIRE_HEADER_SIZE]

@[simp] theorem length_wireHeaderEncode (header : WireHeader) :
    (wireHeaderEncode header).length = WIRE_HEADER_SIZE :=
  length_wireHeaderEncodeBase header WIRE_VERSION_V3

end MultiFlow.Wire
