/-
# Software CCMP: `aes_cipher` and `aes_decipher`

Both functions work on a frame in memory: the 802.11 header, the eight bytes of CCMP header, the
payload and eight bytes of MIC.  They build the nonce, the additional data and the counter
blocks byte by byte from the header (`construct_mic_iv` and its siblings), run the CBC-MAC over
the payload and encrypt payload and MIC in counter mode.

`aes128k128d`, the block cipher, is a parameter `aes`.
-/
import Rtl8723bs.Wifi
import Rtl8723bs.Lib.Ccm

namespace Rtl8723bs

open Ccm

/-! ## 1. Arrays of sixteen bytes -/

/-- A `u8 [16]` with the listed bytes, zero from there on. -/
def u8x16 (l : List UInt8) : Block := blockAt l 0

/-- `bitwise_xor`. -/
def bitwiseXor (ina inb : Block) : Block := fun i => ina i ^^^ inb i

/-- The sixteen bytes at `&m[off]`. -/
def bytes16 (m : Mem) (off : Nat) : Block := fun j => m (off + j)

/-- `padded_buffer` with `len` bytes from `&m[off]`. -/
def paddedBuffer (m : Mem) (off len : Nat) : Block :=
  fun j => if (j : Nat) < len then m (off + j) else 0

/-- The first `len` bytes of a buffer are written to `&m[off]`. -/
def writeBlock (m : Mem) (off len : Nat) (b : Block) : Mem := fun i =>
  if h : off ≤ i ∧ i < off + len ∧ i - off < 16 then b ⟨i - off, h.2.2⟩ else m i

/-! ## 2. The blocks made from the header -/

def wlanHdrA3QosLen : Nat := 26

/-- `a4_exists`. -/
def a4Exists (hdrlen : Nat) : Bool := !(hdrlen = wlanHdrA3Len ∨ hdrlen = wlanHdrA3QosLen)

/-- `qc_exists`.  The first test compares a subtype shifted down with constants that are not,
so it never holds. -/
def qcExists (pframe : Mem) : Bool :=
  let frtype := getFrameType pframe
  let frsubtype := getFrameSubType pframe / 16
  ((frtype ||| frsubtype) = 0x18 ∨ (frtype ||| frsubtype) = 0x28 ∨ (frtype ||| frsubtype) = 0x38) ∨
    (frtype = wifiDataType ∧
      (frsubtype = 0x08 ∨ frsubtype = 0x09 ∨ frsubtype = 0x0a ∨ frsubtype = 0x0b))

/-- The header length once the QoS field is counted in. -/
def qosHdrlen (hdrlen : Nat) (pframe : Mem) : Nat :=
  if qcExists pframe ∧ hdrlen ≠ wlanHdrA3QosLen then hdrlen + 2 else hdrlen

/-- `pn_vector`, least significant byte first. -/
def pnVector (pframe : Mem) (hdrlen : Nat) : Fin 6 → UInt8 := fun k =>
  if (k : Nat) < 2 then pframe (hdrlen + k) else pframe (hdrlen + 2 + k)

/-- The QoS TID byte of the nonce. -/
def nonceTid (qc a4 : Bool) (mpdu : Mem) : UInt8 :=
  match qc, a4 with
  | true, true => mpdu 30 &&& 0x0f
  | true, false => mpdu 24 &&& 0x0f
  | false, _ => 0x00

/-- `construct_mic_iv`. -/
def constructMicIv (qc a4 : Bool) (mpdu : Mem) (payloadLength : Nat) (pn : Fin 6 → UInt8) : Block :=
  u8x16 [0x59, nonceTid qc a4 mpdu,
    mpdu 10, mpdu 11, mpdu 12, mpdu 13, mpdu 14, mpdu 15,
    pn 5, pn 4, pn 3, pn 2, pn 1, pn 0,
    UInt8.ofNat (payloadLength / 256), UInt8.ofNat (payloadLength % 256)]

/-- `construct_mic_header1`. -/
def constructMicHeader1 (headerLength : Nat) (mpdu : Mem) : Block :=
  u8x16 [UInt8.ofNat ((headerLength - 2) / 256), UInt8.ofNat ((headerLength - 2) % 256),
    mpdu 0 &&& 0xcf, mpdu 1 &&& 0xc7,
    mpdu 4, mpdu 5, mpdu 6, mpdu 7, mpdu 8, mpdu 9,
    mpdu 10, mpdu 11, mpdu 12, mpdu 13, mpdu 14, mpdu 15]

/-- `construct_mic_header2`.  The sequence control bytes are zero: `mpdu[22] & 0xf0` is
commented out in the source. -/
def constructMicHeader2 (mpdu : Mem) (a4 qc : Bool) : Block :=
  u8x16 <| [mpdu 16, mpdu 17, mpdu 18, mpdu 19, mpdu 20, mpdu 21, 0x00, 0x00] ++
    match qc, a4 with
    | false, false => []
    | false, true => [mpdu 24, mpdu 25, mpdu 26, mpdu 27, mpdu 28, mpdu 29]
    | true, false => [mpdu 24 &&& 0x0f, mpdu 25 &&& 0x00]
    | true, true =>
      [mpdu 24, mpdu 25, mpdu 26, mpdu 27, mpdu 28, mpdu 29, mpdu 30 &&& 0x0f, mpdu 31 &&& 0x00]

/-- `construct_ctr_preload`. -/
def constructCtrPreload (a4 qc : Bool) (mpdu : Mem) (pn : Fin 6 → UInt8) (c : Nat) : Block :=
  u8x16 [0x01, nonceTid qc a4 mpdu,
    mpdu 10, mpdu 11, mpdu 12, mpdu 13, mpdu 14, mpdu 15,
    pn 5, pn 4, pn 3, pn 2, pn 1, pn 0,
    UInt8.ofNat (c / 256), UInt8.ofNat (c % 256)]

/-! ## 3. The passes over the payload -/

/-- The loop over whole blocks under "Calculate MIC", for `num_blocks` rounds. -/
def micLoop (aes : Block → Block) (m : Mem) : Nat → Nat → Block → Block
  | _, 0, aesOut => aesOut
  | payloadIndex, k + 1, aesOut =>
    micLoop aes m (payloadIndex + 16) k (aes (bitwiseXor aesOut (bytes16 m payloadIndex)))

/-- "Calculate MIC": the last `aes_out`. -/
def calculateMic (aes : Block → Block) (micIv micHeader1 micHeader2 : Block) (m : Mem)
    (payloadIndex plen : Nat) : Block :=
  let aesOut := aes micIv
  let aesOut := aes (bitwiseXor aesOut micHeader1)
  let aesOut := aes (bitwiseXor aesOut micHeader2)
  let aesOut := micLoop aes m payloadIndex (plen / 16) aesOut
  if 0 < plen % 16 then
    aes (bitwiseXor aesOut (paddedBuffer m (payloadIndex + 16 * (plen / 16)) (plen % 16)))
  else aesOut

/-- The counter mode loop over whole blocks, from block `i` on; `ctr` builds the counter block
from the frame as it is by then. -/
def ctrLoop (aes : Block → Block) (ctr : Mem → Nat → Block) : Nat → Nat → Nat → Mem → Mem
  | _, _, 0, m => m
  | payloadIndex, i, k + 1, m =>
    let chainBuffer := bitwiseXor (aes (ctr m (i + 1))) (bytes16 m payloadIndex)
    ctrLoop aes ctr (payloadIndex + 16) (i + 1) k (writeBlock m payloadIndex 16 chainBuffer)

/-- Counter mode over the payload, with its short last block. -/
def ctrPayload (aes : Block → Block) (ctr : Mem → Nat → Block) (payloadIndex plen : Nat)
    (m : Mem) : Mem :=
  let m := ctrLoop aes ctr payloadIndex 0 (plen / 16) m
  if 0 < plen % 16 then
    let last := payloadIndex + 16 * (plen / 16)
    let aesOut := aes (ctr m (plen / 16 + 1))
    writeBlock m last (plen % 16) (bitwiseXor aesOut (paddedBuffer m last (plen % 16)))
  else m

/-- "Encrypt the MIC", which lies at `&m[micIndex]`. -/
def encryptMic (aes : Block → Block) (ctr : Mem → Nat → Block) (micIndex : Nat) (m : Mem) : Mem :=
  writeBlock m micIndex 8 (bitwiseXor (aes (ctr m 0)) (paddedBuffer m micIndex 8))

/-- The MIC of the payload, inserted after it, and both encrypted. -/
def micAndEncrypt (aes : Block → Block) (hdrlen : Nat) (qc a4 : Bool) (pn : Fin 6 → UInt8)
    (plen : Nat) (m : Mem) : Mem :=
  let ctr := fun m c => constructCtrPreload a4 qc m pn c
  let mic := calculateMic aes (constructMicIv qc a4 m plen pn) (constructMicHeader1 hdrlen m)
    (constructMicHeader2 m a4 qc) m (hdrlen + 8) plen
  let m := writeBlock m (hdrlen + 8 + plen) 8 mic
  encryptMic aes ctr (hdrlen + 8 + plen) (ctrPayload aes ctr (hdrlen + 8) plen m)

/-! ## 4. The two functions -/

/-- `aes_cipher`: the frame after it.  It always returns `_SUCCESS`. -/
def aesCipher (aes : Block → Block) (hdrlen : Nat) (pframe : Mem) (plen : Nat) : Mem :=
  let hlen := qosHdrlen hdrlen pframe
  micAndEncrypt aes hlen (qcExists pframe) (a4Exists hdrlen) (pnVector pframe hlen) plen pframe

/-- `MAX_MSG_SIZE`. -/
def maxMsgSize : Nat := 2048

/-- `aes_decipher`: is it `_SUCCESS`, and the frame after it.  `stale` is what the static
`message` buffer holds from the call before; a frame too long for it is not copied there. -/
def aesDecipher (aes : Block → Block) (hdrlen : Nat) (pframe : Mem) (plen : Nat) (stale : Mem) :
    Bool × Mem :=
  let qc := qcExists pframe
  let a4 := a4Exists hdrlen
  let pn := pnVector pframe hdrlen
  let hlen := qosHdrlen hdrlen pframe
  let pframe := ctrPayload aes (fun m c => constructCtrPreload a4 qc m pn c) (hlen + 8)
    (plen - 8) pframe
  let message : Mem := fun i =>
    if hlen + plen + 8 ≤ maxMsgSize ∧ i < hlen + plen + 8 then pframe i else stale i
  let message := micAndEncrypt aes hlen qc a4 (pnVector pframe hlen) (plen - 8) message
  let micIndex := hlen + 8 + (plen - 8)
  (readBytes pframe micIndex 8 = readBytes message micIndex 8, pframe)

end Rtl8723bs
