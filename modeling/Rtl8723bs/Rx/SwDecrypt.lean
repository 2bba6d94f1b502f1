/-
# Software decryption of a received frame

`decryptor` hands a frame the hardware has not decrypted to `rtw_wep_decrypt`, `rtw_tkip_decrypt`
or `rtw_aes_decrypt`.  Each looks up a key, takes everything behind header and IV as `length`
bytes, decrypts them in place and compares the check value at their end, except that WEP
compares nothing.

No function tests that the frame is as long as header and IV.  A length that went below zero
is used as an unsigned count, and the loop over it does not come back: the result is `none`.
-/
import Rtl8723bs.Rx.RecvPool
import Rtl8723bs.Security.CcmpRefine
import Rtl8723bs.Security.Tkip

namespace Rtl8723bs

/-! ## 1. Keys -/

/-- What the ciphers read besides the frame: `aes128k128d`, the static `message` of
`aes_decipher`, the stations and the keys. -/
structure RxCrypto where
  aes : List UInt8 → Ccm.Block → Ccm.Block
  message : Mem
  stas : StaTable
  /-- `psta->dot118021x_UncstKey`. -/
  uncstKey : StaId → List UInt8
  /-- The first `dot11DefKeylen[i]` bytes of `dot11DefKey[i]`. -/
  dot11DefKey : Nat → List UInt8
  binstallGrpkey : Bool
  dot118021XGrpKeyid : Nat
  dot118021XGrpKey : Nat → List UInt8

/-- `prwskey`, or `none` where the frame is refused for the want of one.  For AES the group key of
the frame has to be the one that was installed last. -/
def RxCrypto.prwskey (k : RxCrypto) (a : RxPktAttrib) : Option (List UInt8) :=
  match rtwGetStainfo k.stas a.ta with
  | none => none
  | some i =>
    if isMcast a.ra then
      if !k.binstallGrpkey then none
      else if a.encrypt = encAes ∧ k.dot118021XGrpKeyid ≠ a.keyIndex then none
      else some (k.dot118021XGrpKey a.keyIndex)
    else some (k.uncstKey i)

/-! ## 2. The frame -/

/-- The buffer after bytes were written through `rx_data`. -/
def RecvFrame.store (f : RecvFrame) (m : Mem) : List UInt8 :=
  f.buf.mapIdx fun i b => if f.rxData ≤ i then m (i - f.rxData) else b

@[simp] theorem RecvFrame.length_store (f : RecvFrame) (m : Mem) :
    (f.store m).length = f.buf.length := by
  simp [RecvFrame.store]

/-- What was written is read back. -/
theorem RecvFrame.mem_store (f : RecvFrame) (m : Mem) {i : Nat}
    (h : f.rxData + i < f.buf.length) : ({ f with buf := f.store m }).mem i = m i := by
  simp [RecvFrame.mem, RecvFrame.store, List.getD_eq_getElem?_getD, h]

/-- `length`, before it is looked at as a count. -/
def RecvFrame.cryptLength (f : RecvFrame) : Int := f.len - f.attrib.hdrlen - f.attrib.ivLen

/-- Where the payload starts. -/
def RecvFrame.payload (f : RecvFrame) : Nat := f.attrib.hdrlen + f.attrib.ivLen

/-- The bytes that are decrypted. -/
def RecvFrame.cryptBytes (f : RecvFrame) : List UInt8 :=
  readBytes f.mem f.payload f.cryptLength.toNat

/-- RC4 over payload and ICV: the memory after it. -/
def arcfourFrame (key : List UInt8) (f : RecvFrame) : Mem :=
  overwrite f.mem f.payload (rc4 key f.cryptBytes)

/-- The four bytes at the end of `length` bytes from `payload` on. -/
def icvAt (m : Mem) (payload length : Nat) : List UInt8 := readBytes m (payload + length - 4) 4

/-! ## 3. The three functions -/

/-- The key of `rtw_wep_decrypt`. -/
def RxCrypto.wepkey (k : RxCrypto) (f : RecvFrame) : List UInt8 :=
  readBytes f.mem f.attrib.hdrlen 3 ++ k.dot11DefKey f.attrib.keyIndex

/-- `rtw_wep_decrypt`; the checksum it computes is looked at by nobody. -/
def rtwWepDecryptFrame (k : RxCrypto) (f : RecvFrame) : Option (List UInt8) :=
  if f.attrib.encrypt = encWep40 ∨ f.attrib.encrypt = encWep104 then
    if f.cryptLength < 0 then none else some (f.store (arcfourFrame (k.wepkey f) f))
  else some f.buf

/-- The RC4 key of `rtw_tkip_decrypt`, from the bytes `GET_TKIP_PN` reads. -/
def tkipRxKey (prwskey : List UInt8) (f : RecvFrame) : List UInt8 :=
  tkipRc4Key prwskey f.attrib.ta (getTkipPn f.mem f.attrib.hdrlen)

/-- `rtw_tkip_decrypt`. -/
def rtwTkipDecrypt (k : RxCrypto) (f : RecvFrame) : Option (RxStatus × List UInt8) :=
  if f.attrib.encrypt = encTkip then
    match k.prwskey f.attrib with
    | none => some (.fail, f.buf)
    | some prwskey =>
      if f.cryptLength < 0 then none
      else
        let length := f.cryptLength.toNat
        let m := arcfourFrame (tkipRxKey prwskey f) f
        let crc := icvBytes (readBytes m f.payload (length - 4))
        some (if crc = icvAt m f.payload length then .success else .fail, f.store m)
  else some (.success, f.buf)

/-- `rtw_aes_decrypt`. -/
def rtwAesDecrypt (k : RxCrypto) (f : RecvFrame) : Option (RxStatus × List UInt8) :=
  if f.attrib.encrypt = encAes then
    match k.prwskey f.attrib with
    | none => some (.fail, f.buf)
    | some prwskey =>
      -- `plen - 8` is a count of bytes
      if f.cryptLength < 8 then none
      else
        let r := aesDecipher (k.aes prwskey) f.attrib.hdrlen f.mem f.cryptLength.toNat k.message
        some (if r.1 then .success else .fail, f.store r.2)
  else some (.success, f.buf)

/-- The receive path with these ciphers; a loop that does not come back accepts no frame. -/
def RecvEnv.withCrypto (env : RecvEnv) (k : RxCrypto) : RecvEnv :=
  { env with
    wepDecrypt := fun f => (rtwWepDecryptFrame k f).getD f.buf
    tkipDecrypt := fun f => (rtwTkipDecrypt k f).getD (.fail, f.buf)
    aesDecrypt := fun f => (rtwAesDecrypt k f).getD (.fail, f.buf) }

end Rtl8723bs
