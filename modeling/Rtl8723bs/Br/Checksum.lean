/-
# Checksums of frames that are rewritten

`dhcp_flag_bcast` sets a flag in a request and brings the UDP checksum up to date by adding the new
word to its complement; the old word is not taken off, and no checksum is not told from one that is
zero.  `nat25_db_handle` sums an ICMPv6 message anew, over as many bytes as `payload_len` says when
it is not brought into the order of the host.

What a checksum should be is said here by the sums of the protocols; `csum_partial` and
`csum_ipv6_magic` are the kernel's, and taken to form the same sums.
-/
import Rtl8723bs.Br.OptionWalk
import Rtl8723bs.Br.VlanTag
import Rtl8723bs.Lib.Bytes
import Rtl8723bs.Lib.OnesComplement

namespace Rtl8723bs

namespace Nat25

open OnesComplement

variable {c : Clock}

/-! ## 1. Loops and sums -/

/-- The loop over the carries folds a sum. -/
theorem foldCarries_spec (n : Nat) :
    foldCarries n ≤ 65535 ∧ foldCarries n % 65535 = n % 65535 ∧ (0 < n → 0 < foldCarries n) := by
  induction n using foldCarries.induct with
  | case1 n hlt =>
    rw [foldCarries, if_pos hlt]
    exact ⟨by omega, rfl, id⟩
  | case2 n hge ih =>
    obtain ⟨hle, hmod, hpos⟩ := ih
    rw [foldCarries, if_neg hge]
    exact ⟨hle, hmod.trans (carry_mod n), fun _ => hpos (by omega)⟩

/-- What folds to `0xffff`. -/
theorem foldCarries_allOnes (n : Nat) : foldCarries n = 65535 ↔ AllOnes n := by
  obtain ⟨hle, hmod, hpos⟩ := foldCarries_spec n
  unfold AllOnes
  constructor
  · intro h
    refine ⟨Nat.pos_of_ne_zero fun hn => ?_, by omega⟩
    subst hn
    rw [foldCarries] at h
    simp at h
  · rintro ⟨hn, hzero⟩
    have := hpos hn
    omega

/-- A word of memory is a little-endian load. -/
theorem word_eq (m : Mem) (off : Nat) : word m off = le16 m off := rfl

/-- What two stored bytes load as. -/
theorem le16_put {f : EthFrame} {off n : Nat} (hn : n < 65536) :
    le16 (f.put off [UInt8.ofNat n, UInt8.ofNat (n / 256)]).bytes off = n := by
  have hlow : (UInt8.ofNat n).toNat = n % 256 := UInt8.toNat_ofNat'
  have hhigh : (UInt8.ofNat (n / 256)).toNat = n / 256 := by
    rw [UInt8.toNat_ofNat']
    omega
  simp only [le16, EthFrame.put, overwrite]
  simp [hlow, hhigh]
  omega

/-- Outside of two stored bytes nothing changes. -/
theorem put_of_ne {f : EthFrame} {off i : Nat} {a b : UInt8} (h : i ≠ off) (h' : i ≠ off + 1) :
    (f.put off [a, b]).bytes i = f.bytes i := by
  simp only [EthFrame.put, overwrite, List.length_cons, List.length_nil]
  rw [if_neg (by omega)]

/-! ## 2. UDP -/

/-- The length in the UDP header, and the checksum, as it is stored. -/
def udpLen (f : EthFrame) : Nat := be16 f.bytes (udpHdr f + 4)

def udpCheck (f : EthFrame) : Nat := le16 f.bytes (udpHdr f + 6)

/-- The sum for UDP: the addresses, the protocol and the length again, and header and data. -/
def udpSum (f : EthFrame) : Nat :=
  wordSum f.bytes (ethHlen + 12) 8 + 256 * 17 + le16 f.bytes (udpHdr f + 4) +
    wordSum f.bytes (udpHdr f) (udpLen f)

/-- A checksum that is there, for zero says that there is none, and that is right. -/
def UdpValid (f : EthFrame) : Prop := udpCheck f ≠ 0 ∧ AllOnes (udpSum f)

instance (f : EthFrame) : Decidable (UdpValid f) := inferInstanceAs (Decidable (_ ∧ _))

/-- The flags of a DHCP message, as they are stored. -/
def dhcpFlags (f : EthFrame) : Nat := le16 f.bytes (udpHdr f + 8 + 10)

/-- A DHCP request in UDP, with all of the message up to its options. -/
structure DhcpRequest (f : EthFrame) : Prop where
  ip : f.protocol = ethPIp
  ihl : 5 ≤ (f.bytes ethHlen).toNat % 16
  udp : f.bytes (ethHlen + 9) = 17
  client : be16 f.bytes (udpHdr f) = 68
  server : be16 f.bytes (udpHdr f + 2) = 67
  magic : f.has (udpHdr f + 8 + 236) [0x63, 0x82, 0x53, 0x63] = true
  message : 8 + 240 ≤ udpLen f
  whole : udpHdr f + udpLen f ≤ f.len

instance (f : EthFrame) : Decidable (DhcpRequest f) :=
  decidable_of_iff (f.protocol = ethPIp ∧ 5 ≤ (f.bytes ethHlen).toNat % 16 ∧
      f.bytes (ethHlen + 9) = 17 ∧ be16 f.bytes (udpHdr f) = 68 ∧ be16 f.bytes (udpHdr f + 2) = 67 ∧
      f.has (udpHdr f + 8 + 236) [0x63, 0x82, 0x53, 0x63] = true ∧ 8 + 240 ≤ udpLen f ∧
      udpHdr f + udpLen f ≤ f.len)
    ⟨fun ⟨ip, ihl, udp, client, server, magic, message, whole⟩ =>
      ⟨ip, ihl, udp, client, server, magic, message, whole⟩,
     fun h => ⟨h.ip, h.ihl, h.udp, h.client, h.server, h.magic, h.message, h.whole⟩⟩

/-- The request asks for a broadcast. -/
def asksBroadcast (f : EthFrame) : Bool := f.bytes (udpHdr f + 8 + 10) &&& 0x80 ≠ 0

/-- The checksum after the request was made one for a broadcast: right, or still none. -/
def UdpKept (f g : EthFrame) : Prop := UdpValid g ∨ (udpCheck f = 0 ∧ udpCheck g = 0)

/-- **Requests whose checksum is kept.**  Either nothing is changed; or there is a checksum, no flag
is set, and the checksum is not the one that would become zero; or there is none, and all other
flags are set or the sum without it makes up for them. -/
def DhcpClear (b : Bridge c) (f : EthFrame) : Prop :=
  b.ethBrExtInfo.dhcpBcstDisable = true ∨ asksBroadcast f = true ∨
    (udpCheck f ≠ 0 ∧ dhcpFlags f = 0 ∧ udpCheck f ≠ 0x0080) ∨
    (udpCheck f = 0 ∧ (dhcpFlags f = 0xff7f ∨ udpSum f % 65535 = dhcpFlags f % 65535))

section Dhcp

variable {f : EthFrame}

/-- The flag that is set is in the lower byte of the word. -/
theorem or_flag {x : UInt8} (h : x &&& 0x80 = 0) :
    (x ||| 0x80).toNat = x.toNat + 128 ∧ x.toNat < 128 := by
  revert h
  exact UInt8.forall_byte (P := fun x => x &&& 0x80 = 0 →
    (x ||| 0x80).toNat = x.toNat + 128 ∧ x.toNat < 128) (by decide +kernel) x

/-- The request with the flag set. -/
def withFlag (f : EthFrame) : EthFrame :=
  f.put (udpHdr f + 8 + 10) [f.bytes (udpHdr f + 8 + 10) ||| 0x80]

/-- `udph->check` is given what is left to `0xffff`. -/
def newCheck (f : EthFrame) : Nat :=
  65535 - foldCarries (65535 - udpCheck f + (dhcpFlags f + 128))

theorem withFlag_of_ne {i : Nat} (h : i ≠ udpHdr f + 8 + 10) :
    (withFlag f).bytes i = f.bytes i := by
  simp only [withFlag, EthFrame.put, overwrite, List.length_cons, List.length_nil]
  rw [if_neg (by omega)]

theorem withFlag_flags (h : asksBroadcast f = false) :
    le16 (withFlag f).bytes (udpHdr f + 8 + 10) = dhcpFlags f + 128 := by
  have hclear : f.bytes (udpHdr f + 8 + 10) &&& 0x80 = 0 := by
    simpa only [asksBroadcast, ne_eq, decide_eq_false_iff_not, Decidable.not_not] using h
  have hset : (withFlag f).bytes (udpHdr f + 8 + 10) = f.bytes (udpHdr f + 8 + 10) ||| 0x80 := by
    simp [withFlag, EthFrame.put, overwrite]
  have hsecond : (withFlag f).bytes (udpHdr f + 8 + 10 + 1) = f.bytes (udpHdr f + 8 + 10 + 1) :=
    withFlag_of_ne (by omega)
  rw [dhcpFlags, le16, le16, hset, hsecond, (or_flag hclear).1]
  omega

/-- What `dhcp_flag_bcast` makes of a request that does not ask for a broadcast. -/
theorem dhcpFlagBcast_eq {b : Bridge c} (h : DhcpRequest f)
    (hon : b.ethBrExtInfo.dhcpBcstDisable = false) (hask : asksBroadcast f = false) :
    dhcpFlagBcast b f = (withFlag f).put (udpHdr f + 6)
      [UInt8.ofNat (newCheck f), UInt8.ofNat (newCheck f / 256)] := by
  have hclear : f.bytes (udpHdr f + 8 + 10) &&& 0x80 = 0 := by
    simpa only [asksBroadcast, ne_eq, decide_eq_false_iff_not, Decidable.not_not] using hask
  have hplain : plainDhcpRequest f = true := by
    simp only [plainDhcpRequest, decide_eq_true_eq]
    exact ⟨h.ip, h.udp, h.client, h.server, h.magic, hclear⟩
  have hflags := withFlag_flags hask
  have hcheck : le16 (withFlag f).bytes (udpHdr f + 6) = udpCheck f := by
    rw [udpCheck, le16, le16, withFlag_of_ne (by omega), withFlag_of_ne (by omega)]
  simp only [withFlag] at hflags hcheck
  simp only [dhcpFlagBcast, hon, hplain, Bool.not_false, and_self, if_true, newCheck, hflags,
    hcheck]
  rfl

theorem dhcpFlagBcast_unchanged {b : Bridge c}
    (h : b.ethBrExtInfo.dhcpBcstDisable = true ∨ asksBroadcast f = true) :
    dhcpFlagBcast b f = f := by
  rw [dhcpFlagBcast, if_neg]
  rintro ⟨hon, hplain⟩
  simp only [plainDhcpRequest, decide_eq_true_eq] at hplain
  rcases h with h | h
  · simp [h] at hon
  · simp [asksBroadcast, hplain.2.2.2.2.2] at h

theorem newCheck_spec : newCheck f < 65535 ∧
    (newCheck f + (65535 - udpCheck f + (dhcpFlags f + 128))) % 65535 = 0 := by
  obtain ⟨hle, hmod, hpos⟩ := foldCarries_spec (65535 - udpCheck f + (dhcpFlags f + 128))
  have := hpos (by omega)
  unfold newCheck
  omega

/-- The sum of the request loses the old flags. -/
theorem udpSum_put (h : DhcpRequest f) (hask : asksBroadcast f = false) :
    let g := (withFlag f).put (udpHdr f + 6)
      [UInt8.ofNat (newCheck f), UInt8.ofNat (newCheck f / 256)]
    udpCheck g = newCheck f ∧ udpSum g + udpCheck f = udpSum f + 128 + newCheck f := by
  intro g
  have hihl := h.ihl
  have hmessage := h.message
  have hbehind : ethHlen + 20 ≤ udpHdr f := by
    unfold udpHdr
    omega
  have hput : ∀ i, i ≠ udpHdr f + 6 → i ≠ udpHdr f + 6 + 1 → g.bytes i = (withFlag f).bytes i :=
    fun i hi hi' => put_of_ne hi hi'
  have hsame : ∀ i, i ≠ udpHdr f + 6 → i ≠ udpHdr f + 6 + 1 → i ≠ udpHdr f + 8 + 10 →
      g.bytes i = f.bytes i := fun i hi hi' hflag => (hput i hi hi').trans (withFlag_of_ne hflag)
  have hhdr : udpHdr g = udpHdr f := by
    rw [udpHdr, udpHdr, hsame ethHlen (by omega) (by omega) (by omega)]
  have hfour := hsame (udpHdr f + 4) (by omega) (by omega) (by omega)
  have hfive := hsame (udpHdr f + 4 + 1) (by omega) (by omega) (by omega)
  have hlen : udpLen g = udpLen f := by
    rw [udpLen, udpLen, hhdr, be16, be16, hfour, hfive]
  have hlen' : le16 g.bytes (udpHdr g + 4) = le16 f.bytes (udpHdr f + 4) := by
    rw [hhdr, le16, le16, hfour, hfive]
  have haddrs : wordSum g.bytes (ethHlen + 12) 8 = wordSum f.bytes (ethHlen + 12) 8 :=
    wordSum_congr fun i hi => hsame _ (by omega) (by omega) (by omega)
  have hcheck : udpCheck g = newCheck f := by
    rw [udpCheck, hhdr]
    exact le16_put (by have := (newCheck_spec (f := f)).1; omega)
  -- the checksum is changed behind the flags
  have hfirst : wordSum (withFlag f).bytes (udpHdr f) (udpLen f) + word f.bytes (udpHdr f + 18) =
      wordSum f.bytes (udpHdr f) (udpLen f) + word (withFlag f).bytes (udpHdr f + 18) :=
    wordSum_word rfl (by omega) fun i hi _ => withFlag_of_ne hi
  have hsecond : wordSum g.bytes (udpHdr f) (udpLen f) + word (withFlag f).bytes (udpHdr f + 6) =
      wordSum (withFlag f).bytes (udpHdr f) (udpLen f) + word g.bytes (udpHdr f + 6) :=
    wordSum_word rfl (by omega) hput
  have hold : word (withFlag f).bytes (udpHdr f + 6) = udpCheck f := by
    rw [udpCheck, word_eq, le16, le16, withFlag_of_ne (by omega), withFlag_of_ne (by omega)]
  have hflags : word (withFlag f).bytes (udpHdr f + 18) = dhcpFlags f + 128 := withFlag_flags hask
  have hflags' : word f.bytes (udpHdr f + 18) = dhcpFlags f := rfl
  have hnew : word g.bytes (udpHdr f + 6) = newCheck f := by
    rw [← hcheck, udpCheck, hhdr]
    rfl
  refine ⟨hcheck, ?_⟩
  rw [udpSum, udpSum, hlen', haddrs, hlen, hhdr]
  omega

/-- **The checksum of a request is kept** exactly under the condition. -/
theorem dhcp_kept_iff {b : Bridge c} (h : DhcpRequest f) (hv : UdpValid f ∨ udpCheck f = 0) :
    UdpKept f (dhcpFlagBcast b f) ↔ DhcpClear b f := by
  by_cases hsame : b.ethBrExtInfo.dhcpBcstDisable = true ∨ asksBroadcast f = true
  · rw [dhcpFlagBcast_unchanged hsame]
    refine iff_of_true ?_ (hsame.elim .inl fun h => .inr (.inl h))
    exact hv.imp_right fun hzero => ⟨hzero, hzero⟩
  · rw [not_or, Bool.not_eq_true, Bool.not_eq_true] at hsame
    obtain ⟨hcheck, hsum⟩ := udpSum_put h hsame.2
    obtain ⟨hlt, hmod⟩ := newCheck_spec (f := f)
    have hflag : dhcpFlags f < 65536 := le16_lt _ _
    have hold : udpCheck f < 65536 := le16_lt _ _
    have hclear : f.bytes (udpHdr f + 8 + 10) &&& 0x80 = 0 := by
      simpa only [asksBroadcast, ne_eq, decide_eq_false_iff_not, Decidable.not_not] using hsame.2
    have hhalf : dhcpFlags f ≤ 0xff7f := by
      have hlow := (or_flag hclear).2
      have hhigh := (f.bytes (udpHdr f + 8 + 10 + 1)).toNat_lt
      simp only [dhcpFlags, le16]
      omega
    rw [dhcpFlagBcast_eq h hsame.1 hsame.2]
    simp only [UdpKept, UdpValid, DhcpClear, AllOnes, hsame.1, hsame.2, hcheck] at hv ⊢
    have hpos : 256 * 17 ≤ udpSum f := by
      unfold udpSum
      omega
    simp only [Bool.false_eq_true, false_or]
    omega

end Dhcp

/-! ## 3. ICMPv6 -/

/-- `payload_len`, brought into the order of the host, and as it is stored. -/
def payloadLen (f : EthFrame) : Nat := be16 f.bytes (ethHlen + 4)

def storedLen (f : EthFrame) : Nat := le16 f.bytes (ethHlen + 4)

/-- The sum for ICMPv6: the addresses, the length and the next header again, and the message. -/
def icmp6Sum (f : EthFrame) : Nat :=
  wordSum f.bytes (ethHlen + 8) 32 + storedLen f + 256 * 58 + wordSum f.bytes icmp6 (payloadLen f)

/-- The message has a checksum, and it is right. -/
def Icmp6Valid (f : EthFrame) : Prop := 4 ≤ payloadLen f ∧ AllOnes (icmp6Sum f)

instance (f : EthFrame) : Decidable (Icmp6Valid f) := inferInstanceAs (Decidable (_ ∧ _))

/-- **What the kernel's functions give**: `csum_partial` a sum of words, not yet folded, and
`csum_ipv6_magic` the complement of the folded sum of the addresses, the length in network order,
the protocol, and what it is given. -/
structure KernelSums (e : Env c) : Prop where
  csumPartial : ∀ l, (e.csumPartial l).toNat % 65535 = bytesSum l % 65535
  csumIpv6Magic : ∀ saddr daddr len proto sum, len < 65536 →
    ((e.csumIpv6Magic saddr daddr len proto sum).toNat + (bytesSum saddr + bytesSum daddr +
      bytesSum (htons len) + 256 * proto.toNat + sum.toNat)) % 65535 = 0

/-- **`NAT25_INSERT` replaces the link-layer address** of the frame, at `p`. -/
structure Replaces (f : EthFrame) (p : Nat) : Prop where
  ipv6 : f.protocol = ethPIpv6
  whole : malformedIpv6 f = false
  source : f.has (ethHlen + 8) (List.replicate 16 0) = false
  icmp : f.bytes (ethHlen + 6) = 58
  long : icmp6 + 4 < f.len
  option : linkLayerAddr f = some (some p)

/-- The memory the checksum is formed of: the address is replaced, and there is no checksum. -/
def summed (e : Env c) (f : EthFrame) (p : Nat) : Mem :=
  ((f.put p e.hwaddr.toBytes).put (icmp6 + 2) [0, 0]).bytes

/-- **Messages whose checksum is right**: it makes no difference in which order the bytes of the
length are read, as it does not where both are the same. -/
def LengthAlike (e : Env c) (f : EthFrame) (p : Nat) : Prop :=
  (storedLen f + wordSum (summed e f p) icmp6 (payloadLen f)) % 65535 =
    (payloadLen f + wordSum (summed e f p) icmp6 (storedLen f)) % 65535

theorem LengthAlike.of_same {e : Env c} {f : EthFrame} {p : Nat}
    (h : f.bytes (ethHlen + 4) = f.bytes (ethHlen + 4 + 1)) : LengthAlike e f p := by
  have hsame : storedLen f = payloadLen f := by
    rw [storedLen, payloadLen, le16, be16, h]
    omega
  rw [LengthAlike, hsame]

section Icmp

variable {e : Env c} {b : Bridge c} {f : EthFrame} {p : Nat}

theorem bytesSum_readBytes (m : Mem) (off n : Nat) :
    bytesSum (readBytes m off n) = wordSum m off n := by
  have hsum : bytesSum (readBytes m off n) = wordSum m off (readBytes m off n).length :=
    bytesSum_eq fun i hi => getD_readBytes m (by rwa [length_readBytes] at hi)
  rwa [length_readBytes] at hsum

/-- A length in network order, as it is summed. -/
theorem bytesSum_htons {n : Nat} (hn : n < 65536) :
    bytesSum (htons n) = n / 256 + 256 * (n % 256) := by
  have hlow : (UInt8.ofNat n).toNat = n % 256 := UInt8.toNat_ofNat'
  have hhigh : (UInt8.ofNat (n / 256)).toNat = n / 256 := by
    rw [UInt8.toNat_ofNat']
    omega
  simp [bytesSum, htons, wordSum, hlow, hhigh]

theorem handle_of_replaces (h : Replaces f p) :
    nat25DbHandle e b f .insert =
      some ⟨dbInsert e b f (generateIpv6NetworkAddr f.bytes (ethHlen + 8)),
        icmp6Checksum e (f.put p e.hwaddr.toBytes), 0⟩ := by
  have hpart : part f e.hasIpx = .ipv6 := by
    simp [part, h.ipv6, ethPIpv6, ethPIp, ethPArp, ethPIpx, ethPAtalk, ethPAarp, ethPPppDisc,
      ethPPppSes, ethPPae]
  have hreplace : replaceLinkLayerAddr e f = some (icmp6Checksum e (f.put p e.hwaddr.toBytes)) := by
    rw [replaceLinkLayerAddr, if_pos ⟨h.icmp, h.long⟩, updateNd_eq, h.option]
    rfl
  simp only [nat25DbHandle, hpart, handleIpv6, h.whole, h.source, hreplace]
  rfl

/-- Neither the replaced address nor the checksum is in the header in front. -/
theorem summed_front (h : Replaces f p) {i : Nat} (hi : i < icmp6) :
    summed e f p i = f.bytes i := by
  have hp := (linkLayerAddr_in h.option).1
  rw [summed, put_of_ne (by omega) (by omega)]
  exact overwrite_of_lt (by omega)

/-- **The checksum is right** exactly where the two lengths are alike. -/
theorem icmp6_valid_iff (hk : KernelSums e) (h : Replaces f p) (hlen : 4 ≤ payloadLen f) :
    Icmp6Valid (icmp6Checksum e (f.put p e.hwaddr.toBytes)) ↔ LengthAlike e f p := by
  have hfront : ∀ {i}, i < icmp6 → summed e f p i = f.bytes i := summed_front h
  have hp := (linkLayerAddr_in h.option).1
  have hstored : le16 (f.put p e.hwaddr.toBytes).bytes (ethHlen + 4) = storedLen f := by
    have hbyte : ∀ i < icmp6, (f.put p e.hwaddr.toBytes).bytes i = f.bytes i := fun i hi =>
      overwrite_of_lt (by omega)
    rw [storedLen, le16, le16, hbyte _ (by decide), hbyte _ (by decide)]
  -- what `csum_ipv6_magic` is given and gives
  obtain ⟨sum, hsum⟩ : ∃ sum, sum = e.csumIpv6Magic (readBytes (summed e f p) (ethHlen + 8) 16)
    (readBytes (summed e f p) (ethHlen + 24) 16) (storedLen f) 58
    (e.csumPartial (readBytes (summed e f p) icmp6 (storedLen f))) := ⟨_, rfl⟩
  have hresult : icmp6Checksum e (f.put p e.hwaddr.toBytes) =
      ((f.put p e.hwaddr.toBytes).put (icmp6 + 2) [0, 0]).put (icmp6 + 2)
        [UInt8.ofNat sum.toNat, UInt8.ofNat (sum.toNat / 256)] := by
    rw [hsum]
    simp only [icmp6Checksum, hstored]
    rfl
  have hstoredLt : storedLen f < 65536 := le16_lt _ _
  have hmagic := hk.csumIpv6Magic (readBytes (summed e f p) (ethHlen + 8) 16)
    (readBytes (summed e f p) (ethHlen + 24) 16) (storedLen f) 58
    (e.csumPartial (readBytes (summed e f p) icmp6 (storedLen f))) hstoredLt
  have hpart := hk.csumPartial (readBytes (summed e f p) icmp6 (storedLen f))
  rw [← hsum, bytesSum_readBytes, bytesSum_readBytes, bytesSum_htons hstoredLt] at hmagic
  rw [bytesSum_readBytes] at hpart
  have hswap : storedLen f / 256 + 256 * (storedLen f % 256) = payloadLen f := by
    have hfirst := (f.bytes (ethHlen + 4)).toNat_lt
    simp only [storedLen, payloadLen, le16, be16]
    omega
  -- the frame that is left
  obtain ⟨g, hg⟩ : ∃ g, g = ((f.put p e.hwaddr.toBytes).put (icmp6 + 2) [0, 0]).put (icmp6 + 2)
    [UInt8.ofNat sum.toNat, UInt8.ofNat (sum.toNat / 256)] := ⟨_, rfl⟩
  have hput : ∀ i, i ≠ icmp6 + 2 → i ≠ icmp6 + 2 + 1 → g.bytes i = summed e f p i :=
    fun i hi hi' => by rw [hg]; exact put_of_ne hi hi'
  have hsame : ∀ i < icmp6, g.bytes i = f.bytes i := fun i hi =>
    (hput i (by omega) (by omega)).trans (hfront hi)
  have hstored' : storedLen g = storedLen f := by
    rw [storedLen, storedLen, le16, le16, hsame _ (by decide), hsame _ (by decide)]
  have hpayload : payloadLen g = payloadLen f := by
    rw [payloadLen, payloadLen, be16, be16, hsame _ (by decide), hsame _ (by decide)]
  have haddrs : wordSum g.bytes (ethHlen + 8) 32 =
      wordSum (summed e f p) (ethHlen + 8) 16 + wordSum (summed e f p) (ethHlen + 24) 16 := by
    have hwhole : wordSum g.bytes (ethHlen + 8) 32 = wordSum (summed e f p) (ethHlen + 8) 32 :=
      wordSum_congr fun i hi => hput _ (by simp only [icmp6, ethHlen, ipv6HdrLen]; omega)
        (by simp only [icmp6, ethHlen, ipv6HdrLen]; omega)
    exact hwhole.trans (wordSum_add (k := 16) rfl _ _ 16)
  have hword : wordSum g.bytes icmp6 (payloadLen f) + word (summed e f p) (icmp6 + 2) =
      wordSum (summed e f p) icmp6 (payloadLen f) + word g.bytes (icmp6 + 2) :=
    wordSum_word rfl hlen hput
  have hzero : word (summed e f p) (icmp6 + 2) = 0 := by
    simp [word, summed, EthFrame.put, overwrite]
  have hnew : word g.bytes (icmp6 + 2) = sum.toNat := by
    rw [hg]
    exact le16_put sum.toNat_lt
  rw [hresult, ← hg]
  simp only [Icmp6Valid, icmp6Sum, LengthAlike, AllOnes, hpayload, hstored', haddrs]
  simp only [show (58 : UInt8).toNat = 58 from rfl, hswap] at hmagic
  omega

end Icmp

/-! ## 4. Both checksums -/

/-- **Transport checksums are kept** exactly under these conditions: that of a DHCP request that is
made to ask for a broadcast, and that of an ICMPv6 message whose link-layer address is replaced. -/
theorem checksums_kept_iff (e : Env c) (hk : KernelSums e) (b : Bridge c) :
    (∀ f, DhcpRequest f → UdpValid f ∨ udpCheck f = 0 →
      (UdpKept f (dhcpFlagBcast b f) ↔ DhcpClear b f)) ∧
    ∀ f p h, Replaces f p → Icmp6Valid f → nat25DbHandle e b f .insert = some h →
      (Icmp6Valid h.frame ↔ LengthAlike e f p) := by
  refine ⟨fun f hf hv => dhcp_kept_iff hf hv, fun f p h hf hv hh => ?_⟩
  rw [handle_of_replaces hf] at hh
  cases hh
  exact icmp6_valid_iff hk hf hv.1

/-- What the kernel's functions give on a machine that folds each sum. -/
def folded (n : Nat) : Nat := if n = 0 then 0 else (n - 1) % 65535 + 1

theorem folded_le (n : Nat) : folded n ≤ 65535 ∧ folded n % 65535 = n % 65535 := by
  unfold folded
  split <;> omega

/-- An adapter whose kernel does. -/
def foldEnv (e : Env c) : Env c :=
  { e with
    csumPartial := fun l => .ofNat (folded (bytesSum l))
    csumIpv6Magic := fun saddr daddr len proto sum =>
      .ofNat (65535 - folded (bytesSum saddr + bytesSum daddr + bytesSum (htons len) +
        256 * proto.toNat + sum.toNat)) }

theorem foldEnv_sums (e : Env c) : KernelSums (foldEnv e) where
  csumPartial l := by
    obtain ⟨hle, hmod⟩ := folded_le (bytesSum l)
    have hfit : folded (bytesSum l) % 2 ^ 32 = folded (bytesSum l) := Nat.mod_eq_of_lt (by omega)
    rw [foldEnv, UInt32.toNat_ofNat', hfit, hmod]
  csumIpv6Magic saddr daddr len proto sum _ := by
    obtain ⟨hle, hmod⟩ := folded_le (bytesSum saddr + bytesSum daddr + bytesSum (htons len) +
      256 * proto.toNat + sum.toNat)
    rw [foldEnv, UInt16.toNat_ofNat']
    omega

/-- A client's request for an address, with the flags and the checksum as they are stored. -/
def dhcpRequest (flags check : List UInt8) : EthFrame where
  bytes i :=
    let front : List UInt8 := bcAddr.toBytes ++ [2, 0, 0, 0, 0, 5, 8, 0] ++
      [0x45, 0, 1, 12, 0, 0, 0, 0, 64, 17, 0, 0, 0, 0, 0, 0, 255, 255, 255, 255] ++
      [0, 68, 0, 67, 0, 248] ++ check ++ [1, 1, 6, 0, 0, 0, 0, 7, 0, 0] ++ flags
    if i < 278 then front.getD i 0 else ([0x63, 0x82, 0x53, 0x63] : List UInt8).getD (i - 278) 0
  len := 282
  tailroom := 0

/-- A client's router solicitation, with zeros behind its one option. -/
def routerSolicitation (len : Nat) (check : List UInt8) : EthFrame where
  bytes i :=
    let front : List UInt8 := [0x33, 0x33, 0, 0, 0, 2, 2, 0, 0, 0, 0, 5] ++ htons ethPIpv6 ++
      [0x60, 0, 0, 0] ++ htons len ++ [58, 255] ++
      [0xfe, 0x80, 0, 0, 0, 0, 0, 0, 0, 0, 0, 0, 0, 0, 0, 5] ++
      [0xff, 2, 0, 0, 0, 0, 0, 0, 0, 0, 0, 0, 0, 0, 0, 2] ++
      [133, 0] ++ check ++ [0, 0, 0, 0] ++ [1, 1, 2, 0, 0, 0, 0, 5]
    front.getD i 0
  len := icmp6 + len
  tailroom := 0

/-- A request with no flag set, and a message whose length reads the same both ways. -/
theorem request_and_solicitation_kept :
    UdpKept (dhcpRequest [0, 0] [63, 138])
        (dhcpFlagBcast emptyBridge (dhcpRequest [0, 0] [63, 138])) ∧
      ∀ h, nat25DbHandle (foldEnv portEnv) emptyBridge (routerSolicitation 257 [121, 51]) .insert =
        some h → Icmp6Valid h.frame := by
  have hkept := checksums_kept_iff (foldEnv portEnv) (foldEnv_sums portEnv) emptyBridge
  refine ⟨(hkept.1 _ (by decide +kernel) (by decide +kernel)).mpr ?_, fun h hh => ?_⟩
  · exact .inr (.inr (.inl (by decide +kernel)))
  · have hreplaces : Replaces (routerSolicitation 257 [121, 51]) 64 :=
      ⟨by decide, by decide, by decide, by decide, by decide, by decide +kernel⟩
    exact (hkept.2 _ 64 h hreplaces (by decide +kernel) hh).mpr (.of_same rfl)

/-- A request without a checksum comes out with a wrong one, and so does one with a right checksum
and another flag set; and of a solicitation of 256 bytes only the first is summed. -/
theorem request_and_solicitation_spoiled :
    (DhcpRequest (dhcpRequest [0, 0] [0, 0]) ∧ udpCheck (dhcpRequest [0, 0] [0, 0]) = 0 ∧
      ¬ UdpKept (dhcpRequest [0, 0] [0, 0])
        (dhcpFlagBcast emptyBridge (dhcpRequest [0, 0] [0, 0]))) ∧
    (DhcpRequest (dhcpRequest [1, 0] [62, 138]) ∧ UdpValid (dhcpRequest [1, 0] [62, 138]) ∧
      ¬ UdpKept (dhcpRequest [1, 0] [62, 138])
        (dhcpFlagBcast emptyBridge (dhcpRequest [1, 0] [62, 138]))) ∧
    Icmp6Valid (routerSolicitation 256 [121, 52]) ∧
    ∃ h, nat25DbHandle (foldEnv portEnv) emptyBridge (routerSolicitation 256 [121, 52]) .insert =
      some h ∧ ¬ Icmp6Valid h.frame := by
  have hnone : DhcpRequest (dhcpRequest [0, 0] [0, 0]) := by decide +kernel
  have hflag : DhcpRequest (dhcpRequest [1, 0] [62, 138]) := by decide +kernel
  have hzero : udpCheck (dhcpRequest [0, 0] [0, 0]) = 0 := by decide
  have hvalid : UdpValid (dhcpRequest [1, 0] [62, 138]) := by decide +kernel
  have hreplaces : Replaces (routerSolicitation 256 [121, 52]) 64 :=
    ⟨by decide, by decide, by decide, by decide, by decide, by decide +kernel⟩
  refine ⟨⟨hnone, hzero, ?_⟩, ⟨hflag, hvalid, ?_⟩, by decide +kernel, _,
    handle_of_replaces hreplaces, ?_⟩
  · rw [dhcp_kept_iff hnone (.inr hzero)]
    unfold DhcpClear
    decide +kernel
  · rw [dhcp_kept_iff hflag (.inl hvalid)]
    unfold DhcpClear
    decide +kernel
  · rw [icmp6_valid_iff (foldEnv_sums portEnv) hreplaces (by decide)]
    unfold LengthAlike
    decide +kernel

end Nat25

end Rtl8723bs
