/-
# Ciphers, and which one a frame is under

The encryption algorithms, the lengths of IV and ICV that go with each, and `GET_ENCRY_ALGO`.
-/
namespace Rtl8723bs

/-- `securitypriv.dot11AuthAlgrthm`. -/
inductive Dot11AuthAlgrthm where
  | open_
  | shared
  | x8021
  | auto
  | wapi
  | maxNum
deriving DecidableEq, Repr, Inhabited

def noPrivacy : Nat := 0
def encWep40 : Nat := 1
def encTkip : Nat := 2
def encAes : Nat := 4
def encWep104 : Nat := 5
def encSms4 : Nat := 6

/-- `GET_ENCRY_ALGO`: `encrypt` is kept for an algorithm the switch does not list. -/
def encryAlgo (auth : Dot11AuthAlgrthm) (privacy grpPrivacy staPrivacy encrypt : Nat)
    (bmcst : Bool) : Nat :=
  match auth with
  | .open_ => privacy
  | .shared => privacy
  | .auto => privacy
  | .x8021 => if bmcst then grpPrivacy else staPrivacy
  | .wapi => privacy
  | .maxNum => encrypt

/-- `SET_ICE_IV_LEN`: the lengths of the IV and of the ICV. -/
def setIceIvLen (encrypt : Nat) : Nat × Nat :=
  if encrypt = encWep40 ∨ encrypt = encWep104 then (4, 4)
  else if encrypt = encTkip then (8, 4)
  else if encrypt = encAes then (8, 8)
  else if encrypt = encSms4 then (18, 16)
  else (0, 0)

end Rtl8723bs
