import Mathlib.Algebra.Group.Nat.Defs
import Mathlib.Data.List.Basic

/-!
IP addresses and their texts.

A text is read as an IPv4 address (`parseIpv4`) or an IPv6 one (`parseIpv6`), with a zone
in the latter. The properties of an address say whether it lies in one of the registered
special networks; an address in none of the private ones is global, except in the shared
space `100.64.0.0/10`, which is neither.

Every IPv4 address written as an IPv6 one lies in a reserved network
(`isReserved_of_ipv4Mapped`).
-/

namespace AgentOs.Lib

/-- `IPv4Address` and `IPv6Address`, by their numbers. -/
inductive IpAddress where
  | v4 (ip : BitVec 32)
  | v6 (ip : BitVec 128) (scopeId : Option (List Char))
deriving DecidableEq, Repr

namespace IpAddress

/-! ### Texts -/

/-- A number in base 16, or in base 10 where its digits are decimal ones. -/
def ofDigits (base : ℕ) (digits : List Char) : ℕ :=
  digits.foldl (fun n c => n * base +
    (if c.isDigit then c.toNat - 48 else if c.isLower then c.toNat - 87 else c.toNat - 55)) 0

def isHexDigit (c : Char) : Bool :=
  c.isDigit || ('a' ≤ c && c ≤ 'f') || ('A' ≤ c && c ≤ 'F')

/-- `_parse_octet`: no leading zeros. -/
def parseOctet (octet : List Char) : Option ℕ :=
  if octet = [] ∨ ¬octet.all Char.isDigit ∨ 3 < octet.length then none
  else if octet ≠ ['0'] ∧ octet.head? = some '0' then none
  else if 255 < ofDigits 10 octet then none
  else some (ofDigits 10 octet)

/-- `IPv4Address(text)`. -/
def parseIpv4 (text : List Char) : Option (BitVec 32) :=
  if '/' ∈ text then none
  else
    match text.splitOn '.' with
    | [a, b, c, d] => do
        let a ← parseOctet a
        let b ← parseOctet b
        let c ← parseOctet c
        let d ← parseOctet d
        return .ofNat 32 (((a * 256 + b) * 256 + c) * 256 + d)
    | _ => none

/-- `_parse_hextet`. -/
def parseHextet (hextet : List Char) : Option ℕ :=
  if hextet = [] ∨ ¬hextet.all isHexDigit ∨ 4 < hextet.length then none
  else some (ofDigits 16 hextet)

/-- Hextets after a number. -/
def parseHextets (n : ℕ) : List (List Char) → Option ℕ
  | [] => some n
  | part :: parts => do
      let hextet ← parseHextet part
      parseHextets (n * 65536 + hextet) parts

/-- An IPv4 address in the last part becomes two parts. -/
def expandIpv4Suffix (parts : List (List Char)) : Option (List (List Char)) :=
  match parts.getLast? with
  | none => some parts
  | some last =>
      if '.' ∉ last then some parts
      else do
        let ip ← parseIpv4 last
        return parts.dropLast ++
          [Nat.toDigits 16 (ip.toNat / 65536), Nat.toDigits 16 (ip.toNat % 65536)]

/-- The parts before a `::`: an empty first one belongs to the `::`. -/
def partsHigh (parts : List (List Char)) : Option (List (List Char)) :=
  if parts.head? = some [] then
    if parts.length = 1 then some [] else none
  else some parts

/-- The parts after a `::`: an empty last one belongs to the `::`. -/
def partsLow (parts : List (List Char)) : Option (List (List Char)) :=
  if parts.getLast? = some [] then
    if parts.length = 1 then some [] else none
  else some parts

/-- Where a `::` may stand: empty parts that are neither the first nor the last. -/
def skipIndexes (parts : List (List Char)) : List ℕ :=
  (List.range parts.length).filter fun i =>
    1 ≤ i ∧ i + 1 < parts.length ∧ parts[i]? = some []

/-- The number of an IPv6 address without a zone. -/
def parseIpv6Number (text : List Char) : Option ℕ := do
  let parts := text.splitOn ':'
  if parts.length < 3 then none
  else
    let parts ← expandIpv4Suffix parts
    if 9 < parts.length then none
    else
      match skipIndexes parts with
      | [] =>
          if parts.length ≠ 8 ∨ parts.head? = some [] ∨ parts.getLast? = some [] then none
          else parseHextets 0 parts
      | [skip] =>
          let high ← partsHigh (parts.take skip)
          let low ← partsLow (parts.drop (skip + 1))
          if 8 < high.length + low.length + 1 then none
          else
            let n ← parseHextets 0 high
            parseHextets (n * 65536 ^ (8 - (high.length + low.length))) low
      | _ => none

/-- `IPv6Address(text)`. -/
def parseIpv6 (text : List Char) : Option (BitVec 128 × Option (List Char)) :=
  if '/' ∈ text then none
  else
    let address := text.takeWhile (· ≠ '%')
    match text.dropWhile (· ≠ '%') with
    | [] => (parseIpv6Number address).map fun n => (.ofNat 128 n, none)
    | _ :: scopeId =>
        if scopeId = [] ∨ '%' ∈ scopeId then none
        else (parseIpv6Number address).map fun n => (.ofNat 128 n, some scopeId)

/-- `ip_address(text)`; `none` is its `ValueError`. -/
def parse (text : List Char) : Option IpAddress :=
  match parseIpv4 text with
  | some ip => some (.v4 ip)
  | none => (parseIpv6 text).map fun ip => .v6 ip.1 ip.2

/-! ### Networks -/

/-- The addresses that begin with the same bits. -/
structure Network (width : ℕ) where
  base : BitVec width
  prefixLength : ℕ

def Network.Contains {width : ℕ} (network : Network width) (ip : BitVec width) : Prop :=
  ip >>> (width - network.prefixLength) = network.base >>> (width - network.prefixLength)

instance {width : ℕ} (network : Network width) (ip : BitVec width) :
    Decidable (network.Contains ip) := inferInstanceAs (Decidable (_ = _))

/-- `a.b.c.d/prefixLength`. -/
def ipv4Network (a b c d prefixLength : ℕ) : Network 32 :=
  ⟨.ofNat 32 (((a * 256 + b) * 256 + c) * 256 + d), prefixLength⟩

/-- A network by its first hextets. -/
def ipv6Network (hextets : List ℕ) (prefixLength : ℕ) : Network 128 :=
  ⟨.ofNat 128 ((hextets ++ .replicate (8 - hextets.length) 0).foldl (fun n h => n * 65536 + h) 0),
    prefixLength⟩

def ipv4PrivateNetworks : List (Network 32) :=
  [ipv4Network 0 0 0 0 8, ipv4Network 10 0 0 0 8, ipv4Network 127 0 0 0 8,
    ipv4Network 169 254 0 0 16, ipv4Network 172 16 0 0 12, ipv4Network 192 0 0 0 24,
    ipv4Network 192 0 0 170 31, ipv4Network 192 0 2 0 24, ipv4Network 192 168 0 0 16,
    ipv4Network 198 18 0 0 15, ipv4Network 198 51 100 0 24, ipv4Network 203 0 113 0 24,
    ipv4Network 240 0 0 0 4, ipv4Network 255 255 255 255 32]

def ipv4PrivateExceptions : List (Network 32) :=
  [ipv4Network 192 0 0 9 32, ipv4Network 192 0 0 10 32]

def ipv6PrivateNetworks : List (Network 128) :=
  [ipv6Network [0, 0, 0, 0, 0, 0, 0, 1] 128, ipv6Network [] 128,
    ipv6Network [0, 0, 0, 0, 0, 0xffff] 96, ipv6Network [0x64, 0xff9b, 1] 48,
    ipv6Network [0x100] 64, ipv6Network [0x2001] 23, ipv6Network [0x2001, 0xdb8] 32,
    ipv6Network [0x2002] 16, ipv6Network [0xfc00] 7, ipv6Network [0xfe80] 10]

def ipv6PrivateExceptions : List (Network 128) :=
  [ipv6Network [0x2001, 1, 0, 0, 0, 0, 0, 1] 128, ipv6Network [0x2001, 1, 0, 0, 0, 0, 0, 2] 128,
    ipv6Network [0x2001, 3] 32, ipv6Network [0x2001, 4, 0x112] 48, ipv6Network [0x2001, 0x20] 28,
    ipv6Network [0x2001, 0x30] 28]

def ipv6ReservedNetworks : List (Network 128) :=
  [ipv6Network [] 8, ipv6Network [0x100] 8, ipv6Network [0x200] 7, ipv6Network [0x400] 6,
    ipv6Network [0x800] 5, ipv6Network [0x1000] 4, ipv6Network [0x4000] 3,
    ipv6Network [0x6000] 3, ipv6Network [0x8000] 3, ipv6Network [0xa000] 3,
    ipv6Network [0xc000] 3, ipv6Network [0xe000] 4, ipv6Network [0xf000] 5,
    ipv6Network [0xf800] 6, ipv6Network [0xfe00] 9]

/-- In one of the networks and in none of the exceptions. -/
def inNetworks {width : ℕ} (networks exceptions : List (Network width)) (ip : BitVec width) :
    Bool :=
  networks.any (fun network => network.Contains ip) &&
    exceptions.all fun network => ¬network.Contains ip

/-! ### Properties -/

/-- `IPv6Address.ipv4_mapped`. -/
def ipv4Mapped (ip : BitVec 128) : Option (BitVec 32) :=
  if ip >>> 32 = 0xffff then some (ip.truncate 32) else none

def isPrivate4 (ip : BitVec 32) : Bool := inNetworks ipv4PrivateNetworks ipv4PrivateExceptions ip

def isPrivate : IpAddress → Bool
  | .v4 ip => isPrivate4 ip
  | .v6 ip _ =>
      match ipv4Mapped ip with
      | some mapped => isPrivate4 mapped
      | none => inNetworks ipv6PrivateNetworks ipv6PrivateExceptions ip

def isGlobal : IpAddress → Bool
  | .v4 ip => ¬(ipv4Network 100 64 0 0 10).Contains ip && !isPrivate4 ip
  | .v6 ip scopeId => !isPrivate (.v6 ip scopeId)

def isLoopback : IpAddress → Bool
  | .v4 ip => (ipv4Network 127 0 0 0 8).Contains ip
  | .v6 ip _ => ip = 1

def isLinkLocal : IpAddress → Bool
  | .v4 ip => (ipv4Network 169 254 0 0 16).Contains ip
  | .v6 ip _ => (ipv6Network [0xfe80] 10).Contains ip

def isMulticast : IpAddress → Bool
  | .v4 ip => (ipv4Network 224 0 0 0 4).Contains ip
  | .v6 ip _ => (ipv6Network [0xff00] 8).Contains ip

def isUnspecified : IpAddress → Bool
  | .v4 ip => ip = 0
  | .v6 ip _ => ip = 0

def isReserved : IpAddress → Bool
  | .v4 ip => (ipv4Network 240 0 0 0 4).Contains ip
  | .v6 ip _ => ipv6ReservedNetworks.any fun network => network.Contains ip

/-- Nothing but zeros stands before the `ffff` of a mapped address. -/
theorem isReserved_of_ipv4Mapped {ip : BitVec 128} {mapped : BitVec 32} (scopeId : Option (List Char))
    (h : ipv4Mapped ip = some mapped) : isReserved (.v6 ip scopeId) = true := by
  unfold ipv4Mapped at h
  split at h
  · rename_i same
    have low : (ipv6Network [] 8).Contains ip := by
      have high : ip >>> 120 = (ip >>> 32) >>> 88 := BitVec.shiftRight_add ip 32 88
      unfold Network.Contains
      rw [show 128 - (ipv6Network [] 8).prefixLength = 120 from rfl, high, same]
      decide
    simp [isReserved, ipv6ReservedNetworks, low]
  · cases h

end IpAddress

end AgentOs.Lib
