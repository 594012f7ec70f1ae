import AgentC.Foundation.LeadingBits
import AgentC.HttpAllowlist.Targets

/-! # Addresses and address blocks

The addresses of `daemon/src/http_allowlist.cpp`: which of them are private,
which lie in a CIDR block, and which a host resolves to. The network library of
the platform is a parameter. -/

namespace AgentC.HttpAllowlist

inductive Family
  | inet
  | inet6
deriving DecidableEq, Repr

def Family.width : Family → Nat
  | .inet => 4
  | .inet6 => 16

structure IpAddr where
  family : Family
  bytes : Bytes
  sized : bytes.length = family.width
deriving DecidableEq

namespace IpAddr

def byte (ip : IpAddr) (index : Nat) : UInt8 :=
  ip.bytes.getD index 0

def isPrivateOrLoopback (ip : IpAddr) : Bool :=
  let a := ip.byte 0
  let b := ip.byte 1
  match ip.family with
  | .inet =>
    a == 10 || a == 127 || (a == 169 && b == 254) || (a == 172 && 16 ≤ b && b ≤ 31) ||
      (a == 192 && b == 168) || a == 0 || (a == 100 && 64 ≤ b && b ≤ 127) ||
      (a == 192 && b == 0 && ip.byte 2 == 2) || (a == 198 && b == 51 && ip.byte 2 == 100) ||
      (a == 203 && b == 0 && ip.byte 2 == 113) || 224 ≤ a
  | .inet6 =>
    (ip.bytes.take 15 == List.replicate 15 0 && ip.byte 15 == 1) ||
      ip.bytes == List.replicate 16 0 || a &&& 0xfe == 0xfc || (a == 0xfe && b &&& 0xc0 == 0x80) ||
      a == 0xff

/-- An IPv4 address mapped into IPv6: `::ffff:a.b.c.d`. -/
def IsMapped (ip : IpAddr) : Prop :=
  ip.family = .inet6 ∧ ip.bytes.take 12 = List.replicate 10 0 ++ [0xff, 0xff]

instance (ip : IpAddr) : Decidable ip.IsMapped :=
  inferInstanceAs (Decidable (_ ∧ _))

/-- The address that is meant: the IPv4 address that an IPv6 address embeds, or
else the address itself. -/
def meant (ip : IpAddr) : IpAddr :=
  if mapped : ip.IsMapped then
    { family := .inet
      bytes := ip.bytes.drop 12
      sized := by rw [List.length_drop, ip.sized, mapped.1]; rfl }
  else ip

end IpAddr

structure Cidr extends IpAddr where
  prefixLength : Nat
deriving DecidableEq

namespace Cidr

def Contains (cidr : Cidr) (ip : IpAddr) : Prop :=
  ip.family = cidr.family ∧ AgreeOnBits cidr.prefixLength ip.bytes cidr.bytes

end Cidr

/-- `ip_in_cidr`: the whole bytes are compared, and the rest under a mask. -/
def ipInCidr (ip : IpAddr) (cidr : Cidr) : Bool :=
  let full := cidr.prefixLength / 8
  let rem := cidr.prefixLength % 8
  if ip.family ≠ cidr.family then false
  else if ip.bytes.take full ≠ cidr.bytes.take full then false
  else if rem = 0 then true
  else ip.byte full &&& highBits rem == cidr.byte full &&& highBits rem

theorem ipInCidr_iff (ip : IpAddr) (cidr : Cidr) : ipInCidr ip cidr = true ↔ cidr.Contains ip := by
  rw [ipInCidr, Cidr.Contains]
  by_cases sameFamily : ip.family = cidr.family
  · have sameLength : ip.bytes.length = cidr.bytes.length := by
      rw [ip.sized, cidr.sized, sameFamily]
    rw [agreeOnBits_iff sameLength, if_neg (not_not_intro sameFamily)]
    by_cases whole : ip.bytes.take (cidr.prefixLength / 8) = cidr.bytes.take (cidr.prefixLength / 8)
    · rw [if_neg (not_not_intro whole)]
      split
      · next none => exact ⟨fun _ => ⟨sameFamily, whole, .inl none⟩, fun _ => rfl⟩
      · next partly =>
        rw [beq_iff_eq]
        exact ⟨fun masked => ⟨sameFamily, whole, .inr masked⟩,
          fun contains => contains.2.2.resolve_left partly⟩
    · rw [if_pos whole]
      exact ⟨nofun, fun contains => absurd contains.2.1 whole⟩
  · rw [if_pos sameFamily]
    exact ⟨nofun, fun contains => absurd contains.1 sameFamily⟩

/-- What the platform makes of texts and of host names. Both functions that read
a host get it as a C string. -/
structure Network where
  inetPton : (family : Family) → Bytes → Option { bytes : Bytes // bytes.length = family.width }
  /-- The addresses of both families in the order of the answer, none if the
  resolver fails. -/
  getaddrinfo : Bytes → List IpAddr
  inetNtop : IpAddr → Bytes

variable (network : Network)

def literalOf (family : Family) (host : Bytes) : Option IpAddr :=
  (network.inetPton family (cString host)).map fun bytes => ⟨family, bytes.1, bytes.2⟩

/-- `ip_parse_literal` -/
def ipParseLiteral (host : Bytes) : Option IpAddr :=
  (literalOf network .inet host).or (literalOf network .inet6 host)

def hostIsLiteralIp (host : Bytes) : Bool :=
  (ipParseLiteral network host).isSome

def cidrParse (entry : Bytes) : Except Bytes Cidr := do
  let (host, bits) ←
    match cutAt 47 (trimCopy entry) with
    | none => throw (ascii "missing /prefix")
    | some parts => pure parts
  let host := trimCopy host
  let bits := trimCopy bits
  if host = [] ∨ bits = [] then throw (ascii "invalid cidr")
  match stoi bits with
  | none => throw (ascii "invalid prefix")
  | some length =>
    match ipParseLiteral network host with
    | none => throw (ascii "invalid cidr address")
    | some ip =>
      if length < 0 ∨ 8 * ip.family.width < length then throw (ascii "invalid prefix")
      return { ip with prefixLength := length.toNat }

def parsedCidrs (entries : List Bytes) : List (Bytes × Cidr) :=
  entries.filterMap fun entry => (cidrParse network entry).toOption.map fun cidr => (entry, cidr)

def addressesOf (host : Bytes) : List IpAddr :=
  match ipParseLiteral network host with
  | some ip => [ip]
  | none => network.getaddrinfo (cString host)

/-- No more addresses of a host are looked at. -/
def maxAddresses : Nat := 16

def resolveHostBestEffort (host : Bytes) : List IpAddr :=
  if host = [] then []
  else
    match ipParseLiteral network host with
    | some ip => [ip]
    | none => (network.getaddrinfo (cString host)).take maxAddresses

theorem resolveHostBestEffort_eq {host : Bytes} (named : host ≠ []) :
    resolveHostBestEffort network host = (addressesOf network host).take maxAddresses := by
  rw [resolveHostBestEffort, if_neg named, addressesOf]
  split <;> rfl

/-- `ip_strings_from_addrs_best_effort`: IPv4 first, and no text twice. -/
def ipStringsFromAddrsBestEffort (addrs : List IpAddr) : List Bytes :=
  let strings := fun family =>
    ((addrs.filter fun ip => ip.family = family).map network.inetNtop).filter (· ≠ [])
  (strings .inet ++ strings .inet6).eraseDups

/-! ## The texts of blocks

The prefix of a block is read by a routine that passes over what stands behind the digits. -/

def hostText (entry : Bytes) : Bytes :=
  trimCopy (((cutAt 47 (trimCopy entry)).map Prod.fst).getD [])

def prefixText (entry : Bytes) : Bytes :=
  trimCopy (((cutAt 47 (trimCopy entry)).map Prod.snd).getD [])

def SpellsNumber (text : Bytes) (number : Int) : Prop :=
  ∃ digits, digits ≠ [] ∧ AllIn isDigit digits ∧
    ((text = digits ∨ text = 43 :: digits) ∧ number = digitsValue digits ∨
      text = 45 :: digits ∧ number = -digitsValue digits)

theorem isDigit_unsigned (byte : UInt8) : isDigit byte = true →
    isSpace byte = false ∧ byte ≠ 45 ∧ byte ≠ 43 := by
  revert byte
  apply forall_byte
  decide +kernel

theorem dropWhile_isSpace_digits {digits : Bytes} (all : AllIn isDigit digits) :
    digits.dropWhile isSpace = digits := by
  cases digits with
  | nil => rfl
  | cons digit digits =>
    have solid := (isDigit_unsigned digit (allIn_cons.mp all).1).1
    rw [List.dropWhile_cons, solid]
    rfl

theorem eq_of_checked {number value : Int} {absent fits : Prop} [Decidable absent]
    [Decidable fits]
    (read : (if absent then none else if fits then some number else none) = some value) :
    value = number := by
  split at read
  · cases read
  · split at read
    · exact (Option.some.inj read).symm
    · cases read

theorem stoi_spelled {text : Bytes} {number value : Int} (spelled : SpellsNumber text number)
    (read : stoi text = some value) : value = number := by
  rcases spelled with ⟨digits, nonempty, all, (⟨unsigned | signed, same⟩ | ⟨signed, same⟩)⟩
  all_goals have whole : digits.takeWhile isDigit = digits := List.takeWhile_eq_self_iff.mpr all
  · rw [unsigned, stoi, dropWhile_isSpace_digits all] at read
    cases digits with
    | nil => exact absurd rfl nonempty
    | cons digit rest =>
      have unsigned := (isDigit_unsigned digit (allIn_cons.mp all).1).2
      split at read
      next negative behind sign =>
      have plain : (negative, behind) = (false, digit :: rest) := by
        rw [← sign]
        split
        · next minus => exact absurd (List.cons.inj minus).1 unsigned.1
        · next plus => exact absurd (List.cons.inj plus).1 unsigned.2
        · rfl
      cases plain
      have result : value = (digitsValue ((digit :: rest).takeWhile isDigit) : Int) :=
        eq_of_checked read
      rw [result, same, whole]
  · rw [signed, stoi] at read
    have result : value = (digitsValue (digits.takeWhile isDigit) : Int) := eq_of_checked read
    rw [result, same, whole]
  · rw [signed, stoi] at read
    have result : value = -(digitsValue (digits.takeWhile isDigit) : Int) := eq_of_checked read
    rw [result, same, whole]

theorem cidrParse_accepted {network : Network} {entry : Bytes} {cidr : Cidr}
    (accepted : cidrParse network entry = .ok cidr) :
    stoi (prefixText entry) = some (cidr.prefixLength : Int) ∧
      ipParseLiteral network (hostText entry) = some cidr.toIpAddr := by
  rw [cidrParse] at accepted
  rw [prefixText, hostText]
  split at accepted
  · cases accepted
  · next host bits cut =>
    rw [cut]
    rcases bind_eq_ok.mp accepted with ⟨pair, same, read⟩
    cases same
    dsimp only [Option.map_some, Option.getD_some] at read ⊢
    split at read
    · cases read
    · split at read
      · cases read
      · next length number =>
        split at read
        · cases read
        · next ip literal =>
          split at read
          · cases read
          · next inRange =>
            cases read
            rw [not_or, Int.not_lt] at inRange
            rw [number, literal]
            exact ⟨congrArg some (Int.toNat_of_nonneg inRange.1).symm, rfl⟩

/-- Membership means what the text of the block says: an address of its family with the first
bits of its address, as many as the number behind the slash. -/
def MeansItsText (network : Network) (entry : Bytes) (cidr : Cidr) : Prop :=
  ∃ address, ipParseLiteral network (hostText entry) = some address ∧
    ∃ bits : Nat, SpellsNumber (prefixText entry) bits ∧
      ∀ ip, ipInCidr ip cidr = true ↔
        ip.family = address.family ∧ AgreeOnBits bits ip.bytes address.bytes

/-- A block that is accepted means what its text says exactly when a number stands behind its
slash. -/
theorem cidr_means_its_text_iff {network : Network} {entry : Bytes} {cidr : Cidr}
    (accepted : cidrParse network entry = .ok cidr) :
    MeansItsText network entry cidr ↔ ∃ number, SpellsNumber (prefixText entry) number := by
  rcases cidrParse_accepted accepted with ⟨read, literal⟩
  constructor
  · rintro ⟨_, _, bits, spelled, _⟩
    exact ⟨bits, spelled⟩
  · rintro ⟨number, spelled⟩
    have same := stoi_spelled spelled read
    exact ⟨cidr.toIpAddr, literal, cidr.prefixLength, same ▸ spelled,
      fun ip => ipInCidr_iff ip cidr⟩

def blockNetwork : Network where
  inetPton
    | .inet, host => if host = ascii "10.0.0.0" then some ⟨[10, 0, 0, 0], rfl⟩ else none
    | .inet6, _ => none
  getaddrinfo _ := []
  inetNtop _ := []

def privateBlock : Cidr where
  family := .inet
  bytes := [10, 0, 0, 0]
  sized := rfl
  prefixLength := 8

theorem cidr_means_its_text_iff_sample :
    cidrParse blockNetwork (ascii " 10.0.0.0/ 8") = .ok privateBlock ∧
      MeansItsText blockNetwork (ascii " 10.0.0.0/ 8") privateBlock :=
  have accepted : cidrParse blockNetwork (ascii " 10.0.0.0/ 8") = .ok privateBlock := by decide
  ⟨accepted, (cidr_means_its_text_iff accepted).mpr
    ⟨8, [56], by decide, allIn_cons.mpr ⟨by decide, allIn_nil _⟩,
      .inl ⟨.inl (by decide), by decide⟩⟩⟩

/-- A letter behind the digits is passed over. -/
theorem letter_behind_prefix :
    ¬∀ (network : Network) (entry : Bytes) (cidr : Cidr), cidrParse network entry = .ok cidr →
      MeansItsText network entry cidr := by
  intro always
  rcases always blockNetwork (ascii "10.0.0.0/8x") privateBlock (by decide) with
    ⟨_, _, bits, ⟨digits, _, all, spelled⟩, _⟩
  have text : prefixText (ascii "10.0.0.0/8x") = [56, 120] := by decide
  rw [text] at spelled
  have letter : (120 : UInt8) ∈ digits := by
    rcases spelled with ⟨unsigned | signed, _⟩ | ⟨signed, _⟩
    · exact unsigned ▸ List.mem_cons_of_mem _ (List.mem_singleton.mpr rfl)
    · exact absurd (List.cons.inj signed).1 (by decide)
    · exact absurd (List.cons.inj signed).1 (by decide)
  exact absurd (all 120 letter) (by decide)

end AgentC.HttpAllowlist
