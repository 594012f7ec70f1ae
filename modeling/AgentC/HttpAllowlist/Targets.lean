import AgentC.Foundation.Decimals
import AgentC.Foundation.Fallible
import AgentC.Foundation.GoStrings

/-! # Hosts and ports of outbound requests

How `daemon/src/http_allowlist.cpp` reads a host and a port, from an entry of
the list of allowed hosts and from a URL. -/

namespace AgentC.HttpAllowlist

def trimCopy (text : Bytes) : Bytes :=
  trimBoth isSpace text

def lowerCopy (text : Bytes) : Bytes :=
  text.map lowerByte

/-- `std::stoi`; there is no value where it throws. -/
def stoi (text : Bytes) : Option Int :=
  let (negative, unsigned) :=
    match text.dropWhile isSpace with
    | 45 :: rest => (true, rest)
    | 43 :: rest => (false, rest)
    | rest => (false, rest)
  let digits := unsigned.takeWhile isDigit
  let value : Int := if negative then -digitsValue digits else digitsValue digits
  if digits = [] then none
  else if -2 ^ 31 ≤ value ∧ value < 2 ^ 31 then some value
  else none

def cutAt (byte : UInt8) (text : Bytes) : Option (Bytes × Bytes) :=
  if byte ∈ text then
    some (text.takeWhile (· != byte), (text.dropWhile (· != byte)).drop 1)
  else none

def behindLast (byte : UInt8) (text : Bytes) : Bytes :=
  (text.reverse.takeWhile (· != byte)).reverse

def colon : UInt8 := 58

/-- The host and the port of a text without brackets: it has a port if it has a
single colon. -/
def splitPort (text : Bytes) : Bytes × Bytes :=
  if text.count colon = 1 then (cutAt colon text).getD (text, []) else (text, [])

structure HostPort where
  /-- In lower case; without the brackets of an IPv6 address. -/
  host : Bytes := []
  /-- Any port when `-1`. -/
  port : Int := -1
  hasPort : Bool := false
deriving DecidableEq, Repr

/-- A port in range. -/
def parsePort (text : Bytes) : Option Int :=
  (stoi text).filter fun port => 1 ≤ port && port ≤ 65535

/-- `parse_hostport`: an entry of the list of allowed hosts. -/
def parseHostport (entry : Bytes) : Except Bytes HostPort := do
  let text := trimCopy entry
  if text = [] then throw (ascii "empty host entry")
  let (host, port) ←
    if text.head? = some 91 then
      match cutAt 93 text with
      | none => throw (ascii "invalid IPv6 host entry (missing ']')")
      | some (front, behind) =>
        if behind = [] then pure (front.drop 1, [])
        else if behind.head? ≠ some colon then
          throw (ascii "invalid IPv6 host entry (expected :port after ']')")
        else pure (front.drop 1, behind.drop 1)
    else pure (splitPort text)
  let host := trimCopy host
  let port := trimCopy port
  if host = [] then throw (ascii "missing host")
  if port = [] then return { host := lowerCopy host }
  match parsePort port with
  | none => throw (ascii "invalid port")
  | some port => return { host := lowerCopy host, port := port, hasPort := true }

/-- The scheme of a URL and the text behind `://`. -/
def cutScheme : Bytes → Option (Bytes × Bytes)
  | [] => none
  | byte :: rest =>
    if (ascii "://").isPrefixOf (byte :: rest) then some ([], rest.drop 2)
    else (cutScheme rest).map fun (scheme, behind) => (byte :: scheme, behind)

def endsAuthority (byte : UInt8) : Bool :=
  byte == 47 || byte == 63 || byte == 35

/-- Host and port in the authority of a URL. What stands behind the brackets of an
IPv6 address is passed over unless it is a port. -/
def splitAuthority (authority : Bytes) : Except Bytes (Bytes × Bytes) :=
  if authority.head? = some 91 then
    match cutAt 93 authority with
    | none => .error (ascii "invalid url (bad IPv6 host)")
    | some (front, behind) =>
      .ok (front.drop 1, if behind.head? = some colon then behind.drop 1 else [])
  else .ok (splitPort authority)

/-- The target with the host and the port of a URL, the port of the scheme unless
the URL has its own. -/
def urlTarget (schemePort : Int) (host port : Bytes) : Except Bytes HostPort :=
  if host = [] then .error (ascii "invalid url (empty host)")
  else if port = [] then .ok { host := lowerCopy host, port := schemePort }
  else
    match parsePort port with
    | none => .error (ascii "invalid url port")
    | some port => .ok { host := lowerCopy host, port := port, hasPort := true }

theorem urlTarget_host {schemePort : Int} {host port : Bytes} {target : HostPort}
    (built : urlTarget schemePort host port = .ok target) : target.host ≠ [] := by
  rw [urlTarget] at built
  split at built
  · cases built
  · next named =>
    have lowered : lowerCopy host ≠ [] := by
      rw [lowerCopy, ne_eq, List.map_eq_nil_iff]
      exact named
    split at built
    · cases built
      exact lowered
    · split at built
      · cases built
      · cases built
        exact lowered

def parseHttpUrlTargetHostport (url : Bytes) : Except Bytes HostPort := do
  let (scheme, behind) ←
    match cutScheme (trimCopy url) with
    | none => throw (ascii "invalid url (missing scheme)")
    | some parts => pure parts
  let scheme := lowerCopy scheme
  if scheme ≠ ascii "http" ∧ scheme ≠ ascii "https" then
    throw (ascii "invalid url scheme (expected http or https)")
  let authority := trimCopy (behindLast 64 (behind.takeWhile fun byte => !endsAuthority byte))
  if authority = [] then throw (ascii "invalid url (missing host)")
  let (host, port) ← splitAuthority authority
  urlTarget (if scheme = ascii "https" then 443 else 80) (trimCopy host) (trimCopy port)

example : (parseHttpUrlTargetHostport (ascii " HTTP://user@[::FFFF:10.0.0.1]:8080/a?b ")).toOption =
    some ⟨ascii "::ffff:10.0.0.1", 8080, true⟩ := by
  decide

theorem host_ne_nil {url : Bytes} {target : HostPort}
    (parsed : parseHttpUrlTargetHostport url = .ok target) : target.host ≠ [] := by
  rw [parseHttpUrlTargetHostport] at parsed
  split at parsed
  · cases parsed
  · rcases bind_eq_ok.mp parsed with ⟨parts, _, read⟩
    dsimp only at read
    split at read
    · cases read
    · split at read
      · cases read
      · rcases bind_eq_ok.mp read with ⟨hostAndPort, _, built⟩
        exact urlTarget_host built

def hostportToString (target : HostPort) : Bytes :=
  let host :=
    if colon ∈ target.host then ascii "[" ++ target.host ++ ascii "]" else target.host
  if 0 < target.port then host ++ ascii ":" ++ decimal target.port.toNat else host

end AgentC.HttpAllowlist
