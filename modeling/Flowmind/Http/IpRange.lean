import Flowmind.Js.Value

/-!
# Addresses that are not to be reached

* `isBlockedIpv4` — the addresses of private and reserved networks.
* `isBlockedIpv6` — local, link-local and multicast addresses, and what cannot be expanded.
* `isBlockedIp` — both, with the IPv6 addresses that stand for an IPv4 address; whatever is no
  address is blocked as well.

`net.isIP` of the platform is a parameter: it answers 4, 6 or 0.
-/

namespace Flowmind.Http

/-! ## IPv4 -/

def ipv4Blocks : List (String × ℕ) :=
  [("0.0.0.0", 8), ("10.0.0.0", 8), ("100.64.0.0", 10), ("127.0.0.0", 8), ("169.254.0.0", 16),
    ("172.16.0.0", 12), ("192.0.0.0", 24), ("192.0.2.0", 24), ("192.168.0.0", 16),
    ("198.18.0.0", 15), ("198.51.100.0", 24), ("203.0.113.0", 24), ("224.0.0.0", 4),
    ("240.0.0.0", 4)]

/-- The text between separators. -/
def splitAt (separator : Char) (text : List Char) : List (List Char) := text.splitOn separator

variable (js : JsLib)

/-- `Number(part)` of a part of an address. -/
def partNumber (part : List Char) : Option ℚ := js.stringToNumber (String.ofList part)

/-- One more part of an address; what is no number makes the whole zero. -/
def shiftIn (acc : BitVec 32) (part : List Char) : BitVec 32 :=
  match partNumber js part with
  | some q => (acc <<< 8) + BitVec.ofInt 32 (q.num / q.den)
  | none => 0

def ipv4ToInt (ip : List Char) : BitVec 32 := (splitAt '.' ip).foldl (shiftIn js) 0

/-- The leading bits that a block fixes. -/
def maskOf (bits : ℕ) : BitVec 32 := if bits = 0 then 0 else BitVec.allOnes 32 <<< (32 - bits)

/-- The address is in the block. -/
def inBlock (value network : BitVec 32) (bits : ℕ) : Bool :=
  decide (value &&& maskOf bits = network &&& maskOf bits)

def isBlockedIpv4 (ip : List Char) : Bool :=
  ipv4Blocks.any fun (network, bits) =>
    inBlock (ipv4ToInt js ip) (ipv4ToInt js network.toList) bits

/-! ## IPv6 -/

/-- The parts that are not empty. -/
def hexParts (text : List Char) : List (List Char) := (splitAt ':' text).filter (· ≠ [])

/-- The value of a hexadecimal digit. -/
def hexDigit (c : Char) : Option ℕ :=
  if '0' ≤ c ∧ c ≤ '9' then some (c.toNat - '0'.toNat)
  else if 'a' ≤ c ∧ c ≤ 'f' then some (c.toNat - 'a'.toNat + 10)
  else if 'A' ≤ c ∧ c ≤ 'F' then some (c.toNat - 'A'.toNat + 10)
  else none

/-- `Number.parseInt(part, 16)`: the digits that the text begins with. -/
def parseHex (part : List Char) : Option ℕ :=
  let digits := (part.map hexDigit).takeWhile Option.isSome
  if digits.isEmpty then none
  else some (digits.foldl (fun acc digit => 16 * acc + digit.getD 0) 0)

/-- `text.split("::")`. -/
def splitGap : List Char → List (List Char)
  | [] => [[]]
  | [c] => [[c]]
  | ':' :: ':' :: rest => [] :: splitGap rest
  | c :: rest =>
    match splitGap rest with
    | first :: others => (c :: first) :: others
    | [] => [[c]]

variable (isIP : String → ℕ)

/-- An address that ends in an IPv4 address, with that part in hexadecimal. -/
def unmixed (ip : List Char) : Option (List Char) :=
  if '.' ∈ ip then
    let back := ip.reverse
    let ipv4 := (back.takeWhile (· ≠ ':')).reverse
    -- Without a colon the last character is cut off.
    let front := if ':' ∈ ip then ((back.dropWhile (· ≠ ':')).drop 1).reverse else ip.dropLast
    if isIP (String.ofList ipv4) ≠ 4 then none
    else
      let part (i : ℕ) : ℕ :=
        ((((splitAt '.' ipv4)[i]?).bind (partNumber js)).getD 0).num.toNat
      let hex (high low : ℕ) : List Char := Nat.toDigits 16 (high * 256 + low)
      some (front ++ ':' :: hex (part 0) (part 1) ++ ':' :: hex (part 2) (part 3))
  else some ip

/-- The eight parts of an address. -/
def expandIpv6 (ip : List Char) : Option (List ℕ) := do
  let ip ← unmixed js isIP ip
  let sides := splitGap ip
  let left := hexParts (sides[0]?.getD [])
  let right := hexParts (sides[1]?.getD [])
  if 8 < left.length + right.length ∨ 2 < sides.length then none
  else
    let zeros := List.replicate (8 - left.length - right.length) ['0']
    let parts ← (left ++ zeros ++ right).mapM parseHex
    if parts.length ≠ 8 ∨ parts.any fun part => decide (0xffff < part) then none else some parts

/-- The IPv4 address that an IPv6 address stands for. -/
def ipv4Mapped (ip : List Char) : Option (List Char) :=
  if "::ffff:".toList.isPrefixOf ip then some (ip.drop 7)
  else
    match expandIpv6 js isIP ip with
    | some [0, 0, 0, 0, 0, 0xffff, high, low] =>
      let text (n : ℕ) : List Char := (toString n).toList
      some (text (high / 256) ++ '.' :: text (high % 256) ++ '.' :: text (low / 256) ++
        '.' :: text (low % 256))
    | _ => none

def isBlockedIpv6 (ip : List Char) : Bool :=
  match expandIpv6 js isIP ip with
  | none => true
  | some value =>
    let first := value.headD 0
    value.all (fun part => decide (part = 0)) || decide (ip = "::1".toList) ||
      decide (first &&& 0xfe00 = 0xfc00) || decide (first &&& 0xffc0 = 0xfe80) ||
      decide (first &&& 0xff00 = 0xff00)

/-! ## All addresses -/

/-- The address without brackets, in lower case. -/
def normalizeIp (input : String) : String :=
  let text := input.toList
  let text := if text.head? = some '[' then text.drop 1 else text
  let text := if text.getLast? = some ']' then text.dropLast else text
  jsToLowerCase (String.ofList text)

def isBlockedIp (input : String) : Bool :=
  let ip := normalizeIp input
  if ip = "169.254.169.254" then true
  else if isIP ip = 4 then isBlockedIpv4 js ip.toList
  else if isIP ip = 6 then
    match ipv4Mapped js isIP ip.toList with
    -- An empty text counts as none.
    | some (c :: rest) => isBlockedIpv4 js (c :: rest)
    | _ => isBlockedIpv6 js isIP ip.toList
  else true

end Flowmind.Http
