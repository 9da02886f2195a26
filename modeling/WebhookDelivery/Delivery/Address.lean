import WebhookDelivery.Text.Quoted

/-!
# WebhookDelivery.Delivery.Address

Internet addresses in text, and which of them are globally reachable.

* `Address.read?`: an address of either version; the scope of a version 6 address follows a percent
  sign.
* `Address.write`: the short form, with the longest run of zero groups left out.
* `Address.isGlobal`: the address lies in no range reserved for private or local use.
-/

namespace WebhookDelivery

inductive Address where
  | v4 (bits : Nat)
  | v6 (bits : Nat) (scope : Option (List Char))
  deriving DecidableEq, Repr

namespace Address

/-- The pieces of a text between the occurrences of a character. -/
def split (mark : Char) : List Char → List (List Char)
  | [] => [[]]
  | c :: rest =>
    if c = mark then [] :: split mark rest
    else match split mark rest with
      | piece :: pieces => (c :: piece) :: pieces
      | [] => [[c]]

/-- A decimal number below 256 without leading zeros. -/
def readOctet? (s : List Char) : Option Nat :=
  if s.isEmpty || 3 < s.length || !s.all Char.isDigit || (1 < s.length && s.head? == some '0') then
    none
  else
    let n := s.foldl (fun n c => 10 * n + (c.toNat - 48)) 0
    if n < 256 then some n else none

def readV4? (s : List Char) : Option Nat :=
  match (split '.' s).mapM readOctet? with
  | some [a, b, c, d] => some (((a * 256 + b) * 256 + c) * 256 + d)
  | _ => none

/-- At most four hexadecimal digits. -/
def readGroup? (s : List Char) : Option Nat :=
  if s.isEmpty || 4 < s.length then none
  else
    s.foldlM (fun n c =>
      if c.isDigit then some (16 * n + (c.toNat - 48))
      else if 'a' ≤ c ∧ c ≤ 'f' then some (16 * n + (c.toNat - 87))
      else if 'A' ≤ c ∧ c ≤ 'F' then some (16 * n + (c.toNat - 55))
      else none) 0

/-- The groups of an address; a last part with points stands for two groups. -/
def expandLast? (parts : List (List Char)) : Option (List (List Char)) :=
  match parts.getLast? with
  | some last =>
    if last.contains '.' then
      (readV4? last).map fun n =>
        parts.dropLast ++ [Text.hexDigits 4 (n / 65536), Text.hexDigits 4 (n % 65536)]
    else some parts
  | none => some parts

def groupsValue (groups : List Nat) : Nat := groups.foldl (fun n g => 65536 * n + g) 0

/-- The groups before and after the one place where zero groups are left out; nothing after where
there is no such place. -/
def splitAtGap? (parts : List (List Char)) : Option (List (List Char) × Option (List (List Char))) :=
  let inner := (parts.zipIdx.drop 1).dropLast
  match inner.filter fun p => p.1.isEmpty with
  | [] => some (parts, none)
  | [(_, i)] => some (parts.take i, some (parts.drop (i + 1)))
  | _ => none

/-- Parts beside a gap: a single empty one is the text's end, any other empty one is refused. -/
def besideGap (parts : List (List Char)) : List (List Char) := if parts = [[]] then [] else parts

def readGroups? (s : List Char) : Option Nat :=
  let parts := split ':' s
  if parts.length < 3 then none
  else
    match expandLast? parts with
    | none => none
    | some parts =>
      if 9 < parts.length then none
      else
        match splitAtGap? parts with
        | none => none
        | some (before, none) =>
          if before.length = 8 then (before.mapM readGroup?).map groupsValue else none
        | some (before, some after) =>
          match (besideGap before).mapM readGroup?, (besideGap after).mapM readGroup? with
          | some high, some low =>
            if high.length + low.length < 8 then
              some (groupsValue (high ++ List.replicate (8 - high.length - low.length) 0 ++ low))
            else none
          | _, _ => none

def readV6? (s : List Char) : Option Address :=
  if s.contains '/' then none
  else
    let groups := s.takeWhile (· != '%')
    match s.dropWhile (· != '%') with
    | [] => (readGroups? groups).map fun n => .v6 n none
    | _ :: scope =>
      if scope.isEmpty || scope.contains '%' then none
      else (readGroups? groups).map fun n => .v6 n (some scope)

def read? (s : List Char) : Option Address :=
  match readV4? s with
  | some n => some (.v4 n)
  | none => readV6? s

/-- The eight groups of a version 6 address. -/
def groups (bits : Nat) : List Nat :=
  (List.range 8).map fun i => bits / Nat.pow 65536 (7 - i) % 65536

/-- Hexadecimal digits without leading zeros. -/
def writeGroup (n : Nat) : List Char :=
  match (Text.hexDigits 4 n).dropWhile (· == '0') with
  | [] => ['0']
  | digits => digits

/-- The first of the longest runs of zeros: where it begins and how long it is. -/
def longestGap (groups : List Nat) : Nat × Nat :=
  (List.range groups.length).foldl (fun best i =>
    let length := ((groups.drop i).takeWhile (· == 0)).length
    if best.2 < length then (i, length) else best) (0, 0)

def joinGroups (groups : List Nat) : List Char :=
  match groups with
  | [] => []
  | [g] => writeGroup g
  | g :: rest => writeGroup g ++ ':' :: joinGroups rest

def writeGroups (bits : Nat) : List Char :=
  let groups := groups bits
  let (start, length) := longestGap groups
  if length < 2 then joinGroups groups
  else joinGroups (groups.take start) ++ [':', ':'] ++ joinGroups (groups.drop (start + length))

def write : Address → List Char
  | .v4 bits =>
    Nat.toDigits 10 (bits / 16777216) ++ '.' :: Nat.toDigits 10 (bits / 65536 % 256) ++
      '.' :: Nat.toDigits 10 (bits / 256 % 256) ++ '.' :: Nat.toDigits 10 (bits % 256)
  | .v6 bits none => writeGroups bits
  | .v6 bits (some scope) => writeGroups bits ++ '%' :: scope

/-- The address lies in one of the ranges, each given by an address and the number of bits that
vary in it. -/
def inRanges (ranges : List (Nat × Nat)) (bits : Nat) : Bool :=
  ranges.any fun r => bits / Nat.pow 2 r.2 == r.1 / Nat.pow 2 r.2

def octets (a b c d : Nat) : Nat := ((a * 256 + b) * 256 + c) * 256 + d

def privateV4 : List (Nat × Nat) :=
  [(octets 0 0 0 0, 24), (octets 10 0 0 0, 24), (octets 127 0 0 0, 24), (octets 169 254 0 0, 16),
    (octets 172 16 0 0, 20), (octets 192 0 0 0, 8), (octets 192 0 2 0, 8), (octets 192 168 0 0, 16),
    (octets 198 18 0 0, 17), (octets 198 51 100 0, 8), (octets 203 0 113 0, 8),
    (octets 240 0 0 0, 28)]

def publicV4 : List (Nat × Nat) := [(octets 192 0 0 9, 0), (octets 192 0 0 10, 0)]

/-- Addresses shared between the customers of a carrier. -/
def sharedV4 : List (Nat × Nat) := [(octets 100 64 0 0, 22)]

def isPrivateV4 (bits : Nat) : Bool := inRanges privateV4 bits && !inRanges publicV4 bits

def privateV6 : List (Nat × Nat) :=
  [(groupsValue [0, 0, 0, 0, 0, 0, 0, 1], 0), (0, 0), (groupsValue [0, 0, 0, 0, 0, 0xffff, 0, 0], 32),
    (groupsValue [0x64, 0xff9b, 1, 0, 0, 0, 0, 0], 80), (groupsValue [0x100, 0, 0, 0, 0, 0, 0, 0], 64),
    (groupsValue [0x2001, 0, 0, 0, 0, 0, 0, 0], 105),
    (groupsValue [0x2001, 0xdb8, 0, 0, 0, 0, 0, 0], 96),
    (groupsValue [0x2002, 0, 0, 0, 0, 0, 0, 0], 112),
    (groupsValue [0xfc00, 0, 0, 0, 0, 0, 0, 0], 121),
    (groupsValue [0xfe80, 0, 0, 0, 0, 0, 0, 0], 118)]

def publicV6 : List (Nat × Nat) :=
  [(groupsValue [0x2001, 1, 0, 0, 0, 0, 0, 1], 0), (groupsValue [0x2001, 1, 0, 0, 0, 0, 0, 2], 0),
    (groupsValue [0x2001, 3, 0, 0, 0, 0, 0, 0], 96),
    (groupsValue [0x2001, 4, 0x112, 0, 0, 0, 0, 0], 80),
    (groupsValue [0x2001, 0x20, 0, 0, 0, 0, 0, 0], 100),
    (groupsValue [0x2001, 0x30, 0, 0, 0, 0, 0, 0], 100)]

/-- A version 6 address that stands for one of version 4 is private as that one is. -/
def isGlobal : Address → Bool
  | .v4 bits => !inRanges sharedV4 bits && !isPrivateV4 bits
  | .v6 bits _ =>
    if bits / Nat.pow 2 32 = 0xffff then !isPrivateV4 (bits % Nat.pow 2 32)
    else !(inRanges privateV6 bits && !inRanges publicV6 bits)

end Address
end WebhookDelivery
