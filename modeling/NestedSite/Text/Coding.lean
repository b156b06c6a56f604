import NestedSite.Text.Quoted

/-!
# Texts and bytes

Encodings of texts, with the ways of treating what an encoding cannot express (`encode?`) and what it cannot
read (`decode?`).
-/

namespace NestedSite.Text

/-- An encoding of texts. -/
inductive Coding where
  | utf8 | utf8Marked | ascii | latin1 | utf16 | utf16le | utf16be | utf32 | utf32le | utf32be
  deriving Repr, DecidableEq

/-- The words of the name of an encoding, in lower case, joined by underscores; a point belongs to a word. -/
def codingWords (name : String) : String :=
  let words := name.toList.splitBy fun a b => inWord a == inWord b
  .ofList ("_".toList.intercalate ((words.filter fun w => w.all inWord).map (·.map Char.toLower)))
where
  inWord (c : Char) : Bool := c.isAlphanum || c == '.'

/-- The encoding that a name means; case, and the signs between its words, do not matter. -/
def Coding.ofName? (name : String) : Option Coding :=
  match codingWords name with
  | "utf_8" | "utf8" | "u8" | "utf" | "cp65001" | "utf8_ucs2" | "utf8_ucs4" => some .utf8
  | "utf_8_sig" => some .utf8Marked
  | "ascii" | "us_ascii" | "646" | "us" | "iso646_us" | "iso_646.irv_1991" | "iso_ir_6" | "ibm367" | "cp367"
  | "csascii" | "ansi_x3.4_1968" | "ansi_x3.4_1986" | "ansi_x3_4_1968" => some .ascii
  | "latin_1" | "latin1" | "latin" | "l1" | "8859" | "iso8859" | "iso8859_1" | "iso_8859_1" | "iso_8859_1_1987"
  | "iso_ir_100" | "cp819" | "ibm819" | "csisolatin1" => some .latin1
  | "utf_16" | "utf16" | "u16" => some .utf16
  | "utf_16_le" | "utf_16le" | "unicodelittleunmarked" => some .utf16le
  | "utf_16_be" | "utf_16be" | "unicodebigunmarked" => some .utf16be
  | "utf_32" | "utf32" | "u32" => some .utf32
  | "utf_32_le" | "utf_32le" => some .utf32le
  | "utf_32_be" | "utf_32be" => some .utf32be
  | _ => none

/-- What is done about a part that an encoding cannot express or read; a name that means nothing is `unknown`. -/
inductive Remedy where
  | strict | ignore | replace | entity | escape | unknown
  deriving Repr, DecidableEq

def Remedy.ofName : String → Remedy
  | "strict" | "surrogateescape" | "surrogatepass" => .strict
  | "ignore" => .ignore
  | "replace" => .replace
  | "xmlcharrefreplace" => .entity
  | "backslashreplace" => .escape
  | _ => .unknown

/-- The bytes of a number, `count` of them, the least significant first. -/
def littleEndian : Nat → Nat → List UInt8
  | 0, _ => []
  | count + 1, n => (n % 256).toUInt8 :: littleEndian count (n / 256)

/-- The number whose bytes are given, the least significant first. -/
def ofLittleEndian : List UInt8 → Nat
  | [] => 0
  | b :: bs => b.toNat + 256 * ofLittleEndian bs

/-- The 16-bit units of a character. -/
def units16 (c : Char) : List Nat :=
  let n := c.toNat
  if n < 0x10000 then [n] else [0xd800 + (n - 0x10000) / 1024, 0xdc00 + (n - 0x10000) % 1024]

def utf8Bytes (cs : List Char) : List UInt8 := (String.ofList cs).toUTF8.toList

/-- The bytes of a text; none if a character has none and nothing is to be done about it. -/
def encode? (coding : Coding) (remedy : Remedy) (cs : List Char) : Option (List UInt8) :=
  let narrow := fun (limit : Nat) => do
    let parts ← cs.mapM fun c =>
      if c.toNat < limit then some [c.toNat.toUInt8]
      else match remedy with
        | .strict | .unknown => none
        | .ignore => some []
        | .replace => some [63]
        | .entity => some (utf8Bytes ("&#".toList ++ Nat.toDigits 10 c.toNat ++ [';']))
        | .escape => some (utf8Bytes (codeEscape c))
    return parts.flatten
  let wide := fun (units : Char → List Nat) (size : Nat) (little : Bool) =>
    some ((cs.flatMap units).flatMap fun u =>
      let bs := littleEndian size u
      if little then bs else bs.reverse)
  let code := fun (c : Char) => [c.toNat]
  match coding with
  | .utf8 => some (utf8Bytes cs)
  | .utf8Marked => some (utf8Bytes ('\ufeff' :: cs))
  | .ascii => narrow 128
  | .latin1 => narrow 256
  | .utf16 => (wide units16 2 true).map ([0xff, 0xfe] ++ ·)
  | .utf16le => wide units16 2 true
  | .utf16be => wide units16 2 false
  | .utf32 => (wide code 4 true).map ([0xff, 0xfe, 0, 0] ++ ·)
  | .utf32le => wide code 4 true
  | .utf32be => wide code 4 false

/-- The text that bytes write in UTF-8. -/
def decodeUtf8? (bs : List UInt8) : Option String :=
  let array : ByteArray := ⟨bs.toArray⟩
  String.fromUTF8? array

/-- What stands at the front of some bytes: a character, or nothing that can be read, and how many bytes it takes. -/
abbrev Front := Option Char × Nat

/-- The front of bytes in UTF-8; what cannot be read is as long as it is the start of a character. -/
def frontUtf8 (bs : List UInt8) : Front :=
  let lead := (bs.headD 0).toNat
  if lead < 0x80 then (some (Char.ofNat lead), 1)
  else if lead < 0xc2 || 0xf4 < lead then (none, 1)
  else
    let size := if lead < 0xe0 then 2 else if lead < 0xf0 then 3 else 4
    let low := if lead == 0xe0 then 0xa0 else if lead == 0xf0 then 0x90 else 0x80
    let high := if lead == 0xed then 0x9f else if lead == 0xf4 then 0x8f else 0xbf
    let tail := (bs.drop 1).take (size - 1)
    let fits := fun (place : Nat) (b : UInt8) =>
      if place == 0 then low ≤ b.toNat && b.toNat ≤ high else b.toNat / 64 == 2
    let good := (tail.zipIdx.takeWhile fun (b, place) => fits place b).length
    if good + 1 == size then
      let lead := lead % (if size == 2 then 0x20 else if size == 3 then 0x10 else 0x08)
      (some (Char.ofNat (tail.foldl (fun n b => n * 64 + b.toNat % 64) lead)), size)
    else (none, good + 1)

/-- The front of bytes whose 16-bit units have their bytes in the given order. -/
def front16 (little : Bool) (bs : List UInt8) : Front :=
  let unit := fun (bs : List UInt8) => ofLittleEndian (if little then bs else bs.reverse)
  if bs.length < 2 then (none, 1)
  else
    let first := unit (bs.take 2)
    if first < 0xd800 || 0xe000 ≤ first then (some (Char.ofNat first), 2)
    else if 0xdc00 ≤ first then (none, 2)
    else if bs.length < 4 then (none, bs.length)
    else
      let second := unit ((bs.drop 2).take 2)
      if second < 0xdc00 || 0xe000 ≤ second then (none, 2)
      else (some (Char.ofNat (0x10000 + (first - 0xd800) * 1024 + (second - 0xdc00))), 4)

/-- The front of bytes whose 32-bit units have their bytes in the given order. -/
def front32 (little : Bool) (bs : List UInt8) : Front :=
  if bs.length < 4 then (none, bs.length)
  else
    let n := ofLittleEndian (if little then bs.take 4 else (bs.take 4).reverse)
    if n.isValidChar then (some (Char.ofNat n), 4) else (none, 4)

/-- The front of bytes below a limit that stand for the characters of the same numbers. -/
def frontNarrow (limit : Nat) (bs : List UInt8) : Front :=
  let n := (bs.headD 0).toNat
  (if n < limit then some (Char.ofNat n) else none, 1)

/-- Reads fronts until no byte is left; none if one cannot be read and nothing is to be done about it. -/
def decodeFronts? (front : List UInt8 → Front) (remedy : Remedy) (bs : List UInt8) : Option (List Char) :=
  match bs with
  | [] => some []
  | b :: tail =>
    let (char, size) := front (b :: tail)
    let rest := tail.drop (size - 1)
    have : rest.length < (b :: tail).length := by
      simp only [rest, List.length_drop, List.length_cons]
      omega
    let here := match char, remedy with
      | some c, _ => some [c]
      | none, .strict | none, .entity | none, .unknown => none
      | none, .ignore => some []
      | none, .replace => some ['\ufffd']
      | none, .escape => some (((b :: tail).take size).flatMap fun b => '\\' :: 'x' :: hexDigits 2 b.toNat)
    match here with
    | none => none
    | some here => (decodeFronts? front remedy rest).map (here ++ ·)
termination_by bs.length

/-- The text of bytes; none if they are no text and nothing is to be done about it. -/
def decode? (coding : Coding) (remedy : Remedy) (bs : List UInt8) : Option String :=
  let fronts := fun (front : List UInt8 → Front) (bs : List UInt8) =>
    (decodeFronts? front remedy bs).map String.ofList
  match coding with
  | .ascii => fronts (frontNarrow 128) bs
  | .latin1 => fronts (frontNarrow 256) bs
  | .utf8 => fronts frontUtf8 bs
  | .utf8Marked => fronts frontUtf8 (if bs.take 3 == [0xef, 0xbb, 0xbf] then bs.drop 3 else bs)
  | .utf16le => fronts (front16 true) bs
  | .utf16be => fronts (front16 false) bs
  | .utf32le => fronts (front32 true) bs
  | .utf32be => fronts (front32 false) bs
  | .utf16 =>
    if bs.take 2 == [0xff, 0xfe] then fronts (front16 true) (bs.drop 2)
    else if bs.take 2 == [0xfe, 0xff] then fronts (front16 false) (bs.drop 2)
    else fronts (front16 true) bs
  | .utf32 =>
    if bs.take 4 == [0xff, 0xfe, 0, 0] then fronts (front32 true) (bs.drop 4)
    else if bs.take 4 == [0, 0, 0xfe, 0xff] then fronts (front32 false) (bs.drop 4)
    else fronts (front32 true) bs

end NestedSite.Text
