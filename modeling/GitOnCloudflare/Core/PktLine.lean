import GitOnCloudflare.Foundations.BufferLoop
import GitOnCloudflare.Foundations.Utf8

/-!
# Packet lines

Frames with a length of four hexadecimal digits, and the three loops that read
them: one section for a command, the prefix of a section that is still coming
in, and a whole buffer.  Text is a list of code points.
-/

namespace GitOnCloudflare.Core

open Foundations Foundations.BufferLoop

abbrev PktBytes := List UInt8

abbrev CodePoints := List Nat

def FLUSH : PktBytes := [0x30, 0x30, 0x30, 0x30]

def DELIM : PktBytes := [0x30, 0x30, 0x30, 0x31]

def RESPONSE_END : PktBytes := [0x30, 0x30, 0x30, 0x32]

/-- The text of a constant. -/
def codes (bytes : PktBytes) : CodePoints := bytes.map UInt8.toNat

/-! ## Encoders -/

def hexDigit (value : Nat) : UInt8 :=
  UInt8.ofNat (if value < 10 then 0x30 + value else 0x61 + (value - 10))

/-- `n.toString(16)`. -/
def toString16 (n : Nat) : PktBytes :=
  if n / 16 = 0 then
    [hexDigit (n % 16)]
  else
    toString16 (n / 16) ++ [hexDigit (n % 16)]
termination_by n

/-- `padStart(4, "0")`. -/
def toHex4 (n : Nat) : PktBytes := (toString16 n).leftpad 4 0x30

def pktLine (payload : PktBytes) : PktBytes :=
  toHex4 (payload.length + 4) ++ payload

def flushPkt : PktBytes := FLUSH

def delimPkt : PktBytes := DELIM

def responseEndPkt : PktBytes := RESPONSE_END

/-! ## `parseInt` -/

/-- White space and line terminators. -/
def isWhiteSpace (code : Nat) : Bool :=
  (0x09 ≤ code && code ≤ 0x0d) || code == 0x20 || code == 0xa0 ||
    code == 0x1680 || (0x2000 ≤ code && code ≤ 0x200a) || code == 0x2028 ||
    code == 0x2029 || code == 0x202f || code == 0x205f || code == 0x3000 ||
    code == 0xfeff

def hexValue (code : Nat) : Option Nat :=
  if 0x30 ≤ code ∧ code ≤ 0x39 then some (code - 0x30)
  else if 0x61 ≤ code ∧ code ≤ 0x66 then some (code - 0x61 + 10)
  else if 0x41 ≤ code ∧ code ≤ 0x46 then some (code - 0x41 + 10)
  else none

/-- The digits up to the first character that is none. -/
def leadingDigits : CodePoints → List Nat
  | [] => []
  | code :: text =>
    match hexValue code with
    | some digit => digit :: leadingDigits text
    | none => []

def ofDigits (digits : List Nat) : Nat :=
  digits.foldl (fun value digit => 16 * value + digit) 0

/-- `+` or `-` in front of a number. -/
def takeSign : CodePoints → Bool × CodePoints
  | 0x2d :: text => (true, text)
  | 0x2b :: text => (false, text)
  | text => (false, text)

/-- `0x` or `0X` in front of a number. -/
def withoutRadix : CodePoints → CodePoints
  | 0x30 :: 0x78 :: text => text
  | 0x30 :: 0x58 :: text => text
  | text => text

/-- `parseInt(text, 16)`; `none` is `NaN`. -/
def parseInt16 (text : CodePoints) : Option Int :=
  let (negative, text) := takeSign (text.dropWhile isWhiteSpace)
  match leadingDigits (withoutRadix text) with
  | [] => none
  | digits => some (if negative then -(ofDigits digits : Int) else ofDigits digits)

/-! ## Loops -/

/-- `text.replace(/\\r?\\n$/, "")`. -/
def withoutLineEnd (text : CodePoints) : CodePoints :=
  match text.reverse with
  | 0x0a :: 0x0d :: front => front.reverse
  | 0x0a :: front => front.reverse
  | _ => text

variable {buf : PktBytes}

theorem length_drop_lt (long : 4 ≤ buf.length) :
    (buf.drop 4).length < buf.length := by
  rw [List.length_drop]
  omega

theorem length_drop_drop_lt (long : 4 ≤ buf.length) (payload : Nat) :
    ((buf.drop 4).drop payload).length < buf.length := by
  rw [List.length_drop, List.length_drop]
  omega

structure PktSection where
  lines : List CodePoints
  offset : Nat

/-- The body of the loop; it leaves with the bytes behind the flush. -/
def parsePktSection.body (buf : PktBytes) :
    Pass CodePoints (Option PktBytes) buf :=
  if long : 4 ≤ buf.length then
    let header := Utf8.decode (buf.take 4)
    let rest := buf.drop 4
    if header = codes FLUSH then
      .exit (some rest)
    else if header = codes DELIM ∨ header = codes RESPONSE_END then
      .exit none
    else
      match parseInt16 header with
      | none => .exit none
      | some len =>
        if len < 4 ∨ (rest.length : Int) < len - 4 then
          .exit none
        else
          let payload := (len - 4).toNat
          .push (withoutLineEnd (Utf8.decode (rest.take payload)))
            (rest.drop payload) (length_drop_drop_lt long payload)
  else
    .exit none

def parsePktSection (buf : PktBytes) : Option PktSection :=
  let (lines, exit) := run parsePktSection.body buf
  exit.map fun rest => ⟨lines, buf.length - rest.length⟩

/-- How the reading of a prefix leaves. -/
inductive PrefixExit where
  | ok (rest : PktBytes)
  | incomplete
  | invalid (message : String)

inductive ParsedPktSection where
  | ok (lines : List CodePoints) (offset : Nat)
  | incomplete
  | invalid (message : String)
deriving DecidableEq

def parsePktSectionPrefix.body (buf : PktBytes) :
    Pass CodePoints PrefixExit buf :=
  if long : 4 ≤ buf.length then
    let header := Utf8.decode (buf.take 4)
    let rest := buf.drop 4
    if header = codes FLUSH then
      .exit (.ok rest)
    else if header = codes DELIM ∨ header = codes RESPONSE_END then
      .exit (.invalid
        "Unexpected protocol delimiter in receive-pack command section.")
    else
      match parseInt16 header with
      | none =>
        .exit (.invalid
          "Malformed pkt-line header in receive-pack command section.")
      | some length =>
        if length < 4 then
          .exit (.invalid
            "Malformed pkt-line header in receive-pack command section.")
        else if (rest.length : Int) < length - 4 then
          .exit .incomplete
        else
          let payload := (length - 4).toNat
          .push (withoutLineEnd (Utf8.decode (rest.take payload)))
            (rest.drop payload) (length_drop_drop_lt long payload)
  else
    .exit .incomplete

def parsePktSectionPrefix (bytes : PktBytes) : ParsedPktSection :=
  let (lines, exit) := run parsePktSectionPrefix.body bytes
  match exit with
  | .ok rest => .ok lines (bytes.length - rest.length)
  | .incomplete => .incomplete
  | .invalid message => .invalid message

inductive PktItem where
  | line (text : CodePoints) (raw : PktBytes)
  | flush
  | delim
  | responseEnd
deriving DecidableEq

/-- The body of the loop; it leaves with the bytes it has not read. -/
def decodePktLines.body (buf : PktBytes) : Pass PktItem PktBytes buf :=
  if long : 4 ≤ buf.length then
    let header := Utf8.decode (buf.take 4)
    let rest := buf.drop 4
    if header = codes FLUSH then
      .push .flush rest (length_drop_lt long)
    else if header = codes DELIM then
      .push .delim rest (length_drop_lt long)
    else if header = codes RESPONSE_END then
      .push .responseEnd rest (length_drop_lt long)
    else
      match parseInt16 header with
      | none => .exit rest
      | some len =>
        if len < 4 ∨ (rest.length : Int) < len - 4 then
          .exit rest
        else
          let payload := (len - 4).toNat
          .push (.line (Utf8.decode (rest.take payload)) (rest.take payload))
            (rest.drop payload) (length_drop_drop_lt long payload)
  else
    .exit buf

def decodePktLines (buf : PktBytes) : List PktItem :=
  (run decodePktLines.body buf).1

/-- The bytes the loop has not read when it leaves. -/
def decodePktLines.unread (buf : PktBytes) : PktBytes :=
  (run decodePktLines.body buf).2

end GitOnCloudflare.Core
