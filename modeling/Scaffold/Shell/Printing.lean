import Scaffold.Number.Reader
import Scaffold.Shell.Sum
import Scaffold.Text.Utf8

/-!
# Printing in shell scripts

Backslash sequences in texts, and formats: a format is used again as long as arguments are left, and
an argument that is missing counts as empty or zero.
-/

namespace Scaffold

namespace Shell

/-- The value of up to `n` octal digits at the front, and the rest. -/
def octal (n : Nat) (s : List Char) : Nat × List Char :=
  let ds := (s.take n).takeWhile fun c => '0' ≤ c && c ≤ '7'
  (ds.foldl (fun v d => v * 8 + (d.toNat - 48)) 0, s.drop ds.length)

/-- The octet of a backslash sequence of one letter. -/
def escapeOctet? (c : Char) : Option UInt8 :=
  match c with
  | 'a' => some 7
  | 'b' => some 8
  | 't' => some 9
  | 'n' => some 10
  | 'v' => some 11
  | 'f' => some 12
  | 'r' => some 13
  | '\\' => some 92
  | _ => none

/-- The octets of a character. -/
def octetsOf (c : Char) : List UInt8 := Utf8.encode (String.ofList [c])

/-- What a text with backslash sequences prints, and whether it says to stop.  In an argument an octal
sequence begins with a zero of its own.  `fuel` bounds the characters. -/
def unescape (inArgument : Bool) : (fuel : Nat) → List Char → List UInt8 × Bool
  | 0, _ => ([], false)
  | fuel + 1, s =>
    let go (bs : List UInt8) (r : List Char) :=
      let (more, stop) := unescape inArgument fuel r
      (bs ++ more, stop)
    match s with
    | [] => ([], false)
    | '\\' :: c :: r =>
      if inArgument && c == 'c' then ([], true)
      else if inArgument && c == '0' then
        let (v, rest) := octal 3 r
        go [UInt8.ofNat v] rest
      else if !inArgument && '0' ≤ c && c ≤ '7' then
        let (v, rest) := octal 3 (c :: r)
        go [UInt8.ofNat v] rest
      else match escapeOctet? c with
        | some b => go [b] r
        | none => go ((92 : UInt8) :: octetsOf c) r
    | c :: r => go (octetsOf c) r

/-- What a text with backslash sequences prints, and whether it says to stop. -/
def unescaped (inArgument : Bool) (s : String) : List UInt8 × Bool :=
  unescape inArgument (s.length + 1) s.toList

/-! ## Formats -/

/-- A part of a format: text, or a directive with its flags, width and precision. -/
inductive FormatPart where
  | text (bs : List UInt8)
  | directive (flags : List Char) (width : Nat) (precision : Option Nat) (letter : Char)
  deriving DecidableEq, Inhabited, Repr

/-- The number of digits at the front, and the rest. -/
def digitsAt (s : List Char) : Nat × List Char :=
  ((s.takeWhile Text.isAsciiDigit).foldl (fun n d => n * 10 + (d.toNat - 48)) 0,
    s.dropWhile Text.isAsciiDigit)

/-- The parts of a format.  `fuel` bounds their number. -/
def formatParts : (fuel : Nat) → List Char → List FormatPart
  | 0, _ => []
  | fuel + 1, s =>
    match s with
    | [] => []
    | '%' :: '%' :: r => .text [37] :: formatParts fuel r
    | '%' :: r =>
      let isFlag (c : Char) := "-+ 0#".toList.contains c
      let (width, rest) := digitsAt (r.dropWhile isFlag)
      let (precision, rest) := match rest with
        | '.' :: p => let (n, rest) := digitsAt p; (some n, rest)
        | rest => (none, rest)
      match rest with
      | [] => [.text [37]]
      | letter :: rest => .directive (r.takeWhile isFlag) width precision letter :: formatParts fuel rest
    | s =>
      let run := s.takeWhile (· != '%')
      .text (unescaped false (String.ofList run)).1 :: formatParts fuel (s.drop run.length)

/-- Octets filled up to a width. -/
def padTo (flags : List Char) (width : Nat) (bs : List UInt8) : List UInt8 :=
  let gap := width - bs.length
  if flags.contains '-' then bs ++ List.replicate gap 32
  else if flags.contains '0' then
    let sign := bs.takeWhile fun b => b == 45 || b == 43
    sign ++ List.replicate gap 48 ++ bs.drop sign.length
  else List.replicate gap 32 ++ bs

/-- A whole number at the front of a text; zero where there is none. -/
def wholeAt (s : String) : Int :=
  match s.toList with
  | '-' :: ds => -(digitsAt ds).1
  | '+' :: ds => (digitsAt ds).1
  | ds => (digitsAt ds).1

/-- The digits of a whole number in a base at the front of a text, and the rest. -/
def baseDigits (base : Nat) (s : List Char) : List Char × List Char :=
  let isDigit (c : Char) : Bool := match Text.hexValue? c with
    | some v => v < base
    | none => false
  (s.takeWhile isDigit, s.dropWhile isDigit)

/-- The number that an argument writes: hexadecimal behind `0x`, octal behind `0`, the code of a
character behind a quote; and why it is not one. -/
def numberArgument (s : String) : Int × Option String :=
  match s.toList.dropWhile Text.isBlank with
  | [] => (0, none)
  | '\'' :: c :: _ | '"' :: c :: _ => (c.toNat, none)
  | c :: r =>
    let ds := if c == '-' || c == '+' then r else c :: r
    let (digits, rest) := match ds with
      | '0' :: 'x' :: h | '0' :: 'X' :: h => ('0' :: 'x' :: (baseDigits 16 h).1, (baseDigits 16 h).2)
      | '0' :: o => ('0' :: (baseDigits 8 o).1, (baseDigits 8 o).2)
      | ds => baseDigits 10 ds
    let value := if digits.isEmpty then 0 else (Sum.numberOf? digits).getD 0
    let fault := if digits.isEmpty then some ": expected numeric value"
      else if rest.isEmpty then none else some ": not completely converted"
    (if c == '-' then -value else value, fault.map (s ++ ·))

/-- A number in floating point that an argument writes. -/
def realArgument (s : String) : Binary64 × Option String :=
  if s = "" then (.zero, none)
  else match Numeral.read? s with
    | some x => (x, none)
    | none => (.zero, some (s ++ ": expected numeric value"))

/-- What a directive makes of an argument, and why the argument does not suit it. -/
def directiveOctets (flags : List Char) (precision : Option Nat) (letter : Char) (argument : String) :
    List UInt8 × Option String :=
  let plus (isNegative : Bool) (s : String) : String :=
    if isNegative then s else if flags.contains '+' then "+" ++ s else if flags.contains ' ' then " " ++ s else s
  let inBase (b : Nat) := Nat.toDigits b (numberArgument argument).1.toNat
  let filled (ds : List Char) := String.ofList (List.replicate (precision.getD 1 - ds.length) '0' ++ ds)
  let (text, fault) : String × Option String := match letter with
    | 'd' | 'i' | 'u' =>
      let (n, fault) := numberArgument argument
      let digits := filled (Nat.toDigits 10 n.natAbs)
      (plus (n < 0) (if n < 0 then "-" ++ digits else digits), fault)
    | 'x' => (filled (inBase 16), (numberArgument argument).2)
    | 'X' => (filled ((inBase 16).map Char.toUpper), (numberArgument argument).2)
    | 'o' => (filled (inBase 8), (numberArgument argument).2)
    | 'f' | 'F' =>
      let (x, fault) := realArgument argument
      (plus (Text.startsWith "-" argument) (x.fixed (precision.getD 6)), fault)
    | 'g' => ((realArgument argument).1.brief, (realArgument argument).2)
    | 's' => (argument, none)
    | 'c' => (Text.take 1 argument, none)
    | _ => ("", none)
  match letter with
  | 'b' => ((unescaped true argument).1, none)
  | 's' => ((Utf8.encode text).take (precision.getD text.utf8ByteSize), none)
  | _ => (Utf8.encode text, fault)

/-- One use of a format: what it prints, the arguments left, and the faults of arguments. -/
def useFormat : List FormatPart → List String → List UInt8 × List String × List String
  | [], args => ([], args, [])
  | .text bs :: ps, args =>
    let (more, rest, faults) := useFormat ps args
    (bs ++ more, rest, faults)
  | .directive flags width precision letter :: ps, args =>
    let (here, fault) := directiveOctets flags precision letter (args.headD "")
    let (more, rest, faults) := useFormat ps args.tail
    (padTo flags width here ++ more, rest, fault.toList ++ faults)

/-- Whether a format takes arguments. -/
def takesArguments (ps : List FormatPart) : Bool :=
  ps.any fun
    | .directive .. => true
    | .text _ => false

/-- The uses of a format until no argument is left.  `fuel` bounds their number. -/
def useFormats (ps : List FormatPart) : (fuel : Nat) → List String → List UInt8 × List String
  | 0, _ => ([], [])
  | fuel + 1, args =>
    let (bs, rest, faults) := useFormat ps args
    if rest.isEmpty || !takesArguments ps then (bs, faults)
    else
      let (more, others) := useFormats ps fuel rest
      (bs ++ more, faults ++ others)

/-- What a format prints for arguments, and the faults of arguments. -/
def formatted (format : String) (args : List String) : List UInt8 × List String :=
  useFormats (formatParts (format.length + 1) format.toList) (args.length + 1) args

end Shell

end Scaffold
