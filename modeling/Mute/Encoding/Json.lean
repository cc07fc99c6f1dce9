import Mute.Encoding.Utf8

/-!
# JSON as encoding/json writes and reads it

KeyInit messages and their session anchors travel as JSON: `marshalSorted` writes them
and `json.Unmarshal` reads them back into Go structs. This module models JSON text as
`encoding/json` writes and reads it.

- `Value`: a JSON value; a number keeps its literal text.
- `encode`: what `encodeState` writes, compact and with `escapeHTML`. Strings are escaped
  by `encodeState.string`, which writes each byte that starts no valid UTF-8 sequence as
  the escape of U+FFFD.
- `parseValue`, `unquote`, `scanNumber`, `parse`: `checkValid` and the decoder's reading
  of one value, with whitespace, literals, numbers by the scanner's states, strings by
  `unquoteBytes` with its surrogate pairs, and nothing but whitespace after the value.
- `decodeString`, `decodeUint64`, `decodeBool`, `decodeSlice`, `decodeStruct`: the Go
  side of `Unmarshal`, a value stored into a field of a Go type. `null` leaves a field
  as it is, and an object key names a field exactly or up to case (`fieldIndex`).
-/

namespace Mute.Json

open Utf8

/-- A JSON value. A number keeps its literal text and an object its members in order. -/
inductive Value where
  | null
  | bool (b : Bool)
  | number (lit : Bytes)
  | string (s : Bytes)
  | array (elems : List Value)
  | object (members : List (Bytes × Value))
  deriving Inhabited

/-! ## Writing -/

/-- `hex[i]`, the lower-case hex digits of encoding/json. -/
def hexDigit (i : Nat) : UInt8 := (lit "0123456789abcdef").getD i 0

/-- What `encodeState.string` writes for an ASCII byte: the byte itself when it is `0x20`
or more and none of `\`, `"`, `<`, `>`, `&`; `\\`, `\"`, `\n`, `\r`, `\t`; and `\u00` with
two hex digits for the rest. -/
def escapeASCII (b : UInt8) : Bytes :=
  if 0x20 ≤ b.toNat ∧ b ≠ 92 ∧ b ≠ 34 ∧ b ≠ 60 ∧ b ≠ 62 ∧ b ≠ 38 then [b]
  else if b = 92 ∨ b = 34 then [92, b]
  else if b = 10 then lit "\\n"
  else if b = 13 then lit "\\r"
  else if b = 9 then lit "\\t"
  else lit "\\u00" ++ [hexDigit (b.toNat / 16), hexDigit (b.toNat % 16)]

/-- What `encodeState.string` writes for the rune at the head of `p` when that is not
ASCII: the escape of U+FFFD for a byte that starts no valid sequence, U+2028 and U+2029
escaped, and any other rune copied. -/
def runeText (p : Bytes) : Bytes :=
  if decodeRune p = (runeError, 1) then lit "\\ufffd"
  else if (decodeRune p).1 = 0x2028 ∨ (decodeRune p).1 = 0x2029 then
    lit "\\u202" ++ [hexDigit ((decodeRune p).1 % 16)]
  else p.take (decodeRune p).2

/-- `encodeState.string` between the quotes: ASCII byte by byte, other runes whole. -/
def stringBody : Bytes → Bytes
  | [] => []
  | b :: rest =>
    if b.toNat < 0x80 then escapeASCII b ++ stringBody rest
    else runeText (b :: rest) ++ stringBody ((b :: rest).drop (decodeRune (b :: rest)).2)
termination_by s => s.length
decreasing_by
  · exact Nat.lt_succ_self _
  · exact length_drop_decodeRune_lt _ _

/-- A string in quotes. -/
def quote (s : Bytes) : Bytes := [34] ++ stringBody s ++ [34]

/-- `strconv.FormatUint(n, 10)`, the literal `encoding/json` writes for an unsigned
integer. -/
def decimal (n : Nat) : Bytes :=
  (if n < 10 then [] else decimal (n / 10)) ++ [UInt8.ofNat (48 + n % 10)]
termination_by n
decreasing_by omega

mutual
/-- `encodeState.marshal`: the JSON text of a value, with no whitespace. -/
def encode : Value → Bytes
  | .null => lit "null"
  | .bool b => if b then lit "true" else lit "false"
  | .number n => n
  | .string s => quote s
  | .array [] => lit "[]"
  | .array (v :: vs) => [91] ++ encode v ++ encodeElemsTail vs
  | .object [] => [123, 125]
  | .object ((k, v) :: ms) => [123] ++ quote k ++ [58] ++ encode v ++ encodeMembersTail ms

/-- The elements after an array's first, each after a `,`, then the closing `]`. -/
def encodeElemsTail : List Value → Bytes
  | [] => [93]
  | v :: vs => [44] ++ encode v ++ encodeElemsTail vs

/-- The members after an object's first, each after a `,`, then the closing brace. -/
def encodeMembersTail : List (Bytes × Value) → Bytes
  | [] => [125]
  | (k, v) :: ms => [44] ++ quote k ++ [58] ++ encode v ++ encodeMembersTail ms
end

/-! ## Reading -/

/-- The scanner's whitespace: space, tab, newline, carriage return. -/
def isSpace (c : UInt8) : Bool := c == 32 || c == 9 || c == 10 || c == 13

/-- The input after the whitespace at its start. -/
def skipSpace (s : Bytes) : Bytes := s.dropWhile isSpace

/-- A decimal digit. -/
def isDigit (c : UInt8) : Bool := 48 ≤ c.toNat && c.toNat ≤ 57

/-- The integer part of a number: `0`, or digits that do not start with `0`. -/
def scanInteger : Bytes → Option (Bytes × Bytes)
  | 48 :: t => some ([48], t)
  | c :: t => if isDigit c then some (c :: t.takeWhile isDigit, t.dropWhile isDigit) else none
  | [] => none

/-- The fraction of a number: `.` and at least one digit, or nothing when no `.` comes. -/
def scanFraction : Bytes → Option (Bytes × Bytes)
  | 46 :: t =>
    if (t.takeWhile isDigit).isEmpty then none else some (46 :: t.takeWhile isDigit, t.dropWhile isDigit)
  | s => some ([], s)

/-- The exponent of a number: `e` or `E`, a sign or none, and at least one digit; or
nothing when no `e` comes. -/
def scanExponent : Bytes → Option (Bytes × Bytes)
  | e :: t =>
    if e = 101 ∨ e = 69 then
      let sign := (t.take 1).filter fun c => c = 43 ∨ c = 45
      let u := t.drop sign.length
      if (u.takeWhile isDigit).isEmpty then none
      else some (e :: sign ++ u.takeWhile isDigit, u.dropWhile isDigit)
    else some ([], e :: t)
  | [] => some ([], [])

/-- The literal of a number at the start of `s` and what follows it, as the scanner's
number states read it: a `-` or none, the integer part, a fraction and an exponent. -/
def scanNumber (s : Bytes) : Option (Bytes × Bytes) := do
  let sign := (s.take 1).filter (· = 45)
  let (i, r) ← scanInteger (s.drop sign.length)
  let (f, r) ← scanFraction r
  let (e, r) ← scanExponent r
  pure (sign ++ i ++ f ++ e, r)

/-- `true`, `false`, `null` or a number at the start of `t`. -/
def parseLiteral (t : Bytes) : Option (Value × Bytes) :=
  if (lit "true").isPrefixOf t then some (.bool true, t.drop 4)
  else if (lit "false").isPrefixOf t then some (.bool false, t.drop 5)
  else if (lit "null").isPrefixOf t then some (.null, t.drop 4)
  else (scanNumber t).map fun (n, r) => (.number n, r)

/-- The value of a hex digit. -/
def hexValue (c : UInt8) : Option Nat :=
  if 48 ≤ c.toNat ∧ c.toNat ≤ 57 then some (c.toNat - 48)
  else if 97 ≤ c.toNat ∧ c.toNat ≤ 102 then some (c.toNat - 87)
  else if 65 ≤ c.toNat ∧ c.toNat ≤ 70 then some (c.toNat - 55)
  else none

/-- `getu4`: the rune of `\u` and four hex digits at the start of `s`. -/
def getu4 : Bytes → Option Nat
  | 92 :: 117 :: a :: b :: c :: d :: _ => do
    pure ((← hexValue a) * 4096 + (← hexValue b) * 256 + (← hexValue c) * 16 + (← hexValue d))
  | _ => none

/-- `utf16.IsSurrogate`. -/
def isSurrogate (r : Nat) : Bool := 0xD800 ≤ r && r < 0xE000

/-- `utf16.DecodeRune`: the rune of a surrogate pair, or `RuneError`. -/
def utf16Decode (r1 r2 : Nat) : Nat :=
  if 0xD800 ≤ r1 ∧ r1 < 0xDC00 ∧ 0xDC00 ≤ r2 ∧ r2 < 0xE000 then
    (r1 - 0xD800) * 0x400 + (r2 - 0xDC00) + 0x10000
  else runeError

/-- The byte a one-character escape stands for; `\u` is read apart. -/
def unescape (e : UInt8) : Option UInt8 :=
  if e = 34 ∨ e = 92 ∨ e = 47 then some e
  else if e = 98 then some 8
  else if e = 102 then some 12
  else if e = 110 then some 10
  else if e = 114 then some 13
  else if e = 116 then some 9
  else none

/-- Bytes written before what a read returns. -/
def prepend (p : Bytes) : Option (Bytes × Bytes) → Option (Bytes × Bytes) :=
  Option.map fun d => (p ++ d.1, d.2)

/-- `unquoteBytes` after the opening quote, with the scanner's checks: the string's
bytes up to its closing quote, and what follows that quote. A control byte or a bad
escape is an error; a `\u` escape of a surrogate half is read with the escape after it
as a pair, or else as `RuneError`; any other byte of `0x80` or more is read as a rune
and written back by `EncodeRune`. -/
def unquote : Bytes → Option (Bytes × Bytes)
  | [] => none
  | c :: s =>
    if c = 34 then some ([], s)
    else if c = 92 then
      match s with
      | 117 :: t =>
        match getu4 (c :: 117 :: t) with
        | none => none
        | some r =>
          if isSurrogate r then
            match getu4 ((c :: 117 :: t).drop 6) with
            | some r2 =>
              if utf16Decode r r2 ≠ runeError then
                prepend (encodeRune (utf16Decode r r2)) (unquote ((c :: 117 :: t).drop 12))
              else prepend (encodeRune runeError) (unquote ((c :: 117 :: t).drop 6))
            | none => prepend (encodeRune runeError) (unquote ((c :: 117 :: t).drop 6))
          else prepend (encodeRune r) (unquote ((c :: 117 :: t).drop 6))
      | e :: t =>
        match unescape e with
        | some b => prepend [b] (unquote t)
        | none => none
      | [] => none
    else if c.toNat < 0x20 then none
    else if c.toNat < 0x80 then prepend [c] (unquote s)
    else prepend (encodeRune (decodeRune (c :: s)).1) (unquote ((c :: s).drop (decodeRune (c :: s)).2))
termination_by s => s.length
decreasing_by
  all_goals simp only [List.length_drop, List.length_cons]
  all_goals first | omega | exact Nat.sub_lt (Nat.succ_pos _) (decodeRune_snd_pos _ _)

mutual
/-- One value at the start of `s`, after whitespace, and what follows it; `fuel` bounds
the nesting and the number of elements. -/
def parseValue : Nat → Bytes → Option (Value × Bytes)
  | 0, _ => none
  | fuel + 1, s =>
    match skipSpace s with
    | 123 :: t =>
      match skipSpace t with
      | 125 :: r => some (.object [], r)
      | 34 :: r =>
        match parseMember fuel r with
        | some (m, r) => (parseMembersTail fuel r).map fun d => (.object (m :: d.1), d.2)
        | none => none
      | _ => none
    | 91 :: t =>
      match skipSpace t with
      | 93 :: r => some (.array [], r)
      | _ =>
        match parseValue fuel t with
        | some (v, r) => (parseElemsTail fuel r).map fun d => (.array (v :: d.1), d.2)
        | none => none
    | 34 :: t => (unquote t).map fun d => (.string d.1, d.2)
    | t => parseLiteral t

/-- An object member after its key's opening quote: the key, `:`, the value. -/
def parseMember : Nat → Bytes → Option ((Bytes × Value) × Bytes)
  | 0, _ => none
  | fuel + 1, s =>
    match unquote s with
    | some (k, r) =>
      match skipSpace r with
      | 58 :: r => (parseValue fuel r).map fun d => ((k, d.1), d.2)
      | _ => none
    | none => none

/-- An object's members after its first: `,` and a member, again and again, then the
closing brace. -/
def parseMembersTail : Nat → Bytes → Option (List (Bytes × Value) × Bytes)
  | 0, _ => none
  | fuel + 1, s =>
    match skipSpace s with
    | 125 :: r => some ([], r)
    | 44 :: r =>
      match skipSpace r with
      | 34 :: r =>
        match parseMember fuel r with
        | some (m, r) => (parseMembersTail fuel r).map fun d => (m :: d.1, d.2)
        | none => none
      | _ => none
    | _ => none

/-- An array's elements after its first: `,` and an element, again and again, then `]`. -/
def parseElemsTail : Nat → Bytes → Option (List Value × Bytes)
  | 0, _ => none
  | fuel + 1, s =>
    match skipSpace s with
    | 93 :: r => some ([], r)
    | 44 :: r =>
      match parseValue fuel r with
      | some (v, r) => (parseElemsTail fuel r).map fun d => (v :: d.1, d.2)
      | none => none
    | _ => none
end

/-- `checkValid` with the decoding of the value: the whole input is one value with
nothing but whitespace after it. -/
def parse (data : Bytes) : Option Value :=
  match parseValue (data.length + 1) data with
  | some (v, rest) => if skipSpace rest = [] then some v else none
  | none => none

/-! ## Storing into Go values -/

/-- Why `json.Unmarshal` fails: the text is not JSON (a `SyntaxError`), or a value does
not fit the Go type it is stored in (an `UnmarshalTypeError`). Go's messages, which carry
offsets and type names, are not modelled. -/
inductive Error where
  | syntaxError
  | unmarshalType
  deriving DecidableEq, Repr

/-- A value stored into a Go `string`. -/
def decodeString (old : Bytes) : Value → Except Error Bytes
  | .null => .ok old
  | .string s => .ok s
  | _ => .error .unmarshalType

/-- The number a string of decimal digits writes. -/
def digitsValue (s : Bytes) : Nat := s.foldl (fun n c => n * 10 + (c.toNat - 48)) 0

/-- `strconv.ParseUint(s, 10, 64)`: digits whose value fits in 64 bits. -/
def parseUint (s : Bytes) : Option UInt64 :=
  if s ≠ [] ∧ s.all isDigit ∧ digitsValue s < 2 ^ 64 then some (UInt64.ofNat (digitsValue s))
  else none

/-- A value stored into a Go `uint64`: a number that `ParseUint` reads. -/
def decodeUint64 (old : UInt64) : Value → Except Error UInt64
  | .null => .ok old
  | .number t =>
    match parseUint t with
    | some n => .ok n
    | none => .error .unmarshalType
  | _ => .error .unmarshalType

/-- A value stored into a Go `bool`. -/
def decodeBool (old : Bool) : Value → Except Error Bool
  | .null => .ok old
  | .bool b => .ok b
  | _ => .error .unmarshalType

/-- `equalFoldRight(name, key)`: `key` is the ASCII `name` up to the case of its letters,
with U+017F standing for `s` and the Kelvin sign for `k`. -/
def equalFold : Bytes → Bytes → Bool
  | [], t => t.isEmpty
  | _ :: _, [] => false
  | sb :: s, tb :: t =>
    if tb.toNat < 0x80 then
      (sb == tb || 65 ≤ (sb &&& 0xDF).toNat && (sb &&& 0xDF).toNat ≤ 90 && sb &&& 0xDF == tb &&& 0xDF) &&
        equalFold s t
    else
      ((sb == 115 || sb == 83) && (decodeRune (tb :: t)).1 == 0x17F ||
        (sb == 107 || sb == 75) && (decodeRune (tb :: t)).1 == 0x212A) &&
        equalFold s ((tb :: t).drop (decodeRune (tb :: t)).2)

/-- The field an object key names (`decodeState.object`): the first whose name is the
key, else the first whose name equals it up to case. -/
def fieldIndex (names : List Bytes) (key : Bytes) : Option Nat :=
  match names.indexOf? key with
  | some i => some i
  | none => names.findIdx? fun n => equalFold n key

@[simp] theorem except_ok_bind {ε α β : Type} (a : α) (f : α → Except ε β) :
    (Except.ok a >>= f) = f a := rfl

/-- An object stored into a Go struct whose fields are named `names`: each member in
turn is stored by `set` into the field its key names, a key that names no field is
skipped, and `null` leaves the struct as it is. -/
def decodeStruct {α : Type} (names : List Bytes) (set : α → Nat → Value → Except Error α)
    (x : α) : Value → Except Error α
  | .null => .ok x
  | .object ms =>
    ms.foldlM (fun x m => match fieldIndex names m.1 with
      | some i => set x i m.2
      | none => .ok x) x
  | _ => .error .unmarshalType

/-- The elements of an array stored into a slice's elements: element `i` is decoded into
the slice's element `i` when there is one, and into the zero value past its end. -/
def decodeElems {α : Type} (zero : α) (dec : α → Value → Except Error α) :
    List α → List Value → Except Error (List α)
  | _, [] => .ok []
  | olds, v :: vs => do
    let x ← dec (olds.headD zero) v
    let xs ← decodeElems zero dec olds.tail vs
    pure (x :: xs)

/-- An array stored into a Go slice (`decodeState.array`), cut to the array's length;
`null` is the nil slice (`none`). -/
def decodeSlice {α : Type} (zero : α) (dec : α → Value → Except Error α) (old : Option (List α)) :
    Value → Except Error (Option (List α))
  | .null => .ok none
  | .array vs => some <$> decodeElems zero dec (old.getD []) vs
  | _ => .error .unmarshalType

/-- `json.Unmarshal(data, &v)` for a `v` whose type `decode` reads. -/
def unmarshal {α : Type} (decode : Value → Except Error α) (data : Bytes) : Except Error α :=
  match parse data with
  | some v => decode v
  | none => .error .syntaxError

end Mute.Json
