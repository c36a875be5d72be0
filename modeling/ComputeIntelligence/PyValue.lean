import Mathlib.Data.Rat.Floor
import Mathlib.Data.Nat.Log

/-! # Python values

What a `dict[str, Any]` can hold, and the built-in operations that are applied to
such values without knowing their type: `str`, `bool`, comparison with an integer,
`x + 1`, `float - x`.  An operation that Python refuses returns the exception it
raises.

Floats are exact rationals, with the three special values kept apart: rounding
after an arithmetic operation is not modelled, conversion of a decimal text and of
an integer to a float is.  An aware datetime is its wall-clock reading with a UTC
offset; a naive one has no offset.  Any other Python object is known only by what
`str` and `bool` of it do.
-/

/-- The exceptions the modelled code raises or distinguishes. -/
inductive PyExn where
  | typeError | valueError | overflowError | attributeError | validationError
  | redisError | other
deriving DecidableEq, Repr

/-- A Python `float`. -/
inductive PyFloat where
  | finite (q : ℚ) | posInf | negInf | nan
deriving DecidableEq

/-- A `datetime`: microseconds of its wall-clock reading since the epoch, and its
UTC offset in microseconds, `none` for a naive value. -/
structure PyDateTime where
  wall : Int
  utcoffset : Option Int
deriving DecidableEq

/-- An instant, in microseconds since the epoch: what aware datetimes compare by. -/
abbrev Instant := Int

/-- An object of any other class. -/
structure PyObject where
  str : Option String
  truth : Option Bool
deriving DecidableEq

/-- A Python value. -/
inductive PyVal where
  | none
  | bool (b : Bool)
  | int (i : Int)
  | float (x : PyFloat)
  | str (s : String)
  | datetime (t : PyDateTime)
  | list (xs : List PyVal)
  | dict (kvs : List (String × PyVal))
  | object (o : PyObject)

/-! ## Text -/

namespace PyText

/-- `str.isspace` of one character. -/
def isSpace (c : Char) : Bool :=
  let n := c.toNat
  (9 ≤ n && n ≤ 13) || (28 ≤ n && n ≤ 32) || n = 0x85 || n = 0xa0 || n = 0x1680 ||
    (0x2000 ≤ n && n ≤ 0x200a) || n = 0x2028 || n = 0x2029 || n = 0x202f || n = 0x205f ||
    n = 0x3000

/-- `s.strip()`. -/
def strip (s : String) : String :=
  String.ofList (((s.toList.dropWhile isSpace).reverse.dropWhile isSpace).reverse)

/-- `c.lower()`.  Outside ASCII only the characters whose lower case contains an
ASCII letter are mapped (the Kelvin sign and dotted capital I): the texts compared
or searched for after lowering are all ASCII. -/
def lowerChar (c : Char) : List Char :=
  if c.toNat = 0x212a then ['k']
  else if c.toNat = 0x130 then ['i', Char.ofNat 0x307]
  else [c.toLower]

/-- `s.lower()`. -/
def lower (s : String) : String := String.ofList (s.toList.flatMap lowerChar)

/-- `c.upper()` on ASCII letters; no other letter has a prefix test made after it. -/
def upper (s : String) : String := String.ofList (s.toList.map Char.toUpper)

/-- `pat in s`. -/
def contains (pat s : String) : Bool := s.toList.tails.any (fun t => pat.toList.isPrefixOf t)

/-- `s[:n]`. -/
def take (n : Nat) (s : String) : String := String.ofList (s.toList.take n)

/-- `s[:n]` for any integer: a negative bound counts from the end. -/
def sliceTo (n : Int) (s : String) : String :=
  if 0 ≤ n then take n.toNat s else take (s.length - n.natAbs) s

/-- `s.startswith(p)`. -/
def startsWith (p s : String) : Bool := p.toList.isPrefixOf s.toList

/-- `s.endswith(p)`. -/
def endsWith (p s : String) : Bool := p.toList.isSuffixOf s.toList

/-- `s.removeprefix(p)`. -/
def dropStart (p s : String) : String :=
  if startsWith p s then String.ofList (s.toList.drop p.length) else s

/-- `s.split(sep)` for a one-character separator. -/
def splitAt (sep : Char) (s : String) : List String := (s.toList.splitOn sep).map String.ofList

/-- `s.split()`. -/
def words (s : String) : List String :=
  ((s.toList.splitOnP fun c => isSpace c).filter (· ≠ [])).map String.ofList

/-- `s.split(sep)[-1]` for a one-character separator. -/
def lastPart (sep : Char) (s : String) : String :=
  String.ofList ((s.toList.reverse.takeWhile (· ≠ sep)).reverse)

/-- The zeros of the decimal digit blocks of Unicode. -/
def decimalZeros : List Nat :=
  [0x30, 0x660, 0x6f0, 0x7c0, 0x966, 0x9e6, 0xa66, 0xae6, 0xb66, 0xbe6, 0xc66, 0xce6, 0xd66,
    0xde6, 0xe50, 0xed0, 0xf20, 0x1040, 0x1090, 0x17e0, 0x1810, 0x1946, 0x19d0, 0x1a80, 0x1a90,
    0x1b50, 0x1bb0, 0x1c40, 0x1c50, 0xa620, 0xa8d0, 0xa900, 0xa9d0, 0xa9f0, 0xaa50, 0xabf0,
    0xff10, 0x104a0, 0x10d30, 0x11066, 0x110f0, 0x11136, 0x111d0, 0x112f0, 0x11450, 0x114d0,
    0x11650, 0x116c0, 0x11730, 0x118e0, 0x11950, 0x11c50, 0x11d50, 0x11da0, 0x16a60, 0x16ac0,
    0x16b50, 0x1d7ce, 0x1d7d8, 0x1d7e2, 0x1d7ec, 0x1d7f6, 0x1e140, 0x1e2f0, 0x1e950, 0x1fbf0]

/-- The value of a decimal digit. -/
def digitVal? (c : Char) : Option Nat :=
  (decimalZeros.find? fun z => z ≤ c.toNat && c.toNat < z + 10).map (c.toNat - ·)

/-- `sep.join(parts)`. -/
def join (sep : String) (parts : List String) : String := sep.intercalate parts

/-- A separator that neither front contains splits a text in one way only. -/
theorem append_sep_inj {α : Type} {c : α} {a a' b b' : List α} (ha : c ∉ a) (ha' : c ∉ a')
    (h : a ++ c :: b = a' ++ c :: b') : a = a' ∧ b = b' := by
  induction a generalizing a' with
  | nil =>
    cases a' with
    | nil => exact ⟨rfl, (List.cons.inj h).2⟩
    | cons x a' => exact absurd (List.cons.inj h).1 fun hx => ha' (hx ▸ List.mem_cons_self)
  | cons x a ih =>
    cases a' with
    | nil => exact absurd (List.cons.inj h).1 fun hx => ha (hx ▸ List.mem_cons_self)
    | cons y a' =>
      obtain ⟨rfl, htail⟩ := List.cons.inj h
      obtain ⟨rfl, hb⟩ := ih (fun hm => ha (List.mem_cons_of_mem _ hm))
        (fun hm => ha' (List.mem_cons_of_mem _ hm)) htail
      exact ⟨rfl, hb⟩

/-- Pad with zeros on the left. -/
def zeroPad (width : Nat) (n : Nat) : String :=
  let digits := toString n
  String.ofList (List.replicate (width - digits.length) '0') ++ digits

end PyText

/-! ## Floats -/

namespace PyFloat

/-- Round a nonnegative rational to the nearest integer, ties to even. -/
def roundHalfEven (q : ℚ) : Nat :=
  let n := q.floor.toNat
  let r := q - n
  if r < 1 / 2 then n else if 1 / 2 < r then n + 1 else if n % 2 = 0 then n else n + 1

/-- `10 ^ e` for an integer exponent. -/
def tenPow (e : Int) : ℚ := if 0 ≤ e then (10 : ℚ) ^ e.toNat else 1 / (10 : ℚ) ^ (-e).toNat

/-- `2 ^ e` for an integer exponent. -/
def twoPow (e : Int) : ℚ := if 0 ≤ e then (2 : ℚ) ^ e.toNat else 1 / (2 : ℚ) ^ (-e).toNat

/-- The binary exponent of the unit in the last place of a positive rational, as an
IEEE double: 53 significant bits, no smaller than the subnormal unit. -/
def ulpExp (q : ℚ) : Int :=
  let guess : Int := (Nat.log2 q.num.toNat : Int) - Nat.log2 q.den
  let e := if twoPow guess ≤ q then guess else guess - 1
  max (e - 52) (-1074)

/-- The nearest double, ties to even. -/
def ofRat (q : ℚ) : PyFloat :=
  if q = 0 then .finite 0
  else
    let e := ulpExp |q|
    let m : ℚ := roundHalfEven (|q| / twoPow e) * twoPow e
    if twoPow 1024 ≤ m then (if 0 < q then .posInf else .negInf)
    else .finite (if 0 < q then m else -m)

/-- The decimal exponent of a positive rational: `10 ^ e ≤ q < 10 ^ (e + 1)`. -/
def decExp (q : ℚ) : Int :=
  if 1 ≤ q then ((toString q.floor.toNat).length : Int) - 1
  else
    let inv := (1 / q)
    let d := ((toString inv.floor.toNat).length : Int)
    if tenPow (1 - d) = q then 1 - d else -d

/-- The shortest digit string that reads back as the double `q > 0`: its decimal
exponent and its digits. -/
def shortest (q : ℚ) : Int × String :=
  let e := decExp q
  let candidate (n : Nat) : ℚ × Nat :=
    let unit := tenPow (e - (n : Int) + 1)
    let m := roundHalfEven (q / unit)
    (m * unit, m)
  match ((List.range 17).map (· + 1)).find? (fun n => ofRat (candidate n).1 = .finite q) with
  | some n =>
      let m := (candidate n).2
      if m = 10 ^ n then (e + 1, toString (10 ^ (n - 1))) else (e, toString m)
  | none => (e, toString (candidate 17).2)

/-- `repr` of a positive finite double. -/
def reprPos (q : ℚ) : String :=
  let (e, digits) := shortest q
  let ds := digits.toList
  if e < -4 ∨ 16 ≤ e then
    let mantissa := match ds with
      | [] => ""
      | [d] => String.ofList [d]
      | d :: rest => String.ofList (d :: '.' :: rest)
    mantissa ++ "e" ++ (if e < 0 then "-" else "+") ++ PyText.zeroPad 2 e.natAbs
  else if e < 0 then
    "0." ++ String.ofList (List.replicate (-e - 1).toNat '0') ++ digits
  else
    let k := e.toNat + 1
    let whole := String.ofList (ds.take k ++ List.replicate (k - ds.length) '0')
    let frac := String.ofList (ds.drop k)
    whole ++ "." ++ (if frac = "" then "0" else frac)

/-- `repr(x)`. -/
def repr : PyFloat → String
  | .finite q => if q = 0 then "0.0" else if 0 < q then reprPos q else "-" ++ reprPos (-q)
  | .posInf => "inf"
  | .negInf => "-inf"
  | .nan => "nan"

/-- `format(q, ".<n>f")`. -/
def formatFixed (n : Nat) (q : ℚ) : String :=
  let m := roundHalfEven (|q| * 10 ^ n)
  let body := toString (m / 10 ^ n) ++
    (if n = 0 then "" else "." ++ PyText.zeroPad n (m % 10 ^ n))
  if q < 0 then "-" ++ body else body

/-- `format(x, ".<n>f")`. -/
def format (n : Nat) : PyFloat → String
  | .finite q => formatFixed n q
  | .posInf => "inf"
  | .negInf => "-inf"
  | .nan => "nan"

/-- The value of a nonempty run of decimal digits, single underscores allowed between
two digits. -/
def digits? (s : List Char) : Option Nat :=
  let rec go (n : Nat) (afterDigit : Bool) : List Char → Option Nat
    | [] => if afterDigit then some n else none
    | '_' :: s => if afterDigit then go n false s else none
    | c :: s => (PyText.digitVal? c).bind fun d => go (10 * n + d) true s
  go 0 false s

/-- An optional sign. -/
def splitSign : List Char → Bool × List Char
  | '-' :: s => (true, s)
  | '+' :: s => (false, s)
  | s => (false, s)

/-- A decimal literal: digits with an optional point and an optional exponent. -/
def decimal? (s : List Char) : Option ℚ := do
  let (mantissa, expo) := s.span (fun c => c ≠ 'e' && c ≠ 'E')
  let e : Int ← match expo with
    | [] => some 0
    | _ :: ex =>
        let (neg, ds) := splitSign ex
        (digits? ds).map (fun n => if neg then -(n : Int) else n)
  let (whole, frac) := mantissa.span (· ≠ '.')
  let frac := frac.drop 1
  if whole = [] ∧ frac = [] then none
  let w ← if whole = [] then some 0 else digits? whole
  let f ← if frac = [] then some 0 else digits? frac
  some ((w + (f : ℚ) / 10 ^ (frac.filter (· ≠ '_')).length) * tenPow e)

/-- `float(s)`. -/
def ofString? (s : String) : Option PyFloat :=
  let (neg, body) := splitSign (PyText.strip s).toList
  let word := PyText.lower (String.ofList body)
  if word = "inf" ∨ word = "infinity" then some (if neg then .negInf else .posInf)
  else if word = "nan" then some .nan
  else (decimal? body).map (fun q => ofRat (if neg then -q else q))

/-- `x >= q`. -/
def ge : PyFloat → ℚ → Bool
  | .finite x, q => decide (q ≤ x)
  | .posInf, _ => true
  | .negInf, _ => false
  | .nan, _ => false

/-- `x < q`. -/
def lt : PyFloat → ℚ → Bool
  | .finite x, q => decide (x < q)
  | .posInf, _ => false
  | .negInf, _ => true
  | .nan, _ => false

/-- `x > q`. -/
def gt : PyFloat → ℚ → Bool
  | .finite x, q => decide (q < x)
  | .posInf, _ => true
  | .negInf, _ => false
  | .nan, _ => false

/-- `x + 1`. -/
def succ : PyFloat → PyFloat
  | .finite x => .finite (x + 1)
  | x => x

/-- `x * r` for a positive constant. -/
def scale (r : ℚ) : PyFloat → PyFloat
  | .finite x => .finite (x * r)
  | x => x

/-- `x + y`. -/
def add : PyFloat → PyFloat → PyFloat
  | .finite x, .finite y => .finite (x + y)
  | .nan, _ | _, .nan => .nan
  | .posInf, .negInf | .negInf, .posInf => .nan
  | .posInf, _ | _, .posInf => .posInf
  | .negInf, _ | _, .negInf => .negInf

/-- `x > y`. -/
def gtFloat (x : PyFloat) : PyFloat → Bool
  | .finite y => x.gt y
  | .posInf => false
  | .negInf => x ≠ .negInf && x ≠ .nan
  | .nan => false

/-- `x / y` for a `y` other than zero. -/
def div : PyFloat → PyFloat → PyFloat
  | .finite x, .finite y => .finite (x / y)
  | .finite _, .posInf | .finite _, .negInf => .finite 0
  | .posInf, .finite y => if y < 0 then .negInf else .posInf
  | .negInf, .finite y => if y < 0 then .posInf else .negInf
  | _, _ => .nan

/-- `q - x`. -/
def subFrom (q : ℚ) : PyFloat → PyFloat
  | .finite x => .finite (q - x)
  | .posInf => .negInf
  | .negInf => .posInf
  | .nan => .nan

end PyFloat

/-! ## Datetimes -/

namespace PyDateTime

/-- The date of a day number counted from the epoch, as year, month and day. -/
def civil (days : Int) : Int × Nat × Nat :=
  let z := days + 719468
  let era := z / 146097
  let doe := (z - era * 146097).toNat
  let yoe := (doe - doe / 1460 + doe / 36524 - doe / 146096) / 365
  let doy := doe - (365 * yoe + yoe / 4 - yoe / 100)
  let mp := (5 * doy + 2) / 153
  let d := doy - (153 * mp + 2) / 5 + 1
  let m := if mp < 10 then mp + 3 else mp - 9
  ((yoe : Int) + era * 400 + (if m ≤ 2 then 1 else 0), m, d)

/-- The wall-clock reading as `YYYY-MM-DD<sep>HH:MM:SS[.ffffff]`. -/
def wallText (sep : String) (wall : Int) : String :=
  let (y, m, d) := civil (wall / 86400000000)
  let us := (wall % 86400000000).toNat
  let secs := us / 1000000
  let frac := us % 1000000
  PyText.zeroPad 4 y.toNat ++ "-" ++ PyText.zeroPad 2 m ++ "-" ++ PyText.zeroPad 2 d ++ sep ++
    PyText.zeroPad 2 (secs / 3600) ++ ":" ++ PyText.zeroPad 2 (secs / 60 % 60) ++ ":" ++
    PyText.zeroPad 2 (secs % 60) ++ (if frac = 0 then "" else "." ++ PyText.zeroPad 6 frac)

/-- A UTC offset as `+HH:MM`. -/
def offsetText (offset : Int) : String :=
  let mins := offset.natAbs / 60000000
  (if offset < 0 then "-" else "+") ++ PyText.zeroPad 2 (mins / 60) ++ ":" ++
    PyText.zeroPad 2 (mins % 60)

/-- `str(t)`. -/
def str (t : PyDateTime) : String :=
  wallText " " t.wall ++ (match t.utcoffset with | none => "" | some o => offsetText o)

/-- `t.isoformat()`. -/
def isoformat (t : PyDateTime) : String :=
  wallText "T" t.wall ++ (match t.utcoffset with | none => "" | some o => offsetText o)

/-- The text pydantic writes for a datetime in JSON: `T` between date and time, and
`Z` for a zero offset. -/
def jsonText (t : PyDateTime) : String :=
  wallText "T" t.wall ++ (match t.utcoffset with
    | none => ""
    | some o => if o = 0 then "Z" else offsetText o)

end PyDateTime

/-! ## Values -/

namespace PyVal

/-- The quoted form of a text inside a container. -/
def quote (s : String) : String :=
  let single := Char.ofNat 39
  let double := Char.ofNat 34
  let q := if s.toList.contains single && !s.toList.contains double then double else single
  let esc (c : Char) : List Char :=
    if c = '\\' then ['\\', '\\'] else if c = q then ['\\', q]
    else if c = '\n' then ['\\', 'n'] else if c = '\r' then ['\\', 'r']
    else if c = '\t' then ['\\', 't'] else [c]
  String.ofList (q :: s.toList.flatMap esc ++ [q])

/-- The decimal text of an integer: CPython refuses more than 4300 digits. -/
def intStr (i : Int) : Except PyExn String :=
  if i.natAbs < 10 ^ 4300 then .ok (toString i) else .error .valueError

mutual

/-- `repr(v)`. -/
def repr : PyVal → Except PyExn String
  | .none => .ok "None"
  | .bool b => .ok (if b then "True" else "False")
  | .int i => intStr i
  | .float x => .ok x.repr
  | .str s => .ok (quote s)
  | .datetime t => .ok t.str
  | .list xs => do
      let parts ← reprList xs
      .ok ("[" ++ PyText.join ", " parts ++ "]")
  | .dict kvs => do
      let parts ← reprItems kvs
      .ok ("\x7b" ++ PyText.join ", " parts ++ "\x7d")
  | .object o => match o.str with
      | some s => .ok s
      | Option.none => .error .other

/-- `repr` of each element. -/
def reprList : List PyVal → Except PyExn (List String)
  | [] => .ok []
  | x :: xs => do
      let s ← repr x
      let rest ← reprList xs
      .ok (s :: rest)

/-- `repr` of each item of a dictionary. -/
def reprItems : List (String × PyVal) → Except PyExn (List String)
  | [] => .ok []
  | (k, v) :: kvs => do
      let s ← repr v
      let rest ← reprItems kvs
      .ok ((quote k ++ ": " ++ s) :: rest)

end

/-- `str(v)`. -/
def toStr : PyVal → Except PyExn String
  | .str s => .ok s
  | v => repr v

/-- `bool(v)`. -/
def truth : PyVal → Except PyExn Bool
  | .none => .ok false
  | .bool b => .ok b
  | .int i => .ok (i ≠ 0)
  | .float x => .ok (x ≠ .finite 0)
  | .str s => .ok (s ≠ "")
  | .datetime _ => .ok true
  | .list xs => .ok (!xs.isEmpty)
  | .dict kvs => .ok (!kvs.isEmpty)
  | .object o => match o.truth with
      | some b => .ok b
      | Option.none => .error .other

/-- The numeric values: `bool` is a subclass of `int`. -/
def isNum : PyVal → Bool
  | .bool _ | .int _ | .float _ => true
  | _ => false

/-- Integers that a float operation accepts: those below the overflow threshold. -/
def fitsFloat (i : Int) : Bool := i.natAbs < 2 ^ 1024 - 2 ^ 970

/-- `v > n`. -/
def gtInt (v : PyVal) (n : Int) : Except PyExn Bool :=
  match v with
  | .bool b => .ok (n < (if b then 1 else 0))
  | .int i => .ok (n < i)
  | .float .nan => .ok false
  | .float x => .ok (x.ge n && x ≠ .finite n)
  | _ => .error .typeError

/-- `v < n`. -/
def ltInt (v : PyVal) (n : Int) : Except PyExn Bool :=
  match v with
  | .bool b => .ok ((if b then 1 else 0) < n)
  | .int i => .ok (i < n)
  | .float x => .ok (x.lt n)
  | _ => .error .typeError

/-- `v >= n`. -/
def geInt (v : PyVal) (n : Int) : Except PyExn Bool :=
  match v with
  | .bool b => .ok (n ≤ (if b then 1 else 0))
  | .int i => .ok (n ≤ i)
  | .float x => .ok (x.ge n)
  | _ => .error .typeError

/-- `v + 1`. -/
def addOne : PyVal → Except PyExn PyVal
  | .bool b => .ok (.int (if b then 2 else 1))
  | .int i => .ok (.int (i + 1))
  | .float x => .ok (.float x.succ)
  | _ => .error .typeError

/-- `t - v` for a float `t`. -/
def subFrom (t : ℚ) : PyVal → Except PyExn PyFloat
  | .bool b => .ok (.finite (t - (if b then 1 else 0)))
  | .int i => if fitsFloat i then .ok (.finite (t - i)) else .error .overflowError
  | .float x => .ok (x.subFrom t)
  | _ => .error .typeError

theorem subFrom_int (t : ℚ) (i : Int) : subFrom t (.int i) =
    if fitsFloat i = true then .ok (.finite (t - i)) else .error .overflowError := rfl

theorem fitsFloat_of_subFrom {t : ℚ} {i : Int} {x : PyFloat} (h : subFrom t (.int i) = .ok x) :
    fitsFloat i = true := by
  rw [subFrom_int] at h
  by_contra hf
  rw [if_neg hf] at h
  cases h

/-- `float(v)`. -/
def toFloat : PyVal → Except PyExn PyFloat
  | .bool b => .ok (.finite (if b then 1 else 0))
  | .int i => if fitsFloat i then .ok (PyFloat.ofRat i) else .error .overflowError
  | .float x => .ok x
  | .str s => match PyFloat.ofString? s with
      | some x => .ok x
      | Option.none => .error .valueError
  | _ => .error .typeError

/-- `int(v)`: a float is truncated, a text read as a decimal literal. -/
def toInt : PyVal → Except PyExn Int
  | .bool b => .ok (if b then 1 else 0)
  | .int i => .ok i
  | .float (.finite q) => .ok (if 0 ≤ q then q.floor else q.ceil)
  | .float .nan => .error .valueError
  | .float _ => .error .overflowError
  | .str s =>
      let (neg, ds) := PyFloat.splitSign (PyText.strip s).toList
      match PyFloat.digits? ds with
      | some n => if (ds.filter (· ≠ '_')).length ≤ 4300 then .ok (if neg then -(n : Int) else n)
          else .error .valueError
      | Option.none => .error .valueError
  | _ => .error .typeError

/-- `v.get(key, default)`: only dictionaries have the method. -/
def get (v : PyVal) (key : String) (default : PyVal) : Except PyExn PyVal :=
  match v with
  | .dict kvs => .ok ((kvs.lookup key).getD default)
  | _ => .error .attributeError

/-- `a or b`. -/
def orElse (a b : PyVal) : Except PyExn PyVal := do
  if (← a.truth) then .ok a else .ok b

/-- `isinstance(v, dict)`. -/
def isDict : PyVal → Bool
  | .dict _ => true
  | _ => false

/-- `v == s` for a text. -/
def isText (v : PyVal) (s : String) : Bool :=
  match v with
  | .str t => t = s
  | _ => false

/-- Whether `hash(v)` returns. -/
def hashable : PyVal → Bool
  | .list _ | .dict _ => false
  | _ => true

mutual

/-- The values `json.loads` returns, which are those of its values that `json.dumps`
writes: integers are limited to 4300 digits on both ways. -/
def isJson : PyVal → Bool
  | .none | .bool _ | .float _ | .str _ => true
  | .int i => i.natAbs < 10 ^ 4300
  | .list xs => isJsonList xs
  | .dict kvs => isJsonItems kvs
  | .datetime _ | .object _ => false

/-- Every element of an array. -/
def isJsonList : List PyVal → Bool
  | [] => true
  | x :: xs => isJson x && isJsonList xs

/-- Every member of an object. -/
def isJsonItems : List (String × PyVal) → Bool
  | [] => true
  | (_, v) :: kvs => isJson v && isJsonItems kvs

end

theorem isJsonItems_lookup {kvs : List (String × PyVal)} (h : isJsonItems kvs = true) {k : String}
    {v : PyVal} (hl : kvs.lookup k = some v) : v.isJson = true := by
  induction kvs with
  | nil => cases hl
  | cons kv kvs ih =>
    obtain ⟨k', v'⟩ := kv
    rw [isJsonItems, Bool.and_eq_true] at h
    rw [List.lookup_cons] at hl
    split at hl
    · rw [← Option.some.inj hl]
      exact h.1
    · exact ih h.2 hl

@[simp] theorem toStr_str (s : String) : toStr (.str s) = .ok s := rfl

@[simp] theorem toStr_none : toStr .none = .ok "None" := rfl

@[simp] theorem get_dict (kvs : List (String × PyVal)) (key : String) (default : PyVal) :
    get (.dict kvs) key default = .ok ((kvs.lookup key).getD default) := rfl

end PyVal
