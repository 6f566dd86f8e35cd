import Mathlib.Data.Nat.Digits
import Mathlib.Data.List.Basic

/-!
# Go's `fmt.Sscanf`, for the verbs `%d` and `%s`

`WithOpenClDeviceVersion` reads a device's OpenCL version with
`fmt.Sscanf(version, "OpenCL %d.%d %s", &major, &minor, &vendor)`.  This module
models `ss.doScanf` over a string as the Go runtime runs it: `advance` for the literal
runes and the space runs of the format, `SkipSpace` before each verb, `scanInt` for
`%d` into an `int32` and `convertString` for `%s` into a `string`.  `Sscanf` reads a
newline as a newline, not as a space.

The format is read first into tokens (`lexFormat`): a literal rune, a run of spaces
(the newlines in it and whether a space follows the last of them, which is all that
`advance` keeps of a run), a verb, or a `%` that ends the format.  Widths, `%%` and
the verbs other than `%d` and `%s` are outside the model: `lexFormat` rejects them.

A scan returns the values it stored, in order (Go's `n` is their number), and the
error that stopped it, if one did; the stores made before an error stay made.  It reads
at most `hugeWid` runes of its input.
-/

namespace SonmCore.Fmt

/-! ## Runes -/

@[simp] theorem ok_bind {ε α β : Type} (a : α) (f : α → Except ε β) :
    (Except.ok a >>= f) = f a := rfl

@[simp] theorem error_bind {ε α β : Type} (e : ε) (f : α → Except ε β) :
    (Except.error e >>= f) = Except.error e := rfl

@[simp] theorem pure_eq_ok {ε α : Type} (a : α) : (pure a : Except ε α) = .ok a := rfl

theorem bind_eq_ok_iff {ε α β : Type} {x : Except ε α} {f : α → Except ε β} {b : β} :
    x >>= f = .ok b ↔ ∃ a, x = .ok a ∧ f a = .ok b := by
  cases x <;> simp

/-- The ranges of `fmt`'s `space` table, in order. -/
def spaceTable : List (Nat × Nat) :=
  [(0x0009, 0x000d), (0x0020, 0x0020), (0x0085, 0x0085), (0x00a0, 0x00a0),
   (0x1680, 0x1680), (0x2000, 0x200a), (0x2028, 0x2029), (0x202f, 0x202f),
   (0x205f, 0x205f), (0x3000, 0x3000)]

/-- The loop of `isSpace`, which stops at the first range not below the rune. -/
def inSpaceTable (rx : Nat) : List (Nat × Nat) → Bool
  | [] => false
  | (lo, hi) :: rest => if rx < lo then false else if rx ≤ hi then true else inSpaceTable rx rest

def isSpace (r : Char) : Bool :=
  if r.toNat ≥ 2 ^ 16 then false else inSpaceTable r.toNat spaceTable

/-- The digits `s.accept` takes for `%d`. -/
def decimalDigits : List Char := ['0', '1', '2', '3', '4', '5', '6', '7', '8', '9']

/-- `strings.ContainsRune(decimalDigits, r)`. -/
def isDecimalDigit (r : Char) : Bool := decimalDigits.contains r

theorem isSpace_of_isDecimalDigit {r : Char} (h : isDecimalDigit r = true) : isSpace r = false := by
  have hall : ∀ c ∈ decimalDigits, isSpace c = false := by decide
  exact hall r (List.elem_iff.mp h)

/-! ## Errors and values -/

/-- The `*int32` and `*string` operands a scan stores into. -/
inductive Target where
  | int32
  | string
  deriving DecidableEq, Repr

inductive Value where
  | int32 (v : BitVec 32)
  | string (s : String)
  deriving DecidableEq, Repr

/-- The errors of a scan, each named after Go's message. -/
inductive ScanError where
  /-- `io.ErrUnexpectedEOF` -/
  | unexpectedEOF
  /-- "input does not match format" -/
  | inputMismatch
  /-- "newline in format does not match input" -/
  | newlineMismatch
  /-- "expected space in input to match format" -/
  | expectedSpace
  /-- "newline in input does not match format" -/
  | newlineInInput
  /-- "missing verb: % at end of format string" -/
  | missingVerb
  /-- "unexpected newline" -/
  | unexpectedNewline
  /-- "expected integer" -/
  | expectedInteger
  /-- the range error of `strconv.ParseInt` on the token -/
  | parseIntRange (tok : String)
  /-- "integer overflow on token " ++ tok -/
  | integerOverflow (tok : String)
  /-- "bad verb '%" ++ verb ++ "' for " ++ the target's type -/
  | badVerb (verb : Char) (target : Target)
  /-- "too few operands for format ..." -/
  | tooFewOperands
  /-- "too many operands" -/
  | tooManyOperands
  deriving DecidableEq, Repr

/-! ## Reading the input -/

/-- `ss.SkipSpace` with newlines not spaces: skip spaces, fail at a newline.  A `\r`
before a newline is skipped as Go does, and the newline then fails. -/
def skipSpace : List Char → Except ScanError (List Char)
  | [] => .ok []
  | r :: rest =>
    if r = '\r' ∧ rest.head? = some '\n' then skipSpace rest
    else if r = '\n' then .error .unexpectedNewline
    else if isSpace r then skipSpace rest
    else .ok (r :: rest)

/-- The loops `for isSpace(inputc) && inputc != '\n'` of `advance`, which put back the
rune they stop at. -/
def skipBlanks : List Char → List Char
  | [] => []
  | r :: rest => if isSpace r && r != '\n' then skipBlanks rest else r :: rest

/-- `ss.notEOF`. -/
def notEOF : List Char → Except ScanError Unit
  | [] => .error .unexpectedEOF
  | _ :: _ => .ok ()

theorem skipSpace_of_not_space {r : Char} (hr : isSpace r = false) (rest : List Char) :
    skipSpace (r :: rest) = .ok (r :: rest) := by
  have hcr : r ≠ '\r' := by rintro rfl; exact absurd hr (by decide)
  have hnl : r ≠ '\n' := by rintro rfl; exact absurd hr (by decide)
  simp [skipSpace, hcr, hnl, hr]

theorem skipBlanks_of_not_space {r : Char} (hr : isSpace r = false) (rest : List Char) :
    skipBlanks (r :: rest) = r :: rest := by
  simp [skipBlanks, hr]

/-! ## The format -/

inductive Verb where
  | d
  | s
  deriving DecidableEq, Repr

inductive FmtTok where
  | lit (c : Char)
  /-- A run of spaces: the newlines in it, and whether a space follows the last one. -/
  | space (newlines : Nat) (trailing : Bool)
  | verb (v : Verb)
  /-- A `%` that ends the format. -/
  | missingVerb
  deriving DecidableEq, Repr

/-- The space rune `c` before the tokens of the rest of the format: it starts a run,
or joins the run that starts there. -/
def addSpace (c : Char) : List FmtTok → List FmtTok
  | .space n t :: toks => .space (if c = '\n' then n + 1 else n) t :: toks
  | toks => .space (if c = '\n' then 1 else 0) (c != '\n') :: toks

/-- The tokens of a format, as `advance` and `doScanf` read it; `none` for a format
outside the model. -/
def lexFormat : List Char → Option (List FmtTok)
  | [] => some []
  | ['%'] => some [.missingVerb]
  | '%' :: 'd' :: rest => (lexFormat rest).map (.verb .d :: ·)
  | '%' :: 's' :: rest => (lexFormat rest).map (.verb .s :: ·)
  | '%' :: _ :: _ => none
  | c :: rest =>
    if isSpace c then (lexFormat rest).map (addSpace c) else (lexFormat rest).map (.lit c :: ·)

/-! ## `advance`: space runs -/

/-- One newline of the format: blanks, then a newline or the end of the input. -/
def matchNewline (input : List Char) : Except ScanError (List Char) :=
  match skipBlanks input with
  | [] => .ok []
  | r :: rest => if r = '\n' then .ok rest else .error .newlineMismatch

def matchNewlines : Nat → List Char → Except ScanError (List Char)
  | 0, input => .ok input
  | n + 1, input => matchNewline input >>= matchNewlines n

/-- The spaces after the last newline of a run.  A run with no newline (`alone`) needs
a space or the end of the input, and not a newline. -/
def matchTrailingSpace (alone : Bool) : List Char → Except ScanError (List Char)
  | [] => .ok []
  | r :: rest =>
    if alone && !isSpace r then .error .expectedSpace
    else if alone && r == '\n' then .error .newlineInInput
    else .ok (skipBlanks (r :: rest))

def matchSpace (newlines : Nat) (trailing : Bool) (input : List Char) :
    Except ScanError (List Char) := do
  let input ← matchNewlines newlines input
  if trailing then matchTrailingSpace (newlines == 0) input else pure input

theorem matchSpace_alone_space (rest : List Char) :
    matchSpace 0 true (' ' :: rest) = .ok (skipBlanks rest) := by
  have hsp : isSpace ' ' = true := by decide
  simp [matchSpace, matchNewlines, matchTrailingSpace, skipBlanks, hsp]

/-! ## Verbs -/

/-- `s.accept("+-")`: the sign put in the token, if any, and the input after it. -/
def acceptSign : List Char → List Char × List Char
  | '+' :: rest => (['+'], rest)
  | '-' :: rest => (['-'], rest)
  | input => ([], input)

/-- `ss.scanNumber` for `%d`: `notEOF`, one digit at least, then every digit that
follows. -/
def scanNumber : List Char → Except ScanError (List Char × List Char)
  | [] => .error .unexpectedEOF
  | r :: rest =>
    if isDecimalDigit r then .ok ((r :: rest).span isDecimalDigit) else .error .expectedInteger

/-- The value of a digit string, read as `strconv.ParseUint` reads it: `10 * n + d`
digit after digit. -/
def digitsValue (ds : List Char) : Nat :=
  ds.foldl (fun acc c => 10 * acc + (c.toNat - '0'.toNat)) 0

/-- `strconv.ParseInt(sign ++ digits, 10, 64)`. -/
def parseInt (sign digits : List Char) : Except ScanError Int :=
  let i : Int := if sign = ['-'] then -(digitsValue digits : Int) else digitsValue digits
  if i < -2 ^ 63 ∨ 2 ^ 63 ≤ i then .error (.parseIntRange ⟨sign ++ digits⟩) else .ok i

/-- `ss.scanInt('d', 32)`.  Go checks the fit in 32 bits as `(i << 32) >> 32 == i`,
which is `i.bmod (2 ^ 32) = i`. -/
def scanInt (input : List Char) : Except ScanError (Int × List Char) := do
  let input ← skipSpace input
  notEOF input
  let (sign, input) := acceptSign input
  let (digits, input) ← scanNumber input
  let i ← parseInt sign digits
  if i.bmod (2 ^ 32) ≠ i then .error (.integerOverflow ⟨sign ++ digits⟩) else pure (i, input)

/-- `ss.convertString('s')`: skip spaces, `notEOF`, then `token(true, notSpace)`. -/
def convertString (input : List Char) : Except ScanError (String × List Char) := do
  let input ← skipSpace input
  notEOF input
  let input ← skipSpace input
  let (tok, rest) := input.span fun r => !isSpace r
  pure (⟨tok⟩, rest)

/-- `ss.scanOne` for the two targets.  A verb the target's type does not take is
refused where Go's `okVerb` refuses it. -/
def scanOne (verb : Verb) (target : Target) (input : List Char) :
    Except ScanError (Value × List Char) :=
  match target, verb with
  | .int32, .d => do
    let (i, input) ← scanInt input
    pure (.int32 (BitVec.ofInt 32 i), input)
  | .int32, .s => do
    let input ← skipSpace input
    notEOF input
    .error (.badVerb 's' .int32)
  | .string, .s => do
    let (str, input) ← convertString input
    pure (.string str, input)
  | .string, .d => .error (.badVerb 'd' .string)

/-! ## `doScanf` -/

/-- `ss.doScanf`: the values stored so far, and the error that ended the scan. -/
def doScanf (targets : List Target) (stored : List Value) :
    List FmtTok → List Char → List Value × Option ScanError
  | [], _ => (stored, if stored.length < targets.length then some .tooManyOperands else none)
  | .lit c :: toks, input =>
    match input with
    | [] => (stored, some .unexpectedEOF)
    | r :: rest => if r = c then doScanf targets stored toks rest else (stored, some .inputMismatch)
  | .space n t :: toks, input =>
    match matchSpace n t input with
    | .error e => (stored, some e)
    | .ok input => doScanf targets stored toks input
  | .missingVerb :: _, _ => (stored, some .missingVerb)
  | .verb v :: toks, input =>
    match skipSpace input with
    | .error e => (stored, some e)
    | .ok input =>
      match targets[stored.length]? with
      | none => (stored, some .tooFewOperands)
      | some t =>
        match scanOne v t input with
        | .error e => (stored, some e)
        | .ok (val, input) => doScanf targets (stored ++ [val]) toks input

/-- `hugeWid`, `1 << 30`.  `ss.ReadRune` answers `io.EOF` once the scan has read
`s.argLimit` runes, and with no widths in the format `argLimit` stays `hugeWid`. -/
def hugeWid : Nat := 1073741824

/-- `fmt.Sscanf(str, format, targets...)`, for a format read by `lexFormat`.  No rune is
put back after `io.EOF`, so the scan runs on the first `hugeWid` runes of `str` as if
the string ended there. -/
def sscanf (str : String) (format : List FmtTok) (targets : List Target) :
    List Value × Option ScanError :=
  doScanf targets [] format (str.data.take hugeWid)

/-- A prefix shorter than `hugeWid` is read whole, and so is the rune after it. -/
theorem take_hugeWid_append {p r : List Char} (h : p.length < hugeWid) :
    ∃ r', (p ++ r).take hugeWid = p ++ r' ∧ r'.head? = r.head? :=
  ⟨r.take (hugeWid - p.length),
    by rw [List.take_append_eq_append_take, List.take_of_length_le h.le],
    by rw [List.head?_take, if_neg (by omega)]⟩

section doScanf

variable {targets : List Target} {stored : List Value}

@[simp] theorem doScanf_lit (c : Char) (toks : List FmtTok) (rest : List Char) :
    doScanf targets stored (.lit c :: toks) (c :: rest) = doScanf targets stored toks rest := by
  simp [doScanf]

theorem doScanf_space {n : Nat} {t : Bool} {input input' : List Char}
    (h : matchSpace n t input = .ok input') (toks : List FmtTok) :
    doScanf targets stored (.space n t :: toks) input = doScanf targets stored toks input' := by
  simp [doScanf, h]

theorem doScanf_verb {v : Verb} {t : Target} {input input' rest : List Char} {val : Value}
    (hskip : skipSpace input = .ok input') (ht : targets[stored.length]? = some t)
    (hscan : scanOne v t input' = .ok (val, rest)) (toks : List FmtTok) :
    doScanf targets stored (.verb v :: toks) input = doScanf targets (stored ++ [val]) toks rest := by
  simp [doScanf, hskip, ht, hscan]

theorem doScanf_lits (lits : List Char) (toks : List FmtTok) (input : List Char) :
    doScanf targets stored (lits.map .lit ++ toks) (lits ++ input) =
      doScanf targets stored toks input := by
  induction lits with
  | nil => rfl
  | cons c lits ih => simpa using ih

theorem doScanf_lits_mismatch (toks : List FmtTok) :
    ∀ (lits input : List Char), ¬ lits <+: input →
      (doScanf targets stored (lits.map .lit ++ toks) input).1 = stored
  | [], input, h => absurd (List.nil_prefix (l := input)) h
  | _ :: _, [], _ => by simp [doScanf]
  | c :: lits, r :: rest, h => by
    by_cases hrc : r = c
    · subst hrc
      simp only [List.map_cons, List.cons_append, doScanf_lit]
      exact doScanf_lits_mismatch toks lits rest (by simpa [List.cons_prefix_cons] using h)
    · simp [doScanf, hrc]

theorem doScanf_stored (stored : List Value) (toks : List FmtTok) (input : List Char) :
    stored <+: (doScanf targets stored toks input).1 := by
  induction stored, toks, input using doScanf.induct targets with
  | case3 stored toks r rest ih => rwa [doScanf_lit]
  | case6 stored n t toks input input' h ih => rwa [doScanf_space h]
  | case11 stored v toks input input' h1 t h2 val rest h3 ih =>
    rw [doScanf_verb h1 h2 h3]
    exact (List.prefix_append _ _).trans ih
  | _ => simp [doScanf, *]

end doScanf

/-! ## Decimal numerals -/

/-- The rune of a decimal digit. -/
def digitChar (d : Nat) : Char := Char.ofNat (48 + d)

/-- The digits of `n`, most significant first, and `0` for zero. -/
def natDecimal (n : Nat) : List Char :=
  if n = 0 then ['0'] else (Nat.digits 10 n).reverse.map digitChar

/-- `strconv.Itoa`: the decimal numeral of an integer, `-` before a negative one. -/
def decimal (x : Int) : String :=
  ⟨(if x < 0 then ['-'] else []) ++ natDecimal x.natAbs⟩

theorem digitChar_spec : ∀ d : Fin 10,
    isDecimalDigit (digitChar d) = true ∧ (digitChar d).toNat - '0'.toNat = d := by
  decide

theorem natDecimal_digits (n : Nat) : ∀ c ∈ natDecimal n, isDecimalDigit c = true := by
  unfold natDecimal
  split
  · decide
  · simp only [List.mem_map, List.mem_reverse]
    rintro c ⟨d, hd, rfl⟩
    exact (digitChar_spec ⟨d, Nat.digits_lt_base (by norm_num) hd⟩).1

theorem natDecimal_ne_nil (n : Nat) : natDecimal n ≠ [] := by
  unfold natDecimal
  split
  · simp
  · simpa [Nat.digits_ne_nil_iff_ne_zero]

theorem natDecimal_length_le {n k : Nat} (hk : 1 ≤ k) (h : n < 10 ^ k) :
    (natDecimal n).length ≤ k := by
  unfold natDecimal
  split
  · simpa using hk
  · next hn =>
    rw [List.length_map, List.length_reverse, Nat.digits_len 10 n (by norm_num) hn]
    exact Nat.log_lt_of_lt_pow hn h

theorem digitsValue_reverse_map (L : List Nat) (hL : ∀ d ∈ L, d < 10) :
    digitsValue (L.reverse.map digitChar) = Nat.ofDigits 10 L := by
  induction L with
  | nil => rfl
  | cons d L ih =>
    have hd := (digitChar_spec ⟨d, hL d (by simp)⟩).2
    have hrest := ih fun d' h => hL d' (by simp [h])
    unfold digitsValue at hrest ⊢
    simp only [List.reverse_cons, List.map_append, List.map_cons, List.map_nil,
      List.foldl_append, List.foldl_cons, List.foldl_nil, hrest, hd, Nat.ofDigits_cons]
    ring

theorem digitsValue_natDecimal (n : Nat) : digitsValue (natDecimal n) = n := by
  unfold natDecimal
  split
  · subst n; rfl
  · rw [digitsValue_reverse_map _ fun d hd => Nat.digits_lt_base (by norm_num) hd,
      Nat.ofDigits_digits]

theorem natDecimal_head (n : Nat) (rest : List Char) :
    ∃ c cs, natDecimal n = c :: cs ∧ isSpace c = false ∧ acceptSign (c :: (cs ++ rest)) =
      ([], c :: (cs ++ rest)) := by
  obtain ⟨c, cs, hc⟩ := List.exists_cons_of_ne_nil (natDecimal_ne_nil n)
  have hdigit := natDecimal_digits n c (by simp [hc])
  refine ⟨c, cs, hc, isSpace_of_isDecimalDigit hdigit, ?_⟩
  have hsign : c ≠ '+' ∧ c ≠ '-' := by
    constructor <;> rintro rfl <;> exact absurd hdigit (by decide)
  unfold acceptSign
  split <;> simp_all

theorem takeWhile_dropWhile_eq_iff {p : Char → Bool} {l a b : List Char} :
    (l.takeWhile p = a ∧ l.dropWhile p = b) ↔
      l = a ++ b ∧ (∀ c ∈ a, p c = true) ∧ ∀ c ∈ b.head?, p c = false := by
  constructor
  · rintro ⟨rfl, rfl⟩
    refine ⟨(List.takeWhile_append_dropWhile p l).symm, fun c hc => List.mem_takeWhile_imp hc,
      fun c hc => ?_⟩
    have hstop := List.head_dropWhile_not p l
    cases hd : l.dropWhile p with
    | nil => simp [hd] at hc
    | cons x xs =>
      simp only [hd, List.head?_cons, Option.mem_def, Option.some.injEq] at hc
      subst hc
      simpa [hd] using hstop (by simp [hd])
  · rintro ⟨rfl, ha, hb⟩
    have hstop : b.takeWhile p = [] ∧ b.dropWhile p = b := by
      cases b with
      | nil => simp
      | cons r rest => simp [hb r rfl]
    rw [List.takeWhile_append_of_pos ha, List.dropWhile_append_of_pos ha, hstop.1, hstop.2,
      List.append_nil]
    exact ⟨rfl, rfl⟩

section numeral

variable {rest : List Char}

theorem span_natDecimal (n : Nat) (hrest : ∀ r ∈ rest.head?, isDecimalDigit r = false) :
    (natDecimal n ++ rest).span isDecimalDigit = (natDecimal n, rest) := by
  rw [List.span_eq_take_drop, Prod.mk.injEq]
  exact takeWhile_dropWhile_eq_iff.mpr ⟨rfl, natDecimal_digits n, hrest⟩

theorem scanNumber_natDecimal (n : Nat) (hrest : ∀ r ∈ rest.head?, isDecimalDigit r = false) :
    scanNumber (natDecimal n ++ rest) = .ok (natDecimal n, rest) := by
  obtain ⟨c, cs, hc⟩ := List.exists_cons_of_ne_nil (natDecimal_ne_nil n)
  have hdigit := natDecimal_digits n c (by simp [hc])
  rw [← span_natDecimal n hrest, hc, List.cons_append]
  simp [scanNumber, hdigit]

theorem bmod_of_int32 {x : Int} (hlo : -2 ^ 31 ≤ x) (hhi : x < 2 ^ 31) :
    x.bmod (2 ^ 32) = x := by
  unfold Int.bmod
  push_cast
  split <;> omega

theorem scanInt_decimal (x : Int) (hlo : -2 ^ 31 ≤ x) (hhi : x < 2 ^ 31)
    (hrest : ∀ r ∈ rest.head?, isDecimalDigit r = false) :
    scanInt ((decimal x).data ++ rest) = .ok (x, rest) := by
  have hfit := bmod_of_int32 hlo hhi
  have hrange : ¬ (x < -2 ^ 63 ∨ 2 ^ 63 ≤ x) := by omega
  have hvalue := digitsValue_natDecimal x.natAbs
  by_cases hx : x < 0
  · have hdata : (decimal x).data ++ rest = '-' :: (natDecimal x.natAbs ++ rest) := by
      simp [decimal, hx]
    have hminus : isSpace '-' = false := by decide
    have habs : -(x.natAbs : Int) = x := by omega
    simp only [scanInt, hdata, skipSpace_of_not_space hminus, notEOF, acceptSign, ok_bind,
      scanNumber_natDecimal _ hrest, parseInt, hvalue, if_true, habs, hrange, if_false, hfit,
      ne_eq, not_true_eq_false, pure_eq_ok]
  · obtain ⟨c, cs, hc, hsp, hsign⟩ := natDecimal_head x.natAbs rest
    have hdata : (decimal x).data ++ rest = c :: (cs ++ rest) := by simp [decimal, hx, hc]
    have hnum : scanNumber (c :: (cs ++ rest)) = .ok (natDecimal x.natAbs, rest) := by
      rw [← List.cons_append, ← hc, scanNumber_natDecimal _ hrest]
    have habs : (x.natAbs : Int) = x := by omega
    have hsign' : ([] : List Char) ≠ ['-'] := by simp
    simp only [scanInt, hdata, skipSpace_of_not_space hsp, notEOF, hsign, ok_bind, hnum,
      parseInt, hvalue, hsign', if_false, habs, hrange, hfit, ne_eq, not_true_eq_false, pure_eq_ok]

theorem decimal_head (x : Int) : ∃ c cs, (decimal x).data = c :: cs ∧ isSpace c = false := by
  by_cases hx : x < 0
  · exact ⟨'-', natDecimal x.natAbs, by simp [decimal, hx], by decide⟩
  · obtain ⟨c, cs, hc, hsp, -⟩ := natDecimal_head x.natAbs []
    exact ⟨c, cs, by simp [decimal, hx, hc], hsp⟩

theorem decimal_length_le {x : Int} (hlo : -2 ^ 31 ≤ x) (hhi : x < 2 ^ 31) :
    (decimal x).data.length ≤ 11 := by
  have habs : x.natAbs < 10 ^ 10 := by omega
  have hdigits := natDecimal_length_le (by norm_num) habs
  simp only [decimal, List.length_append]
  split <;> simp only [List.length_singleton, List.length_nil] <;> omega

theorem skipSpace_decimal (x : Int) :
    skipSpace ((decimal x).data ++ rest) = .ok ((decimal x).data ++ rest) := by
  obtain ⟨c, cs, hc, hsp⟩ := decimal_head x
  rw [hc, List.cons_append, skipSpace_of_not_space hsp]

theorem skipBlanks_decimal (x : Int) :
    skipBlanks ((decimal x).data ++ rest) = (decimal x).data ++ rest := by
  obtain ⟨c, cs, hc, hsp⟩ := decimal_head x
  rw [hc, List.cons_append, skipBlanks_of_not_space hsp]

theorem scanOne_decimal (x : Int) (hlo : -2 ^ 31 ≤ x) (hhi : x < 2 ^ 31)
    (hrest : ∀ r ∈ rest.head?, isDecimalDigit r = false) :
    scanOne .d .int32 ((decimal x).data ++ rest) = .ok (.int32 (BitVec.ofInt 32 x), rest) := by
  simp [scanOne, scanInt_decimal x hlo hhi hrest]

end numeral

end SonmCore.Fmt
