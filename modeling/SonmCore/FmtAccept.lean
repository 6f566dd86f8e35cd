import SonmCore.FmtScan

/-!
# What a scan accepts

The converse of `FmtScan`: for each reading function, the inputs it accepts and what it
leaves of them.  `skipSpace` takes a run of blanks (spaces other than a newline) that
stops at a rune which is not a space; the lone space of a format takes one blank at
least, or the end of the input; `scanInt` takes blanks, then a sign and the longest run
of digits, of a value that fits an `int32`.  The `doScanf_*_cases` lemmas say all that
one token of the format can do to a scan.
-/

namespace SonmCore.Fmt

/-- A space other than a newline: what `skipBlanks` skips. -/
def isBlank (r : Char) : Bool := isSpace r && r != '\n'

/-- The value `strconv.ParseInt` reads from a sign and digits, before its range checks. -/
def tokenValue (sign digits : List Char) : Int :=
  if sign = ['-'] then -(digitsValue digits : Int) else digitsValue digits

/-- A token `%d` stores into an `int32`: a sign `s.accept` may take, one digit at least,
and a value that fits 32 bits. -/
structure Int32Token where
  sign : List Char
  digits : List Char
  sign_ok : sign = [] ∨ sign = ['+'] ∨ sign = ['-']
  digits_ne_nil : digits ≠ []
  all_digits : ∀ c ∈ digits, isDecimalDigit c = true
  fits : -2 ^ 31 ≤ tokenValue sign digits ∧ tokenValue sign digits < 2 ^ 31

namespace Int32Token

def text (tok : Int32Token) : List Char := tok.sign ++ tok.digits

def value (tok : Int32Token) : Int := tokenValue tok.sign tok.digits

theorem head_not_space (tok : Int32Token) (rest : List Char) :
    ∀ c ∈ (tok.text ++ rest).head?, isSpace c = false := by
  obtain ⟨d, ds, hds⟩ := List.exists_cons_of_ne_nil tok.digits_ne_nil
  have hd : isSpace d = false :=
    isSpace_of_isDecimalDigit (tok.all_digits d (by simp [hds]))
  rcases tok.sign_ok with hs | hs | hs <;> simp [text, hs, hds, hd] <;> decide

end Int32Token

/-! ## Blanks -/

theorem skipBlanks_eq_dropWhile : ∀ l : List Char, skipBlanks l = l.dropWhile isBlank
  | [] => rfl
  | r :: rest => by
    have hcond : (isSpace r && r != '\n') = isBlank r := rfl
    simp only [skipBlanks, hcond, List.dropWhile_cons, skipBlanks_eq_dropWhile rest]

theorem skipBlanks_eq_iff {l out : List Char} :
    skipBlanks l = out ↔ ∃ s, l = s ++ out ∧ (∀ c ∈ s, isBlank c = true) ∧
      ∀ c ∈ out.head?, isBlank c = false := by
  rw [skipBlanks_eq_dropWhile]
  constructor
  · rintro rfl
    obtain ⟨h, hs, hout⟩ := takeWhile_dropWhile_eq_iff.mp ⟨rfl, rfl⟩
    exact ⟨_, h, hs, hout⟩
  · rintro ⟨s, hl, hs, hout⟩
    exact (takeWhile_dropWhile_eq_iff.mpr ⟨hl, hs, hout⟩).2

theorem skipSpace_eq_ok_iff {input out : List Char} :
    skipSpace input = .ok out ↔ ∃ s, input = s ++ out ∧ (∀ c ∈ s, isBlank c = true) ∧
      ∀ c ∈ out.head?, isSpace c = false := by
  constructor
  · intro h
    induction input with
    | nil =>
      simp only [skipSpace, Except.ok.injEq] at h
      subst h
      exact ⟨[], rfl, by simp, by simp⟩
    | cons r rest ih =>
      have hblank : isBlank r = true → skipSpace rest = .ok out →
          ∃ s, r :: rest = s ++ out ∧ (∀ c ∈ s, isBlank c = true) ∧
            ∀ c ∈ out.head?, isSpace c = false := fun hr h' => by
        obtain ⟨s, rfl, hs, hout⟩ := ih h'
        exact ⟨r :: s, rfl, List.forall_mem_cons.mpr ⟨hr, hs⟩, hout⟩
      rw [skipSpace] at h
      by_cases hcr : r = '\r' ∧ rest.head? = some '\n'
      · rw [if_pos hcr] at h
        exact hblank (by rw [hcr.1]; decide) h
      rw [if_neg hcr] at h
      by_cases hnl : r = '\n'
      · rw [if_pos hnl] at h
        cases h
      rw [if_neg hnl] at h
      by_cases hsp : isSpace r = true
      · rw [if_pos hsp] at h
        exact hblank (by simp [isBlank, hsp, hnl]) h
      · rw [if_neg hsp] at h
        cases h
        exact ⟨[], rfl, by simp, by simpa using hsp⟩
  · rintro ⟨s, rfl, hs, hout⟩
    induction s with
    | nil =>
      cases out with
      | nil => rfl
      | cons r rest => exact skipSpace_of_not_space (hout r rfl) rest
    | cons c s ih =>
      obtain ⟨hc, hs'⟩ := List.forall_mem_cons.mp hs
      have hc' : isSpace c = true ∧ c ≠ '\n' := by simpa [isBlank] using hc
      rw [List.cons_append, skipSpace]
      by_cases hcr : c = '\r' ∧ (s ++ out).head? = some '\n'
      · rw [if_pos hcr, ih hs']
      · rw [if_neg hcr, if_neg hc'.2, if_pos hc'.1, ih hs']

theorem matchSpace_alone_eq_ok_iff {input out : List Char} :
    matchSpace 0 true input = .ok out ↔ (input = [] ∧ out = []) ∨
      ∃ s, s ≠ [] ∧ input = s ++ out ∧ (∀ c ∈ s, isBlank c = true) ∧
        ∀ c ∈ out.head?, isBlank c = false := by
  have hmatch : matchSpace 0 true input = matchTrailingSpace true input := rfl
  rw [hmatch]
  cases input with
  | nil =>
    simp only [matchTrailingSpace, Except.ok.injEq]
    constructor
    · rintro rfl
      exact .inl ⟨by simp, rfl⟩
    · rintro (⟨-, rfl⟩ | ⟨s, hne, hin, -⟩)
      · rfl
      · exact absurd (List.append_eq_nil.mp hin.symm).1 hne
  | cons r rest =>
    by_cases hr : isBlank r = true
    · have hsp : isSpace r = true ∧ r ≠ '\n' := by simpa [isBlank] using hr
      have hskip : skipBlanks (r :: rest) = skipBlanks rest := by
        rw [skipBlanks_eq_dropWhile, skipBlanks_eq_dropWhile, List.dropWhile_cons, if_pos hr]
      have hm : matchTrailingSpace true (r :: rest) = .ok (skipBlanks rest) := by
        simp [matchTrailingSpace, hsp.1, hsp.2, hskip]
      rw [hm, Except.ok.injEq, skipBlanks_eq_iff]
      constructor
      · rintro ⟨s, rfl, hs, hout⟩
        refine .inr ⟨r :: s, by simp, rfl, fun c hc => ?_, hout⟩
        rcases List.mem_cons.mp hc with rfl | hc
        · exact hr
        · exact hs c hc
      · rintro (⟨h, -⟩ | ⟨s, hne, hin, hs, hout⟩)
        · cases h
        · obtain ⟨c, s, rfl⟩ := List.exists_cons_of_ne_nil hne
          simp only [List.cons_append, List.cons.injEq] at hin
          exact ⟨s, hin.2, fun x hx => hs x (List.mem_cons_of_mem _ hx), hout⟩
    · have herr : ∃ e, matchTrailingSpace true (r :: rest) = .error e := by
        by_cases hsp : isSpace r = true
        · obtain rfl : r = '\n' := by simpa [isBlank, hsp] using hr
          exact ⟨.newlineInInput, by simp [matchTrailingSpace, hsp]⟩
        · exact ⟨.expectedSpace, by simp [matchTrailingSpace, hsp]⟩
      obtain ⟨e, he⟩ := herr
      rw [he]
      constructor
      · intro h
        cases h
      · rintro (⟨h, -⟩ | ⟨s, hne, hin, hs, -⟩)
        · cases h
        · obtain ⟨c, s, rfl⟩ := List.exists_cons_of_ne_nil hne
          simp only [List.cons_append, List.cons.injEq] at hin
          exact absurd (hin.1 ▸ hs c (by simp)) hr

/-! ## `%d` -/

theorem acceptSign_of_sign {sign l : List Char} (hsign : sign = [] ∨ sign = ['+'] ∨ sign = ['-'])
    (hl : ∀ c ∈ l.head?, isDecimalDigit c = true) : acceptSign (sign ++ l) = (sign, l) := by
  rcases hsign with rfl | rfl | rfl
  · cases l with
    | nil => rfl
    | cons c rest =>
      have hc := hl c rfl
      have hsign : c ≠ '+' ∧ c ≠ '-' := by
        constructor <;> rintro rfl <;> exact absurd hc (by decide)
      unfold acceptSign
      split <;> simp_all
  · rfl
  · rfl

theorem acceptSign_spec (input : List Char) :
    input = (acceptSign input).1 ++ (acceptSign input).2 ∧
      ((acceptSign input).1 = [] ∨ (acceptSign input).1 = ['+'] ∨ (acceptSign input).1 = ['-']) := by
  unfold acceptSign
  split <;> simp

theorem scanNumber_eq_ok_iff {input digits rest : List Char} :
    scanNumber input = .ok (digits, rest) ↔ input = digits ++ rest ∧ digits ≠ [] ∧
      (∀ c ∈ digits, isDecimalDigit c = true) ∧ ∀ c ∈ rest.head?, isDecimalDigit c = false := by
  cases input with
  | nil =>
    simp only [scanNumber, reduceCtorEq, false_iff, not_and]
    intro h hne
    exact absurd (List.append_eq_nil.mp h.symm).1 hne
  | cons r rest' =>
    simp only [scanNumber]
    split_ifs with hr
    · rw [List.span_eq_take_drop, Except.ok.injEq, Prod.mk.injEq, takeWhile_dropWhile_eq_iff]
      constructor
      · rintro ⟨h, hd, hrest⟩
        refine ⟨h, ?_, hd, hrest⟩
        rintro rfl
        simp only [List.nil_append] at h
        subst h
        simp [hr] at hrest
      · rintro ⟨h, -, hd, hrest⟩
        exact ⟨h, hd, hrest⟩
    · simp only [reduceCtorEq, false_iff, not_and]
      intro h hne hd
      obtain ⟨c, ds, rfl⟩ := List.exists_cons_of_ne_nil hne
      simp only [List.cons_append, List.cons.injEq] at h
      exact absurd (h.1 ▸ hd c (by simp)) hr

theorem parseInt_eq_ok_iff {sign digits : List Char} {i : Int} :
    parseInt sign digits = .ok i ↔
      i = tokenValue sign digits ∧ -2 ^ 63 ≤ i ∧ i < 2 ^ 63 := by
  have hdef : parseInt sign digits =
      if tokenValue sign digits < -2 ^ 63 ∨ 2 ^ 63 ≤ tokenValue sign digits then
        .error (.parseIntRange ⟨sign ++ digits⟩) else .ok (tokenValue sign digits) := rfl
  rw [hdef]
  split_ifs with h
  · simp only [reduceCtorEq, false_iff, not_and]
    rintro rfl
    omega
  · rw [Except.ok.injEq]
    constructor
    · rintro rfl
      exact ⟨rfl, by omega⟩
    · rintro ⟨rfl, -⟩
      rfl

theorem bmod_eq_self_iff (i : Int) : i.bmod (2 ^ 32) = i ↔ -2 ^ 31 ≤ i ∧ i < 2 ^ 31 := by
  constructor
  · intro h
    have hlo := Int.le_bmod (x := i) (m := 2 ^ 32) (by norm_num)
    have hhi := Int.bmod_lt (x := i) (m := 2 ^ 32) (by norm_num)
    rw [h] at hlo hhi
    constructor <;> omega
  · exact fun h => bmod_of_int32 h.1 h.2

/-- `%d` into an `int32` takes blanks and one token, up to the first rune that is not a
digit, and reads the token's value. -/
theorem scanInt_eq_ok_iff {input rest : List Char} {i : Int} :
    scanInt input = .ok (i, rest) ↔ ∃ s, ∃ tok : Int32Token, input = s ++ tok.text ++ rest ∧
      (∀ c ∈ s, isBlank c = true) ∧ (∀ c ∈ rest.head?, isDecimalDigit c = false) ∧
      i = tok.value := by
  constructor
  · intro h
    simp only [scanInt, bind_eq_ok_iff] at h
    obtain ⟨in1, h1, -, -, ⟨digits, in3⟩, h2, i', h3, h4⟩ := h
    obtain ⟨s, hin, hs, -⟩ := skipSpace_eq_ok_iff.mp h1
    obtain ⟨hsplit, hsign⟩ := acceptSign_spec in1
    obtain ⟨hin2, hne, hd, hrest⟩ := scanNumber_eq_ok_iff.mp h2
    obtain ⟨hi', -⟩ := parseInt_eq_ok_iff.mp h3
    split_ifs at h4 with hfit
    rw [not_not, bmod_eq_self_iff, hi'] at hfit
    simp only [pure_eq_ok, Except.ok.injEq, Prod.mk.injEq] at h4
    obtain ⟨rfl, rfl⟩ := h4
    refine ⟨s, ⟨_, digits, hsign, hne, hd, hfit⟩, ?_, hs, hrest, hi'⟩
    rw [hin]
    show s ++ in1 = s ++ ((acceptSign in1).1 ++ digits) ++ in3
    rw [List.append_assoc, List.append_assoc, ← hin2, ← hsplit]
  · rintro ⟨s, tok, rfl, hs, hrest, rfl⟩
    have hskip : skipSpace (s ++ tok.text ++ rest) = .ok (tok.text ++ rest) := by
      rw [List.append_assoc]
      exact skipSpace_eq_ok_iff.mpr ⟨s, rfl, hs, tok.head_not_space rest⟩
    obtain ⟨d, ds, hds⟩ := List.exists_cons_of_ne_nil tok.digits_ne_nil
    have hsign : acceptSign (tok.text ++ rest) = (tok.sign, tok.digits ++ rest) := by
      rw [Int32Token.text, List.append_assoc]
      exact acceptSign_of_sign tok.sign_ok fun c hc => by
        simp only [hds, List.cons_append, List.head?_cons, Option.mem_def,
          Option.some.injEq] at hc
        exact hc ▸ tok.all_digits d (by simp [hds])
    have hnonempty : notEOF (tok.text ++ rest) = .ok () := by
      rw [Int32Token.text, hds]
      rcases tok.sign_ok with h | h | h <;> simp [h, notEOF]
    have hfit : tok.value.bmod (2 ^ 32) = tok.value := (bmod_eq_self_iff _).mpr tok.fits
    simp only [scanInt, bind_eq_ok_iff]
    refine ⟨_, hskip, (), hnonempty, (tok.digits, rest), ?_, tok.value, ?_, ?_⟩ <;> rw [hsign]
    · exact scanNumber_eq_ok_iff.mpr ⟨rfl, tok.digits_ne_nil, tok.all_digits, hrest⟩
    · exact parseInt_eq_ok_iff.mpr ⟨rfl, by have := tok.fits; unfold Int32Token.value; omega⟩
    · simp only [ne_eq, hfit, not_true_eq_false, ↓reduceIte, pure_eq_ok]

theorem scanOne_d_int32_eq_ok_iff {input rest : List Char} {val : Value} :
    scanOne .d .int32 input = .ok (val, rest) ↔
      ∃ i, scanInt input = .ok (i, rest) ∧ val = .int32 (BitVec.ofInt 32 i) := by
  unfold scanOne
  cases h : scanInt input with
  | error e => simp
  | ok r =>
    obtain ⟨i, input'⟩ := r
    simp only [ok_bind, pure_eq_ok, Except.ok.injEq, Prod.mk.injEq]
    constructor
    · rintro ⟨rfl, rfl⟩
      exact ⟨i, ⟨rfl, rfl⟩, rfl⟩
    · rintro ⟨i', ⟨rfl, rfl⟩, rfl⟩
      exact ⟨rfl, rfl⟩

/-! ## One token of the format -/

section doScanf

variable {targets : List Target} {stored : List Value}

theorem doScanf_lit_cases (c : Char) (toks : List FmtTok) (input : List Char) :
    (doScanf targets stored (.lit c :: toks) input).1 = stored ∨
      ∃ rest, input = c :: rest ∧
        doScanf targets stored (.lit c :: toks) input = doScanf targets stored toks rest := by
  cases input with
  | nil => exact .inl rfl
  | cons r rest =>
    by_cases h : r = c
    · exact .inr ⟨rest, by rw [h], by rw [h, doScanf_lit]⟩
    · exact .inl (by simp [doScanf, h])

theorem doScanf_space_cases (n : Nat) (t : Bool) (toks : List FmtTok) (input : List Char) :
    (doScanf targets stored (.space n t :: toks) input).1 = stored ∨
      ∃ input', matchSpace n t input = .ok input' ∧
        doScanf targets stored (.space n t :: toks) input = doScanf targets stored toks input' := by
  cases h : matchSpace n t input with
  | error e => exact .inl (by simp [doScanf, h])
  | ok input' => exact .inr ⟨input', rfl, doScanf_space h toks⟩

theorem doScanf_verb_cases (v : Verb) (toks : List FmtTok) (input : List Char) :
    (doScanf targets stored (.verb v :: toks) input).1 = stored ∨
      ∃ input' t val rest, skipSpace input = .ok input' ∧ targets[stored.length]? = some t ∧
        scanOne v t input' = .ok (val, rest) ∧
        doScanf targets stored (.verb v :: toks) input =
          doScanf targets (stored ++ [val]) toks rest := by
  cases h1 : skipSpace input with
  | error e => exact .inl (by simp [doScanf, h1])
  | ok input' =>
    cases h2 : targets[stored.length]? with
    | none => exact .inl (by simp [doScanf, h1, h2])
    | some t =>
      cases h3 : scanOne v t input' with
      | error e => exact .inl (by simp [doScanf, h1, h2, h3])
      | ok r => exact .inr ⟨input', t, r.1, r.2, rfl, rfl, h3, doScanf_verb h1 h2 h3 toks⟩

end doScanf

end SonmCore.Fmt
