import Mathlib.Algebra.Group.Nat.Basic
import Mathlib.Data.List.Forall2
import SonmCore.Directory

/-!
# Resolving an address given as hex

`Locator.Resolve` takes the address as text.  It refuses a string that
`common.IsHexAddress` rejects, with `invalid ethaddress <s>`, and otherwise looks up
`common.HexToAddress(s)`.  Go reads these strings byte by byte; the model reads runes,
which gives the same answers, since a rune outside ASCII is never a hex digit.

`resolve_hex` says that `Resolve` of forty hex digits, behind `0x`, `0X` or nothing and
in either case, is `getResolve` of their value.  With `hexValue_hexDigitsOf`,
`Resolve` of an address written in hex is `getResolve` of that address, and
`isHexAddress_hexToAddress_iff` reads the other way: a string accepted and read as an
address is one of its spellings.
-/

namespace SonmCore.Directory

/-! ## Hex strings -/

def isHexCharacter (c : Char) : Bool :=
  ('0' ≤ c && c ≤ '9') || ('a' ≤ c && c ≤ 'f') || ('A' ≤ c && c ≤ 'F')

def hasHexPrefix : List Char → Bool
  | '0' :: c :: _ => c == 'x' || c == 'X'
  | _ => false

def isHex (s : List Char) : Bool := s.length % 2 == 0 && s.all isHexCharacter

/-- The digits after a `0x` or `0X` prefix, as `IsHexAddress` and `FromHex` cut it. -/
def hexBody (s : List Char) : List Char := if hasHexPrefix s then s.drop 2 else s

/-- `common.IsHexAddress`: forty hex digits, for the twenty bytes of an address. -/
def isHexAddress (s : String) : Bool :=
  (hexBody s.data).length == 40 && isHex (hexBody s.data)

def hexDigitValue (c : Char) : Nat :=
  if '0' ≤ c ∧ c ≤ '9' then c.toNat - '0'.toNat
  else if 'a' ≤ c ∧ c ≤ 'f' then c.toNat - 'a'.toNat + 10
  else c.toNat - 'A'.toNat + 10

/-- The value of hex digits, most significant first. -/
def hexValue (ds : List Char) : Nat := ds.foldl (fun acc c => 16 * acc + hexDigitValue c) 0

/-- `common.HexToAddress` on a string of hex digits: `FromHex` drops the prefix, pads an
odd count with a leading `0` (which leaves the value as it is) and decodes the digits
into bytes, and `BytesToAddress` keeps the last twenty. -/
def hexToAddress (s : String) : Address := BitVec.ofNat 160 (hexValue (hexBody s.data))

/-! ## `Resolve` -/

structure ResolveRequest where
  ethAddr : String
  deriving DecidableEq, Repr

structure ResolveReply where
  ipAddr : List String
  deriving DecidableEq, Repr

def resolve (db : DB) (req : ResolveRequest) : Except Error ResolveReply :=
  if !isHexAddress req.ethAddr then .error (.text ("invalid ethaddress " ++ req.ethAddr))
  else
    match getResolve db (hexToAddress req.ethAddr) with
    | .ok n => .ok ⟨n.ipAddr⟩
    | .error err => .error err

theorem resolve_of_isHexAddress (db : DB) (req : ResolveRequest)
    (h : isHexAddress req.ethAddr = true) :
    resolve db req = (getResolve db (hexToAddress req.ethAddr)).map fun n => ⟨n.ipAddr⟩ := by
  unfold resolve
  rw [if_neg (by simp [h])]
  cases getResolve db (hexToAddress req.ethAddr) <;> rfl

theorem hasHexPrefix_of_hex {ds : List Char} (h : ∀ c ∈ ds, isHexCharacter c = true) :
    hasHexPrefix ds = false := by
  unfold hasHexPrefix
  split
  · next c rest =>
    have hc := h c (by simp)
    have hx : c ≠ 'x' ∧ c ≠ 'X' := by
      constructor <;> rintro rfl <;> exact absurd hc (by decide)
    simp [hx]
  · rfl

theorem hexBody_prefix {pre ds : List Char}
    (hpre : pre = [] ∨ pre = ['0', 'x'] ∨ pre = ['0', 'X'])
    (h : ∀ c ∈ ds, isHexCharacter c = true) : hexBody (pre ++ ds) = ds := by
  rcases hpre with rfl | rfl | rfl
  · simp [hexBody, hasHexPrefix_of_hex h]
  all_goals simp [hexBody, hasHexPrefix]

/-- `Resolve` of forty hex digits, behind `0x`, `0X` or nothing, is `getResolve` of
their value. -/
theorem resolve_hex (db : DB) (pre digits : List Char)
    (hpre : pre = [] ∨ pre = ['0', 'x'] ∨ pre = ['0', 'X']) (hlen : digits.length = 40)
    (hhex : ∀ c ∈ digits, isHexCharacter c = true) :
    resolve db ⟨⟨pre ++ digits⟩⟩ =
      (getResolve db (BitVec.ofNat 160 (hexValue digits))).map fun n => ⟨n.ipAddr⟩ := by
  have hbody := hexBody_prefix hpre hhex
  have hvalid : isHexAddress ⟨pre ++ digits⟩ = true := by
    simp [isHexAddress, isHex, hbody, hlen, List.all_eq_true.mpr hhex]
  rw [resolve_of_isHexAddress db _ hvalid]
  simp only [hexToAddress, hbody]

/-! ## Writing an address in hex -/

def hexDigitChar (d : Nat) : Char := if d < 10 then Char.ofNat (48 + d) else Char.ofNat (87 + d)

/-- The `k` lowest hex digits of `n`, most significant first, in lower case. -/
def hexDigitsOf : Nat → Nat → List Char
  | 0, _ => []
  | k + 1, n => hexDigitsOf k (n / 16) ++ [hexDigitChar (n % 16)]

theorem hexDigitChar_spec : ∀ d : Fin 16,
    isHexCharacter (hexDigitChar d) = true ∧ hexDigitValue (hexDigitChar d) = d := by
  decide

theorem hexDigitsOf_length : ∀ k n, (hexDigitsOf k n).length = k
  | 0, _ => rfl
  | k + 1, n => by simp [hexDigitsOf, hexDigitsOf_length k]

theorem mem_hexDigitsOf : ∀ {k n : Nat} {c : Char}, c ∈ hexDigitsOf k n →
    ∃ d : Fin 16, c = hexDigitChar d
  | 0, _, _, h => by simp [hexDigitsOf] at h
  | k + 1, n, c, h => by
    simp only [hexDigitsOf, List.mem_append, List.mem_singleton] at h
    rcases h with h | rfl
    · exact mem_hexDigitsOf h
    · exact ⟨⟨n % 16, Nat.mod_lt _ (by decide)⟩, rfl⟩

theorem hexValue_hexDigitsOf : ∀ k n, hexValue (hexDigitsOf k n) = n % 16 ^ k
  | 0, n => (Nat.mod_one n).symm
  | k + 1, n => by
    have hdigit : hexDigitValue (hexDigitChar (n % 16)) = n % 16 :=
      (hexDigitChar_spec ⟨n % 16, Nat.mod_lt _ (by decide)⟩).2
    have hrest := hexValue_hexDigitsOf k (n / 16)
    unfold hexValue at hrest ⊢
    rw [hexDigitsOf, List.foldl_append, List.foldl_cons, List.foldl_nil, hrest, hdigit,
      Nat.pow_succ', Nat.mod_mul]
    exact Nat.add_comm _ _

theorem hexDigitChar_toUpper : ∀ d : Fin 16,
    isHexCharacter (hexDigitChar d).toUpper = true ∧ hexDigitValue (hexDigitChar d).toUpper = d := by
  decide

theorem hexValue_eq_foldl (ds : List Char) :
    hexValue ds = (ds.map hexDigitValue).foldl (fun acc d => 16 * acc + d) 0 :=
  (List.foldl_map _ _ _ _).symm

theorem hexDigits_case : ∀ {ds ds' : List Char}, (∀ c ∈ ds, ∃ d : Fin 16, c = hexDigitChar d) →
    List.Forall₂ (fun c c' => c' = c ∨ c' = c.toUpper) ds ds' →
    ds'.map hexDigitValue = ds.map hexDigitValue ∧ ∀ c ∈ ds', isHexCharacter c = true
  | [], [], _, .nil => by simp
  | c :: _, c' :: _, hds, .cons hcc hrest => by
    obtain ⟨d, rfl⟩ := hds c (List.mem_cons_self _ _)
    obtain ⟨hmap, hhex⟩ := hexDigits_case (fun x hx => hds x (List.mem_cons_of_mem _ hx)) hrest
    have hc' : hexDigitValue c' = d ∧ isHexCharacter c' = true := by
      rcases hcc with rfl | rfl
      · exact ⟨(hexDigitChar_spec d).2, (hexDigitChar_spec d).1⟩
      · exact ⟨(hexDigitChar_toUpper d).2, (hexDigitChar_toUpper d).1⟩
    refine ⟨by simp [hmap, hc'.1, (hexDigitChar_spec d).2], fun x hx => ?_⟩
    rcases List.mem_cons.mp hx with rfl | hx
    · exact hc'.2
    · exact hhex x hx

/-- `Resolve` of an address written as `0x` and its forty hex digits, each letter in
lower or upper case (`Address.Hex()` mixes them as its checksum), is `getResolve` of
that address. -/
theorem resolve_addressHex (db : DB) (a : Address) (digits : List Char)
    (hcase : List.Forall₂ (fun c c' => c' = c ∨ c' = c.toUpper) (hexDigitsOf 40 a.toNat) digits) :
    resolve db ⟨⟨['0', 'x'] ++ digits⟩⟩ = (getResolve db a).map fun n => ⟨n.ipAddr⟩ := by
  obtain ⟨hmap, hhex⟩ := hexDigits_case (fun _ => mem_hexDigitsOf) hcase
  have hvalue : BitVec.ofNat 160 (hexValue digits) = a := by
    apply BitVec.eq_of_toNat_eq
    have hlt : a.toNat < 16 ^ 40 := by simpa using a.isLt
    rw [hexValue_eq_foldl, hmap, ← hexValue_eq_foldl, hexValue_hexDigitsOf, Nat.mod_eq_of_lt hlt,
      BitVec.toNat_ofNat, Nat.mod_eq_of_lt a.isLt]
  rw [resolve_hex db _ _ (.inr (.inl rfl)) (by rw [← hcase.length_eq, hexDigitsOf_length]) hhex,
    hvalue]

/-- `0x` and the digits of the address `0xab`, its letters in upper case. -/
theorem resolve_addressHex_upper :
    let db : DB := (∅ : DB).insert 171 ⟨171, ["10.0.0.1:15010"], 0⟩
    let digits := (hexDigitsOf 40 (171 : Address).toNat).map Char.toUpper
    List.Forall₂ (fun c c' => c' = c ∨ c' = c.toUpper) (hexDigitsOf 40 (171 : Address).toNat)
      digits ∧
    resolve db ⟨⟨['0', 'x'] ++ digits⟩⟩ = (getResolve db 171).map fun n => ⟨n.ipAddr⟩ :=
  have hcase := List.forall₂_map_right_iff.mpr (List.forall₂_same.mpr fun _ _ => .inr rfl)
  ⟨hcase, resolve_addressHex _ 171 _ hcase⟩

/-! ## Reading an address back -/

theorem hexCharacter_spelling {c : Char} (h : isHexCharacter c = true) :
    ∃ d : Fin 16, hexDigitValue c = d ∧ (c = hexDigitChar d ∨ c = (hexDigitChar d).toUpper) := by
  have hc := Char.ofNat_toNat c
  have hdigit : ('0' ≤ c ∧ c ≤ '9') ↔ 48 ≤ c.toNat ∧ c.toNat ≤ 57 := Iff.rfl
  have hlower : ('a' ≤ c ∧ c ≤ 'f') ↔ 97 ≤ c.toNat ∧ c.toNat ≤ 102 := Iff.rfl
  have hupper : ('A' ≤ c ∧ c ≤ 'F') ↔ 65 ≤ c.toNat ∧ c.toNat ≤ 70 := Iff.rfl
  have hcase : ∀ d : Fin 6, (hexDigitChar (10 + d)).toUpper = Char.ofNat (65 + d) := by decide
  simp only [isHexCharacter, Bool.or_eq_true, Bool.and_eq_true, decide_eq_true_eq, hdigit,
    hlower, hupper] at h
  simp only [hexDigitValue, hdigit, hlower]
  split_ifs with h1 h2
  · refine ⟨⟨c.toNat - 48, by omega⟩, rfl, .inl ?_⟩
    simp only [hexDigitChar, show c.toNat - 48 < 10 by omega, if_true]
    rw [show 48 + (c.toNat - 48) = c.toNat by omega, hc]
  · refine ⟨⟨c.toNat - 97 + 10, by omega⟩, rfl, .inl ?_⟩
    simp only [hexDigitChar, show ¬ c.toNat - 97 + 10 < 10 by omega, if_false]
    rw [show 87 + (c.toNat - 97 + 10) = c.toNat by omega, hc]
  · refine ⟨⟨c.toNat - 65 + 10, by omega⟩, rfl, .inr ?_⟩
    have := hcase ⟨c.toNat - 65, by omega⟩
    simp only [Nat.add_comm 10] at this
    rw [this, show 65 + (c.toNat - 65) = c.toNat by omega, hc]

theorem hexBody_split (s : List Char) :
    ∃ pre, s = pre ++ hexBody s ∧ (pre = [] ∨ pre = ['0', 'x'] ∨ pre = ['0', 'X']) := by
  unfold hexBody
  split_ifs with hp
  · unfold hasHexPrefix at hp
    split at hp
    · next c rest =>
      refine ⟨['0', c], rfl, ?_⟩
      simp only [Bool.or_eq_true, beq_iff_eq] at hp
      rcases hp with rfl | rfl <;> simp
    · cases hp
  · exact ⟨[], rfl, .inl rfl⟩

theorem hexDigitsOf_mod : ∀ k n, hexDigitsOf k (n % 16 ^ k) = hexDigitsOf k n
  | 0, _ => rfl
  | k + 1, n => by
    rw [hexDigitsOf, hexDigitsOf, Nat.pow_succ', Nat.mod_mul_right_div_self, hexDigitsOf_mod k,
      Nat.mod_mul_right_mod]

/-- Hex digits spell, each letter in either case, the lower-case digits of their value. -/
theorem hexDigits_spelling (ds : List Char) (h : ∀ c ∈ ds, isHexCharacter c = true) :
    List.Forall₂ (fun c c' => c' = c ∨ c' = c.toUpper) (hexDigitsOf ds.length (hexValue ds)) ds := by
  induction ds using List.reverseRecOn with
  | nil => exact .nil
  | append_singleton ds c ih =>
    obtain ⟨d, hd, hcd⟩ := hexCharacter_spelling (h c (by simp))
    have hvalue : hexValue (ds ++ [c]) = d + 16 * hexValue ds := by
      rw [hexValue, List.foldl_append, ← hexValue]
      simp [hd, Nat.add_comm]
    rw [List.length_append, List.length_singleton, hvalue, hexDigitsOf,
      Nat.add_mul_div_left _ _ (by decide), Nat.div_eq_of_lt d.isLt, Nat.zero_add,
      Nat.add_mul_mod_self_left, Nat.mod_eq_of_lt d.isLt]
    exact List.rel_append (ih fun x hx => h x (by simp [hx])) (.cons (hcd.elim (.inl ·) (.inr ·)) .nil)

/-- `IsHexAddress` and `HexToAddress` read exactly the spellings of addresses: a string is
accepted and read as `a` when it is `a`'s forty hex digits, behind `0x`, `0X` or nothing,
each letter in either case, and only then.  With `resolve_of_isHexAddress`, `Resolve`
looks up `a` for exactly these strings. -/
theorem isHexAddress_hexToAddress_iff (s : String) (a : Address) :
    (isHexAddress s = true ∧ hexToAddress s = a) ↔
      ∃ pre digits, s.data = pre ++ digits ∧ (pre = [] ∨ pre = ['0', 'x'] ∨ pre = ['0', 'X']) ∧
        List.Forall₂ (fun c c' => c' = c ∨ c' = c.toUpper) (hexDigitsOf 40 a.toNat) digits := by
  constructor
  · rintro ⟨hvalid, rfl⟩
    simp only [isHexAddress, isHex, Bool.and_eq_true, beq_iff_eq, List.all_eq_true] at hvalid
    obtain ⟨hlen, -, hhex⟩ := hvalid
    have hspell := hexDigits_spelling _ hhex
    rw [hlen, ← hexDigitsOf_mod] at hspell
    obtain ⟨pre, hdata, hpre⟩ := hexBody_split s.data
    refine ⟨pre, _, hdata, hpre, ?_⟩
    simpa [hexToAddress, BitVec.toNat_ofNat] using hspell
  · rintro ⟨pre, digits, hdata, hpre, hcase⟩
    obtain ⟨hmap, hhex⟩ := hexDigits_case (fun _ => mem_hexDigitsOf) hcase
    have hlen : digits.length = 40 := by rw [← hcase.length_eq, hexDigitsOf_length]
    have hbody : hexBody s.data = digits := by rw [hdata, hexBody_prefix hpre hhex]
    refine ⟨by simp [isHexAddress, isHex, hbody, hlen, List.all_eq_true.mpr hhex], ?_⟩
    apply BitVec.eq_of_toNat_eq
    have hlt : a.toNat < 16 ^ 40 := by simpa using a.isLt
    rw [hexToAddress, hbody, hexValue_eq_foldl, hmap, ← hexValue_eq_foldl, hexValue_hexDigitsOf,
      Nat.mod_eq_of_lt hlt, BitVec.toNat_ofNat, Nat.mod_eq_of_lt a.isLt]

end SonmCore.Directory
