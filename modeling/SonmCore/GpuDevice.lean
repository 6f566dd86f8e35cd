import SonmCore.FmtAccept

/-!
# GPU devices and their OpenCL version

`gpu.NewDevice` builds a `sonm.GPUDevice` from a name, a vendor name, a clock
frequency and a memory size, then applies its options in order and stops at the first
that fails.  `WithOpenClDeviceVersion` parses the version string a driver reports,
`OpenCL <major.minor> <vendor-specific information>`, with `fmt.Sscanf`: it fails only
when fewer than two numbers are read, and an error after them is dropped.

On the encoding of a version, `withOpenClDeviceVersion_text` shows that this option
does what `WithOpenClDeviceVersionSpec` does with the two numbers, with or without
the vendor part.  `OpenCLVersionForm` is the whole set of strings the option accepts,
read off `Sscanf` with the lemmas of `FmtAccept`; `Sscanf` reads at most `hugeWid` runes,
and the form is of those.  `NewDevice` succeeds on exactly these strings, with the two
numbers they spell.
-/

namespace SonmCore.Gpu

open SonmCore.Fmt

/-- The fields of `sonm.GPUDevice` this package reads or writes; Go's `uint` is 64 bits
wide. -/
structure GPUDevice where
  name : String
  vendorId : UInt64
  vendorName : String
  maxMemorySize : UInt64
  maxClockFrequency : UInt64
  openCLDeviceVersionMajor : BitVec 32
  openCLDeviceVersionMinor : BitVec 32
  deriving DecidableEq, Repr

/-- An `error` made with `errors.New`. -/
structure DeviceError where
  msg : String
  deriving DecidableEq, Repr

def errMalformedOpenCLVersion : DeviceError := ⟨"malformed OpenCL device version string"⟩

/-- `gpu.Option`: it updates the device in place, and may fail. -/
abbrev DeviceOption := GPUDevice → GPUDevice × Option DeviceError

def withVendorId (id : UInt64) : DeviceOption := fun d => ({ d with vendorId := id }, none)

def withOpenClDeviceVersionSpec (major minor : BitVec 32) : DeviceOption := fun d =>
  ({ d with openCLDeviceVersionMajor := major, openCLDeviceVersionMinor := minor }, none)

/-- The format of `WithOpenClDeviceVersion`. -/
def openCLVersionFormat : List FmtTok := (lexFormat "OpenCL %d.%d %s".data).getD []

theorem openCLVersionFormat_eq : openCLVersionFormat =
    [.lit 'O', .lit 'p', .lit 'e', .lit 'n', .lit 'C', .lit 'L', .space 0 true, .verb .d,
      .lit '.', .verb .d, .space 0 true, .verb .s] := by
  decide

/-- The stores of `Sscanf` through its first two operands, `&d.OpenCLDeviceVersionMajor`
and `&d.OpenCLDeviceVersionMinor`; the third is a local variable. -/
def storeVersion (d : GPUDevice) (vals : List Value) : GPUDevice :=
  { d with
    openCLDeviceVersionMajor :=
      match vals[0]? with
      | some (Value.int32 v) => v
      | _ => d.openCLDeviceVersionMajor
    openCLDeviceVersionMinor :=
      match vals[1]? with
      | some (Value.int32 v) => v
      | _ => d.openCLDeviceVersionMinor }

def withOpenClDeviceVersion (version : String) : DeviceOption := fun d =>
  let (vals, err) := sscanf version openCLVersionFormat [.int32, .int32, .string]
  let d := storeVersion d vals
  if vals.length < 2 then (d, some errMalformedOpenCLVersion)
  else if vals.length = 2 ∧ err.isSome then (d, none)
  else (d, none)

/-- `device`, the `Device` that `NewDevice` returns. -/
structure Device where
  d : GPUDevice
  deriving DecidableEq, Repr

/-- One turn of `NewDevice`'s loop over its options. -/
def applyOption (d : GPUDevice) (option : DeviceOption) : Except DeviceError GPUDevice :=
  match option d with
  | (d, none) => .ok d
  | (_, some err) => .error err

def newDevice (name vendorName : String) (maxClockFrequency maxMemorySize : UInt64)
    (options : List DeviceOption) : Except DeviceError Device := do
  let d ← options.foldlM applyOption
    { name, vendorId := 0, vendorName, maxMemorySize, maxClockFrequency,
      openCLDeviceVersionMajor := 0, openCLDeviceVersionMinor := 0 }
  pure ⟨d⟩

namespace Device

def name (dev : Device) : String := dev.d.name

def vendorId (dev : Device) : UInt64 := dev.d.vendorId

def vendorName (dev : Device) : String := dev.d.vendorName

def maxMemorySize (dev : Device) : UInt64 := dev.d.maxMemorySize

def maxClockFrequency (dev : Device) : UInt64 := dev.d.maxClockFrequency

/-- `int(d.d.GetOpenCLDeviceVersionMajor())`. -/
def openCLDeviceVersionMajor (dev : Device) : Int := dev.d.openCLDeviceVersionMajor.toInt

def openCLDeviceVersionMinor (dev : Device) : Int := dev.d.openCLDeviceVersionMinor.toInt

end Device

/-! ## The version option -/

/-- The option fails exactly when `Sscanf` stores fewer than two numbers: its
`n == 2 && err != nil` branch returns `nil` like the fall-through. -/
theorem withOpenClDeviceVersion_eq (version : String) (d : GPUDevice) :
    withOpenClDeviceVersion version d =
      let vals := (sscanf version openCLVersionFormat [.int32, .int32, .string]).1
      (storeVersion d vals, if vals.length < 2 then some errMalformedOpenCLVersion else none) := by
  simp only [withOpenClDeviceVersion]
  split_ifs <;> rfl

/-- The documented form `OpenCL <major.minor> <vendor-specific information>`, with or
without the vendor part. -/
def openCLVersionText (major minor : Int) (vendor : Option String) : String :=
  "OpenCL " ++ decimal major ++ "." ++ decimal minor ++ (vendor.map (" " ++ ·)).getD ""

theorem int32_toInt_range (x : BitVec 32) : -2 ^ 31 ≤ x.toInt ∧ x.toInt < 2 ^ 31 := by
  rw [BitVec.toInt_eq_toNat_bmod]
  have hlo := Int.le_bmod (x := x.toNat) (m := 2 ^ 32) (by norm_num)
  have hhi := Int.bmod_lt (x := x.toNat) (m := 2 ^ 32) (by norm_num)
  constructor <;> omega

theorem ofInt_int32_toInt (x : BitVec 32) : BitVec.ofInt 32 x.toInt = x := by
  apply BitVec.eq_of_toInt_eq
  rw [BitVec.toInt_ofInt, BitVec.toInt_eq_toNat_bmod, Int.bmod_bmod]

theorem sscanf_openCLVersionText (major minor : Int) (vendor : Option String)
    (hmajor : -2 ^ 31 ≤ major ∧ major < 2 ^ 31) (hminor : -2 ^ 31 ≤ minor ∧ minor < 2 ^ 31) :
    [.int32 (BitVec.ofInt 32 major), .int32 (BitVec.ofInt 32 minor)] <+:
      (sscanf (openCLVersionText major minor vendor) openCLVersionFormat
        [.int32, .int32, .string]).1 := by
  let tail := ((vendor.map (" " ++ ·)).getD "").data
  have htail : ∀ r ∈ tail.head?, isDecimalDigit r = false := by
    cases vendor with
    | none => simp [tail]
    | some v =>
      intro r hr
      have : r = ' ' := by simpa [tail] using hr.symm
      subst this
      decide
  -- the two numbers end within the runes `Sscanf` reads
  have hlen : ('O' :: 'p' :: 'e' :: 'n' :: 'C' :: 'L' :: ' ' ::
      ((decimal major).data ++ '.' :: (decimal minor).data)).length < hugeWid := by
    have := decimal_length_le hmajor.1 hmajor.2
    have := decimal_length_le hminor.1 hminor.2
    simp only [List.length_cons, List.length_append, hugeWid]
    omega
  obtain ⟨rest, htake, hhead⟩ := take_hugeWid_append (r := tail) hlen
  have hrest : ∀ r ∈ rest.head?, isDecimalDigit r = false := hhead ▸ htail
  have hdot : ∀ r ∈ ('.' :: ((decimal minor).data ++ rest)).head?, isDecimalDigit r = false := by
    intro r hr
    cases hr
    decide
  have hdata : (openCLVersionText major minor vendor).data.take hugeWid =
      'O' :: 'p' :: 'e' :: 'n' :: 'C' :: 'L' :: ' ' ::
        ((decimal major).data ++ '.' :: ((decimal minor).data ++ rest)) := by
    have : (openCLVersionText major minor vendor).data = 'O' :: 'p' :: 'e' :: 'n' :: 'C' :: 'L' ::
        ' ' :: ((decimal major).data ++ '.' :: (decimal minor).data) ++ tail := by
      simp [openCLVersionText, tail]
    rw [this, htake]
    simp
  rw [sscanf, hdata, openCLVersionFormat_eq]
  simp only [doScanf_lit]
  rw [doScanf_space (matchSpace_alone_space _), skipBlanks_decimal,
    doScanf_verb (skipSpace_decimal major) rfl (scanOne_decimal major hmajor.1 hmajor.2 hdot),
    List.nil_append, doScanf_lit,
    doScanf_verb (skipSpace_decimal minor) rfl (scanOne_decimal minor hminor.1 hminor.2 hrest)]
  exact doScanf_stored _ _ _

theorem withOpenClDeviceVersion_text (major minor : BitVec 32) (vendor : Option String)
    (d : GPUDevice) :
    withOpenClDeviceVersion (openCLVersionText major.toInt minor.toInt vendor) d =
      withOpenClDeviceVersionSpec major minor d := by
  obtain ⟨more, hmore⟩ := sscanf_openCLVersionText major.toInt minor.toInt vendor
    (int32_toInt_range major) (int32_toInt_range minor)
  rw [withOpenClDeviceVersion_eq]
  simp only [← hmore, storeVersion, withOpenClDeviceVersionSpec, ofInt_int32_toInt]
  simp

theorem withOpenClDeviceVersion_malformed (version : String) (d : GPUDevice)
    (h : ∀ c rest, version.data = ['O', 'p', 'e', 'n', 'C', 'L'] ++ c :: rest →
      isSpace c = false ∨ c = '\n') :
    withOpenClDeviceVersion version d = (d, some errMalformedOpenCLVersion) := by
  have hfmt : openCLVersionFormat = ['O', 'p', 'e', 'n', 'C', 'L'].map .lit ++
      [.space 0 true, .verb .d, .lit '.', .verb .d, .space 0 true, .verb .s] := by
    rw [openCLVersionFormat_eq]; rfl
  -- the runes `Sscanf` reads start the same way
  have hread : ∀ c rest, version.data.take hugeWid = ['O', 'p', 'e', 'n', 'C', 'L'] ++ c :: rest →
      isSpace c = false ∨ c = '\n' := fun c rest htake =>
    h c (rest ++ version.data.drop hugeWid)
      ((List.take_append_drop hugeWid version.data).symm.trans (by rw [htake]; simp))
  have hnone : (sscanf version openCLVersionFormat [.int32, .int32, .string]).1 = [] := by
    rw [sscanf, hfmt]
    by_cases hpre : ['O', 'p', 'e', 'n', 'C', 'L'] <+: version.data.take hugeWid
    · obtain ⟨rest, hrest⟩ := hpre
      rw [← hrest, doScanf_lits]
      cases rest with
      | nil => simp [doScanf, matchSpace, matchNewlines, matchTrailingSpace, skipSpace, scanOne,
          scanInt, notEOF]
      | cons c rest =>
        have hspace : ∃ e, matchSpace 0 true (c :: rest) = .error e := by
          rcases hread c rest hrest.symm with hc | rfl
          · exact ⟨.expectedSpace, by simp [matchSpace, matchNewlines, matchTrailingSpace, hc]⟩
          · have hnl : isSpace '\n' = true := by decide
            exact ⟨.newlineInInput, by simp [matchSpace, matchNewlines, matchTrailingSpace, hnl]⟩
        obtain ⟨e, he⟩ := hspace
        simp [doScanf, he]
    · exact doScanf_lits_mismatch _ _ _ hpre
  rw [withOpenClDeviceVersion_eq]
  simp [hnone, storeVersion]

/-! ## The version strings the option accepts -/

/-- The version strings `WithOpenClDeviceVersion` accepts, as `Sscanf` reads them: the
runes it reads, the first `hugeWid`, are `OpenCL`, one blank at least, a number, `.`, any
blanks, a number, and then anything that does not continue the second number. -/
def OpenCLVersionForm (version : String) (major minor : Int32Token) : Prop :=
  ∃ blanks1 blanks2 rest,
    version.data.take hugeWid = ['O', 'p', 'e', 'n', 'C', 'L'] ++ blanks1 ++ major.text ++
      '.' :: (blanks2 ++ minor.text ++ rest) ∧
    blanks1 ≠ [] ∧ (∀ c ∈ blanks1, isBlank c = true) ∧ (∀ c ∈ blanks2, isBlank c = true) ∧
    ∀ c ∈ rest.head?, isDecimalDigit c = false

theorem openCLVersionFormat_split : openCLVersionFormat =
    ['O', 'p', 'e', 'n', 'C', 'L'].map .lit ++
      [.space 0 true, .verb .d, .lit '.', .verb .d, .space 0 true, .verb .s] := by
  rw [openCLVersionFormat_eq]; rfl

theorem scanOne_token (tok : Int32Token) {rest : List Char}
    (hrest : ∀ c ∈ rest.head?, isDecimalDigit c = false) :
    skipSpace (tok.text ++ rest) = .ok (tok.text ++ rest) ∧
      scanOne .d .int32 (tok.text ++ rest) = .ok (.int32 (BitVec.ofInt 32 tok.value), rest) :=
  ⟨skipSpace_eq_ok_iff.mpr ⟨[], rfl, by simp, tok.head_not_space rest⟩,
    scanOne_d_int32_eq_ok_iff.mpr
      ⟨tok.value, scanInt_eq_ok_iff.mpr ⟨[], tok, rfl, by simp, hrest, rfl⟩, rfl⟩⟩

/-- `Sscanf` stores the two numbers of every string of the form. -/
theorem sscanf_of_openCLVersionForm {version : String} {major minor : Int32Token}
    (h : OpenCLVersionForm version major minor) :
    [.int32 (BitVec.ofInt 32 major.value), .int32 (BitVec.ofInt 32 minor.value)] <+:
      (sscanf version openCLVersionFormat [.int32, .int32, .string]).1 := by
  obtain ⟨b1, b2, rest, hdata, hne, hb1, hb2, hrest⟩ := h
  have hdot : ∀ c ∈ ('.' :: (b2 ++ minor.text ++ rest)).head?, isDecimalDigit c = false := by
    intro c hc
    cases hc
    decide
  have hhead : ∀ c ∈ (major.text ++ '.' :: (b2 ++ minor.text ++ rest)).head?,
      isBlank c = false := fun c hc => by
    simp [isBlank, major.head_not_space _ c hc]
  have hspace := matchSpace_alone_eq_ok_iff.mpr (.inr ⟨b1, hne, rfl, hb1, hhead⟩)
  have hskip2 : skipSpace (b2 ++ minor.text ++ rest) = .ok (minor.text ++ rest) :=
    skipSpace_eq_ok_iff.mpr ⟨b2, List.append_assoc _ _ _, hb2, minor.head_not_space rest⟩
  rw [sscanf, hdata, openCLVersionFormat_split, List.append_assoc, List.append_assoc,
    doScanf_lits, doScanf_space hspace, doScanf_verb (scanOne_token major hdot).1 rfl
      (scanOne_token major hdot).2, List.nil_append, doScanf_lit,
    doScanf_verb hskip2 rfl (scanOne_token minor hrest).2]
  exact doScanf_stored _ _ _

/-- Every string on which `Sscanf` stores two numbers has the form. -/
theorem openCLVersionForm_of_sscanf {version : String}
    (h : 2 ≤ (sscanf version openCLVersionFormat [.int32, .int32, .string]).1.length) :
    ∃ major minor, OpenCLVersionForm version major minor := by
  rw [sscanf, openCLVersionFormat_split] at h
  unfold OpenCLVersionForm
  generalize version.data.take hugeWid = input at h ⊢
  by_cases hpre : ['O', 'p', 'e', 'n', 'C', 'L'] <+: input
  swap
  · rw [doScanf_lits_mismatch _ _ _ hpre] at h
    simp at h
  obtain ⟨in1, hin1⟩ := hpre
  rw [← hin1, doScanf_lits] at h
  rcases doScanf_space_cases 0 true _ in1 with h0 | ⟨in2, hm, heq⟩
  · rw [h0] at h
    simp at h
  rw [heq] at h
  rcases doScanf_verb_cases .d _ in2 with h0 | ⟨in3, t, v1, in4, hskip1, ht1, hscan1, heq⟩
  · rw [h0] at h
    simp at h
  rw [heq] at h
  obtain rfl : Target.int32 = t := Option.some.inj ht1
  rcases doScanf_lit_cases '.' _ in4 with h0 | ⟨in5, rfl, heq⟩
  · rw [h0] at h
    simp at h
  rw [heq] at h
  rcases doScanf_verb_cases .d _ in5 with h0 | ⟨in6, t', v2, in7, hskip2, ht2, hscan2, -⟩
  · rw [h0] at h
    simp at h
  obtain rfl : Target.int32 = t' := Option.some.inj ht2
  obtain ⟨i1, hi1, -⟩ := scanOne_d_int32_eq_ok_iff.mp hscan1
  obtain ⟨s1, major, hin3, hs1, -, -⟩ := scanInt_eq_ok_iff.mp hi1
  obtain ⟨i2, hi2, -⟩ := scanOne_d_int32_eq_ok_iff.mp hscan2
  obtain ⟨s2, minor, hin6, hs2, hrest, -⟩ := scanInt_eq_ok_iff.mp hi2
  obtain ⟨s0, hin2, hs0, -⟩ := skipSpace_eq_ok_iff.mp hskip1
  obtain ⟨s0', hin5, hs0', -⟩ := skipSpace_eq_ok_iff.mp hskip2
  rcases matchSpace_alone_eq_ok_iff.mp hm with ⟨rfl, rfl⟩ | ⟨b, hbne, hin1', hb, -⟩
  · obtain ⟨-, rfl⟩ := List.append_eq_nil.mp hin2.symm
    have hlen := congrArg List.length hin3
    have htext : major.text ≠ [] := by simp [Int32Token.text, major.digits_ne_nil]
    simp only [List.length_nil, List.length_append] at hlen
    exact absurd (List.length_eq_zero.mp (by omega)) htext
  · refine ⟨major, minor, b ++ s0 ++ s1, s0' ++ s2, in7, ?_, by simp [hbne], ?_, ?_, hrest⟩
    · rw [← hin1, hin1', hin2, hin3, hin5, hin6]
      simp only [List.append_assoc, List.cons_append]
    · simpa [or_imp, forall_and] using ⟨hb, hs0, hs1⟩
    · simpa [or_imp, forall_and] using ⟨hs0', hs2⟩

theorem withOpenClDeviceVersion_of_form {version : String} {major minor : Int32Token}
    (h : OpenCLVersionForm version major minor) (d : GPUDevice) :
    withOpenClDeviceVersion version d =
      withOpenClDeviceVersionSpec (BitVec.ofInt 32 major.value) (BitVec.ofInt 32 minor.value) d := by
  obtain ⟨more, hmore⟩ := sscanf_of_openCLVersionForm h
  rw [withOpenClDeviceVersion_eq]
  simp only [← hmore, storeVersion, withOpenClDeviceVersionSpec]
  simp

theorem withOpenClDeviceVersion_rejects {version : String}
    (h : ¬ ∃ major minor, OpenCLVersionForm version major minor) (d : GPUDevice) :
    ∃ d', withOpenClDeviceVersion version d = (d', some errMalformedOpenCLVersion) := by
  have hlt : (sscanf version openCLVersionFormat [.int32, .int32, .string]).1.length < 2 :=
    Nat.lt_of_not_le fun h2 => h (openCLVersionForm_of_sscanf h2)
  rw [withOpenClDeviceVersion_eq]
  dsimp only
  rw [if_pos hlt]
  exact ⟨_, rfl⟩

/-! ## `NewDevice` -/

theorem newDevice_of_options (name vendorName : String) (maxClockFrequency maxMemorySize : UInt64)
    (options : List DeviceOption) :
    newDevice name vendorName maxClockFrequency maxMemorySize options =
      (options.foldlM applyOption
        { name, vendorId := 0, vendorName, maxMemorySize, maxClockFrequency,
          openCLDeviceVersionMajor := 0, openCLDeviceVersionMinor := 0 }).map Device.mk := by
  unfold newDevice
  cases options.foldlM applyOption _ <;> rfl

/-- `NewDevice` with `WithOpenClDeviceVersion` of an encoded version succeeds, and the
device reports the two numbers encoded. -/
theorem newDevice_openCLVersionText (name vendorName : String)
    (maxClockFrequency maxMemorySize : UInt64) (major minor : BitVec 32) (vendor : Option String) :
    ∃ dev, newDevice name vendorName maxClockFrequency maxMemorySize
        [withOpenClDeviceVersion (openCLVersionText major.toInt minor.toInt vendor)] = .ok dev ∧
      dev.openCLDeviceVersionMajor = major.toInt ∧ dev.openCLDeviceVersionMinor = minor.toInt := by
  refine ⟨⟨⟨name, 0, vendorName, maxMemorySize, maxClockFrequency, major, minor⟩⟩, ?_, rfl, rfl⟩
  simp only [newDevice_of_options, List.foldlM_cons, List.foldlM_nil, applyOption,
    withOpenClDeviceVersion_text, withOpenClDeviceVersionSpec]
  rfl

/-- `NewDevice` with `WithOpenClDeviceVersion` of a string that does not start with
`OpenCL` and a space fails with `errMalformedOpenCLVersion`, whatever options follow. -/
theorem newDevice_malformed (name vendorName : String) (maxClockFrequency maxMemorySize : UInt64)
    (version : String) (options : List DeviceOption)
    (h : ∀ c rest, version.data = ['O', 'p', 'e', 'n', 'C', 'L'] ++ c :: rest →
      isSpace c = false ∨ c = '\n') :
    newDevice name vendorName maxClockFrequency maxMemorySize
      (withOpenClDeviceVersion version :: options) = .error errMalformedOpenCLVersion := by
  simp [newDevice_of_options, applyOption, withOpenClDeviceVersion_malformed version _ h]
  rfl

/-- `OpenCL1.2`, with no space after `OpenCL`. -/
theorem newDevice_malformed_no_space :
    (∀ c rest, "OpenCL1.2".data = ['O', 'p', 'e', 'n', 'C', 'L'] ++ c :: rest →
      isSpace c = false ∨ c = '\n') ∧
    newDevice "GeForce" "NVIDIA" 1500 8 [withOpenClDeviceVersion "OpenCL1.2"] =
      .error errMalformedOpenCLVersion :=
  have h : ∀ c rest, "OpenCL1.2".data = ['O', 'p', 'e', 'n', 'C', 'L'] ++ c :: rest →
      isSpace c = false ∨ c = '\n' := by
    intro c rest hdata
    change ['O', 'p', 'e', 'n', 'C', 'L', '1', '.', '2'] = _ at hdata
    simp only [List.cons_append, List.nil_append, List.cons.injEq, true_and] at hdata
    obtain ⟨rfl, -⟩ := hdata
    exact .inl (by decide)
  ⟨h, newDevice_malformed "GeForce" "NVIDIA" 1500 8 "OpenCL1.2" [] h⟩

theorem newDevice_one (name vendorName : String) (maxClockFrequency maxMemorySize : UInt64)
    (option : DeviceOption) :
    newDevice name vendorName maxClockFrequency maxMemorySize [option] =
      (applyOption ⟨name, 0, vendorName, maxMemorySize, maxClockFrequency, 0, 0⟩ option).map
        Device.mk := by
  rw [newDevice_of_options]
  show Except.map Device.mk (applyOption _ option >>= fun d => List.foldlM applyOption d []) = _
  cases applyOption ⟨name, 0, vendorName, maxMemorySize, maxClockFrequency, 0, 0⟩ option <;> rfl

theorem toInt_ofInt_value (tok : Int32Token) : (BitVec.ofInt 32 tok.value).toInt = tok.value := by
  rw [BitVec.toInt_ofInt]
  exact (bmod_eq_self_iff _).mpr tok.fits

/-- `NewDevice` with `WithOpenClDeviceVersion` builds a device exactly for the version
strings of `OpenCLVersionForm`, whose first `hugeWid` runes follow the grammar, and that
device reports the two numbers of the string; on every other string it fails with
`errMalformedOpenCLVersion`. -/
theorem newDevice_openCLVersion (name vendorName : String)
    (maxClockFrequency maxMemorySize : UInt64) (version : String) :
    (∀ dev, newDevice name vendorName maxClockFrequency maxMemorySize
        [withOpenClDeviceVersion version] = .ok dev ↔
      ∃ major minor, OpenCLVersionForm version major minor ∧
        dev = ⟨⟨name, 0, vendorName, maxMemorySize, maxClockFrequency,
          BitVec.ofInt 32 major.value, BitVec.ofInt 32 minor.value⟩⟩ ∧
        dev.openCLDeviceVersionMajor = major.value ∧
        dev.openCLDeviceVersionMinor = minor.value) ∧
    ((¬ ∃ major minor, OpenCLVersionForm version major minor) →
      newDevice name vendorName maxClockFrequency maxMemorySize
        [withOpenClDeviceVersion version] = .error errMalformedOpenCLVersion) := by
  by_cases hacc : ∃ major minor, OpenCLVersionForm version major minor
  · obtain ⟨major, minor, hf⟩ := hacc
    refine ⟨fun dev => ⟨fun h => ?_, ?_⟩, fun hno => absurd ⟨major, minor, hf⟩ hno⟩
    · rw [newDevice_one, applyOption, withOpenClDeviceVersion_of_form hf] at h
      cases h
      exact ⟨major, minor, hf, rfl, toInt_ofInt_value major, toInt_ofInt_value minor⟩
    · rintro ⟨major', minor', hf', rfl, -, -⟩
      rw [newDevice_one, applyOption, withOpenClDeviceVersion_of_form hf']
      rfl
  · obtain ⟨d', hd'⟩ := withOpenClDeviceVersion_rejects hacc
      ⟨name, 0, vendorName, maxMemorySize, maxClockFrequency, 0, 0⟩
    have hfail : newDevice name vendorName maxClockFrequency maxMemorySize
        [withOpenClDeviceVersion version] = .error errMalformedOpenCLVersion := by
      rw [newDevice_one, applyOption, hd']
      rfl
    refine ⟨fun dev => ⟨fun h => ?_, fun ⟨major, minor, hf, _⟩ => absurd ⟨major, minor, hf⟩ hacc⟩,
      fun _ => hfail⟩
    rw [hfail] at h
    cases h

/-- `Sscanf` skips blanks before the second number as well. -/
example : newDevice "GeForce" "NVIDIA" 1500 8 [withOpenClDeviceVersion "OpenCL 1. 2"] =
    .ok ⟨⟨"GeForce", 0, "NVIDIA", 8, 1500, 1, 2⟩⟩ := rfl

/-- A minor version past `int32` is refused. -/
example : newDevice "GeForce" "NVIDIA" 1500 8 [withOpenClDeviceVersion "OpenCL 1.99999999999"] =
    .error errMalformedOpenCLVersion := rfl

end SonmCore.Gpu
