import SantaIWish.Library.Patterns

/-!
# The password check

The regular expression of `isPasswordValid`, the same in the two screens that
have it. Its `\d` is the ICU class, which holds the decimal digits of every
script, and its first lookahead asks for a lower-case letter. No lookahead asks
for a digit, although the message of `validateFields` promises one.
-/

namespace SantaIWish
set_option autoImplicit false

/-! ## Character classes -/

def inRange (low high : Char) (c : Char) : Bool := low.toNat ≤ c.toNat && c.toNat ≤ high.toNat

/-- `[a-z]` -/
def isLowercase : Char → Bool := inRange 'a' 'z'

/-- `[A-Z]` -/
def isUppercase : Char → Bool := inRange 'A' 'Z'

def isAsciiDigit : Char → Bool := inRange '0' '9'

/-- `[$@$#!%*?&]` -/
def isSpecial (c : Char) : Bool := "$@$#!%*?&".toList.contains c

/-- The zeros of the scripts other than ASCII, in Unicode 12; the nine digits follow each of them. -/
def scriptZeros : List Nat :=
  [0x660, 0x6F0, 0x7C0, 0x966, 0x9E6, 0xA66, 0xAE6, 0xB66, 0xBE6, 0xC66, 0xCE6, 0xD66, 0xDE6, 0xE50,
    0xED0, 0xF20, 0x1040, 0x1090, 0x17E0, 0x1810, 0x1946, 0x19D0, 0x1A80, 0x1A90, 0x1B50, 0x1BB0,
    0x1C40, 0x1C50, 0xA620, 0xA8D0, 0xA900, 0xA9D0, 0xA9F0, 0xAA50, 0xABF0, 0xFF10, 0x104A0, 0x10D30,
    0x11066, 0x110F0, 0x11136, 0x111D0, 0x112F0, 0x11450, 0x114D0, 0x11650, 0x116C0, 0x11730, 0x118E0,
    0x11C50, 0x11D50, 0x11DA0, 0x16A60, 0x16B50, 0x1D7CE, 0x1D7D8, 0x1D7E2, 0x1D7EC, 0x1D7F6, 0x1E140,
    0x1E2F0, 0x1E950]

def isScriptDigit (c : Char) : Bool :=
  scriptZeros.any fun z => z ≤ c.toNat && c.toNat ≤ z + 9

/-- `\d`, the decimal digits of Unicode. -/
def isDecimalDigit (c : Char) : Bool := isAsciiDigit c || isScriptDigit c

/-- `[A-Za-z\d$@$#!%*?&]` -/
def isPasswordCharacter (c : Char) : Bool :=
  isUppercase c || isLowercase c || isDecimalDigit c || isSpecial c

/-- The characters that end a line, which `.` does not match. -/
def lineTerminators : List Nat := [0xA, 0xB, 0xC, 0xD, 0x85, 0x2028, 0x2029]

/-- `.` -/
def isAny (c : Char) : Bool := !lineTerminators.contains c.toNat

/-! ## The check -/

/-- `^(?=.*[a-z])(?=.*[$@$#!%*?&])[A-Za-z\d$@$#!%*?&]{8,}` -/
def passwordPattern : Pattern Char :=
  .seq .start (.seq (.ahead (.seq (.atLeast 0 isAny) (.one isLowercase)))
    (.seq (.ahead (.seq (.atLeast 0 isAny) (.one isSpecial))) (.atLeast 8 isPasswordCharacter)))

def isPasswordValid (password : String) : Bool := passwordPattern.matchesWhole password.toList

/-! ## What is promised -/

/-- A-Z, a-z, 0-9 and the special characters. -/
def inAlphabet (c : Char) : Bool := isUppercase c || isLowercase c || isAsciiDigit c || isSpecial c

def isLetter (c : Char) : Bool := isUppercase c || isLowercase c

/-- At least 8 characters, a letter, a special character and a number. -/
structure MeetsRequirements (cs : List Char) : Prop where
  long : 8 ≤ cs.length
  letter : ∃ c ∈ cs, isLetter c = true
  special : ∃ c ∈ cs, isSpecial c = true
  digit : ∃ c ∈ cs, isAsciiDigit c = true

def ChecksAsPromised (p : String) : Prop :=
  ((∀ c ∈ p.toList, inAlphabet c = true) →
      (isPasswordValid p = true ↔ MeetsRequirements p.toList)) ∧
    ((∃ c ∈ p.toList, inAlphabet c = false) → isPasswordValid p = false)

/-! ## What is accepted -/

theorem isAny_of_isPasswordCharacter {c : Char} (h : isPasswordCharacter c = true) :
    isAny c = true := by
  by_contra hline
  have hmem : c.toNat ∈ lineTerminators := by simpa [isAny] using hline
  have hnone : ∀ n ∈ lineTerminators, isPasswordCharacter (Char.ofNat n) = false := by decide
  have hc := hnone c.toNat hmem
  rw [Char.ofNat_toNat, h] at hc
  cases hc

structure Accepted (cs : List Char) : Prop where
  characters : ∀ c ∈ cs, isPasswordCharacter c = true
  long : 8 ≤ cs.length
  lowercase : ∃ c ∈ cs, isLowercase c = true
  special : ∃ c ∈ cs, isSpecial c = true

theorem isPasswordValid_iff (p : String) : isPasswordValid p = true ↔ Accepted p.toList := by
  rw [isPasswordValid, Pattern.matchesWhole_iff, passwordPattern, Pattern.mem_rests_seq]
  constructor
  · intro hh
    obtain ⟨s, hstart, hs⟩ := hh
    obtain ⟨_, rfl⟩ := Pattern.mem_rests_start.mp hstart
    obtain ⟨s, hlower, hs⟩ := Pattern.mem_rests_seq.mp hs
    obtain ⟨rfl, _⟩ := Pattern.mem_rests_ahead.mp hlower
    obtain ⟨s, hspecial, hs⟩ := Pattern.mem_rests_seq.mp hs
    obtain ⟨rfl, _⟩ := Pattern.mem_rests_ahead.mp hspecial
    -- the repetition runs to the end, so every character is of the class and the `.` of the
    -- lookaheads stops at none
    obtain ⟨u, hu, hlen, hchars⟩ := Pattern.mem_rests_atLeast.mp hs
    obtain rfl : p.toList = u := by simpa using hu
    have hany : ∀ c ∈ p.toList, isAny c = true := fun c hc => isAny_of_isPasswordCharacter (hchars c hc)
    exact ⟨hchars, hlen, ((Pattern.mem_rests_ahead_contains hany).mp hlower).2,
      ((Pattern.mem_rests_ahead_contains hany).mp hspecial).2⟩
  · intro h
    have hany : ∀ c ∈ p.toList, isAny c = true := fun c hc =>
      isAny_of_isPasswordCharacter (h.characters c hc)
    refine ⟨p.toList, Pattern.mem_rests_start.mpr ⟨rfl, rfl⟩, Pattern.mem_rests_seq.mpr
      ⟨p.toList, (Pattern.mem_rests_ahead_contains hany).mpr ⟨rfl, h.lowercase⟩,
        Pattern.mem_rests_seq.mpr ⟨p.toList, (Pattern.mem_rests_ahead_contains hany).mpr
          ⟨rfl, h.special⟩, Pattern.mem_rests_atLeast.mpr ⟨p.toList, ?_, h.long, h.characters⟩⟩⟩⟩
    simp

/-! ## Digits of other scripts -/

theorem isPasswordCharacter_eq (c : Char) :
    isPasswordCharacter c = (inAlphabet c || isScriptDigit c) := by
  simp only [isPasswordCharacter, inAlphabet, isDecimalDigit]
  cases isUppercase c <;> cases isLowercase c <;> cases isAsciiDigit c <;> cases isScriptDigit c <;>
    cases isSpecial c <;> rfl

theorem toNat_le_of_inAlphabet {c : Char} (h : inAlphabet c = true) : c.toNat ≤ 'z'.toNat := by
  have hz : ∀ d ∈ "$@$#!%*?&".toList, d.toNat ≤ 'z'.toNat := by simp
  simp only [inAlphabet, Bool.or_eq_true] at h
  rcases h with ((h | h) | h) | h
  · have hle : c.toNat ≤ 'Z'.toNat := by simpa using (Bool.and_eq_true_iff.mp h).2
    exact Nat.le_trans hle (by decide)
  · simpa using (Bool.and_eq_true_iff.mp h).2
  · have hle : c.toNat ≤ '9'.toNat := by simpa using (Bool.and_eq_true_iff.mp h).2
    exact Nat.le_trans hle (by decide)
  · exact hz c (List.contains_iff_mem.mp h)

theorem not_inAlphabet_of_isScriptDigit {c : Char} (h : isScriptDigit c = true) :
    inAlphabet c = false := by
  have hlow : ∀ z ∈ scriptZeros, 'z'.toNat < z := by decide
  obtain ⟨z, hz, hc⟩ := List.any_eq_true.mp h
  have hle : z ≤ c.toNat := by simpa using (Bool.and_eq_true_iff.mp hc).1
  by_contra hin
  have hin := toNat_le_of_inAlphabet (by simpa using hin)
  have hlt := hlow z hz
  omega

theorem inAlphabet_of_not_isScriptDigit {c : Char} (h : isPasswordCharacter c = true)
    (hscript : isScriptDigit c = false) : inAlphabet c = true := by
  simpa [isPasswordCharacter_eq, hscript] using h

/-! ## Where the check and the promise part -/

structure Candidate (cs : List Char) : Prop where
  characters : ∀ c ∈ cs, isPasswordCharacter c = true
  long : 8 ≤ cs.length
  special : ∃ c ∈ cs, isSpecial c = true

/-- A lower-case letter is there, but no ASCII digit, or else a digit of another script. -/
structure WronglyAccepted (cs : List Char) : Prop extends Candidate cs where
  lowercase : ∃ c ∈ cs, isLowercase c = true
  digits : (∀ c ∈ cs, isAsciiDigit c = false) ∨ ∃ c ∈ cs, isScriptDigit c = true

/-- The letters are there, but all of them upper-case. -/
structure WronglyRejected (cs : List Char) : Prop extends Candidate cs where
  noScriptDigit : ∀ c ∈ cs, isScriptDigit c = false
  digit : ∃ c ∈ cs, isAsciiDigit c = true
  uppercase : ∃ c ∈ cs, isUppercase c = true
  noLowercase : ∀ c ∈ cs, isLowercase c = false

theorem checksAsPromised_iff_accepted (p : String) : ChecksAsPromised p ↔
    (Accepted p.toList ↔ (∀ c ∈ p.toList, inAlphabet c = true) ∧ MeetsRequirements p.toList) := by
  have houtside : (∃ c ∈ p.toList, inAlphabet c = false) ↔ ¬ ∀ c ∈ p.toList, inAlphabet c = true := by
    simp
  rw [← isPasswordValid_iff, ChecksAsPromised, houtside]
  generalize (∀ c ∈ p.toList, inAlphabet c = true) = hall
  by_cases h : hall
  · simp [h]
  · simp [h]

theorem wronglyAccepted_iff {cs : List Char} : WronglyAccepted cs ↔
    Accepted cs ∧ ¬ ((∀ c ∈ cs, inAlphabet c = true) ∧ MeetsRequirements cs) := by
  constructor
  · intro hwrong
    refine ⟨⟨hwrong.characters, hwrong.long, hwrong.lowercase, hwrong.special⟩, fun hh => ?_⟩
    obtain ⟨hall, hmeets⟩ := hh
    rcases hwrong.digits with hnone | ⟨c, hc, hscript⟩
    · obtain ⟨c, hc, hdigit⟩ := hmeets.digit
      rw [hnone c hc] at hdigit
      cases hdigit
    · have hin := hall c hc
      rw [not_inAlphabet_of_isScriptDigit hscript] at hin
      cases hin
  · intro hh
    obtain ⟨h, hnot⟩ := hh
    refine ⟨⟨h.characters, h.long, h.special⟩, h.lowercase, ?_⟩
    -- with an ASCII digit and no other everything promised is there
    by_contra hdigits
    obtain ⟨hdigit, hscript⟩ := not_or.mp hdigits
    obtain ⟨l, hl, hlower⟩ := h.lowercase
    apply hnot
    constructor
    · intro c hc
      exact inAlphabet_of_not_isScriptDigit (h.characters c hc) (by simpa using fun h => hscript ⟨c, hc, h⟩)
    · exact ⟨h.long, ⟨l, hl, by simp [isLetter, hlower]⟩, h.special, by simpa using hdigit⟩

theorem wronglyRejected_iff {cs : List Char} : WronglyRejected cs ↔
    ¬ Accepted cs ∧ (∀ c ∈ cs, inAlphabet c = true) ∧ MeetsRequirements cs := by
  constructor
  · intro hwrong
    obtain ⟨u, hu, hupper⟩ := hwrong.uppercase
    refine ⟨fun h => ?_, fun c hc => ?_, hwrong.long, ⟨u, hu, by simp [isLetter, hupper]⟩,
      hwrong.special, hwrong.digit⟩
    · obtain ⟨c, hc, hlower⟩ := h.lowercase
      rw [hwrong.noLowercase c hc] at hlower
      cases hlower
    · exact inAlphabet_of_not_isScriptDigit (hwrong.characters c hc) (hwrong.noScriptDigit c hc)
  · intro hh
    obtain ⟨hnot, hall, hmeets⟩ := hh
    have hchars : ∀ c ∈ cs, isPasswordCharacter c = true := by
      intro c hc
      rw [isPasswordCharacter_eq, hall c hc, Bool.true_or]
    have hscript : ∀ c ∈ cs, isScriptDigit c = false := by
      intro c hc
      by_contra hdigit
      have hin := hall c hc
      rw [not_inAlphabet_of_isScriptDigit (by simpa using hdigit)] at hin
      cases hin
    have hnoLower : ∀ c ∈ cs, isLowercase c = false := by
      intro c hc
      by_contra hlower
      exact hnot ⟨hchars, hmeets.long, ⟨c, hc, by simpa using hlower⟩, hmeets.special⟩
    -- so the letter that is there is upper-case
    obtain ⟨l, hl, hletter⟩ := hmeets.letter
    have hupper : isUppercase l = true := by simpa [isLetter, hnoLower l hl] using hletter
    exact ⟨⟨hchars, hmeets.long, hmeets.special⟩, hscript, hmeets.digit, ⟨l, hl, hupper⟩, hnoLower⟩

/-- The check keeps its promise exactly on the passwords that are neither wrongly accepted nor wrongly
rejected. -/
theorem checksAsPromised_iff (p : String) :
    ChecksAsPromised p ↔ ¬ WronglyAccepted p.toList ∧ ¬ WronglyRejected p.toList := by
  rw [checksAsPromised_iff_accepted, wronglyAccepted_iff, wronglyRejected_iff]
  constructor
  · intro h
    exact ⟨fun hh => hh.2 (h.mp hh.1), fun hh => hh.1 (h.mpr hh.2)⟩
  · intro hh
    obtain ⟨hnotAccepted, hnotRejected⟩ := hh
    constructor
    · intro h
      by_contra hnot
      exact hnotAccepted ⟨h, hnot⟩
    · intro h
      by_contra hnot
      exact hnotRejected ⟨hnot, h⟩

/-- Eight characters without a digit pass. -/
theorem password_without_digit_accepted : ¬ ∀ p : String, ChecksAsPromised p := by
  intro h
  have hvalid : isPasswordValid "abcdefg!" = true := by decide
  have hall : ("abcdefg!".toList.all inAlphabet) = true := by decide
  have hnone : ("abcdefg!".toList.any isAsciiDigit) = false := by decide
  obtain ⟨c, hc, hdigit⟩ := (((h "abcdefg!").1 (List.all_eq_true.mp hall)).mp hvalid).digit
  rw [List.any_eq_false] at hnone
  exact hnone c hc hdigit

end SantaIWish
