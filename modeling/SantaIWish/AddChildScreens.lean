import Mathlib.Data.List.TakeWhile
import SantaIWish.Controller.Screens

/-!
# The two add-child screens

The Objective-C screen adds whatever is typed. The Swift screen it was ported
from adds only when there is a name and the whole age text is a number; then
both read the same number.
-/

namespace SantaIWish
set_option autoImplicit false

/-- Both screens call `addChild` with the same name and age. The Objective-C screen always calls it. -/
def ScreensAgree (id : ObjectID) (name age : String) : Prop :=
  doneButton id name age = some (doneBUtton id name age)

/-- One or more ASCII digits after an optional sign, with a value in the 64-bit range. -/
inductive Int64Text : List Char → Prop
  | negative {ds : List Char} (hne : ds ≠ []) (hdigits : ∀ d ∈ ds, d.isDigit = true)
      (hrange : digitsValue ds ≤ 9223372036854775808) : Int64Text ('-' :: ds)
  | positive {ds : List Char} (hne : ds ≠ []) (hdigits : ∀ d ∈ ds, d.isDigit = true)
      (hrange : digitsValue ds ≤ 9223372036854775807) : Int64Text ('+' :: ds)
  | unsigned {ds : List Char} (hne : ds ≠ []) (hdigits : ∀ d ∈ ds, d.isDigit = true)
      (hrange : digitsValue ds ≤ 9223372036854775807) : Int64Text ds

/-! ## Digits and signs -/

theorem isSpace_of_isDigit {c : Char} (h : c.isDigit = true) : isSpace c = false := by
  have hrange : 48 ≤ c.toNat ∧ c.toNat ≤ 57 := by
    simpa [Char.isDigit, UInt32.le_iff_toNat_le] using h
  simp [isSpace]
  omega

theorem digits?_eq_some {cs : List Char} {n : Nat} :
    digits? cs = some n ↔ cs ≠ [] ∧ (∀ d ∈ cs, d.isDigit = true) ∧ digitsValue cs = n := by
  simp [digits?, and_assoc]

theorem int64?_eq_some {n m : Int} :
    int64? n = some m ↔ (-9223372036854775808 ≤ n ∧ n ≤ 9223372036854775807) ∧ n = m := by
  simp [int64?]

theorem clampInt64_of_range {n : Int} (hlow : -9223372036854775808 ≤ n)
    (hhigh : n ≤ 9223372036854775807) : clampInt64 n = n := by
  unfold clampInt64
  omega

theorem integerValue_negative {s : String} {ds : List Char} (hs : s.toList = '-' :: ds)
    (hdigits : ∀ d ∈ ds, d.isDigit = true) : integerValue s = clampInt64 (-(digitsValue ds : Int)) := by
  have hdrop : ('-' :: ds).dropWhile isSpace = '-' :: ds := List.dropWhile_cons_of_neg (by decide)
  rw [integerValue, hs, hdrop]
  simp only [List.takeWhile_eq_self_iff.mpr hdigits]

theorem integerValue_positive {s : String} {ds : List Char} (hs : s.toList = '+' :: ds)
    (hdigits : ∀ d ∈ ds, d.isDigit = true) : integerValue s = clampInt64 (digitsValue ds) := by
  have hdrop : ('+' :: ds).dropWhile isSpace = '+' :: ds := List.dropWhile_cons_of_neg (by decide)
  rw [integerValue, hs, hdrop]
  simp only [List.takeWhile_eq_self_iff.mpr hdigits]

theorem integerValue_unsigned {s : String} (hne : s.toList ≠ [])
    (hdigits : ∀ d ∈ s.toList, d.isDigit = true) :
    integerValue s = clampInt64 (digitsValue s.toList) := by
  obtain ⟨d, ds, hs⟩ := List.exists_cons_of_ne_nil hne
  have hd : d.isDigit = true := hdigits d (hs ▸ List.mem_cons_self)
  have hdrop : s.toList.dropWhile isSpace = s.toList := by
    rw [hs]
    exact List.dropWhile_cons_of_neg (by simp [isSpace_of_isDigit hd])
  have htake : s.toList.takeWhile Char.isDigit = s.toList := List.takeWhile_eq_self_iff.mpr hdigits
  unfold integerValue
  split
  · rename_i cs hcs
    rw [hdrop] at hcs
    exact absurd (hdigits '-' (hcs ▸ List.mem_cons_self)) (by decide)
  · rename_i cs hcs
    rw [hdrop] at hcs
    exact absurd (hdigits '+' (hcs ▸ List.mem_cons_self)) (by decide)
  · rw [hdrop, htake]

/-! ## What the Swift screen accepts -/

/-- A signed text is read when its digits are some, and the signed value is in range. -/
theorem signedDigits_eq_some {ds : List Char} {sign : Nat → Int} {n : Int} :
    ((digits? ds).bind fun m => int64? (sign m)) = some n ↔
      ds ≠ [] ∧ (∀ d ∈ ds, d.isDigit = true) ∧
      (-9223372036854775808 ≤ sign (digitsValue ds) ∧ sign (digitsValue ds) ≤ 9223372036854775807) ∧
      sign (digitsValue ds) = n := by
  rw [Option.bind_eq_some_iff]
  constructor
  · intro hh
    obtain ⟨m, hm, hn⟩ := hh
    obtain ⟨hne, hdigits, rfl⟩ := digits?_eq_some.mp hm
    exact ⟨hne, hdigits, int64?_eq_some.mp hn⟩
  · intro hh
    obtain ⟨hne, hdigits, hn⟩ := hh
    exact ⟨_, digits?_eq_some.mpr ⟨hne, hdigits, rfl⟩, int64?_eq_some.mpr hn⟩

/-- A text that Swift reads as a number is one, and Objective-C reads the same number. -/
theorem intValue?_spec {s : String} {n : Int} (h : intValue? s = some n) :
    Int64Text s.toList ∧ integerValue s = n := by
  unfold intValue? at h
  split at h
  · rename_i ds hs
    obtain ⟨hne, hdigits, ⟨hlow, hhigh⟩, rfl⟩ := signedDigits_eq_some.mp h
    refine ⟨hs ▸ .negative hne hdigits (by omega), ?_⟩
    rw [integerValue_negative hs hdigits, clampInt64_of_range hlow hhigh]
  · rename_i ds hs
    obtain ⟨hne, hdigits, ⟨hlow, hhigh⟩, rfl⟩ := signedDigits_eq_some.mp h
    refine ⟨hs ▸ .positive hne hdigits (by omega), ?_⟩
    rw [integerValue_positive hs hdigits, clampInt64_of_range hlow hhigh]
  · obtain ⟨hne, hdigits, ⟨hlow, hhigh⟩, rfl⟩ := signedDigits_eq_some.mp h
    refine ⟨.unsigned hne hdigits (by omega), ?_⟩
    rw [integerValue_unsigned hne hdigits, clampInt64_of_range hlow hhigh]

theorem exists_intValue? {s : String} (h : Int64Text s.toList) : ∃ n, intValue? s = some n := by
  generalize hs : s.toList = cs at h
  cases h with
  | @negative ds hne hdigits hrange =>
    simp only [intValue?, hs]
    exact ⟨_, signedDigits_eq_some.mpr ⟨hne, hdigits, by omega, rfl⟩⟩
  | @positive ds hne hdigits hrange =>
    simp only [intValue?, hs]
    exact ⟨_, signedDigits_eq_some.mpr ⟨hne, hdigits, by omega, rfl⟩⟩
  | unsigned hne hdigits hrange =>
    unfold intValue?
    split
    · rename_i ds hcs
      exact absurd (hdigits '-' (hs ▸ hcs ▸ List.mem_cons_self)) (by decide)
    · rename_i ds hcs
      exact absurd (hdigits '+' (hs ▸ hcs ▸ List.mem_cons_self)) (by decide)
    · rw [hs]
      exact ⟨_, signedDigits_eq_some.mpr ⟨hne, hdigits, by omega, rfl⟩⟩

/-- The two screens agree exactly on a name that is not empty and an age that is a 64-bit number. -/
theorem screensAgree_iff (id : ObjectID) (name age : String) :
    ScreensAgree id name age ↔ name ≠ "" ∧ Int64Text age.toList := by
  rw [ScreensAgree, doneButton]
  constructor
  · intro h
    split at h
    · rename_i hname
      split at h
      · obtain ⟨n, hn, _⟩ := Option.map_eq_some_iff.mp h
        exact ⟨hname, (intValue?_spec hn).1⟩
      · cases h
    · cases h
  · intro hh
    obtain ⟨hname, hage⟩ := hh
    have hne : age ≠ "" := by
      rintro rfl
      obtain ⟨n, hn⟩ := exists_intValue? hage
      cases hn
    obtain ⟨n, hn⟩ := exists_intValue? hage
    rw [if_pos hname, if_pos hne, hn, Option.map_some, doneBUtton, (intValue?_spec hn).2]

/-- The Objective-C screen adds a child without a name. -/
theorem empty_name_disagrees : ¬ ∀ (id : ObjectID) (name age : String), ScreensAgree id name age := by
  intro h
  have hno : doneButton 0 "" "7" = none := rfl
  have hsome := h 0 "" "7"
  rw [ScreensAgree, hno] at hsome
  cases hsome

end SantaIWish
