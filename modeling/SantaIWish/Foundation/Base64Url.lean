import Mathlib.Data.List.Basic
import SantaIWish.Foundation.Base64

/-!
# Base64 text for URLs

The same groups with two other symbols, and without padding. The padding comes back from the
length alone, and then the text is the plain one.
-/

namespace Base64
set_option autoImplicit false

/-- `NSDataBase64DecodingIgnoreUnknownCharacters` -/
def decodeIgnoringUnknown (text : List Char) : Option (List UInt8) :=
  decodeChars (text.filter fun c => c = '=' || (value c).isSome)

def toUrl (c : Char) : Char := if c = '/' then '_' else if c = '+' then '-' else c

def encodeUrl (bytes : List UInt8) : List Char :=
  ((encodeChars bytes).filter fun c => c ≠ '=').map toUrl

def fromUrl (text : List Char) : List Char :=
  (text.map fun c => if c = '_' then '/' else c).map fun c => if c = '-' then '+' else c

/-- The length of a text in UTF-16. -/
def utf16Length : List Char → Nat
  | [] => 0
  | c :: text => (if c.val < 0x10000 then 1 else 2) + utf16Length text

/-- At most `n` signs, until the length is a multiple of four. -/
def pad : Nat → List Char → List Char
  | 0, text => text
  | n + 1, text => if utf16Length text % 4 ≠ 0 then pad n (text ++ ['=']) else text

/-! ## Padding -/

theorem utf16Length_append (text text' : List Char) :
    utf16Length (text ++ text') = utf16Length text + utf16Length text' := by
  induction text with
  | nil => exact (Nat.zero_add _).symm
  | cons c text ih => rw [List.cons_append, utf16Length, utf16Length, ih, Nat.add_assoc]

/-- No more than three signs are ever needed. -/
theorem pad_three (text : List Char) : utf16Length (pad 3 text) % 4 = 0 := by
  have hone : utf16Length ['='] = 1 := rfl
  simp only [pad]
  split_ifs
  · exact Nat.eq_zero_of_not_pos (by simp only [utf16Length_append] at *; omega)
  all_goals omega

theorem pad_replicate {n m : Nat} (text : List Char) (hm : m ≤ n) (hfour : m < 4)
    (hlength : (utf16Length text + m) % 4 = 0) : pad n text = text ++ List.replicate m '=' := by
  induction m generalizing n text with
  | zero =>
    rw [List.replicate_zero, List.append_nil]
    cases n with
    | zero => rfl
    | succ n => exact if_neg (not_not.mpr hlength)
  | succ m ih =>
    obtain ⟨n, rfl⟩ := Nat.exists_eq_add_of_lt hm
    have hunpadded : utf16Length text % 4 ≠ 0 := by omega
    have hone : utf16Length (text ++ ['=']) = utf16Length text + 1 := utf16Length_append text ['=']
    rw [pad, if_pos hunpadded, ih _ (Nat.le_add_right m n) (Nat.lt_of_succ_lt hfour) (by omega),
      List.append_assoc, List.replicate_succ]
    rfl

/-! ## Reading what was written -/

theorem symbol_mem : ∀ n < 64, symbol n ∈ alphabet := by decide +kernel

-- as `all`, so that it is the list that is gone through, and not the type of the characters
theorem alphabet_plain : ∀ c ∈ alphabet, c ≠ '=' ∧ (value c).isSome = true ∧ c.val < 0x10000 := by
  have h : alphabet.all (fun c => c ≠ '=' ∧ (value c).isSome = true ∧ c.val < 0x10000) := by
    decide +kernel
  exact fun c hc => of_decide_eq_true (List.all_eq_true.mp h c hc)

theorem alphabet_url : ∀ c ∈ alphabet, toUrl c ≠ '.' ∧ fromUrl [toUrl c] = [c] := by
  have h : alphabet.all (fun c => toUrl c ≠ '.' ∧ fromUrl [toUrl c] = [c]) := by decide +kernel
  exact fun c hc => of_decide_eq_true (List.all_eq_true.mp h c hc)

theorem encodeChars_padded (bytes : List UInt8) : ∃ symbols m,
    encodeChars bytes = symbols ++ List.replicate m '=' ∧ (∀ c ∈ symbols, c ∈ alphabet) ∧ m ≤ 2 ∧
      (symbols.length + m) % 4 = 0 := by
  have hone (a b : UInt8) : symbol (group₁ a b) ∈ alphabet := by
    have ha := a.toNat_lt
    have hb := b.toNat_lt
    exact symbol_mem _ (by unfold group₁; omega)
  have hzero (a : UInt8) : symbol (group₀ a) ∈ alphabet := by
    have ha := a.toNat_lt
    exact symbol_mem _ (by unfold group₀; omega)
  induction bytes using encodeChars.induct with
  | case1 => exact ⟨[], 0, rfl, by simp, Nat.zero_le 2, rfl⟩
  | case2 a =>
    exact ⟨[symbol (group₀ a), symbol (group₁ a 0)], 2, rfl, by simp [hzero, hone],
      Nat.le_refl 2, by simp⟩
  | case3 a b =>
    have htwo := symbol_mem _ (group₂_lt b 0)
    exact ⟨[symbol (group₀ a), symbol (group₁ a b), symbol (group₂ b 0)], 1, rfl,
      by simp [hzero, hone, htwo], Nat.le_succ 1, by simp⟩
  | case4 a b c rest ih =>
    obtain ⟨symbols, m, heq, hmem, hm, hlength⟩ := ih
    have htwo := symbol_mem _ (group₂_lt b c)
    have hthree := symbol_mem _ (group₃_lt c)
    refine ⟨symbol (group₀ a) :: symbol (group₁ a b) :: symbol (group₂ b c) :: symbol (group₃ c) ::
      symbols, m, ?_, ?_, hm, ?_⟩
    · rw [encodeChars, heq]
      rfl
    · simp only [List.forall_mem_cons]
      exact ⟨hzero a, hone a b, htwo, hthree, hmem⟩
    · simp only [List.length_cons]
      omega

theorem utf16Length_of_alphabet {symbols : List Char} (h : ∀ c ∈ symbols, c ∈ alphabet) :
    utf16Length symbols = symbols.length := by
  induction symbols with
  | nil => rfl
  | cons c symbols ih =>
    obtain ⟨hc, hrest⟩ := List.forall_mem_cons.mp h
    have hplain := (alphabet_plain c hc).2.2
    rw [utf16Length, if_pos hplain, ih hrest, List.length_cons, Nat.add_comm]

theorem fromUrl_map_toUrl {symbols : List Char} (h : ∀ c ∈ symbols, c ∈ alphabet) :
    fromUrl (symbols.map toUrl) = symbols := by
  induction symbols with
  | nil => rfl
  | cons c symbols ih =>
    obtain ⟨hc, hrest⟩ := List.forall_mem_cons.mp h
    exact congrArg₂ (· ++ ·) (alphabet_url c hc).2 (ih hrest)

/-- Written for a URL, and read back with what padding the length asks for. -/
theorem decode_encodeUrl (bytes : List UInt8) :
    decodeIgnoringUnknown (pad 3 (fromUrl (encodeUrl bytes))) = some bytes := by
  obtain ⟨symbols, m, heq, hmem, hm, hlength⟩ := encodeChars_padded bytes
  have hsymbols : (encodeChars bytes).filter (fun c => c ≠ '=') = symbols := by
    rw [heq, List.filter_append]
    have hkept : symbols.filter (fun c => c ≠ '=') = symbols :=
      List.filter_eq_self.mpr fun c hc => decide_eq_true (alphabet_plain c (hmem c hc)).1
    rw [hkept]
    simp
  have hpadded : pad 3 (fromUrl (encodeUrl bytes)) = encodeChars bytes := by
    rw [encodeUrl, hsymbols, fromUrl_map_toUrl hmem, heq]
    apply pad_replicate symbols (Nat.le_succ_of_le hm) (by omega)
    rwa [utf16Length_of_alphabet hmem]
  have hknown : (encodeChars bytes).filter (fun c => c = '=' || (value c).isSome) = encodeChars bytes := by
    rw [List.filter_eq_self, heq]
    intro c hc
    rcases List.mem_append.mp hc with hc | hc
    · simp [(alphabet_plain c (hmem c hc)).2.1]
    · simp [List.eq_of_mem_replicate hc]
  rw [hpadded, decodeIgnoringUnknown, hknown, decodeChars_encodeChars]

theorem dot_not_mem_encodeUrl (bytes : List UInt8) : '.' ∉ encodeUrl bytes := by
  intro hdot
  obtain ⟨c, hc, heq⟩ := List.mem_map.mp hdot
  obtain ⟨symbols, m, hencoded, hmem, _⟩ := encodeChars_padded bytes
  obtain ⟨hc, hpad⟩ := List.mem_filter.mp hc
  rw [hencoded] at hc
  rcases List.mem_append.mp hc with hc | hc
  · exact (alphabet_url c (hmem c hc)).1 heq
  · exact absurd (List.eq_of_mem_replicate hc) (of_decide_eq_true hpad)

end Base64
