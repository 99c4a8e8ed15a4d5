import Mathlib.Data.List.Basic

/-!
# Base64 text of a byte string

The encoding `JSONEncoder` and `JSONDecoder` use for `Data`: groups of three
bytes become four symbols, and a last group of one or two bytes is padded.
-/

namespace Base64
set_option autoImplicit false

def alphabet : List Char :=
  "ABCDEFGHIJKLMNOPQRSTUVWXYZabcdefghijklmnopqrstuvwxyz0123456789+/".toList

def symbol (n : Nat) : Char := alphabet.getD n '='

def value (c : Char) : Option Nat :=
  if alphabet.idxOf c < 64 then some (alphabet.idxOf c) else none

theorem value_symbol : ∀ n < 64, value (symbol n) = some n := by decide +kernel

theorem symbol_ne_pad : ∀ n < 64, symbol n ≠ '=' := by decide +kernel

/-! The six-bit groups of three bytes, and the bytes put together from four groups. -/

def group₀ (a : UInt8) : Nat := a.toNat / 4
def group₁ (a b : UInt8) : Nat := a.toNat % 4 * 16 + b.toNat / 16
def group₂ (b c : UInt8) : Nat := b.toNat % 16 * 4 + c.toNat / 64
def group₃ (c : UInt8) : Nat := c.toNat % 64

def byte₀ (x y : Nat) : UInt8 := UInt8.ofNat (x * 4 + y / 16)
def byte₁ (y z : Nat) : UInt8 := UInt8.ofNat (y % 16 * 16 + z / 4)
def byte₂ (z w : Nat) : UInt8 := UInt8.ofNat (z % 4 * 64 + w)

theorem value_group₀ (a : UInt8) : value (symbol (group₀ a)) = some (group₀ a) := by
  have ha := a.toNat_lt
  exact value_symbol _ (by unfold group₀; omega)

theorem value_group₁ (a b : UInt8) : value (symbol (group₁ a b)) = some (group₁ a b) := by
  have ha := a.toNat_lt
  have hb := b.toNat_lt
  exact value_symbol _ (by unfold group₁; omega)

theorem group₂_lt (b c : UInt8) : group₂ b c < 64 := by
  have hb := b.toNat_lt
  have hc := c.toNat_lt
  unfold group₂
  omega

theorem group₃_lt (c : UInt8) : group₃ c < 64 := Nat.mod_lt _ (by decide)

theorem ofNat_eq {a : UInt8} {n : Nat} (h : n = a.toNat) : UInt8.ofNat n = a := by
  subst n
  exact UInt8.ofNat_toNat

theorem byte₀_groups (a b : UInt8) : byte₀ (group₀ a) (group₁ a b) = a := by
  have hb := b.toNat_lt
  exact ofNat_eq (by unfold group₀ group₁; omega)

theorem byte₁_groups (a b c : UInt8) : byte₁ (group₁ a b) (group₂ b c) = b := by
  have hb := b.toNat_lt
  have hc := c.toNat_lt
  exact ofNat_eq (by unfold group₁ group₂; omega)

theorem byte₂_groups (b c : UInt8) : byte₂ (group₂ b c) (group₃ c) = c := by
  have hc := c.toNat_lt
  exact ofNat_eq (by unfold group₂ group₃; omega)

/-! ## The codec -/

def encodeChars : List UInt8 → List Char
  | [] => []
  | [a] => [symbol (group₀ a), symbol (group₁ a 0), '=', '=']
  | [a, b] => [symbol (group₀ a), symbol (group₁ a b), symbol (group₂ b 0), '=']
  | a :: b :: c :: rest =>
      symbol (group₀ a) :: symbol (group₁ a b) :: symbol (group₂ b c) :: symbol (group₃ c) ::
        encodeChars rest

def decodeChars : List Char → Option (List UInt8)
  | [] => some []
  | c₀ :: c₁ :: c₂ :: c₃ :: rest =>
    if c₃ = '=' then
      if rest ≠ [] then none
      else if c₂ = '=' then do
        let x ← value c₀
        let y ← value c₁
        some [byte₀ x y]
      else do
        let x ← value c₀
        let y ← value c₁
        let z ← value c₂
        some [byte₀ x y, byte₁ y z]
    else do
      let x ← value c₀
      let y ← value c₁
      let z ← value c₂
      let w ← value c₃
      let bytes ← decodeChars rest
      some (byte₀ x y :: byte₁ y z :: byte₂ z w :: bytes)
  | _ => none

theorem decodeChars_encodeChars (bytes : List UInt8) :
    decodeChars (encodeChars bytes) = some bytes := by
  induction bytes using encodeChars.induct with
  | case1 => rfl
  | case2 a => simp [encodeChars, decodeChars, value_group₀, value_group₁, byte₀_groups]
  | case3 a b =>
    have hpad := symbol_ne_pad _ (group₂_lt b 0)
    have hz := value_symbol _ (group₂_lt b 0)
    simp [encodeChars, decodeChars, value_group₀, value_group₁, hz, hpad, byte₀_groups,
      byte₁_groups]
  | case4 a b c rest ih =>
    have hpad := symbol_ne_pad _ (group₃_lt c)
    have hz := value_symbol _ (group₂_lt b c)
    have hw := value_symbol _ (group₃_lt c)
    simp [encodeChars, decodeChars, value_group₀, value_group₁, hz, hw, hpad, byte₀_groups,
      byte₁_groups, byte₂_groups, ih]

def encode (bytes : List UInt8) : String := String.ofList (encodeChars bytes)

def decode (s : String) : Option (List UInt8) := decodeChars s.toList

theorem decode_encode (bytes : List UInt8) : decode (encode bytes) = some bytes := by
  simp [decode, encode, decodeChars_encodeChars]

end Base64
