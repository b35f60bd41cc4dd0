/-!
# Surrogate — characters named by code units

A `\u` escape names a sixteen-bit code unit, and a character beyond the first plane takes a pair of them, a high half
followed by a low half.  `ofUnits` puts the pairs together; half of a pair on its own is no character.
-/
namespace Stencil
namespace Text

def isHigh (unit : Nat) : Bool := 0xD800 ≤ unit && unit < 0xDC00

def isLow (unit : Nat) : Bool := 0xDC00 ≤ unit && unit < 0xE000

/-- The character of a pair of halves. -/
def pair (high low : Nat) : Char := Char.ofNat (0x10000 + (high - 0xD800) * 0x400 + (low - 0xDC00))

/-- Reads code units and whole characters with a high half possibly held back for the low half that must follow it. -/
def assemble : Option Nat → List Nat → Option (List Char)
  | none, [] => some []
  | some _, [] => none
  | none, unit :: rest =>
    if isHigh unit then assemble (some unit) rest
    else if isLow unit then none
    else (assemble none rest).map (Char.ofNat unit :: ·)
  | some high, unit :: rest =>
    if isLow unit then (assemble none rest).map (pair high unit :: ·) else none

/-- The characters that a sequence of code units and whole characters stands for, if no half of a pair stands alone. -/
def ofUnits (units : List Nat) : Option (List Char) := assemble none units

theorem toNat_not_half (c : Char) : isHigh c.toNat = false ∧ isLow c.toNat = false := by
  have h : c.toNat < 0xD800 ∨ (0xDFFF < c.toNat ∧ c.toNat < 0x110000) := by
    rcases c.valid with h | ⟨h1, h2⟩
    · exact Or.inl h
    · exact Or.inr ⟨h1, h2⟩
  simp only [isHigh, isLow, Bool.and_eq_false_iff, decide_eq_false_iff_not]
  omega

/-- **Plain characters stand for themselves.** -/
theorem ofUnits_map_toNat : ∀ s : List Char, ofUnits (s.map Char.toNat) = some s
  | [] => rfl
  | c :: cs => by
    obtain ⟨h1, h2⟩ := toNat_not_half c
    have ih := ofUnits_map_toNat cs
    unfold ofUnits at ih ⊢
    simp [assemble, h1, h2, ih]

end Text
end Stencil
